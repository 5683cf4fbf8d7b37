import Ocellus.Base.Fault

/-!
# Bytes and machine words

Words are `BitVec`s; a byte string is a list of bytes, and a `Vec<u8>` one that
fits in the address space. `u16::from_be_bytes([a, b])` is the concatenation
`a ++ b`, so that big-endian round trips are facts about `BitVec` append.
-/

namespace Ocellus

abbrev U8 := BitVec 8
abbrev U16 := BitVec 16
abbrev U32 := BitVec 32

/-- A byte string (`&[u8]`). -/
abbrev Bytes := List U8

/-- `isize::MAX`, the largest size of any Rust allocation. -/
def isizeMax : Nat := 2 ^ 63 - 1

/-- A `Vec<u8>`: a byte string no longer than `isize::MAX`. -/
structure ByteVec where
  bytes : Bytes
  length_le : bytes.length ≤ isizeMax

/-- `v.get(lo..)`. -/
def getFrom (v : Bytes) (lo : Nat) : Option Bytes := if lo ≤ v.length then some (v.drop lo) else none

@[simp] theorem getFrom_append (a b : Bytes) : getFrom (a ++ b) a.length = some b := by
  simp [getFrom]

/-- `u16::from_be_bytes([hi, lo])`. -/
def fromBeBytes (hi lo : U8) : U16 := hi ++ lo

/-- `x.to_be_bytes()` of a `u16`. -/
def toBeBytes (x : U16) : Bytes := [x.extractLsb' 8 8, x.extractLsb' 0 8]

@[simp] theorem toBeBytes_length (x : U16) : (toBeBytes x).length = 2 := rfl

/-- Decoding undoes encoding. -/
@[simp] theorem fromBeBytes_toBeBytes (x : U16) :
    fromBeBytes (x.extractLsb' 8 8) (x.extractLsb' 0 8) = x := by
  unfold fromBeBytes
  rw [BitVec.extractLsb'_append_extractLsb'_eq_extractLsb' (by decide)]
  exact BitVec.extractLsb'_eq_self

/-- Masking all but the low `k` bits compares the rest. -/
theorem and_allOnes_shl_eq_iff {w : Nat} (x y : BitVec w) (k : Nat) :
    x &&& (~~~0#w <<< k) = y &&& (~~~0#w <<< k) ↔ x >>> k = y >>> k := by
  constructor
  · intro h
    refine BitVec.eq_of_getLsbD_eq fun i hi => ?_
    rw [BitVec.getLsbD_ushiftRight, BitVec.getLsbD_ushiftRight]
    have hbit := congrArg (fun v => v.getLsbD (k + i)) h
    by_cases hin : k + i < w
    · have hhigh : ¬ k + i < k := by omega
      simpa only [BitVec.getLsbD_and, BitVec.getLsbD_shiftLeft, BitVec.getLsbD_not,
        BitVec.getLsbD_zero, hin, hhigh, Nat.add_sub_cancel_left, hi, decide_true,
        decide_false, Bool.not_false, Bool.and_true, Bool.and_self] using hbit
    · rw [BitVec.getLsbD_of_ge _ _ (by omega), BitVec.getLsbD_of_ge _ _ (by omega)]
  · intro h
    refine BitVec.eq_of_getLsbD_eq fun i hi => ?_
    by_cases hlow : i < k
    · simp [hlow]
    · have hbit := congrArg (fun v => v.getLsbD (i - k)) h
      simp only [BitVec.getLsbD_ushiftRight] at hbit
      rw [show k + (i - k) = i by omega] at hbit
      simp [hbit]

end Ocellus
