import Ocellus.Base.Text

/-!
# UTF-8

The bytes of a string, and `String::from_utf8_lossy`: the decoding that replaces
every maximal part of a byte string that cannot begin a character by U+FFFD. A
decoded string has no more characters than there were bytes
(`length_fromUtf8Lossy_le`), and the bytes of a string decode to the string
(`fromUtf8Lossy_asBytes`).
-/

namespace Ocellus

namespace Str

/-- `s.as_bytes()`. -/
def asBytes (s : Str) : Bytes := s.flatMap fun c => (String.utf8EncodeChar c).map UInt8.toBitVec

/-- `s.len()`, in bytes. -/
def len (s : Str) : Nat := s.asBytes.length

/-- A character takes at most four bytes. -/
theorem len_le (s : Str) : s.len ≤ 4 * s.length := by
  unfold len asBytes
  induction s with
  | nil => exact Nat.le_refl 0
  | cons c s ih =>
    have hc : c.utf8Size ≤ 4 := c.utf8Size_le_four
    rw [List.flatMap_cons, List.length_append, List.length_map, String.length_utf8EncodeChar,
      List.length_cons]
    omega

end Str

namespace Utf8

/-- U+FFFD. -/
def replacement : Char := '\uFFFD'

/-- What the first byte of a longer character says: how many bytes continue it,
the range of the first of these, and its own bits of the code point. -/
def lead (b : U8) : Option (Nat × U8 × U8 × Nat) :=
  let low2 := (b &&& 0x1F#8).toNat
  let low3 := (b &&& 0x0F#8).toNat
  let low4 := (b &&& 0x07#8).toNat
  if 0xC2#8 ≤ b ∧ b ≤ 0xDF#8 then some (1, 0x80#8, 0xBF#8, low2)
  -- no overlong forms, no surrogates, nothing above U+10FFFF
  else if b = 0xE0#8 then some (2, 0xA0#8, 0xBF#8, low3)
  else if b = 0xED#8 then some (2, 0x80#8, 0x9F#8, low3)
  else if 0xE1#8 ≤ b ∧ b ≤ 0xEF#8 then some (2, 0x80#8, 0xBF#8, low3)
  else if b = 0xF0#8 then some (3, 0x90#8, 0xBF#8, low4)
  else if b = 0xF4#8 then some (3, 0x80#8, 0x8F#8, low4)
  else if 0xF1#8 ≤ b ∧ b ≤ 0xF3#8 then some (3, 0x80#8, 0xBF#8, low4)
  else none

/-- The rest of a character with the code point bits `acc` so far and `n` more
bytes to come, the next one from `lo..=hi`; what cannot be completed is one
replacement, and the byte it stopped at is left. -/
def continued : Nat → U8 → U8 → Nat → Bytes → Char × Bytes
  | 0, _, _, acc, bs => (Char.ofNat acc, bs)
  | _ + 1, _, _, _, [] => (replacement, [])
  | n + 1, lo, hi, acc, b :: bs =>
    if lo ≤ b ∧ b ≤ hi then
      continued n 0x80#8 0xBF#8 (64 * acc + (b &&& 0x3F#8).toNat) bs
    else (replacement, b :: bs)

/-- The next character of `b :: bs`, and the bytes behind it. -/
def decodeChar (b : U8) (bs : Bytes) : Char × Bytes :=
  if b < 0x80#8 then (Char.ofNat b.toNat, bs)
  else match lead b with
    | none => (replacement, bs)
    | some (n, lo, hi, acc) => continued n lo hi acc bs

theorem continued_length_le (n : Nat) (lo hi : U8) (acc : Nat) (bs : Bytes) :
    (continued n lo hi acc bs).2.length ≤ bs.length := by
  fun_induction continued n lo hi acc bs with
  | case1 => exact Nat.le_refl _
  | case2 => exact Nat.le_refl _
  | case3 n lo hi acc b bs _ ih => exact Nat.le_succ_of_le ih
  | case4 => exact Nat.le_refl _

/-- Every character takes its first byte. -/
theorem decodeChar_length_le (b : U8) (bs : Bytes) :
    (decodeChar b bs).2.length ≤ bs.length := by
  unfold decodeChar
  split
  · exact Nat.le_refl _
  · split
    · exact Nat.le_refl _
    · exact continued_length_le ..

/-- `String::from_utf8_lossy`. -/
def fromUtf8Lossy : Bytes → Str
  | [] => []
  | b :: bs => (decodeChar b bs).1 :: fromUtf8Lossy (decodeChar b bs).2
termination_by bs => bs.length
decreasing_by exact Nat.lt_succ_of_le (decodeChar_length_le b bs)

theorem length_fromUtf8Lossy_le (bs : Bytes) : (fromUtf8Lossy bs).length ≤ bs.length := by
  fun_induction fromUtf8Lossy bs with
  | case1 => exact Nat.le_refl 0
  | case2 b bs ih => exact Nat.succ_le_succ (ih.trans (decodeChar_length_le b bs))

/-- ASCII decodes byte by byte. -/
theorem fromUtf8Lossy_ascii {bs : Bytes} (h : ∀ b ∈ bs, b < 0x80#8) :
    fromUtf8Lossy bs = bs.map fun b => Char.ofNat b.toNat := by
  induction bs with
  | nil => rw [fromUtf8Lossy, List.map_nil]
  | cons b bs ih =>
    have hchar : decodeChar b bs = (Char.ofNat b.toNat, bs) := if_pos (h b (List.mem_cons_self ..))
    rw [fromUtf8Lossy, hchar, ih fun b' hb' => h b' (List.mem_cons_of_mem b hb'), List.map_cons]

/-! ## Decoding encoded text -/

/-- The bits of a continuation byte. -/
theorem contByte_and {k : Nat} (hk : k < 64) :
    (BitVec.ofNat 8 (k + 0x80) &&& 0x3F#8).toNat = k := by
  have hall : ∀ k < 64, (BitVec.ofNat 8 (k + 0x80) &&& 0x3F#8).toNat = k := by decide
  exact hall k hk

theorem continued_cons {n k : Nat} {lo hi : U8} (acc : Nat) (bs : Bytes) (hk : k < 64)
    (hlo : lo.toNat ≤ k + 0x80) (hhi : k + 0x80 ≤ hi.toNat) :
    continued (n + 1) lo hi acc (BitVec.ofNat 8 (k + 0x80) :: bs)
      = continued n 0x80#8 0xBF#8 (64 * acc + k) bs := by
  have hbyte : (BitVec.ofNat 8 (k + 0x80)).toNat = k + 0x80 := by
    rw [BitVec.toNat_ofNat, Nat.mod_eq_of_lt (by omega)]
  have hrange : lo ≤ BitVec.ofNat 8 (k + 0x80) ∧ BitVec.ofNat 8 (k + 0x80) ≤ hi := by
    rw [BitVec.le_def, BitVec.le_def, hbyte]
    exact ⟨hlo, hhi⟩
  rw [continued, if_pos hrange, contByte_and hk]

/-- The same, where any continuation byte may stand. -/
theorem continued_cons_of_any {n k : Nat} (acc : Nat) (bs : Bytes) (hk : k < 64) :
    continued (n + 1) 0x80#8 0xBF#8 acc (BitVec.ofNat 8 (k + 0x80) :: bs)
      = continued n 0x80#8 0xBF#8 (64 * acc + k) bs := by
  refine continued_cons acc bs hk (Nat.le_add_left 0x80 k) ?_
  show k + 0x80 ≤ 0xBF
  omega

theorem lead_two : ∀ k < 30, ¬ BitVec.ofNat 8 (k + 2 + 0xC0) < 0x80#8 ∧
    lead (BitVec.ofNat 8 (k + 2 + 0xC0)) = some (1, 0x80#8, 0xBF#8, k + 2) := by
  decide

theorem lead_three : ∀ k < 16, ¬ BitVec.ofNat 8 (k + 0xE0) < 0x80#8 ∧
    lead (BitVec.ofNat 8 (k + 0xE0)) = some (2, if k = 0 then 0xA0#8 else 0x80#8,
      if k = 13 then 0x9F#8 else 0xBF#8, k) := by
  decide

theorem lead_four : ∀ k < 5, ¬ BitVec.ofNat 8 (k + 0xF0) < 0x80#8 ∧
    lead (BitVec.ofNat 8 (k + 0xF0)) = some (3, if k = 0 then 0x90#8 else 0x80#8,
      if k = 4 then 0x8F#8 else 0xBF#8, k) := by
  decide

theorem decodeChar_of_lead {b lo hi : U8} {n acc : Nat} (hb : ¬ b < 0x80#8)
    (hlead : lead b = some (n, lo, hi, acc)) (bs : Bytes) :
    decodeChar b bs = continued n lo hi acc bs := by
  rw [decodeChar, if_neg hb, hlead]

/-- One byte. -/
theorem decodeChar_one {v : Nat} (h : v ≤ 0x7F) (rest : Bytes) :
    decodeChar (BitVec.ofNat 8 v) rest = (Char.ofNat v, rest) := by
  have hbyte : (BitVec.ofNat 8 v).toNat = v := by
    rw [BitVec.toNat_ofNat, Nat.mod_eq_of_lt (by omega)]
  have hascii : BitVec.ofNat 8 v < 0x80#8 := by
    rw [BitVec.lt_def, hbyte]
    exact Nat.lt_succ_of_le h
  rw [decodeChar, if_pos hascii, hbyte]

/-- Two bytes. -/
theorem decodeChar_two {v : Nat} (h : 0x7F < v) (h' : v ≤ 0x7FF) (rest : Bytes) :
    decodeChar (BitVec.ofNat 8 (v / 64 % 32 + 0xC0)) (BitVec.ofNat 8 (v % 64 + 0x80) :: rest)
      = (Char.ofNat v, rest) := by
  obtain ⟨hb, hlead⟩ := lead_two (v / 64 % 32 - 2) (by omega)
  rw [Nat.sub_add_cancel (by omega)] at hb hlead
  have hbits : 64 * (v / 64 % 32) + v % 64 = v := by omega
  rw [decodeChar_of_lead hb hlead, continued_cons_of_any _ _ (by omega), continued, hbits]

/-- Three bytes; the first decides where the second may stand. -/
theorem decodeChar_three {v : Nat} (h : 0x7FF < v) (h' : v ≤ 0xFFFF)
    (hvalid : v < 0xD800 ∨ 0xDFFF < v) (rest : Bytes) :
    decodeChar (BitVec.ofNat 8 (v / 4096 % 16 + 0xE0))
        (BitVec.ofNat 8 (v / 64 % 64 + 0x80) :: BitVec.ofNat 8 (v % 64 + 0x80) :: rest)
      = (Char.ofNat v, rest) := by
  obtain ⟨hb, hlead⟩ := lead_three (v / 4096 % 16) (by omega)
  have hbits : 64 * (64 * (v / 4096 % 16) + v / 64 % 64) + v % 64 = v := by omega
  rw [decodeChar_of_lead hb hlead, continued_cons _ _ (by omega),
    continued_cons_of_any _ _ (by omega), continued, hbits]
  · split
    · show 0xA0 ≤ _
      omega
    · exact Nat.le_add_left _ _
  · split
    · show _ ≤ 0x9F
      omega
    · show _ ≤ 0xBF
      omega

/-- Four bytes. -/
theorem decodeChar_four {v : Nat} (h : 0xFFFF < v) (h' : v < 0x110000) (rest : Bytes) :
    decodeChar (BitVec.ofNat 8 (v / 262144 % 8 + 0xF0))
        (BitVec.ofNat 8 (v / 4096 % 64 + 0x80) :: BitVec.ofNat 8 (v / 64 % 64 + 0x80) ::
          BitVec.ofNat 8 (v % 64 + 0x80) :: rest)
      = (Char.ofNat v, rest) := by
  obtain ⟨hb, hlead⟩ := lead_four (v / 262144 % 8) (by omega)
  have hbits : 64 * (64 * (64 * (v / 262144 % 8) + v / 4096 % 64) + v / 64 % 64) + v % 64 = v := by
    omega
  rw [decodeChar_of_lead hb hlead, continued_cons _ _ (by omega),
    continued_cons_of_any _ _ (by omega), continued_cons_of_any _ _ (by omega), continued, hbits]
  · split
    · show 0x90 ≤ _
      omega
    · exact Nat.le_add_left _ _
  · split
    · show _ ≤ 0x8F
      omega
    · show _ ≤ 0xBF
      omega

/-- The first character of encoded text, and the bytes behind it. -/
theorem decodeChar_encode (c : Char) (rest : Bytes) :
    ∃ b bs, (String.utf8EncodeChar c).map UInt8.toBitVec = b :: bs ∧
      decodeChar b (bs ++ rest) = (c, rest) := by
  have hchar : Char.ofNat c.val.toNat = c := Char.ofNat_toNat c
  have hvalid : c.val.toNat < 0xD800 ∨ 0xDFFF < c.val.toNat ∧ c.val.toNat < 0x110000 := c.valid
  unfold String.utf8EncodeChar
  generalize c.val.toNat = v at hchar hvalid ⊢
  subst hchar
  dsimp only
  split_ifs with h1 h2 h3
  · exact ⟨_, _, rfl, decodeChar_one h1 rest⟩
  · exact ⟨_, _, rfl, decodeChar_two (by omega) h2 rest⟩
  · exact ⟨_, _, rfl, decodeChar_three (by omega) h3 (by omega) rest⟩
  · exact ⟨_, _, rfl, decodeChar_four (by omega) (by omega) rest⟩

/-- **Decoding undoes encoding.** -/
theorem fromUtf8Lossy_asBytes (s : Str) : fromUtf8Lossy s.asBytes = s := by
  induction s with
  | nil => rw [Str.asBytes, List.flatMap_nil, fromUtf8Lossy]
  | cons c s ih =>
    obtain ⟨b, bs, hbytes, hdecode⟩ := decodeChar_encode c (Str.asBytes s)
    rw [Str.asBytes, List.flatMap_cons, hbytes]
    show fromUtf8Lossy (b :: (bs ++ Str.asBytes s)) = _
    rw [fromUtf8Lossy, hdecode, ih]

/-- `é`, a stray continuation byte, a character broken off by `A`. -/
example : fromUtf8Lossy [0xC3#8, 0xA9#8, 0x80#8, 0xE2#8, 0x82#8, 0x41#8]
    = ['é', replacement, replacement, 'A'] := by
  simp [fromUtf8Lossy, decodeChar, lead, continued]

end Utf8

end Ocellus
