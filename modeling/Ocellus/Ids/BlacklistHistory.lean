import Ocellus.Ids.FeedLoading

/-!
# What a blacklist answers, from its history

Three containers answer `check_ip`: the Bloom filter, the exact addresses and the
ranges. The filter is a library, and any that has no false negatives will do. A
history is any sequence of `add_ip`, `add_cidr` and `check_ip` calls; what the
containers hold after it is `Represents`, and from that the answers follow
(`checkIp_history`): they depend on what was added, and not on the filter.
-/

namespace Ocellus

namespace Blacklist

variable {bloom : BloomFilter U32}

/-- A well-formed range, as `add_cidr` reads it: an address and a prefix of at
most 32 bits. -/
structure CidrText where
  text : Str
  addr : U32
  prefixLen : Fin 33
  parses : ∃ ip len, Str.splitOnce '/' text = some (ip, len) ∧
    Str.parseU32 (Str.trim len) = some prefixLen.val ∧ Str.parseIpv4Addr (Str.trim ip) = some addr

namespace CidrText

/-- The addresses of a range: those that share the bits of its prefix. -/
def Covers (r : CidrText) (a : U32) : Prop :=
  a >>> (32 - r.prefixLen.val) = r.addr >>> (32 - r.prefixLen.val)

/-- The usual notation `a.b.c.d/p`. -/
def canonical (a : U32) (p : Fin 33) : CidrText where
  text := (FeedEntry.cidr a p).text
  addr := a
  prefixLen := p
  parses := cidr_parses a p

/-- Reading a well-formed range gives an entry that contains its addresses. -/
theorem fromCidr_eq_ok (r : CidrText) :
    ∃ e, CidrEntry.fromCidr r.text = .ok (some e) ∧ ∀ a, e.contains a = true ↔ r.Covers a := by
  obtain ⟨ip, len, hsplit, hlen, hip⟩ := r.parses
  exact fromCidr_of_parses hsplit hlen hip

end CidrText

/-! ## Histories -/

/-- A call on the blacklist. -/
inductive Call where
  | addIp (a : U32)
  | addCidr (r : CidrText)
  | checkIp (ip : IpAddr)

namespace Call

/-- What a call leaves behind; a check only reads. -/
def apply : Call → Blacklist bloom → Checked (Blacklist bloom)
  | .addIp a, b => .ok (b.addIp a)
  | .addCidr r, b => b.addCidr r.text
  | .checkIp _, b => .ok b

end Call

/-- The blacklist after a sequence of calls. -/
def after (calls : List Call) : Checked (Blacklist bloom) :=
  calls.foldlM (fun b c => c.apply b) new

/-- `a` was added exactly. -/
def AddedExactly (calls : List Call) (a : U32) : Prop := .addIp a ∈ calls

/-- `a` lies in a range that was added. -/
def InAddedRange (calls : List Call) (a : U32) : Prop := ∃ r, .addCidr r ∈ calls ∧ r.Covers a

/-- The containers hold what the calls added. -/
structure Represents (calls : List Call) (b : Blacklist bloom) : Prop where
  exact : ∀ a, a ∈ b.ipExact ↔ AddedExactly calls a
  ranges : ∀ a, (∃ e ∈ b.ipCidrs, e.contains a = true) ↔ InAddedRange calls a

theorem represents_new : Represents [] (new : Blacklist bloom) := by
  constructor
  · intro a
    exact ⟨fun h => absurd h (Finset.notMem_empty a), nofun⟩
  · intro a
    constructor
    · rintro ⟨e, he, -⟩
      cases he
    · rintro ⟨r, hr, -⟩
      cases hr

variable {calls : List Call} {b : Blacklist bloom}

theorem Represents.addIp (h : Represents calls b) (a : U32) :
    Represents (calls ++ [.addIp a]) (b.addIp a) := by
  constructor
  · intro x
    show x ∈ insert a b.ipExact ↔ Call.addIp x ∈ calls ++ [.addIp a]
    rw [Finset.mem_insert, h.exact, List.mem_append, List.mem_singleton, Call.addIp.injEq, or_comm]
    rfl
  · intro x
    refine (h.ranges x).trans ?_
    simp [InAddedRange]

theorem Represents.addCidr (h : Represents calls b) (r : CidrText) :
    (b.addCidr r.text).Returns (Represents (calls ++ [.addCidr r])) := by
  obtain ⟨e, he, hcontains⟩ := r.fromCidr_eq_ok
  refine ⟨{ b with ipCidrs := b.ipCidrs ++ [e] }, by rw [Blacklist.addCidr, he]; rfl, ?_, ?_⟩
  · intro x
    refine (h.exact x).trans ?_
    simp [AddedExactly]
  · intro x
    show (∃ e' ∈ b.ipCidrs ++ [e], e'.contains x = true) ↔
      ∃ r', Call.addCidr r' ∈ calls ++ [.addCidr r] ∧ r'.Covers x
    have hold := h.ranges x
    rw [InAddedRange] at hold
    simp only [List.mem_append, List.mem_singleton, or_and_right, exists_or, exists_eq_left,
      Call.addCidr.injEq, hcontains, hold]

theorem Represents.checkIp (h : Represents calls b) (ip : IpAddr) :
    Represents (calls ++ [.checkIp ip]) b := by
  constructor
  · intro x
    refine (h.exact x).trans ?_
    simp [AddedExactly]
  · intro x
    refine (h.ranges x).trans ?_
    simp [InAddedRange]

/-- Every call returns, and the containers keep up. -/
theorem Represents.call (h : Represents calls b) (c : Call) :
    (c.apply b).Returns (Represents (calls ++ [c])) := by
  cases c with
  | addIp a => exact .ok (h.addIp a)
  | addCidr r => exact h.addCidr r
  | checkIp ip => exact .ok (h.checkIp ip)

theorem after_returns (calls : List Call) :
    (after calls : Checked (Blacklist bloom)).Returns (Represents calls) := by
  induction calls using List.reverseRecOn with
  | nil => exact .ok represents_new
  | append_singleton calls c ih =>
    rw [after, List.foldlM_append]
    refine ih.bind fun b hb => ?_
    rw [List.foldlM_cons]
    exact (hb.call c).bind fun b' hb' => .ok hb'

/-! ## Answers -/

/-- An address is reported as listed exactly if it was added exactly, whether it
lies in a range or not. -/
theorem checkIp_name_iff (b : Blacklist bloom) (a : U32) :
    (∃ s, b.checkIp (.v4 a) = some s ∧ s.name = .blacklistedIp) ↔ a ∈ b.ipExact := by
  constructor
  · rintro ⟨s, hs, hname⟩
    rw [Blacklist.checkIp] at hs
    -- a range hit has another name
    by_cases hexact : a ∈ b.ipExact
    · exact hexact
    · rw [if_neg fun h => hexact h.2] at hs
      split at hs
      · rw [← Option.some.inj hs] at hname
        cases hname
      · cases hs
  · intro ha
    refine ⟨ipSignal (.v4 a), ?_, rfl⟩
    rw [Blacklist.checkIp, if_pos ⟨b.check_of_mem a ha, ha⟩]

/-- **The Bloom filter changes no answer**: after any history, whatever false
positives the filter has, an IPv4 address is reported if and only if it was added
exactly or lies in an added range, under the name for exact matches if and only
if it was added exactly. -/
theorem checkIp_history (calls : List Call) :
    (after calls : Checked (Blacklist bloom)).Returns fun b => ∀ a,
      ((b.checkIp (.v4 a)).isSome = true ↔ AddedExactly calls a ∨ InAddedRange calls a) ∧
      ((∃ s, b.checkIp (.v4 a) = some s ∧ s.name = .blacklistedIp) ↔ AddedExactly calls a) := by
  refine (after_returns calls).mono fun b hb a => ?_
  constructor
  · rw [← hb.exact, ← hb.ranges]
    exact b.listed_iff a
  · rw [← hb.exact]
    exact b.checkIp_name_iff a

/-- A filter that answers yes to everything. -/
def lenientBloom : BloomFilter U32 := ⟨Unit, (), fun _ f => f, fun _ _ => true, fun _ _ => rfl,
  fun _ _ _ _ => rfl⟩

/-- With it, a range hit beside an exact hit, and neither on a third address. -/
example : ((after [.addCidr (.canonical 0x0A000000#32 8), .addIp 0x0A000001#32] :
      Checked (Blacklist lenientBloom)).map fun b =>
    [0x0A000001#32, 0x0AFFFFFF#32, 0x0B000000#32].map fun a =>
      (b.checkIp (.v4 a)).map Signal.name)
    = .ok [some .blacklistedIp, some .blacklistedCidr, none] := by
  decide +kernel

end Blacklist

end Ocellus
