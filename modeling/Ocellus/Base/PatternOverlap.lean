import Ocellus.Base.AhoCorasick
import Mathlib.Algebra.Group.Nat.Even

/-!
# What a search for several patterns misses

A search reports matches that do not overlap, so an occurrence of a pattern can be
missed, but only behind a match that covers its beginning: then a proper suffix of
the matched pattern is a prefix of the missed one. `overlaps` lists those pairs of
patterns; if no pattern lies within another, an occurrence is matched or met by a
match of such a pair (`Search.mem_or_overlap`), and never both
(`Search.stop_le_of_mem`).

A pattern that is overlapped by no other one is found if it occurs
(`Search.exists_of_occurs`). Where copies of a pattern overlap each other in a
chain, every second one is matched (`Search.mem_iff_odd`).
-/

namespace Ocellus

/-! ## Occurrences, up to case -/

def lowered (s : Bytes) : Bytes := s.map toAsciiLowercase

@[simp] theorem length_lowered (s : Bytes) : (lowered s).length = s.length := List.length_map _

theorem lowered_append (s s' : Bytes) : lowered (s ++ s') = lowered s ++ lowered s' :=
  List.map_append

theorem lowered_take (n : Nat) (s : Bytes) : lowered (s.take n) = (lowered s).take n :=
  List.map_take

theorem lowered_drop (n : Nat) (s : Bytes) : lowered (s.drop n) = (lowered s).drop n :=
  List.map_drop

/-- The pattern `p` stands at `x` in the haystack. -/
def OccursAt (p hay : Bytes) (x : Nat) : Prop := lowered p <+: (lowered hay).drop x

instance (p hay : Bytes) (x : Nat) : Decidable (OccursAt p hay x) :=
  inferInstanceAs (Decidable (_ <+: _))

/-- The pattern `p` stands right before `x`. -/
def Precedes (p hay : Bytes) (x : Nat) : Prop := p.length ≤ x ∧ OccursAt p hay (x - p.length)

instance (p hay : Bytes) (x : Nat) : Decidable (Precedes p hay x) :=
  inferInstanceAs (Decidable (_ ∧ _))

/-- The copies of `q` that follow each other directly, up to `x`, are `n`. -/
def PrecededTimes (q : Bytes) : Nat → Bytes → Nat → Prop
  | 0, hay, x => ¬ Precedes q hay x
  | n + 1, hay, x => Precedes q hay x ∧ PrecededTimes q n hay (x - q.length)

section Occurrences

variable {p q hay : Bytes} {x y : Nat}

theorem occursAt_iff : OccursAt p hay x ↔ ((lowered hay).drop x).take p.length = lowered p := by
  unfold OccursAt
  rw [List.prefix_iff_eq_take, length_lowered, eq_comm]

theorem OccursAt.le_length (h : OccursAt p hay x) (hp : p ≠ []) : x + p.length ≤ hay.length := by
  have hlen := h.length_le
  rw [length_lowered, List.length_drop, length_lowered] at hlen
  have hpos := List.length_pos_iff.mpr hp
  omega

theorem occursAt_append :
    OccursAt (p ++ q) hay x ↔ OccursAt p hay x ∧ OccursAt q hay (x + p.length) := by
  unfold OccursAt
  rw [lowered_append, ← List.drop_drop]
  generalize (lowered hay).drop x = s
  constructor
  · rintro ⟨t, rfl⟩
    refine ⟨⟨lowered q ++ t, (List.append_assoc ..).symm⟩, t, ?_⟩
    rw [List.append_assoc, ← length_lowered p, List.drop_left]
  · rintro ⟨⟨t, rfl⟩, hq⟩
    rw [← length_lowered p, List.drop_left] at hq
    exact (List.prefix_append_right_inj _).mpr hq

/-- The pattern occurs exactly when it occurs somewhere. -/
theorem exists_occursAt_iff (p hay : Bytes) :
    (∃ x, OccursAt p hay x) ↔ lowered p <:+: lowered hay := by
  constructor
  · rintro ⟨x, h⟩
    exact h.isInfix.trans (List.drop_suffix x _).isInfix
  · rintro ⟨s, t, h⟩
    refine ⟨s.length, t, ?_⟩
    rw [← h, List.append_assoc, List.drop_left]

/-- Where `p` runs into `q`, its end is the beginning of `q`. -/
theorem OccursAt.overlap (hp : OccursAt p hay x) (hq : OccursAt q hay y) (hxy : x ≤ y)
    (hstop : x + p.length ≤ y + q.length) :
    lowered (p.drop (y - x)) = lowered (q.take (x + p.length - y)) := by
  rw [occursAt_iff] at hp hq
  rw [lowered_drop, lowered_take, ← hp, ← hq, List.drop_take, List.drop_drop, List.take_take]
  congr 1
  · omega
  · congr 1
    omega

/-- Where `p` stands within `q`, it is a part of `q`. -/
theorem OccursAt.infix (hp : OccursAt p hay x) (hq : OccursAt q hay y) (hyx : y ≤ x)
    (hstop : x + p.length ≤ y + q.length) : lowered p <:+: lowered q := by
  rw [occursAt_iff] at hp hq
  have hpart : lowered p = ((lowered q).drop (x - y)).take p.length := by
    rw [← hp, ← hq, List.drop_take, List.drop_drop, List.take_take]
    congr 1
    · omega
    · congr 1
      omega
  rw [hpart]
  exact (List.take_prefix _ _).isInfix.trans (List.drop_suffix _ _).isInfix

theorem exists_precededTimes (hq : q ≠ []) (hay : Bytes) (x : Nat) :
    ∃ n, PrecededTimes q n hay x := by
  induction x using Nat.strongRecOn with
  | ind x ih =>
    by_cases h : Precedes q hay x
    · have hpos := List.length_pos_iff.mpr hq
      have hle := h.1
      obtain ⟨n, hn⟩ := ih (x - q.length) (by omega)
      exact ⟨n + 1, h, hn⟩
    · exact ⟨0, h⟩

end Occurrences

/-! ## Pairs of patterns that can overlap -/

/-- The `(i, j, k)` such that the last `k` bytes of pattern `i`, which are not all
of it, are the first `k` of pattern `j`. -/
def overlaps (patterns : List Bytes) : List (Nat × Nat × Nat) :=
  patterns.zipIdx.flatMap fun p => patterns.zipIdx.flatMap fun q =>
    ((List.range p.1.length).filter fun k => 0 < k ∧ k ≤ q.1.length ∧
      lowered (p.1.drop (p.1.length - k)) = lowered (q.1.take k)).map fun k => (p.2, q.2, k)

theorem mem_overlaps {patterns : List Bytes} {i j k : Nat} :
    (i, j, k) ∈ overlaps patterns ↔ ∃ p q, patterns[i]? = some p ∧ patterns[j]? = some q ∧
      k < p.length ∧ 0 < k ∧ k ≤ q.length ∧
      lowered (p.drop (p.length - k)) = lowered (q.take k) := by
  simp only [overlaps, List.mem_flatMap, List.mem_map, List.mem_filter, List.mem_range,
    decide_eq_true_eq, Prod.exists, List.mem_zipIdx_iff_getElem?, Prod.mk.injEq]
  constructor
  · rintro ⟨p, i', hp, q, j', hq, k', ⟨hk, h⟩, rfl, rfl, rfl⟩
    exact ⟨p, q, hp, hq, hk, h⟩
  · rintro ⟨p, q, hp, hq, hk, h⟩
    exact ⟨p, i, hp, q, j, hq, k, ⟨hk, h⟩, rfl, rfl, rfl⟩

/-- No pattern is empty, and none lies within another one. -/
structure Separate (patterns : List Bytes) : Prop where
  ne_nil : ∀ p ∈ patterns, p ≠ []
  incomparable : ∀ p ∈ patterns.zipIdx, ∀ q ∈ patterns.zipIdx,
    lowered p.1 <:+: lowered q.1 → p.2 = q.2

/-! ## Matches -/

variable {patterns : List Bytes} {hay : Bytes} {pos : Nat} {ms : List Match} {m o : Match}

theorem Match.occurs_iff (hsep : Separate patterns) :
    m.Occurs patterns hay pos ↔ pos ≤ m.start ∧ ∃ p, patterns[m.pattern]? = some p ∧
      m.stop = m.start + p.length ∧ OccursAt p hay m.start := by
  have hspells : ∀ p : Bytes, ((hay.drop m.start).take p.length).map toAsciiLowercase
      = p.map toAsciiLowercase ↔ OccursAt p hay m.start := by
    intro p
    rw [occursAt_iff, ← lowered_drop, ← lowered_take]
    rfl
  constructor
  · rintro ⟨hpos, -, p, hp, hstop, h⟩
    exact ⟨hpos, p, hp, hstop, (hspells p).mp h⟩
  · rintro ⟨hpos, p, hp, hstop, h⟩
    have hfits := h.le_length (hsep.ne_nil p (List.mem_of_getElem? hp))
    exact ⟨hpos, hstop ▸ hfits, p, hp, hstop, (hspells p).mpr h⟩

/-- What a match of a pattern says. -/
theorem Match.Occurs.occursAt (hsep : Separate patterns) (h : m.Occurs patterns hay pos) {p : Bytes}
    (hp : patterns[m.pattern]? = some p) :
    m.stop = m.start + p.length ∧ OccursAt p hay m.start := by
  obtain ⟨-, p', hp', hspan⟩ := (Match.occurs_iff hsep).mp h
  obtain rfl := Option.some.inj (hp.symm.trans hp')
  exact hspan

/-- A pattern that occurs is a match. -/
theorem OccursAt.occurs (hsep : Separate patterns) {i x : Nat} {p : Bytes}
    (hp : patterns[i]? = some p) (h : OccursAt p hay x) :
    (⟨i, x, x + p.length⟩ : Match).Occurs patterns hay 0 :=
  (Match.occurs_iff hsep).mpr ⟨Nat.zero_le _, p, hp, rfl, h⟩

/-- A match is behind where it starts. -/
theorem Match.Occurs.start_le (h : m.Occurs patterns hay pos) : m.start ≤ m.stop := by
  obtain ⟨-, -, p, -, hstop, -⟩ := h
  omega

theorem Match.Occurs.mono {pos' : Nat} (h : m.Occurs patterns hay pos') (hpos : pos ≤ pos') :
    m.Occurs patterns hay pos := ⟨hpos.trans h.1, h.2⟩

namespace Search

theorem occurs (h : Search patterns hay pos ms) : ∀ m ∈ ms, m.Occurs patterns hay pos := by
  induction h with
  | done => exact fun m hm => absurd hm List.not_mem_nil
  | next hoccurs _ _ ih =>
    intro m hm
    rcases List.mem_cons.mp hm with rfl | hm
    · exact hoccurs
    · exact (ih m hm).mono (hoccurs.1.trans hoccurs.start_le)

/-- Every occurrence is met by a match that ends within it. -/
theorem covers (h : Search patterns hay pos ms) (ho : o.Occurs patterns hay pos) :
    ∃ m ∈ ms, o.start < m.stop ∧ m.stop ≤ o.stop := by
  induction h with
  | done hnone => exact absurd ho (hnone o)
  | @next pos m ms _ hfirst _ ih =>
    by_cases hmeets : o.start < m.stop
    · exact ⟨m, List.mem_cons_self .., hmeets, hfirst o ho⟩
    · obtain ⟨m', hm', hstop⟩ := ih ⟨not_lt.mp hmeets, ho.2⟩
      exact ⟨m', List.mem_cons_of_mem m hm', hstop⟩

/-- A match that starts before another ends before it. -/
theorem stop_le_of_mem (h : Search patterns hay pos ms) (ho : o ∈ ms) (hm : m ∈ ms)
    (hstart : m.start < o.start) : m.stop ≤ o.start := by
  induction h with
  | done => exact absurd hm List.not_mem_nil
  | @next pos m₀ ms hoccurs _ hrest ih =>
    rcases List.mem_cons.mp ho with rfl | ho'
    · rcases List.mem_cons.mp hm with rfl | hm'
      · exact absurd hstart (lt_irrefl _)
      · have hbehind := (hrest.occurs m hm').1
        have hspan := hoccurs.start_le
        omega
    · rcases List.mem_cons.mp hm with rfl | hm'
      · exact (hrest.occurs o ho').1
      · exact ih ho' hm'

/-- An occurrence is matched, or its beginning is covered by a match of a pattern
that overlaps its pattern. -/
theorem mem_or_overlap (hsep : Separate patterns) (h : Search patterns hay 0 ms)
    (ho : o.Occurs patterns hay 0) :
    o ∈ ms ∨ ∃ m ∈ ms, m.start < o.start ∧ o.start < m.stop ∧
      (m.pattern, o.pattern, m.stop - o.start) ∈ overlaps patterns := by
  obtain ⟨m, hm, hmeets, hwithin⟩ := h.covers ho
  obtain ⟨-, p, hp, hpstop, hpocc⟩ := (Match.occurs_iff hsep).mp (h.occurs m hm)
  obtain ⟨-, q, hq, hqstop, hqocc⟩ := (Match.occurs_iff hsep).mp ho
  by_cases hstart : m.start < o.start
  · refine .inr ⟨m, hm, hstart, hmeets, mem_overlaps.mpr ⟨p, q, hp, hq, by omega, by omega,
      by omega, ?_⟩⟩
    have hdrop : p.length - (m.stop - o.start) = o.start - m.start := by omega
    rw [hdrop, hpstop]
    exact hpocc.overlap hqocc hstart.le (by omega)
  · -- a match within the occurrence is the occurrence
    have hsame : m.pattern = o.pattern := by
      have hoccurs := hpocc.infix hqocc (not_lt.mp hstart) (by omega)
      exact hsep.incomparable (p, m.pattern) (List.mem_zipIdx_iff_getElem?.mpr hp)
        (q, o.pattern) (List.mem_zipIdx_iff_getElem?.mpr hq) hoccurs
    obtain rfl : p = q := by
      rw [hsame, hq] at hp
      exact (Option.some.inj hp).symm
    obtain ⟨i, x, stop⟩ := m
    obtain ⟨j, y, stop'⟩ := o
    dsimp only at hsame hpstop hqstop hstart hwithin
    obtain rfl : x = y := by omega
    rw [hsame, hpstop, ← hqstop] at hm
    exact .inl hm

/-- A pattern that no other one overlaps is matched if it occurs. -/
theorem exists_of_occurs (hsep : Separate patterns) (h : Search patterns hay 0 ms)
    (ho : o.Occurs patterns hay 0)
    (hself : ∀ i k, (i, o.pattern, k) ∈ overlaps patterns → i = o.pattern) :
    ∃ m ∈ ms, m.pattern = o.pattern := by
  rcases h.mem_or_overlap hsep ho with hmem | ⟨m, hm, -, -, hover⟩
  · exact ⟨o, hmem, rfl⟩
  · exact ⟨m, hm, hself _ _ hover⟩

/-- A pattern that none overlaps is matched wherever it occurs. -/
theorem mem_of_occurs (hsep : Separate patterns) (h : Search patterns hay 0 ms)
    (ho : o.Occurs patterns hay 0) (hfree : ∀ i k, (i, o.pattern, k) ∉ overlaps patterns) :
    o ∈ ms := by
  rcases h.mem_or_overlap hsep ho with hmem | ⟨m, -, -, -, hover⟩
  · exact hmem
  · exact absurd hover (hfree _ _)

/-- An occurrence of the pattern `q ++ t` around `x`. -/
theorem occurs_around (hsep : Separate patterns) {i x : Nat} {q t : Bytes}
    (hp : patterns[i]? = some (q ++ t)) (hq : Precedes q hay x) (ht : OccursAt t hay x) :
    (⟨i, x - q.length, x + t.length⟩ : Match).Occurs patterns hay 0 := by
  refine (Match.occurs_iff hsep).mpr ⟨Nat.zero_le _, _, hp, ?_, occursAt_append.mpr ⟨hq.2, ?_⟩⟩
  · have hle := hq.1
    rw [List.length_append]
    dsimp only
    omega
  · rw [Nat.sub_add_cancel hq.1]
    exact ht

/-- A match of `q ++ t` that reaches over `x` by `t`. -/
theorem eq_around (hsep : Separate patterns) (h : Search patterns hay 0 ms) {i x : Nat}
    {q t : Bytes} (hp : patterns[i]? = some (q ++ t)) (hm : m ∈ ms) (hpattern : m.pattern = i)
    (hstop : m.stop = x + t.length) :
    Precedes q hay x ∧ m = ⟨i, x - q.length, x + t.length⟩ := by
  obtain ⟨hspan, hocc⟩ := (h.occurs m hm).occursAt hsep (hpattern ▸ hp)
  rw [List.length_append] at hspan
  have hle : q.length ≤ x := by omega
  have hstart : m.start = x - q.length := by omega
  refine ⟨⟨hle, ?_⟩, ?_⟩
  · rw [← hstart]
    exact (occursAt_append.mp hocc).1
  · rw [← hpattern, ← hstart, ← hstop]

/-- **Chains of overlapping copies**: let the pattern `q ++ t` be overlapped by
itself only, by its end `t`, which is the beginning of `q`. Of copies of it in a
chain, every second one is matched, from the first on. -/
theorem mem_iff_odd (hsep : Separate patterns) (h : Search patterns hay 0 ms) {i : Nat}
    {q t : Bytes} (hp : patterns[i]? = some (q ++ t)) (hq : q ≠ []) (ht : t ≠ [])
    (hbegin : lowered t <+: lowered q)
    (hself : ∀ j k, (j, i, k) ∈ overlaps patterns → j = i ∧ k = t.length) (n : Nat) {x : Nat}
    (hocc : OccursAt t hay x) (hn : PrecededTimes q n hay x) :
    q.length ≤ x ∧ ⟨i, x - q.length, x + t.length⟩ ∈ ms ↔ Odd n := by
  have hqpos := List.length_pos_iff.mpr hq
  have htpos := List.length_pos_iff.mpr ht
  induction n generalizing x with
  | zero =>
    -- the pattern does not occur
    refine iff_of_false ?_ (by decide)
    rintro ⟨hle, hmem⟩
    obtain ⟨-, hocc'⟩ := (h.occurs _ hmem).occursAt hsep hp
    exact hn ⟨hle, (occursAt_append.mp hocc').1⟩
  | succ n ih =>
    obtain ⟨⟨hle, hqocc⟩, hn⟩ := hn
    have hbefore := ih (hbegin.trans hqocc) hn
    have hoccurs := occurs_around hsep hp ⟨hle, hqocc⟩ hocc
    refine Iff.trans ?_ ((not_congr hbefore).trans Nat.odd_add_one.symm)
    constructor
    · -- the copy before this one reaches into it
      rintro ⟨-, hmem⟩ ⟨hle', hprev⟩
      have hstop := h.stop_le_of_mem hmem hprev (by dsimp only; omega)
      dsimp only at hstop
      omega
    · intro hnone
      refine ⟨hle, ?_⟩
      rcases h.mem_or_overlap hsep hoccurs with hmem | ⟨m, hm, hstart, hmeets, hover⟩
      · exact hmem
      · obtain ⟨hpattern, hk⟩ := hself _ _ hover
        dsimp only at hk hmeets
        obtain ⟨⟨hle', -⟩, rfl⟩ := h.eq_around hsep hp hm hpattern
          (show m.stop = x - q.length + t.length by omega)
        exact absurd ⟨hle', hm⟩ hnone

/-- **A masked pattern**: let `p` be overlapped by itself or by the pattern
`q ++ t`, which none overlaps, by `t`. It is matched if it occurs anywhere but
directly behind `q`. -/
theorem exists_iff_not_precedes (hsep : Separate patterns) (h : Search patterns hay 0 ms)
    {i j : Nat} {p q t : Bytes} (hi : patterns[i]? = some (q ++ t)) (hj : patterns[j]? = some p)
    (hq : q ≠ []) (ht : t ≠ []) (hbegin : lowered t <+: lowered p)
    (hfree : ∀ a k, (a, i, k) ∉ overlaps patterns)
    (hmask : ∀ a k, (a, j, k) ∈ overlaps patterns → a = j ∨ a = i ∧ k = t.length) :
    (∃ m ∈ ms, m.pattern = j) ↔ ∃ x, OccursAt p hay x ∧ ¬ Precedes q hay x := by
  have hqpos := List.length_pos_iff.mpr hq
  have htpos := List.length_pos_iff.mpr ht
  constructor
  · rintro ⟨m, hm, rfl⟩
    obtain ⟨-, hocc⟩ := (h.occurs m hm).occursAt hsep hj
    refine ⟨m.start, hocc, fun hprec => ?_⟩
    -- the pattern in front is matched, and reaches into `m`
    have hfront := h.mem_of_occurs hsep (occurs_around hsep hi hprec (hbegin.trans hocc)) hfree
    have hle := hprec.1
    have hstop := h.stop_le_of_mem hm hfront (by dsimp only; omega)
    dsimp only at hstop
    omega
  · rintro ⟨x, hocc, hprec⟩
    rcases h.mem_or_overlap hsep (hocc.occurs hsep hj) with hmem | ⟨m, hm, hstart, hmeets, hover⟩
    · exact ⟨_, hmem, rfl⟩
    · rcases hmask _ _ hover with hself | ⟨hpattern, hk⟩
      · exact ⟨m, hm, hself⟩
      · dsimp only at hk hmeets
        exact absurd (h.eq_around hsep hi hm hpattern (by omega)).1 hprec

/-- **A pattern masked by a chain**: let `p` be overlapped by the pattern `q ++ t`
only, by `t`, and that pattern by itself only, by `t`. It is matched if it occurs
behind an even number of copies of `q`. -/
theorem exists_iff_even (hsep : Separate patterns) (h : Search patterns hay 0 ms)
    {i j : Nat} {p q t : Bytes} (hi : patterns[i]? = some (q ++ t)) (hj : patterns[j]? = some p)
    (hq : q ≠ []) (ht : t ≠ []) (hbegin : lowered t <+: lowered p)
    (hself : ∀ a k, (a, i, k) ∈ overlaps patterns → a = i ∧ k = t.length)
    (hselfBegin : lowered t <+: lowered q)
    (hmask : ∀ a k, (a, j, k) ∈ overlaps patterns → a = i ∧ k = t.length) :
    (∃ m ∈ ms, m.pattern = j) ↔
      ∃ x n, OccursAt p hay x ∧ PrecededTimes q n hay x ∧ Even n := by
  have hqpos := List.length_pos_iff.mpr hq
  have htpos := List.length_pos_iff.mpr ht
  constructor
  · rintro ⟨m, hm, rfl⟩
    obtain ⟨-, hocc⟩ := (h.occurs m hm).occursAt hsep hj
    obtain ⟨n, hn⟩ := exists_precededTimes hq hay m.start
    refine ⟨m.start, n, hocc, hn, ?_⟩
    have hodd := h.mem_iff_odd hsep hi hq ht hselfBegin hself n (hbegin.trans hocc) hn
    rw [← Nat.not_odd_iff_even, ← hodd]
    rintro ⟨hle, hfront⟩
    have hstop := h.stop_le_of_mem hm hfront (by dsimp only; omega)
    dsimp only at hstop
    omega
  · rintro ⟨x, n, hocc, hn, heven⟩
    rcases h.mem_or_overlap hsep (hocc.occurs hsep hj) with hmem | ⟨m, hm, hstart, hmeets, hover⟩
    · exact ⟨_, hmem, rfl⟩
    · obtain ⟨hpattern, hk⟩ := hmask _ _ hover
      dsimp only at hk hmeets
      obtain ⟨⟨hle, -⟩, rfl⟩ := h.eq_around hsep hi hm hpattern
        (show m.stop = x + t.length by omega)
      have hodd := (h.mem_iff_odd hsep hi hq ht hselfBegin hself n (hbegin.trans hocc) hn).mp
        ⟨hle, hm⟩
      exact absurd heven (Nat.not_even_iff_odd.mpr hodd)

end Search

end Ocellus
