import Ocellus.Base.Bytes

/-!
# Searching for several patterns at once

What `find_iter` of the `aho-corasick` crate reports, for an automaton built with
`ascii_case_insensitive` and the default match kind: successive non-overlapping
matches, each the earliest to end among those that start at or behind the end of
the one before (`Search`). Which of several patterns that end together is
reported is left open.

`AhoCorasick.naive` is an automaton that tries every pattern at every position;
it shows that the specification can be met, and computes.
-/

namespace Ocellus

/-- `b.to_ascii_lowercase()`. -/
def toAsciiLowercase (b : U8) : U8 := if 0x41#8 ≤ b ∧ b ≤ 0x5A#8 then b + 0x20#8 else b

/-- A match: the index of its pattern, and the range of the haystack it spans. -/
structure Match where
  pattern : Nat
  start : Nat
  stop : Nat
  deriving DecidableEq, Repr

/-- `m` is an occurrence of one of the patterns, not before `pos`. -/
def Match.Occurs (patterns : List Bytes) (hay : Bytes) (pos : Nat) (m : Match) : Prop :=
  pos ≤ m.start ∧ m.stop ≤ hay.length ∧ ∃ p, patterns[m.pattern]? = some p ∧
    m.stop = m.start + p.length ∧
    ((hay.drop m.start).take p.length).map toAsciiLowercase = p.map toAsciiLowercase

/-- The matches of a search from `pos` on. -/
inductive Search (patterns : List Bytes) (hay : Bytes) : Nat → List Match → Prop where
  | done {pos : Nat} : (∀ m : Match, ¬ m.Occurs patterns hay pos) → Search patterns hay pos []
  | next {pos : Nat} {m : Match} {ms : List Match} :
      m.Occurs patterns hay pos →
      (∀ m' : Match, m'.Occurs patterns hay pos → m.stop ≤ m'.stop) →
      Search patterns hay m.stop ms → Search patterns hay pos (m :: ms)

/-- Every match names a pattern. -/
theorem Search.pattern_lt {patterns : List Bytes} {hay : Bytes} {pos : Nat} {ms : List Match}
    (h : Search patterns hay pos ms) : ∀ m ∈ ms, m.pattern < patterns.length := by
  induction h with
  | done => exact fun m hm => nomatch hm
  | next hoccurs _ _ ih =>
    intro m hm
    rcases List.mem_cons.mp hm with rfl | hm
    · obtain ⟨-, -, p, hp, -⟩ := hoccurs
      exact (List.getElem?_eq_some_iff.mp hp).1
    · exact ih m hm

/-- A search finds nothing exactly when there is nothing to find. -/
theorem Search.eq_nil_iff {patterns : List Bytes} {hay : Bytes} {pos : Nat} {ms : List Match}
    (h : Search patterns hay pos ms) :
    ms = [] ↔ ∀ m : Match, ¬ m.Occurs patterns hay pos := by
  cases h with
  | done hnone => exact iff_of_true rfl hnone
  | next hoccurs => exact iff_of_false (List.cons_ne_nil _ _) fun hnone => hnone _ hoccurs

/-- An automaton for `patterns`. -/
structure AhoCorasick (patterns : List Bytes) where
  findIter : Bytes → List Match
  search : ∀ hay, Search patterns hay 0 (findIter hay)

namespace AhoCorasick

variable {patterns : List Bytes} {hay : Bytes}

/-! ## A naive automaton -/

/-- Pattern `p` spans the haystack from behind `pos` up to `stop`. -/
def Ends (hay : Bytes) (pos stop : Nat) (p : Bytes) : Prop :=
  pos + p.length ≤ stop ∧ stop ≤ hay.length ∧
    ((hay.drop (stop - p.length)).take p.length).map toAsciiLowercase = p.map toAsciiLowercase

instance (hay : Bytes) (pos stop : Nat) (p : Bytes) : Decidable (Ends hay pos stop p) :=
  inferInstanceAs (Decidable (_ ∧ _))

/-- The first pattern that ends at `stop`. -/
def matchAt (patterns : List Bytes) (hay : Bytes) (pos stop : Nat) : Option Match :=
  (patterns.findIdx? fun p => Ends hay pos stop p).map fun i =>
    ⟨i, stop - (patterns.getD i []).length, stop⟩

/-- The matches that end at one of `stops`, in order. -/
def scan (patterns : List Bytes) (hay : Bytes) : Nat → List Nat → List Match
  | _, [] => []
  | pos, stop :: stops =>
    match matchAt patterns hay pos stop with
    | some m => m :: scan patterns hay stop stops
    | none => scan patterns hay pos stops

theorem matchAt_eq_some {pos stop : Nat} {m : Match} (h : matchAt patterns hay pos stop = some m) :
    m.Occurs patterns hay pos ∧ m.stop = stop := by
  obtain ⟨i, hi, rfl⟩ := Option.map_eq_some_iff.mp h
  obtain ⟨hlt, hends, -⟩ := List.findIdx?_eq_some_iff_getElem.mp hi
  obtain ⟨hpos, hstop, hspells⟩ := of_decide_eq_true hends
  have hp : patterns[i]? = some patterns[i] := List.getElem?_eq_getElem hlt
  rw [List.getD_eq_getElem?_getD, hp, Option.getD_some]
  exact ⟨⟨by dsimp only; omega, hstop, patterns[i], hp, by dsimp only; omega, hspells⟩, rfl⟩

theorem matchAt_eq_none {pos stop : Nat} (h : matchAt patterns hay pos stop = none) {m : Match}
    (hm : m.Occurs patterns hay pos) : m.stop ≠ stop := by
  rintro rfl
  obtain ⟨hpos, hstop, p, hp, hspan, hspells⟩ := hm
  have hnone := List.findIdx?_eq_none_iff.mp (Option.map_eq_none_iff.mp h) p
    (List.mem_of_getElem? hp)
  have hstart : m.stop - p.length = m.start := by omega
  refine of_decide_eq_false hnone ⟨by omega, hstop, ?_⟩
  rw [hstart]
  exact hspells

/-- Scanning from `stop` on, when nothing ends before it. -/
theorem scan_search (hne : ∀ p ∈ patterns, p ≠ []) (n : Nat) {pos stop : Nat}
    (hlen : stop + n = hay.length + 1)
    (hearliest : ∀ m : Match, m.Occurs patterns hay pos → stop ≤ m.stop) :
    Search patterns hay pos (scan patterns hay pos (List.range' stop n)) := by
  induction n generalizing pos stop with
  | zero =>
    refine .done fun m hm => ?_
    have hstop := hearliest m hm
    have hfits := hm.2.1
    omega
  | succ n ih =>
    rw [List.range'_succ, scan]
    split
    · rename_i m h
      obtain ⟨hoccurs, rfl⟩ := matchAt_eq_some h
      refine .next hoccurs hearliest (ih (by omega) fun m' hm' => ?_)
      obtain ⟨hpos, -, p, hp, hspan, -⟩ := hm'
      have hp := List.length_pos_iff.mpr (hne p (List.mem_of_getElem? hp))
      omega
    · rename_i h
      refine ih (by omega) fun m' hm' => ?_
      have hstop := hearliest m' hm'
      have hlater := matchAt_eq_none h hm'
      omega

/-- The automaton that tries every pattern at every position. -/
def naive (patterns : List Bytes) (hne : ∀ p ∈ patterns, p ≠ []) : AhoCorasick patterns where
  findIter hay := scan patterns hay 0 (List.range' 1 hay.length)
  search hay := by
    refine scan_search hne hay.length (Nat.add_comm ..) fun m hm => ?_
    obtain ⟨-, -, p, hp, hspan, -⟩ := hm
    have hp := List.length_pos_iff.mpr (hne p (List.mem_of_getElem? hp))
    omega

end AhoCorasick

end Ocellus
