import Ocellus.Ids.EngineSafety
import Ocellus.Ids.Strength

/-!
# Which detector names the reason

`IdsResult` documents its `flag_reason` as that of the highest-scoring signal.
`analyze` gives it to the first detector that fires: the detectors bid for the
reason, in order, and the two agree exactly when the first positive strength
among the bids is the highest (`Collected.strongest_signal_iff`).
-/

namespace Ocellus

/-! ## What is documented -/

/-- The flag is unspecified when no signal bears a reason, and otherwise is the
reason of a signal that none with a reason outscores. -/
def IdsResult.FlagOfStrongest (r : IdsResult) : Prop :=
  (r.flagReason = .unspecified ↔ ∀ s ∈ r.signals, s.name.reason = none) ∧
  (r.flagReason ≠ .unspecified → ∃ s ∈ r.signals, s.name.reason = some r.flagReason ∧
    ∀ s' ∈ r.signals, s'.name.reason ≠ none → s'.score ≤ s.score)

instance (r : IdsResult) : Decidable r.FlagOfStrongest := inferInstanceAs (Decidable (_ ∧ _))

/-! ## Bids -/

/-- A reason, with the signals of a detector that bids for it. -/
abbrev Bid := FlagReason × List Signal

/-- The first bid with a signal wins. -/
def flagOf : List Bid → FlagReason
  | [] => .unspecified
  | (reason, ss) :: bids => if ss = [] then flagOf bids else reason

/-- The first positive strength is the highest of all. -/
def FirstIsStrongest : List ℚ → Prop
  | [] => True
  | q :: qs => if q = 0 then FirstIsStrongest qs else ∀ q' ∈ qs, q' ≤ q

def decFirstIsStrongest : (qs : List ℚ) → Decidable (FirstIsStrongest qs)
  | [] => .isTrue trivial
  | q :: qs =>
    have := decFirstIsStrongest qs
    inferInstanceAs (Decidable (if q = 0 then FirstIsStrongest qs else ∀ q' ∈ qs, q' ≤ q))

instance : DecidablePred FirstIsStrongest := decFirstIsStrongest

/-- Bids under the names of real reasons. -/
def Named (bids : List Bid) : Prop := ∀ b ∈ bids, b.1 ≠ .unspecified ∧ Graded (some b.1) b.2

theorem Named.tail {b : Bid} {bids : List Bid} (h : Named (b :: bids)) : Named bids :=
  fun b' hb' => h b' (List.mem_cons_of_mem b hb')

theorem flagOf_concat {bids : List Bid} (h : Named bids) (reason : FlagReason)
    (ss : List Signal) :
    flagOf (bids ++ [(reason, ss)])
      = if flagOf bids = .unspecified ∧ ss ≠ [] then reason else flagOf bids := by
  induction bids with
  | nil => by_cases hss : ss = [] <;> simp [flagOf, hss]
  | cons b bids ih =>
    obtain ⟨reason', ss'⟩ := b
    have hreason : reason' ≠ .unspecified := (h _ (List.mem_cons_self ..)).1
    by_cases hss' : ss' = []
    · simpa [flagOf, hss'] using ih h.tail
    · simp [flagOf, hss', hreason]

/-- Nobody wins when nobody bids. -/
theorem flagOf_eq_unspecified {bids : List Bid} (h : Named bids) :
    flagOf bids = .unspecified ↔ ∀ b ∈ bids, b.2 = [] := by
  induction bids with
  | nil => simp [flagOf]
  | cons b bids ih =>
    obtain ⟨reason, ss⟩ := b
    have hreason : reason ≠ .unspecified := (h _ (List.mem_cons_self ..)).1
    by_cases hss : ss = []
    · simpa [flagOf, hss] using ih h.tail
    · simp [flagOf, hss, hreason]

/-- Of two bids for one reason, the later is not the stronger, unless the earlier
is empty. -/
def Tie (b b' : Bid) : Prop := b.1 = b'.1 → b.2 ≠ [] → strength b'.2 ≤ strength b.2

/-- Bids for different reasons never tie. -/
theorem pairwise_tie_of_nodup {bids : List Bid} (h : (bids.map Prod.fst).Nodup) :
    bids.Pairwise Tie :=
  (List.pairwise_map.mp h).imp fun hne heq => absurd heq hne

/-- The winner's reason is that of a strongest bid exactly when the first
positive strength is the highest. -/
theorem strongest_iff {bids : List Bid} (h : Named bids) (htie : bids.Pairwise Tie) :
    (flagOf bids ≠ .unspecified → ∃ b ∈ bids, b.1 = flagOf bids ∧ b.2 ≠ [] ∧
        ∀ b' ∈ bids, strength b'.2 ≤ strength b.2)
      ↔ FirstIsStrongest (bids.map fun b => strength b.2) := by
  induction bids with
  | nil => exact iff_of_true (fun hne => absurd rfl hne) trivial
  | cons b bids ih =>
    obtain ⟨hhead, htail⟩ := List.pairwise_cons.mp htie
    obtain ⟨reason, ss⟩ := b
    obtain ⟨hreason, hgraded⟩ := h _ (List.mem_cons_self ..)
    by_cases hss : ss = []
    · -- an empty bid changes nothing
      subst hss
      rw [List.map_cons, FirstIsStrongest, if_pos strength_nil, ← ih h.tail htail]
      refine imp_congr_right fun _ => ?_
      constructor
      · rintro ⟨b, hb, hflag, hne, hmax⟩
        rcases List.mem_cons.mp hb with rfl | hb
        · exact absurd rfl hne
        · exact ⟨b, hb, hflag, hne, fun b' hb' => hmax b' (List.mem_cons_of_mem _ hb')⟩
      · rintro ⟨b, hb, hflag, hne, hmax⟩
        refine ⟨b, List.mem_cons_of_mem _ hb, hflag, hne, fun b' hb' => ?_⟩
        rcases List.mem_cons.mp hb' with rfl | hb'
        · exact strength_nonneg b.2
        · exact hmax b' hb'
    · -- the first bid with a signal sets the flag, so it must not be outdone
      have hstrength : strength ss ≠ 0 := mt hgraded.strength_eq_zero_iff.mp hss
      have hflag : flagOf ((reason, ss) :: bids) = reason := if_neg hss
      rw [List.map_cons, FirstIsStrongest, if_neg hstrength, hflag]
      constructor
      · intro hstrongest q hq
        obtain ⟨b', hb', rfl⟩ := List.mem_map.mp hq
        obtain ⟨b, hb, hname, hne, hmax⟩ := hstrongest hreason
        have hle := hmax b' (List.mem_cons_of_mem _ hb')
        rcases List.mem_cons.mp hb with rfl | hb
        · exact hle
        · exact hle.trans (hhead b hb hname.symm hss)
      · intro hmax _
        refine ⟨(reason, ss), List.mem_cons_self .., rfl, hss, fun b' hb' => ?_⟩
        rcases List.mem_cons.mp hb' with rfl | hb'
        · exact le_refl _
        · exact hmax _ (List.mem_map_of_mem hb')

/-! ## Findings as bids -/

/-- The findings are those of the bids, in their order, and of detectors that do
not bid. -/
structure Collected (f : Findings) (bids : List Bid) : Prop where
  flag : f.primaryFlag = flagOf bids
  bearing : f.signals.filter (fun s => s.name.reason.isSome) = bids.flatMap Prod.snd
  named : Named bids
  sound : f.Sound

namespace Findings

theorem raise_primaryFlag (reason : FlagReason) (ss : List Signal) (f : Findings) :
    (f.raise reason ss).primaryFlag
      = if f.primaryFlag = .unspecified ∧ ss ≠ [] then reason else f.primaryFlag := by
  induction ss generalizing f with
  | nil => simp [raise]
  | cons s ss ih =>
    show (raise reason ss _).primaryFlag = _
    rw [ih]
    by_cases hflag : f.primaryFlag = .unspecified
    · simp [hflag]
    · simp [hflag]

/-- Two bids of one detector are one. -/
theorem raise_raise (reason : FlagReason) (ss ss' : List Signal) (f : Findings) :
    (f.raise reason ss).raise reason ss' = f.raise reason (ss ++ ss') :=
  List.foldl_append.symm

end Findings

namespace Collected

variable {f : Findings} {bids : List Bid} {ss : List Signal} {reason : FlagReason}

theorem empty : Collected .empty [] :=
  ⟨rfl, rfl, fun _ h => absurd h List.not_mem_nil, Findings.sound_empty⟩

theorem raise (h : Collected f bids) (hreason : reason ≠ .unspecified)
    (hss : Graded (some reason) ss) : Collected (f.raise reason ss) (bids ++ [(reason, ss)]) := by
  have hbears : ss.filter (fun s => s.name.reason.isSome) = ss :=
    List.filter_eq_self.mpr fun s hs => by rw [(hss s hs).1, Option.isSome_some]
  refine ⟨?_, ?_, fun b hb => ?_, h.sound.raise hss reason⟩
  · rw [Findings.raise_primaryFlag, h.flag, flagOf_concat h.named]
  · rw [Findings.raise_signals, List.filter_append, h.bearing, hbears, List.flatMap_append]
    simp
  · rcases List.mem_append.mp hb with hb | hb
    · exact h.named b hb
    · rw [List.mem_singleton.mp hb]
      exact ⟨hreason, hss⟩

theorem note (h : Collected f bids) (hss : Graded none ss) : Collected (f.note ss) bids := by
  have hsilent : ss.filter (fun s => s.name.reason.isSome) = [] :=
    List.filter_eq_nil_iff.mpr fun s hs => by rw [(hss s hs).1]; simp
  refine ⟨h.flag, ?_, h.named, h.sound.note hss⟩
  rw [Findings.note_signals, List.filter_append, h.bearing, hsilent, List.append_nil]

/-- A signal bears a reason when it comes from a bid, for that reason. -/
theorem mem_iff (h : Collected f bids) {s : Signal} :
    s ∈ f.signals ∧ s.name.reason ≠ none ↔ ∃ b ∈ bids, s ∈ b.2 := by
  have hmem : s ∈ f.signals.filter (fun s => s.name.reason.isSome) ↔ s ∈ bids.flatMap Prod.snd := by
    rw [h.bearing]
  rw [List.mem_filter, List.mem_flatMap, Option.isSome_iff_ne_none] at hmem
  exact hmem

/-- The signals of a bid are found, and bear its reason. -/
theorem of_mem_bid (h : Collected f bids) {b : Bid} (hb : b ∈ bids) {s : Signal} (hs : s ∈ b.2) :
    s ∈ f.signals ∧ s.name.reason = some b.1 ∧ s.score = .fin s.points := by
  have hgraded := (h.named b hb).2
  exact ⟨(h.mem_iff.mpr ⟨b, hb, hs⟩).1, (hgraded s hs).1, (hgraded.score_eq hs).1⟩

/-- No signal bears a reason when nobody bids. -/
theorem silent_iff (h : Collected f bids) :
    (∀ s ∈ f.signals, s.name.reason = none) ↔ ∀ b ∈ bids, b.2 = [] := by
  constructor
  · intro hnone b hb
    refine List.eq_nil_iff_forall_not_mem.mpr fun s hs => ?_
    obtain ⟨hmem, hreason, -⟩ := h.of_mem_bid hb hs
    rw [hnone s hmem] at hreason
    cases hreason
  · intro hnil s hs
    by_contra hne
    obtain ⟨b, hb, hs⟩ := h.mem_iff.mp ⟨hs, hne⟩
    rw [hnil b hb] at hs
    cases hs

/-- A signal that none outscores comes from a strongest bid. -/
theorem strongest_bid_iff (h : Collected f bids) {reason : FlagReason} :
    (∃ s ∈ f.signals, s.name.reason = some reason ∧
        ∀ s' ∈ f.signals, s'.name.reason ≠ none → s'.score ≤ s.score)
      ↔ ∃ b ∈ bids, b.1 = reason ∧ b.2 ≠ [] ∧ ∀ b' ∈ bids, strength b'.2 ≤ strength b.2 := by
  constructor
  · rintro ⟨s, hs, hname, hmax⟩
    obtain ⟨b, hb, hsb⟩ := h.mem_iff.mp ⟨hs, by rw [hname]; exact Option.some_ne_none _⟩
    obtain ⟨-, hreason, hscore⟩ := h.of_mem_bid hb hsb
    have hsame : b.1 = reason := Option.some.inj (hreason.symm.trans hname)
    refine ⟨b, hb, hsame, List.ne_nil_of_mem hsb, fun b' hb' => ?_⟩
    rcases (strength_nonneg b'.2).eq_or_lt with hzero | hpos
    · rw [← hzero]
      exact strength_nonneg b.2
    · obtain ⟨s', hs', heq⟩ := exists_points_eq_strength hpos
      obtain ⟨hmem', hreason', hscore'⟩ := h.of_mem_bid hb' hs'
      have hle := hmax s' hmem' (by rw [hreason']; exact Option.some_ne_none _)
      rw [hscore, hscore', F32.fin_le, heq] at hle
      exact hle.trans (points_le_strength hsb)
  · rintro ⟨b, hb, rfl, hne, hmax⟩
    -- the strongest signal of the bid is the one that is asked for
    have hpos : 0 < strength b.2 := by
      refine lt_of_le_of_ne (strength_nonneg b.2) (Ne.symm ?_)
      exact mt (h.named b hb).2.strength_eq_zero_iff.mp hne
    obtain ⟨s, hs, heq⟩ := exists_points_eq_strength hpos
    obtain ⟨hmem, hreason, hscore⟩ := h.of_mem_bid hb hs
    refine ⟨s, hmem, hreason, fun s' hmem' hne' => ?_⟩
    obtain ⟨b', hb', hs'⟩ := h.mem_iff.mp ⟨hmem', hne'⟩
    rw [hscore, (h.of_mem_bid hb' hs').2.2, F32.fin_le, heq]
    exact (points_le_strength hs').trans (hmax b' hb')

/-- **The flag is that of a strongest signal** exactly when the first positive
strength among the bids is the highest. -/
theorem strongest_signal_iff {r : IdsResult} (h : Collected f bids) (htie : bids.Pairwise Tie)
    (hr : IdsResult.fromSignals f.signals f.primaryFlag = .ok r) :
    r.FlagOfStrongest ↔ FirstIsStrongest (bids.map fun b => strength b.2) := by
  obtain ⟨r', hr', hflag, hsorted⟩ := IdsResult.fromSignals_returns f.primaryFlag h.sound
  rw [hr] at hr'
  obtain rfl := Except.ok.inj hr'
  have hsignals : ∀ s, s ∈ r.signals ↔ s ∈ f.signals := by
    intro s
    rw [hsorted, IdsResult.mem_sortSignals]
  unfold IdsResult.FlagOfStrongest
  simp only [hsignals, hflag, h.flag]
  rw [h.silent_iff, h.strongest_bid_iff, flagOf_eq_unspecified h.named, and_iff_right Iff.rfl]
  exact strongest_iff h.named htie

end Collected

end Ocellus
