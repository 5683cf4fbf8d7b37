import Ocellus.Ids.Strength

/-!
# The total of a list of signals

On finite scores `from_signals` never fails, and its result is a function of the
list (`fromSignals_eq`): the sum with its bonus and cap, the severity of that, and
the signals sorted. `scoring_monotone` says of it that the order of the signals
does not matter, and that one more signal never makes a packet look better.
-/

namespace Ocellus

open F32 (fin)

/-! ## Severities in order -/

def Severity.rank : Severity → Nat
  | .info => 0
  | .warning => 1
  | .alert => 2
  | .critical => 3

instance : LE Severity := ⟨fun a b => a.rank ≤ b.rank⟩

theorem Severity.fromScore_mono {a b : ℚ} (h : a ≤ b) :
    Severity.fromScore (.fin a) ≤ Severity.fromScore (.fin b) := by
  show (Severity.fromScore (.fin a)).rank ≤ (Severity.fromScore (.fin b)).rank
  unfold Severity.fromScore THRESHOLD_ALERT THRESHOLD_WARNING
  simp only [F32.fin_le]
  split_ifs <;> first | decide | (exfalso; linarith)

/-! ## Scores of at least zero -/

theorem F32.isFin_of_nonneg {a : F32} (h : fin 0 ≤ a) : a.IsFin := by
  cases a with
  | nan => cases h
  | fin q => exact ⟨q, rfl⟩

theorem Signal.points_nonneg {s : Signal} (h : fin 0 ≤ s.score) : 0 ≤ s.points := by
  obtain ⟨q, hq⟩ := F32.isFin_of_nonneg h
  rw [hq, F32.fin_le] at h
  rw [Signal.points, hq]
  exact h

namespace IdsResult

variable {ss ss' : List Signal} {flag : FlagReason} {r : IdsResult}

/-! ## What `from_signals` computes -/

/-- The sum of finite scores, as a number. -/
theorem sum_scores (hss : ∀ s ∈ ss, s.score.IsFin) (a : ℚ) :
    (ss.map Signal.score).foldl (· + ·) (.fin a) = .fin (a + (ss.map Signal.points).sum) := by
  induction ss generalizing a with
  | nil => simp
  | cons s ss ih =>
    obtain ⟨q, hq⟩ := hss s (List.mem_cons_self ..)
    have hpoints : s.points = q := by
      unfold Signal.points
      rw [hq]
    rw [List.map_cons, List.foldl_cons, hq, F32.fin_add,
      ih fun s' hs' => hss s' (List.mem_cons_of_mem s hs'), List.map_cons, List.sum_cons, hpoints,
      add_assoc]

/-- The total of signals: the sum, the bonus for two or more, at most 100. -/
def total (ss : List Signal) : ℚ :=
  min ((ss.map Signal.points).sum + if 2 ≤ ss.length then 10 else 0) 100

/-- On finite scores no comparison fails, and the total is a number. -/
theorem fromSignals_eq (hss : ∀ s ∈ ss, s.score.IsFin) (flag : FlagReason) :
    fromSignals ss flag = .ok {
      totalScore := .fin (total ss), severity := Severity.fromScore (.fin (total ss))
      flagReason := flag, signals := sortSignals ss } := by
  have htotal : F32.min (F32.sum (ss.map Signal.score)
      + if 2 ≤ ss.length then CORRELATION_BONUS else F32.fin 0) (.fin 100) = .fin (total ss) := by
    have hbonus : (if 2 ≤ ss.length then CORRELATION_BONUS else F32.fin 0)
        = .fin (if 2 ≤ ss.length then 10 else 0) := by
      split <;> rfl
    rw [F32.sum, sum_scores hss, zero_add, hbonus, F32.fin_add, F32.min_fin, total]
  unfold fromSignals
  rw [sortBy_byScoreDesc hss, Checked.ok_bind, htotal]
  rfl

/-- The signals of a result are in descending order. -/
theorem pairwise_sortSignals (hss : ∀ s ∈ ss, s.score.IsFin) :
    (sortSignals ss).Pairwise fun a b => b.score ≤ a.score := by
  have hpoints : ∀ s ∈ ss, s.score = .fin s.points := by
    intro s hs
    obtain ⟨q, hq⟩ := hss s hs
    rw [Signal.points, hq]
  have hle : ∀ a ∈ ss, ∀ b ∈ ss, b.score ≤ a.score ↔ a.points ≥ b.points := by
    intro a ha b hb
    rw [hpoints a ha, hpoints b hb]
    exact F32.fin_le
  have hsorted : ((sortSignals ss).map Signal.points).Pairwise (· ≥ ·) := by
    rw [sortSignals, List.map_insertionSort _ (· ≥ ·) Signal.points ss hle]
    exact List.pairwise_insertionSort _ _
  refine (List.pairwise_map.mp hsorted).imp_of_mem fun {a b} ha hb h => ?_
  exact (hle a (mem_sortSignals.mp ha) b (mem_sortSignals.mp hb)).mpr h

/-! ## Order and growth -/

theorem total_perm (h : ss'.Perm ss) : total ss' = total ss := by
  rw [total, total, (h.map Signal.points).sum_eq, h.length_eq]

theorem total_le_hundred (ss : List Signal) : total ss ≤ 100 := min_le_right _ _

theorem bonus_nonneg (n : Nat) : (0 : ℚ) ≤ if 2 ≤ n then 10 else 0 := by
  split <;> norm_num

theorem total_nonneg (hss : ∀ s ∈ ss, 0 ≤ s.points) : 0 ≤ total ss := by
  have hsum : 0 ≤ (ss.map Signal.points).sum := by
    refine List.sum_nonneg fun x hx => ?_
    obtain ⟨s, hs, rfl⟩ := List.mem_map.mp hx
    exact hss s hs
  exact le_min (add_nonneg hsum (bonus_nonneg ss.length)) (by norm_num)

/-- One more signal brings its score, and the bonus if it is the second. -/
theorem total_le_cons {s : Signal} (hs : 0 ≤ s.points) (ss : List Signal) :
    total ss ≤ total (s :: ss) := by
  have hsum : (ss.map Signal.points).sum ≤ ((s :: ss).map Signal.points).sum := by
    rw [List.map_cons, List.sum_cons]
    linarith
  have hbonus : (if 2 ≤ ss.length then (10 : ℚ) else 0)
      ≤ if 2 ≤ (s :: ss).length then 10 else 0 := by
    rw [List.length_cons]
    split_ifs with h h'
    · exact le_rfl
    · exact absurd (Nat.le_succ_of_le h) h'
    · norm_num
    · exact le_rfl
  exact min_le_min_right 100 (add_le_add hsum hbonus)

/-- **Scoring is order-independent and monotone.** Signals with scores of at least
0 make a result with a total in 0..100 and the signals in descending order; the
same signals in another order make the same total and severity, and any further
signal lowers neither, and makes no result clean that was not. -/
theorem scoring_monotone (hss : ∀ s ∈ ss, F32.fin 0 ≤ s.score) (flag : FlagReason) :
    (fromSignals ss flag).Returns fun r =>
      (F32.fin 0 ≤ r.totalScore ∧ r.totalScore ≤ F32.fin 100 ∧ r.signals.Perm ss ∧
        r.signals.Pairwise fun a b => b.score ≤ a.score) ∧
      (∀ ss' flag', ss'.Perm ss → (fromSignals ss' flag').Returns fun r' =>
        r'.totalScore = r.totalScore ∧ r'.severity = r.severity) ∧
      ∀ s ss' flag', F32.fin 0 ≤ s.score → ss'.Perm (s :: ss) →
        (fromSignals ss' flag').Returns fun r' =>
          r.totalScore ≤ r'.totalScore ∧ r.severity ≤ r'.severity ∧
            (r.isClean = false → r'.isClean = false) := by
  have hfin := fun s hs => F32.isFin_of_nonneg (hss s hs)
  rw [fromSignals_eq hfin]
  refine .ok ⟨⟨?_, ?_, List.perm_insertionSort _ ss, pairwise_sortSignals hfin⟩, ?_, ?_⟩
  · exact F32.fin_le.mpr (total_nonneg fun s hs => Signal.points_nonneg (hss s hs))
  · exact F32.fin_le.mpr (total_le_hundred ss)
  · intro ss' flag' hperm
    rw [fromSignals_eq fun s hs => hfin s (hperm.mem_iff.mp hs)]
    rw [total_perm hperm]
    exact .ok ⟨rfl, rfl⟩
  · intro s ss' flag' hs hperm
    have hmore : ∀ x ∈ ss', F32.fin 0 ≤ x.score := by
      intro x hx
      rcases List.mem_cons.mp (hperm.mem_iff.mp hx) with rfl | hx
      · exact hs
      · exact hss x hx
    have hle : total ss ≤ total ss' := by
      rw [total_perm hperm]
      exact total_le_cons (Signal.points_nonneg hs) ss
    rw [fromSignals_eq fun x hx => F32.isFin_of_nonneg (hmore x hx)]
    refine .ok ⟨F32.fin_le.mpr hle, Severity.fromScore_mono hle, fun hclean => ?_⟩
    have hold : ¬ total ss < 30 := fun h =>
      of_decide_eq_false hclean (F32.fin_lt.mpr h)
    exact decide_eq_false fun h => hold (hle.trans_lt (F32.fin_lt.mp h))

/-- A port never seen and a payload signature in either order, and a blacklisted
address with them. -/
theorem scoring_monotone_port_and_payload :
    (fromSignals [⟨.unusualPort, fin 20, .port 4444⟩, ⟨.cmdExec, fin 70, .payload .cmdExec 0⟩]
      .unspecified).Returns fun r =>
        ((fromSignals [⟨.cmdExec, fin 70, .payload .cmdExec 0⟩,
          ⟨.unusualPort, fin 20, .port 4444⟩] .payloadSig).Returns fun r' =>
            r'.totalScore = r.totalScore ∧ r'.severity = r.severity) ∧
        (fromSignals [⟨.blacklistedIp, fin 90, .ipMatched (.v4 1)⟩,
          ⟨.unusualPort, fin 20, .port 4444⟩, ⟨.cmdExec, fin 70, .payload .cmdExec 0⟩]
          .blacklisted).Returns fun r' =>
            r.totalScore ≤ r'.totalScore ∧ r.severity ≤ r'.severity ∧
              (r.isClean = false → r'.isClean = false) := by
  refine (scoring_monotone (by decide) .unspecified).mono fun r h => ⟨?_, ?_⟩
  · exact h.2.1 _ .payloadSig (List.Perm.swap ..)
  · exact h.2.2 _ _ .blacklisted (by decide) (List.Perm.refl _)

end IdsResult

end Ocellus
