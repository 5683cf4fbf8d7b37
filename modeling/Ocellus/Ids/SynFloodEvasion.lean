import Ocellus.Base.TumblingAlarm
import Ocellus.Ids.HalfOpen
import Ocellus.Ids.SourceIsolation

/-!
# Evading SYN-flood detection

Seen from one source, and with exact ratios, the detector is a `TumblingAlarm`: SYNs are
the marks, segments that bear an ACK the credits, and the alarm is the flood verdict. The
verdict is silent only on fewer than 50 SYNs or on fewer than 5 for each ACK, so
a window misses at most 49 SYNs and 5 for each of its ACKs (`le_of_not_floods`).
An interval of 10 s meets two windows: `missedSyns_le`.
-/

namespace Ocellus

namespace SynFloodDetector

open Entry (countIn)

/-- A segment of `src` without ACK that has its SYN bit set, and on which no
flood was reported. -/
def isMissedSyn (src : IpAddr) : Entry Segment (List Signal) → Bool
  | .inspect _ p o => isFrom src p && p.isSyn && !emitsSynFlood o
  | .sweep _ => false

/-- A SYN of `src` on which a flood was reported. -/
def isReportedSyn (src : IpAddr) : Entry Segment (List Signal) → Bool
  | .inspect _ p o => isFrom src p && p.isSyn && emitsSynFlood o
  | .sweep _ => false

/-- A SYN of `src`. -/
def isSynOf (src : IpAddr) : Entry Segment (List Signal) → Bool
  | .inspect _ p _ => isFrom src p && p.isSyn
  | .sweep _ => false

/-- A segment of `src` with its ACK bit set. -/
def isAckOf (src : IpAddr) : Entry Segment (List Signal) → Bool
  | .inspect _ p _ => isFrom src p && hasFlag p.flags TCP_ACK
  | .sweep _ => false

/-- The number of entries with `P` between `lo` and `hi`, both included. -/
def within (P : Entry Segment (List Signal) → Bool) (lo hi : Nat) (tr : Trace) : Nat :=
  tr.countP fun e => P e && decide (lo ≤ e.time ∧ e.time ≤ hi)

theorem within_eq (P : Entry Segment (List Signal) → Bool) (lo hi : Nat) (tr : Trace) :
    within P lo hi tr = countIn P lo (hi + 1) tr := by
  unfold within countIn
  simp only [Nat.lt_succ_iff]

/-! ## The verdict -/

/-- The verdict on `m` SYNs and `n` ACKs. -/
def floods (m n : Nat) : Bool := flooding .exact ⟨m, n, 0⟩

/-- **Silence has its price**: no flood is seen in more than 49 SYNs only if
there is an ACK to every five of them. -/
theorem le_of_not_floods {m n : Nat} (h : floods m n = false) : m ≤ 49 + 5 * n := by
  unfold floods flooding PerIpCounters.synAckRatio synAckRatioThreshold at h
  simp only [Rounding.exact, id] at h
  rcases (Bool.and_eq_false_iff).mp h with hfew | hratio
  · have : ¬ 50 ≤ m := of_decide_eq_false hfew
    omega
  · have hlow := not_le.mp (of_decide_eq_false hratio)
    by_cases hn : n = 0
    · rw [if_pos hn] at hlow
      have : m < 5 := by exact_mod_cast hlow
      omega
    · rw [if_neg hn, div_lt_iff₀ (by exact_mod_cast Nat.pos_of_ne_zero hn)] at hlow
      have : m < 5 * n := by exact_mod_cast hlow
      omega

/-! ## One source -/

/-- The counters of a source, as an alarm. -/
def alarmView (k : PerIpCounters) : TumblingAlarm := ⟨k.syns, k.acks, k.lastReset⟩

/-- The alarm of one source. -/
def source : Component (Option TumblingAlarm) (Bool × Bool) Bool :=
  TumblingAlarm.component PerIpCounters.window (PerIpCounters.window * 10) floods

/-- The segments of one source, by SYN and ACK, with whether a flood was reported. -/
def selectSource (src : IpAddr) (p : Segment) (o : List Signal) :
    Option ((Bool × Bool) × Bool) :=
  if isFrom src p then some ((p.isSyn, hasFlag p.flags TCP_ACK), emitsSynFlood o) else none

/-- A segment counts as an ACK if it bears one, with or without a SYN. -/
theorem isAck_or_isSynAck (p : Segment) : (p.isAck || p.isSynAck) = hasFlag p.flags TCP_ACK := by
  unfold Segment.isAck Segment.isSynAck Segment.isSyn
  cases hasFlag p.flags TCP_SYN <;> cases hasFlag p.flags TCP_ACK <;> rfl

/-- Counting a segment is counting its mark and its credit. -/
theorem alarmView_counted {fp : Rounding} (t : Nat) (p : Segment) (d : SynFloodDetector fp) :
    alarmView (counted t p d)
      = TumblingAlarm.count (p.isSyn, hasFlag p.flags TCP_ACK)
          (TumblingAlarm.reset PerIpCounters.window t
            (((d.counters.lookup p.srcIp).map alarmView).getD ⟨0, 0, t⟩)) := by
  have hreset : ∀ k : PerIpCounters, alarmView (k.maybeReset t)
      = TumblingAlarm.reset PerIpCounters.window t (alarmView k) := by
    intro k
    unfold PerIpCounters.maybeReset TumblingAlarm.reset
    split
    · rename_i hover
      exact (if_pos hover).symm
    · rename_i hover
      exact (if_neg hover).symm
  have hcurrent : alarmView (current t p d) = TumblingAlarm.reset PerIpCounters.window t
      (((d.counters.lookup p.srcIp).map alarmView).getD ⟨0, 0, t⟩) := by
    unfold current
    rw [hreset]
    cases d.counters.lookup p.srcIp <;> rfl
  rw [← hcurrent, ← isAck_or_isSynAck]
  rfl

/-- Seen from one source, a run is a run of its alarm. -/
theorem run_source {tr : Trace} {c : Nat} {d : SynFloodDetector .exact} (src : IpAddr)
    (h : component.Run new tr c d) :
    ∃ c' ≤ c, source.Run none (tr.filterMap (Entry.project (selectSource src))) c'
      ((d.counters.lookup src).map alarmView) := by
  refine h.project (fun d => (d.counters.lookup src).map alarmView) (selectSource src) ?_ ?_ ?_
  · intro t p d o d' hstep hsel
    have hother : isFrom src p = false := by
      unfold selectSource at hsel
      split at hsel
      · cases hsel
      · rename_i hne
        simpa using hne
    rw [(unwinding src).skip hother hstep]
  · intro t p d o d' a o' hstep hsel
    unfold selectSource at hsel
    split at hsel
    · rename_i hmine
      cases hsel
      obtain rfl : p.srcIp = src := of_decide_eq_true hmine
      obtain ⟨rfl, rfl⟩ := Prod.mk.inj (inspect_eq_ok hstep)
      have hverdict : emitsSynFlood (segmentSignals t p d) = flooding .exact (counted t p d) := by
        rw [segmentSignals, emitsSynFlood_append_other, emitsSynFlood_ratio]
      have hstate : (segmentState t p d).counters.lookup p.srcIp = some (counted t p d) := by
        rw [segmentState, Table.lookup_insert_eq, if_pos rfl]
      have hfloods : flooding .exact (counted t p d)
          = floods (alarmView (counted t p d)).marks (alarmView (counted t p d)).credits := rfl
      show Except.ok _ = Except.ok (emitsSynFlood (segmentSignals t p d),
        ((segmentState t p d).counters.lookup p.srcIp).map alarmView)
      rw [hverdict, hfloods, hstate, Option.map_some, alarmView_counted]
    · cases hsel
  · intro t d
    show ((sweep t d).counters.lookup src).map alarmView = _
    rw [sweep, Table.lookup_retain]
    cases d.counters.lookup src with
    | none => rfl
    | some k =>
      exact apply_ite (Option.map alarmView) _ (some k) none

/-! ## Intervals -/

variable {tr : Trace} {c : Nat} {d : SynFloodDetector .exact} {src : IpAddr} {lo hi : Nat}

theorem countIn_isMissed (src : IpAddr) (lo hi : Nat) (tr : Trace) :
    countIn TumblingAlarm.isMissed lo hi (tr.filterMap (Entry.project (selectSource src)))
      = countIn (isMissedSyn src) lo hi tr := by
  refine Entry.countIn_filterMap (fun e => ?_) lo hi tr
  cases e with
  | inspect t p o =>
    cases hsrc : isFrom src p <;>
      simp [isMissedSyn, Entry.project, selectSource, TumblingAlarm.isMissed, hsrc]
  | sweep t => rfl

theorem countIn_isCredit (src : IpAddr) (lo hi : Nat) (tr : Trace) :
    countIn TumblingAlarm.isCredit lo hi (tr.filterMap (Entry.project (selectSource src)))
      = countIn (isAckOf src) lo hi tr := by
  refine Entry.countIn_filterMap (fun e => ?_) lo hi tr
  cases e with
  | inspect t p o =>
    cases hsrc : isFrom src p <;>
      simp [isAckOf, Entry.project, selectSource, TumblingAlarm.isCredit, hsrc]
  | sweep t => rfl

/-- The bound on what is missed, for any run. -/
theorem within_isMissedSyn_le (h : component.Run new tr c d) (src : IpAddr)
    (hlen : hi ≤ lo + secs 10) :
    within (isMissedSyn src) lo hi tr
      ≤ 98 + 5 * within (isAckOf src) (lo - secs 10) (hi + secs 10) tr := by
  obtain ⟨c', -, hsource⟩ := run_source src h
  have hwindow : hi + 1 ≤ lo + PerIpCounters.window + 1 := Nat.succ_le_succ hlen
  have hbound := TumblingAlarm.missed_le (by decide) (by decide) (fun _ _ => le_of_not_floods)
    hsource hwindow
  rw [countIn_isMissed, countIn_isCredit] at hbound
  rw [within_eq, within_eq, Nat.add_right_comm hi (secs 10) 1]
  exact hbound

/-- A SYN is reported or missed. -/
theorem within_isSynOf (src : IpAddr) (lo hi : Nat) (tr : Trace) :
    within (isSynOf src) lo hi tr
      = within (isReportedSyn src) lo hi tr + within (isMissedSyn src) lo hi tr := by
  -- the calls of `tr`, by whether a flood was reported
  have hcases := List.countP_eq_countP_filter_add tr
    (fun e => isSynOf src e && decide (lo ≤ e.time ∧ e.time ≤ hi)) (isReportedSyn src)
  rw [List.countP_filter, List.countP_filter] at hcases
  refine hcases.trans (congrArg₂ (· + ·) (List.countP_congr fun e _ => ?_)
    (List.countP_congr fun e _ => ?_))
  all_goals
    cases e with
    | inspect t p o =>
      simp only [isSynOf, isReportedSyn, isMissedSyn]
      cases isFrom src p <;> cases p.isSyn <;> cases emitsSynFlood o <;> simp
    | sweep t => simp [isSynOf, isReportedSyn, isMissedSyn]

/-- **Bounded evasion of SYN-flood detection**: in every run, within an interval
no longer than 10 s, a source gets at most 98 SYNs and 5 for each ACK it sends in
the interval widened by 10 s on each side past the detector unreported; one that
never sends an ACK is reported on all but 98 of its SYNs. -/
theorem missedSyns_le (h : component.Run new tr c d) (src : IpAddr) (hlen : hi ≤ lo + secs 10) :
    within (isMissedSyn src) lo hi tr
        ≤ 98 + 5 * within (isAckOf src) (lo - secs 10) (hi + secs 10) tr ∧
      ((∀ e ∈ tr, isAckOf src e = false) →
        within (isSynOf src) lo hi tr ≤ within (isReportedSyn src) lo hi tr + 98) := by
  have hbound := within_isMissedSyn_le h src hlen
  refine ⟨hbound, fun hnone => ?_⟩
  have hzero : within (isAckOf src) (lo - secs 10) (hi + secs 10) tr = 0 := by
    refine List.countP_eq_zero.mpr fun e he => ?_
    rw [hnone e he, Bool.false_and]
    exact Bool.false_ne_true
  rw [hzero] at hbound
  rw [within_isSynOf]
  exact Nat.add_le_add_left hbound _

/-- Sixty SYNs, and another sixty when the window has been reset. -/
def twoFloods : List (Event Segment) :=
  List.replicate 60 (.inspect 0 synSegment) ++ .sweep (secs 5)
    :: List.replicate 60 (.inspect (secs 10) synSegment)

/-- Of these, as many are missed as can be. -/
theorem missedSyns_le_two_floods :
    ∃ tr c, ∃ d : SynFloodDetector .exact, component.Run new tr c d ∧
      tr.map Entry.event = twoFloods ∧
      within (isMissedSyn synSegment.srcIp) 0 (secs 10) tr = 98 ∧
      within (isMissedSyn synSegment.srcIp) 0 (secs 10) tr
        ≤ 98 + 5 * within (isAckOf synSegment.srcIp) (0 - secs 10) (secs 10 + secs 10) tr ∧
      within (isSynOf synSegment.srcIp) 0 (secs 10) tr
        ≤ within (isReportedSyn synSegment.srcIp) 0 (secs 10) tr + 98 := by
  have hperform : (component.perform (new : SynFloodDetector .exact) twoFloods).Returns fun r =>
      r.1.map Entry.event = twoFloods ∧
      within (isMissedSyn synSegment.srcIp) 0 (secs 10) r.1 = 98 ∧
      ∀ e ∈ r.1, isAckOf synSegment.srcIp e = false := by
    decide +kernel
  obtain ⟨⟨tr, d⟩, hperform, hevents, hmissed, hnoAck⟩ := hperform
  obtain ⟨c, hrun⟩ := Component.Run.nil.perform (fun _ _ => Nat.zero_le _) (by decide +kernel) hperform
  obtain ⟨hbound, hsilent⟩ :=
    missedSyns_le hrun synSegment.srcIp (show secs 10 ≤ 0 + secs 10 by decide)
  exact ⟨tr, c, d, hrun, hevents, hmissed, hbound, hsilent hnoAck⟩

end SynFloodDetector

end Ocellus
