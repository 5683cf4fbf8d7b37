import Ocellus.Base.Clock
import Ocellus.Base.Component

/-!
# Tumbling windows

A counter that adds up the amounts of its calls and starts again from zero when
a call finds its window of length `w` over. A call passes if other checks let it
through and, its own amount included, the total is within `limit`. The counter
is created on demand, and a sweep drops it once it has not been called for `ttl`,
which is longer than a window.

Windows start at calls, so an interval can straddle two of them, but no more if
it is no longer than a window: `passed_le` bounds what passes in it by twice the
limit. The invariant (`Tumbling.Inv`) looks at the current window and at the one
before it.
-/

namespace Ocellus

/-- The counter of a tumbling window. -/
structure Tumbling where
  total : Nat
  windowStart : Nat
  lastCall : Nat

namespace Tumbling

/-- Each call with its amount, whether other checks let it through, and whether
it passed. -/
abbrev Trace := List (Entry (Nat × Bool) Bool)

variable {w limit ttl : Nat}

/-- Reset the counter if its window is over. -/
def reset (w now : Nat) (b : Tumbling) : Tumbling :=
  if w ≤ durationSince now b.windowStart then { b with total := 0, windowStart := now } else b

/-- The counter as a component. An amount of zero is not held against the limit. -/
def component (w limit ttl : Nat) : Component (Option Tumbling) (Nat × Bool) Bool where
  inspect t a s :=
    let b := reset w t (s.getD ⟨0, t, t⟩)
    let total := b.total + a.1
    .ok (a.2 && (a.1 == 0 || decide (total ≤ limit)), some ⟨total, b.windowStart, t⟩)
  sweep t s := s.bind fun b => if durationSince t b.lastCall < ttl then some b else none

/-! ## What passed -/

/-- What an entry adds to the amounts passed in `[lo, hi)`. -/
def passedBy (lo hi : Nat) : Entry (Nat × Bool) Bool → Nat
  | .inspect t a o => if o ∧ lo ≤ t ∧ t < hi then a.1 else 0
  | .sweep _ => 0

/-- The amounts passed in `[lo, hi)`. -/
def passed (lo hi : Nat) (tr : Trace) : Nat := (tr.map (passedBy lo hi)).sum

theorem passed_concat (lo hi : Nat) (tr : Trace) (e : Entry (Nat × Bool) Bool) :
    passed lo hi (tr ++ [e]) = passed lo hi tr + passedBy lo hi e := by
  simp [passed]

theorem passedBy_of_time {lo hi : Nat} {e : Entry (Nat × Bool) Bool}
    (h : e.time < lo ∨ hi ≤ e.time) : passedBy lo hi e = 0 := by
  cases e with
  | inspect t a o =>
    refine if_neg ?_
    rintro ⟨-, hlo, hhi⟩
    simp only [Entry.time] at h
    omega
  | sweep t => rfl

theorem passed_of_time {lo hi : Nat} {tr : Trace} (h : ∀ e ∈ tr, e.time < lo ∨ hi ≤ e.time) :
    passed lo hi tr = 0 := by
  refine List.sum_eq_zero fun x hx => ?_
  obtain ⟨e, he, rfl⟩ := List.mem_map.mp hx
  exact passedBy_of_time (h e he)

/-- A part of an interval passes at most what the interval does. -/
theorem passed_mono {lo lo' hi hi' : Nat} (hlo : lo' ≤ lo) (hhi : hi ≤ hi') (tr : Trace) :
    passed lo hi tr ≤ passed lo' hi' tr := by
  refine List.sum_le_sum fun e _ => ?_
  cases e with
  | inspect t a o =>
    simp only [passedBy]
    split
    · rename_i h
      rw [if_pos ⟨h.1, by omega, by omega⟩]
    · exact Nat.zero_le _
  | sweep t => exact Nat.le_refl 0

/-- An interval passes what its two parts do. -/
theorem passed_split (lo mid hi : Nat) (tr : Trace) :
    passed lo hi tr ≤ passed lo mid tr + passed mid hi tr := by
  induction tr with
  | nil => exact Nat.le_refl 0
  | cons e tr ih =>
    have he : passedBy lo hi e ≤ passedBy lo mid e + passedBy mid hi e := by
      cases e with
      | inspect t a o =>
        simp only [passedBy]
        split
        · rename_i h
          by_cases hmid : t < mid
          · rw [if_pos ⟨h.1, h.2.1, hmid⟩]
            omega
          · rw [if_pos (show o ∧ mid ≤ t ∧ t < hi from ⟨h.1, by omega, h.2.2⟩)]
            omega
        · exact Nat.zero_le _
      | sweep t => exact Nat.le_refl 0
    simp only [passed, List.map_cons, List.sum_cons] at ih ⊢
    omega

/-! ## The invariant -/

/-- The current window of `b` and the time before it, after `tr`. -/
structure Windows (w limit : Nat) (tr : Trace) (b : Tumbling) : Prop where
  /-- What passed in the current window is counted, and within the limit. -/
  current : ∀ hi, passed b.windowStart hi tr ≤ b.total ∧ passed b.windowStart hi tr ≤ limit
  /-- In a window's length before it, only one other window passed anything. -/
  before : ∀ lo, b.windowStart ≤ lo + w → passed lo b.windowStart tr ≤ limit

/-- What holds of a counter `s` at time `c` after `tr`. -/
structure Inv (w limit ttl : Nat) (tr : Trace) (c : Nat) (s : Option Tumbling) : Prop where
  lastCall_mem : ∀ b, s = some b → b.windowStart ≤ b.lastCall ∧
    b.lastCall < b.windowStart + w ∧ b.lastCall ≤ c
  idle : ∀ b, s = some b → ∀ lo hi, b.lastCall < lo → passed lo hi tr = 0
  windows : ∀ b, s = some b → Windows w limit tr b
  dropped : s = none → ∀ lo hi, c < lo + ttl → passed lo hi tr = 0
  /-- No interval of a window's length passes more than two windows do. -/
  passed_le : ∀ lo hi, hi ≤ lo + w + 1 → passed lo hi tr ≤ 2 * limit

namespace Inv

variable {tr : Trace} {c t : Nat} {s : Option Tumbling}

/-- The window that a call at `t` falls in, before the call is counted. -/
theorem reset (h : Inv w limit ttl tr c s) (hw : 0 < w) (httl : w < ttl) (hct : c ≤ t) :
    let b := Tumbling.reset w t (s.getD ⟨0, t, t⟩)
    b.windowStart ≤ t ∧ t < b.windowStart + w ∧ Windows w limit tr b := by
  cases s with
  | none =>
    have hkeep : Tumbling.reset w t ⟨0, t, t⟩ = ⟨0, t, t⟩ := by
      refine if_neg ?_
      simp only [durationSince]
      omega
    rw [Option.getD_none, hkeep]
    refine ⟨Nat.le_refl t, by simpa using hw, fun hi => ?_, fun lo hlo => ?_⟩
    · rw [h.dropped rfl t hi (by omega)]
      exact ⟨Nat.zero_le _, Nat.zero_le _⟩
    · rw [h.dropped rfl lo t (by simp only at hlo; omega)]
      exact Nat.zero_le _
  | some b =>
    obtain ⟨hstart, hlast, hc⟩ := h.lastCall_mem b rfl
    obtain ⟨hcurrent, hbefore⟩ := h.windows b rfl
    rw [Option.getD_some]
    by_cases hover : w ≤ t - b.windowStart
    · have hreset : Tumbling.reset w t b = { b with total := 0, windowStart := t } := if_pos hover
      rw [hreset]
      -- the window before the new one is the old one, with all its calls before `t`
      refine ⟨Nat.le_refl t, by simpa using hw, fun hi => ?_, fun lo hlo => ?_⟩
      · rw [h.idle b rfl t hi (by omega)]
        exact ⟨Nat.zero_le _, Nat.zero_le _⟩
      · refine (passed_mono ?_ (Nat.le_refl t) tr).trans (hcurrent t).2
        simp only at hlo
        omega
    · have hkeep : Tumbling.reset w t b = b := if_neg hover
      rw [hkeep]
      exact ⟨by omega, by omega, hcurrent, hbefore⟩

end Inv

/-- What a call adds to an interval is nothing, or its amount within the limit. -/
theorem passedBy_call {t : Nat} (lo hi total n : Nat) (ok : Bool) :
    let e := Entry.inspect t (n, ok) (ok && (n == 0 || decide (total + n ≤ limit)))
    passedBy lo hi e = 0 ∨ (lo ≤ t ∧ t < hi ∧ passedBy lo hi e = n ∧ total + n ≤ limit) := by
  intro e
  show (if _ then n else 0) = 0 ∨ (lo ≤ t ∧ t < hi ∧ (if _ then n else 0) = n ∧ _)
  split
  · rename_i h
    obtain ⟨hpass, hlo, hhi⟩ := h
    rcases Nat.eq_zero_or_pos n with hn | hn
    · exact .inl hn
    · refine .inr ⟨hlo, hhi, rfl, ?_⟩
      have hne : (n == 0) = false := by simpa using Nat.ne_of_gt hn
      rw [hne, Bool.false_or, Bool.and_eq_true] at hpass
      exact of_decide_eq_true hpass.2
  · exact .inl rfl

/-- Counting a call in its window. -/
theorem Windows.call {tr : Trace} {t : Nat} {b : Tumbling} (h : Windows w limit tr b)
    (ht : b.windowStart ≤ t) (n : Nat) (ok : Bool) :
    Windows w limit
      (tr ++ [.inspect t (n, ok) (ok && (n == 0 || decide (b.total + n ≤ limit)))])
      ⟨b.total + n, b.windowStart, t⟩ := by
  constructor
  · intro hi
    obtain ⟨htotal, hlimit⟩ := h.current hi
    show passed b.windowStart hi _ ≤ b.total + n ∧ passed b.windowStart hi _ ≤ limit
    rw [passed_concat]
    rcases passedBy_call b.windowStart hi b.total n ok with hzero | ⟨-, -, hn, hfit⟩
    · rw [hzero]
      omega
    · rw [hn]
      omega
  · intro lo hlo
    show passed lo b.windowStart _ ≤ limit
    rw [passed_concat, passedBy_of_time (.inr ht), Nat.add_zero]
    exact h.before lo hlo

/-- An interval that starts at most a window before the current one meets at
most two windows. -/
theorem Windows.passed_le {tr : Trace} {b : Tumbling} (h : Windows w limit tr b) {lo : Nat}
    (hlo : b.windowStart ≤ lo + w) (hi : Nat) : passed lo hi tr ≤ 2 * limit := by
  have hin := (h.current hi).2
  by_cases hcase : b.windowStart ≤ lo
  · have := (passed_mono hcase (Nat.le_refl hi) tr).trans hin
    omega
  · have hsplit := passed_split lo b.windowStart hi tr
    have hprev := h.before lo hlo
    omega

namespace Inv

variable {tr : Trace} {c t : Nat} {s : Option Tumbling}

/-- A call keeps the invariant. -/
theorem inspect (h : Inv w limit ttl tr c s) (hw : 0 < w) (httl : w < ttl) (hct : c ≤ t)
    (htime : ∀ e ∈ tr, e.time ≤ c) (n : Nat) (ok : Bool) :
    let b := Tumbling.reset w t (s.getD ⟨0, t, t⟩)
    Inv w limit ttl
      (tr ++ [.inspect t (n, ok) (ok && (n == 0 || decide (b.total + n ≤ limit)))]) t
      (some ⟨b.total + n, b.windowStart, t⟩) := by
  intro b
  obtain ⟨hstart, hend, hwin⟩ := h.reset hw httl hct
  have hnew := hwin.call hstart n ok
  refine ⟨?_, ?_, ?_, nofun, ?_⟩
  · rintro _ ⟨⟩
    exact ⟨hstart, hend, Nat.le_refl t⟩
  -- no call comes after the last one
  · rintro _ ⟨⟩ lo hi hlo
    refine passed_of_time fun e he => .inl ?_
    rcases List.mem_append.mp he with he | he
    · exact Nat.lt_of_le_of_lt (Nat.le_trans (htime e he) hct) hlo
    · rw [List.mem_singleton.mp he]
      exact hlo
  · rintro _ ⟨⟩
    exact hnew
  · intro lo hi hlen
    rcases passedBy_call lo hi b.total n ok with hzero | ⟨hlo, hhi, -, -⟩
    · rw [passed_concat, hzero]
      exact h.passed_le lo hi hlen
    · -- the call is in the interval, which therefore ends in the current window
      have hmeets : b.windowStart ≤ t := hstart
      exact hnew.passed_le (show b.windowStart ≤ lo + w by omega) hi

/-- A sweep keeps the invariant. -/
theorem sweep (h : Inv w limit ttl tr c s) (hct : c ≤ t) :
    Inv w limit ttl (tr ++ [.sweep t]) t ((component w limit ttl).sweep t s) := by
  have hpassed : ∀ lo hi, passed lo hi (tr ++ [.sweep t]) = passed lo hi tr :=
    fun lo hi => passed_concat lo hi tr (.sweep t)
  have hkept : ∀ b, (component w limit ttl).sweep t s = some b → s = some b := by
    intro b hb
    obtain ⟨b', hs, hb'⟩ := Option.bind_eq_some_iff.mp hb
    split at hb'
    · rw [hs, hb']
    · cases hb'
  refine ⟨fun b hb => ?_, fun b hb lo hi hlo => ?_, fun b hb => ⟨fun hi => ?_, fun lo hlo => ?_⟩,
    fun hnone lo hi hlo => ?_, fun lo hi hlen => ?_⟩
  · obtain ⟨hstart, hlast, hc⟩ := h.lastCall_mem b (hkept b hb)
    exact ⟨hstart, hlast, Nat.le_trans hc hct⟩
  · rw [hpassed]
    exact h.idle b (hkept b hb) lo hi hlo
  · rw [hpassed]
    exact (h.windows b (hkept b hb)).current hi
  · rw [hpassed]
    exact (h.windows b (hkept b hb)).before lo hlo
  · rw [hpassed]
    cases s with
    | none => exact h.dropped rfl lo hi (by omega)
    | some b =>
      -- the entry was swept, so nothing was called for `ttl`
      have hold : ¬ durationSince t b.lastCall < ttl := by
        intro hyoung
        have hkeep : (component w limit ttl).sweep t (some b) = some b := if_pos hyoung
        rw [hkeep] at hnone
        cases hnone
      obtain ⟨-, -, hlast⟩ := h.lastCall_mem b rfl
      simp only [durationSince] at hold
      exact h.idle b rfl lo hi (by omega)
  · rw [hpassed]
    exact h.passed_le lo hi hlen

end Inv

theorem Run.inv {tr : Trace} {c : Nat} {s : Option Tumbling} (hw : 0 < w) (httl : w < ttl)
    (h : (component w limit ttl).Run none tr c s) : Inv w limit ttl tr c s := by
  induction h with
  | nil => exact ⟨nofun, nofun, nofun, fun _ _ _ _ => rfl, fun _ _ _ => Nat.zero_le _⟩
  | @inspect tr c t s s' a o hrun hc hstep ih =>
    cases hstep
    exact ih.inspect hw httl hc hrun.time_le a.1 a.2
  | sweep hrun hc ih => exact ih.sweep hc

/-- **Two windows bound an interval**: in every run, what passes in an interval
no longer than a window is at most twice the limit. -/
theorem passed_le {tr : Trace} {c : Nat} {s : Option Tumbling} (hw : 0 < w) (httl : w < ttl)
    (h : (component w limit ttl).Run none tr c s) {lo hi : Nat} (hlen : hi ≤ lo + w + 1) :
    passed lo hi tr ≤ 2 * limit :=
  (Run.inv hw httl h).passed_le lo hi hlen

end Tumbling

end Ocellus
