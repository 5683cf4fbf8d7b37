import Ocellus.Base.Clock
import Ocellus.Base.Component

/-!
# Alarms on two tumbling counters

An alarm counts marks and credits and starts both counters again when a call
finds its window of length `w` over. Whether it fires on a call depends on the
two counts, the call's own mark or credit included; all that is asked of it is
that it stays silent only while the marks are at most `limit + k` times the
credits. The counters are created on demand, and a sweep drops them once their
window is `ttl` old, which is no shorter than a window.

A mark is missed if its call does not fire. The marks missed in one window are
covered by that window's credits, whenever in the window they come
(`Windows.current`), and an interval no longer than a window meets at most two
windows. So `missed_le` covers what is missed in it by twice the limit and the
credits of the interval, widened by a window on each side.
-/

namespace Ocellus

universe u

/-! ## Counting entries by time -/

namespace Entry

variable {α ο : Type u} {P : Entry α ο → Bool} {tr : List (Entry α ο)} {lo hi : Nat}

/-- The number of entries with `P` at times in `[lo, hi)`. -/
def countIn (P : Entry α ο → Bool) (lo hi : Nat) (tr : List (Entry α ο)) : Nat :=
  tr.countP fun e => P e && decide (lo ≤ e.time ∧ e.time < hi)

theorem countIn_concat (P : Entry α ο → Bool) (lo hi : Nat) (tr : List (Entry α ο))
    (e : Entry α ο) :
    countIn P lo hi (tr ++ [e])
      = countIn P lo hi tr + (P e && decide (lo ≤ e.time ∧ e.time < hi)).toNat := by
  unfold countIn
  rw [List.countP_append, List.countP_singleton]
  cases P e && decide (lo ≤ e.time ∧ e.time < hi) <;> rfl

theorem countIn_le_concat (P : Entry α ο → Bool) (lo hi : Nat) (tr : List (Entry α ο))
    (e : Entry α ο) : countIn P lo hi tr ≤ countIn P lo hi (tr ++ [e]) := by
  rw [countIn_concat]
  exact Nat.le_add_right _ _

/-- An entry outside the interval is not counted. -/
theorem countIn_concat_of_time (P : Entry α ο → Bool) (tr : List (Entry α ο)) {e : Entry α ο}
    (he : e.time < lo ∨ hi ≤ e.time) : countIn P lo hi (tr ++ [e]) = countIn P lo hi tr := by
  have hout : decide (lo ≤ e.time ∧ e.time < hi) = false := decide_eq_false (by omega)
  rw [countIn_concat, hout, Bool.and_false]
  rfl

/-- Nothing is counted where no call lies. -/
theorem countIn_eq_zero (hP : ∀ t, P (.sweep t) = false)
    (h : ∀ t a o, Entry.inspect t a o ∈ tr → t < lo ∨ hi ≤ t) : countIn P lo hi tr = 0 := by
  refine List.countP_eq_zero.mpr fun e he => ?_
  cases e with
  | inspect t a o =>
    have hout : ¬ (lo ≤ t ∧ t < hi) := by
      have := h t a o he
      omega
    simp [time, hout]
  | sweep t => simp [hP t]

theorem countIn_mono {lo' hi' : Nat} (P : Entry α ο → Bool) (hlo : lo' ≤ lo) (hhi : hi ≤ hi')
    (tr : List (Entry α ο)) : countIn P lo hi tr ≤ countIn P lo' hi' tr := by
  refine List.countP_mono_left fun e _ he => ?_
  simp only [Bool.and_eq_true, decide_eq_true_eq] at he ⊢
  exact ⟨he.1, by omega, by omega⟩

/-- An interval has the entries of its two parts. -/
theorem countIn_split (P : Entry α ο → Bool) (tr : List (Entry α ο)) (lo : Nat) {mid hi : Nat}
    (hlo : lo ≤ mid) (hhi : mid ≤ hi) :
    countIn P lo hi tr = countIn P lo mid tr + countIn P mid hi tr := by
  induction tr with
  | nil => rfl
  | cons e tr ih =>
    have hpart : (P e && decide (lo ≤ e.time ∧ e.time < hi)).toNat
        = (P e && decide (lo ≤ e.time ∧ e.time < mid)).toNat
          + (P e && decide (mid ≤ e.time ∧ e.time < hi)).toNat := by
      cases P e with
      | false => rfl
      | true =>
        simp only [Bool.true_and]
        by_cases hmid : e.time < mid
        · have hleft : (lo ≤ e.time ∧ e.time < hi) ↔ (lo ≤ e.time ∧ e.time < mid) := by omega
          have hright : ¬ (mid ≤ e.time ∧ e.time < hi) := by omega
          rw [decide_eq_decide.mpr hleft, decide_eq_false hright]
          rfl
        · have hleft : ¬ (lo ≤ e.time ∧ e.time < mid) := by omega
          have hright : (lo ≤ e.time ∧ e.time < hi) ↔ (mid ≤ e.time ∧ e.time < hi) := by omega
          rw [decide_eq_false hleft, decide_eq_decide.mpr hright]
          exact (Nat.zero_add _).symm
    have hcons : ∀ lo hi, countIn P lo hi (e :: tr)
        = countIn P lo hi tr + (P e && decide (lo ≤ e.time ∧ e.time < hi)).toNat := by
      intro lo hi
      unfold countIn
      rw [List.countP_cons]
      cases P e && decide (lo ≤ e.time ∧ e.time < hi) <;> rfl
    rw [hcons, hcons, hcons, ih, hpart]
    omega

/-- A part that `sel` selects has the selected entries. -/
theorem countIn_filterMap {α' ο' : Type u} {sel : α → ο → Option (α' × ο')}
    {P' : Entry α' ο' → Bool}
    (hP : ∀ e, P e = ((project sel e).map P').getD false) (lo hi : Nat)
    (tr : List (Entry α ο)) :
    countIn P' lo hi (tr.filterMap (project sel)) = countIn P lo hi tr := by
  unfold countIn
  rw [List.countP_filterMap]
  refine List.countP_congr fun e _ => ?_
  rw [hP e]
  cases e with
  | inspect t a o =>
    cases hsel : sel a o with
    | none => simp [project, hsel]
    | some p =>
      simp only [project, hsel, Option.map_some, Option.getD_some]
      exact Iff.rfl
  | sweep t => exact Iff.rfl

end Entry

open Entry (countIn)

/-! ## The alarm -/

/-- The two counters of an alarm. -/
structure TumblingAlarm where
  marks : Nat
  credits : Nat
  windowStart : Nat

namespace TumblingAlarm

/-- Each call with whether it bears a mark, whether it bears a credit, and
whether the alarm fired. -/
abbrev Trace := List (Entry (Bool × Bool) Bool)

variable {w ttl limit k : Nat} {fires : Nat → Nat → Bool}

/-- Start the counters again if their window is over. -/
def reset (w now : Nat) (b : TumblingAlarm) : TumblingAlarm :=
  if w ≤ durationSince now b.windowStart then ⟨0, 0, now⟩ else b

/-- Count a call. -/
def count (a : Bool × Bool) (b : TumblingAlarm) : TumblingAlarm :=
  { b with marks := b.marks + a.1.toNat, credits := b.credits + a.2.toNat }

/-- The alarm as a component. -/
def component (w ttl : Nat) (fires : Nat → Nat → Bool) :
    Component (Option TumblingAlarm) (Bool × Bool) Bool where
  inspect t a s :=
    let b := count a (reset w t (s.getD ⟨0, 0, t⟩))
    .ok (fires b.marks b.credits, some b)
  sweep t s := s.bind fun b => if durationSince t b.windowStart < ttl then some b else none

/-- A marked call on which the alarm did not fire. -/
def isMissed : Entry (Bool × Bool) Bool → Bool
  | .inspect _ a o => a.1 && !o
  | .sweep _ => false

/-- A call that bears a credit. -/
def isCredit : Entry (Bool × Bool) Bool → Bool
  | .inspect _ a _ => a.2
  | .sweep _ => false

/-! ## The invariant -/

/-- The current window of `b` and the time before it, after `tr`. -/
structure Windows (w limit k : Nat) (tr : Trace) (b : TumblingAlarm) : Prop where
  /-- What was missed in the current window is marked, and covered by its credits. -/
  current : ∀ hi, countIn isMissed b.windowStart hi tr ≤ b.marks ∧
    countIn isMissed b.windowStart hi tr ≤ limit + k * b.credits
  /-- The credits are those of the current window. -/
  credits_eq : b.credits = countIn isCredit b.windowStart (b.windowStart + w) tr
  /-- In a window's length before it, only one other window missed anything. -/
  before : ∀ lo, b.windowStart ≤ lo + w →
    countIn isMissed lo b.windowStart tr ≤ limit + k * countIn isCredit (lo - w) b.windowStart tr

/-- What holds of an alarm `s` at time `c` after `tr`. -/
structure Inv (w limit k : Nat) (tr : Trace) (c : Nat) (s : Option TumblingAlarm) : Prop where
  windowStart_le : ∀ b, s = some b → b.windowStart ≤ c
  /-- No call lies after the current window. -/
  calls_lt : ∀ b, s = some b → ∀ t a o, Entry.inspect t a o ∈ tr → t < b.windowStart + w
  windows : ∀ b, s = some b → Windows w limit k tr b
  /-- Counters that were dropped had not been used for a window's length. -/
  dropped : s = none → ∀ t a o, Entry.inspect t a o ∈ tr → t + w < c
  /-- What is missed in an interval of a window's length is covered by two limits
  and the credits around it. -/
  missed_le : ∀ lo hi, hi ≤ lo + w + 1 →
    countIn isMissed lo hi tr ≤ 2 * limit + k * countIn isCredit (lo - w) (hi + w) tr

variable {tr : Trace} {c t : Nat} {s : Option TumblingAlarm}

/-- A window that starts after everything in the trace. -/
theorem Windows.fresh (hbefore : ∀ lo, t ≤ lo + w →
      countIn isMissed lo t tr ≤ limit + k * countIn isCredit (lo - w) t tr)
    (hcalls : ∀ t' a o, Entry.inspect t' a o ∈ tr → t' < t) :
    Windows w limit k tr ⟨0, 0, t⟩ := by
  have hnone : ∀ {P : Entry (Bool × Bool) Bool → Bool}, (∀ t, P (.sweep t) = false) →
      ∀ hi, countIn P t hi tr = 0 :=
    fun hP hi => Entry.countIn_eq_zero hP fun t' a o he => .inl (hcalls t' a o he)
  refine ⟨fun hi => ?_, ?_, hbefore⟩
  · rw [hnone (fun _ => rfl) hi]
    exact ⟨Nat.zero_le _, Nat.zero_le _⟩
  · exact (hnone (fun _ => rfl) _).symm

/-- Nothing is missed after the last call. -/
theorem missed_eq_zero {lo : Nat} (hcalls : ∀ t' a o, Entry.inspect t' a o ∈ tr → t' < lo)
    (hi : Nat) : countIn isMissed lo hi tr = 0 :=
  Entry.countIn_eq_zero (fun _ => rfl) fun t' a o he => .inl (hcalls t' a o he)

/-- Before a window that starts when this one is over, all that is missed is missed
in this one. -/
theorem Windows.before_next {b : TumblingAlarm} (h : Windows w limit k tr b)
    (hcalls : ∀ t' a o, Entry.inspect t' a o ∈ tr → t' < b.windowStart + w)
    (hover : b.windowStart + w ≤ t) {lo : Nat} (hlo : t ≤ lo + w) :
    countIn isMissed lo t tr ≤ limit + k * countIn isCredit (lo - w) t tr := by
  by_cases hlate : b.windowStart + w ≤ lo
  · rw [missed_eq_zero (fun t' a o he => (hcalls t' a o he).trans_le hlate)]
    exact Nat.zero_le _
  · have hcovered := (h.current t).2
    have hpart : countIn isMissed lo t tr ≤ countIn isMissed b.windowStart t tr :=
      Entry.countIn_mono _ (by omega) (Nat.le_refl t) tr
    have hcredits : b.credits ≤ countIn isCredit (lo - w) t tr := by
      rw [h.credits_eq]
      exact Entry.countIn_mono _ (by omega) (by omega) tr
    have := Nat.mul_le_mul_left k hcredits
    omega

/-- The window that a call at `t` falls in, before the call is counted. -/
theorem Inv.reset (h : Inv w limit k tr c s) (hw : 0 < w) (hct : c ≤ t) :
    let b := TumblingAlarm.reset w t (s.getD ⟨0, 0, t⟩)
    b.windowStart ≤ t ∧ t < b.windowStart + w ∧ Windows w limit k tr b ∧
      ∀ t' a o, Entry.inspect t' a o ∈ tr → t' < b.windowStart + w := by
  have hfresh : (∀ lo, t ≤ lo + w →
        countIn isMissed lo t tr ≤ limit + k * countIn isCredit (lo - w) t tr) →
      (∀ t' a o, Entry.inspect t' a o ∈ tr → t' < t) →
      t ≤ t ∧ t < t + w ∧ Windows w limit k tr ⟨0, 0, t⟩ ∧
        ∀ t' a o, Entry.inspect t' a o ∈ tr → t' < t + w :=
    fun hbefore hcalls => ⟨Nat.le_refl t, Nat.lt_add_of_pos_right hw, .fresh hbefore hcalls,
      fun t' a o he => Nat.lt_add_right w (hcalls t' a o he)⟩
  cases s with
  | none =>
    have hkeep : TumblingAlarm.reset w t ⟨0, 0, t⟩ = ⟨0, 0, t⟩ := ite_self _
    have hcalls : ∀ t' a o, Entry.inspect t' a o ∈ tr → t' + w < t := fun t' a o he =>
      Nat.lt_of_lt_of_le (h.dropped rfl t' a o he) hct
    rw [Option.getD_none, hkeep]
    refine hfresh (fun lo hlo => ?_) fun t' a o he => ?_
    · have hlast : ∀ t' a o, Entry.inspect t' a o ∈ tr → t' < lo := by
        intro t' a o he
        have := hcalls t' a o he
        omega
      rw [missed_eq_zero hlast]
      exact Nat.zero_le _
    · have := hcalls t' a o he
      omega
  | some b =>
    have hstart := h.windowStart_le b rfl
    have hcalls := h.calls_lt b rfl
    have hwin := h.windows b rfl
    rw [Option.getD_some]
    by_cases hover : w ≤ t - b.windowStart
    · have hreset : TumblingAlarm.reset w t b = ⟨0, 0, t⟩ := if_pos hover
      have hnext : b.windowStart + w ≤ t := by omega
      rw [hreset]
      exact hfresh (fun lo hlo => hwin.before_next hcalls hnext hlo)
        fun t' a o he => (hcalls t' a o he).trans_le hnext
    · have hkeep : TumblingAlarm.reset w t b = b := if_neg hover
      rw [hkeep]
      exact ⟨by omega, by omega, hwin, hcalls⟩

/-- A call at `t` that finds its counters at `b`. -/
def callAt (fires : Nat → Nat → Bool) (t : Nat) (a : Bool × Bool) (b : TumblingAlarm) :
    Entry (Bool × Bool) Bool :=
  .inspect t a (fires (b.count a).marks (b.count a).credits)

/-- What a call adds to what is missed is nothing, or one mark within the limit. -/
theorem missed_call (hfires : ∀ m n, fires m n = false → m ≤ limit + k * n) (tr : Trace)
    (lo hi t : Nat) (a : Bool × Bool) (b : TumblingAlarm) :
    countIn isMissed lo hi (tr ++ [callAt fires t a b]) = countIn isMissed lo hi tr ∨
      (countIn isMissed lo hi (tr ++ [callAt fires t a b]) = countIn isMissed lo hi tr + 1 ∧
        lo ≤ t ∧ t < hi ∧ (b.count a).marks = b.marks + 1 ∧
        (b.count a).marks ≤ limit + k * (b.count a).credits) := by
  rw [Entry.countIn_concat]
  cases hcase : isMissed (callAt fires t a b) && decide (lo ≤ t ∧ t < hi) with
  | false => exact .inl (congrArg _ (congrArg Bool.toNat hcase))
  | true =>
    have hadd := congrArg Bool.toNat hcase
    obtain ⟨hmissed, htime⟩ := (Bool.and_eq_true _ _).mp hcase
    obtain ⟨hlo, hhi⟩ := of_decide_eq_true htime
    obtain ⟨hmark, hsilent⟩ := (Bool.and_eq_true _ _).mp hmissed
    refine .inr ⟨congrArg _ hadd, hlo, hhi, ?_, hfires _ _ (by simpa using hsilent)⟩
    show b.marks + a.1.toNat = b.marks + 1
    rw [hmark]
    rfl

/-- Counting a call in its window. -/
theorem Windows.call {b : TumblingAlarm} (h : Windows w limit k tr b)
    (hfires : ∀ m n, fires m n = false → m ≤ limit + k * n)
    (hstart : b.windowStart ≤ t) (hend : t < b.windowStart + w) (a : Bool × Bool) :
    Windows w limit k (tr ++ [callAt fires t a b]) (b.count a) := by
  refine ⟨fun hi => ?_, ?_, fun lo hlo => ?_⟩
  · show countIn isMissed b.windowStart hi _ ≤ _ ∧ countIn isMissed b.windowStart hi _ ≤ _
    obtain ⟨hmarks, hcovered⟩ := h.current hi
    have hmore : b.marks ≤ (b.count a).marks := Nat.le_add_right _ _
    have hgrow : k * b.credits ≤ k * (b.count a).credits :=
      Nat.mul_le_mul_left k (Nat.le_add_right _ _)
    rcases missed_call hfires tr b.windowStart hi t a b with hsame | ⟨hone, -, -, hmark, hfit⟩
    · rw [hsame]
      omega
    · rw [hone]
      omega
  · have hin : decide (b.windowStart ≤ t ∧ t < b.windowStart + w) = true :=
      decide_eq_true ⟨hstart, hend⟩
    show b.credits + a.2.toNat
      = countIn isCredit b.windowStart (b.windowStart + w) (tr ++ [callAt fires t a b])
    rw [Entry.countIn_concat, ← h.credits_eq]
    show _ = b.credits + (a.2 && decide (b.windowStart ≤ t ∧ t < b.windowStart + w)).toNat
    rw [hin, Bool.and_true]
  · show countIn isMissed lo b.windowStart _ ≤ limit + k * countIn isCredit (lo - w) b.windowStart _
    rw [Entry.countIn_concat_of_time _ _ (.inr hstart), Entry.countIn_concat_of_time _ _ (.inr hstart)]
    exact h.before lo hlo

/-- An interval that starts at most a window before the current one, and ends in
it, meets at most two windows. -/
theorem Windows.missed_le {b : TumblingAlarm} (h : Windows w limit k tr b) {lo hi : Nat}
    (hlo : b.windowStart ≤ lo + w) (hmeets : lo ≤ b.windowStart + w) (hhi : b.windowStart ≤ hi) :
    countIn isMissed lo hi tr ≤ 2 * limit + k * countIn isCredit (lo - w) (hi + w) tr := by
  have hin := (h.current hi).2
  have hend : countIn isCredit b.windowStart (b.windowStart + w) tr
      ≤ countIn isCredit b.windowStart (hi + w) tr :=
    Entry.countIn_mono _ (Nat.le_refl _) (by omega) tr
  rw [h.credits_eq] at hin
  have hcredits := Entry.countIn_split isCredit tr (lo - w) (show lo - w ≤ b.windowStart by omega)
    (show b.windowStart ≤ hi + w by omega)
  have hcover := Nat.mul_le_mul_left k hend
  rw [hcredits, Nat.mul_add]
  by_cases hcase : b.windowStart ≤ lo
  · have := (Entry.countIn_mono isMissed hcase (Nat.le_refl hi) tr).trans hin
    omega
  · have hsplit := Entry.countIn_split isMissed tr lo (by omega) hhi
    have hprev := h.before lo hlo
    omega

namespace Inv

/-- A call keeps the invariant. -/
theorem inspect (h : Inv w limit k tr c s) (hw : 0 < w)
    (hfires : ∀ m n, fires m n = false → m ≤ limit + k * n) (hct : c ≤ t) (a : Bool × Bool) :
    let b := TumblingAlarm.reset w t (s.getD ⟨0, 0, t⟩)
    Inv w limit k (tr ++ [callAt fires t a b]) t (some (b.count a)) := by
  intro b
  obtain ⟨hstart, hend, hwin, hcalls⟩ := h.reset hw hct
  have hnew := hwin.call hfires hstart hend a
  refine ⟨?_, ?_, ?_, nofun, ?_⟩
  · rintro _ ⟨⟩
    exact hstart
  · rintro _ ⟨⟩ t' a' o he
    rcases List.mem_append.mp he with he | he
    · exact hcalls t' a' o he
    · cases List.mem_singleton.mp he
      exact hend
  · rintro _ ⟨⟩
    exact hnew
  · intro lo hi hlen
    rcases missed_call hfires tr lo hi t a b with hsame | ⟨-, hlo, hhi, -, -⟩
    · rw [hsame]
      refine (h.missed_le lo hi hlen).trans (Nat.add_le_add_left (Nat.mul_le_mul_left k ?_) _)
      exact Entry.countIn_le_concat _ _ _ _ _
    · -- the call is in the interval, which therefore ends in the current window
      have hmeets : b.windowStart ≤ t := hstart
      have hends : t < b.windowStart + w := hend
      exact hnew.missed_le (show b.windowStart ≤ lo + w by omega)
        (show lo ≤ b.windowStart + w by omega) (show b.windowStart ≤ hi by omega)

/-- A sweep keeps the invariant. -/
theorem sweep (h : Inv w limit k tr c s) (httl : 2 * w ≤ ttl) (hct : c ≤ t) :
    Inv w limit k (tr ++ [.sweep t]) t ((component w ttl fires).sweep t s) := by
  have hsame : ∀ {P : Entry (Bool × Bool) Bool → Bool}, P (.sweep t) = false → ∀ lo hi,
      countIn P lo hi (tr ++ [.sweep t]) = countIn P lo hi tr := by
    intro P hP lo hi
    rw [Entry.countIn_concat, hP, Bool.false_and]
    rfl
  have hmem : ∀ {t' a o}, Entry.inspect t' a o ∈ tr ++ [.sweep t] → Entry.inspect t' a o ∈ tr := by
    intro t' a o he
    rcases List.mem_append.mp he with he | he
    · exact he
    · cases List.mem_singleton.mp he
  have hkept : ∀ b, (component w ttl fires).sweep t s = some b → s = some b := by
    intro b hb
    obtain ⟨b', hs, hb'⟩ := Option.bind_eq_some_iff.mp hb
    split at hb'
    · rw [hs, hb']
    · cases hb'
  refine ⟨fun b hb => ?_, fun b hb t' a o he => ?_, fun b hb => ⟨fun hi => ?_, ?_, fun lo hlo => ?_⟩,
    fun hnone t' a o he => ?_, fun lo hi hlen => ?_⟩
  · exact (h.windowStart_le b (hkept b hb)).trans hct
  · exact h.calls_lt b (hkept b hb) t' a o (hmem he)
  · rw [hsame rfl]
    exact (h.windows b (hkept b hb)).current hi
  · rw [hsame rfl]
    exact (h.windows b (hkept b hb)).credits_eq
  · rw [hsame rfl, hsame rfl]
    exact (h.windows b (hkept b hb)).before lo hlo
  · cases s with
    | none => exact (h.dropped rfl t' a o (hmem he)).trans_le hct
    | some b =>
      -- the counters were swept, so their window was `ttl` old
      have hold : ¬ durationSince t b.windowStart < ttl := by
        intro hyoung
        have hkeep : (component w ttl fires).sweep t (some b) = some b := if_pos hyoung
        rw [hkeep] at hnone
        cases hnone
      have hlast := h.calls_lt b rfl t' a o (hmem he)
      have hstart := h.windowStart_le b rfl
      simp only [durationSince] at hold
      omega
  · rw [hsame rfl, hsame rfl]
    exact h.missed_le lo hi hlen

end Inv

theorem Run.inv (hw : 0 < w) (httl : 2 * w ≤ ttl)
    (hfires : ∀ m n, fires m n = false → m ≤ limit + k * n)
    (h : (component w ttl fires).Run none tr c s) : Inv w limit k tr c s := by
  induction h with
  | nil => exact ⟨nofun, nofun, nofun, fun _ _ _ _ => nofun, fun _ _ _ => Nat.zero_le _⟩
  | @inspect tr c t s s' a o _ hc hstep ih =>
    cases hstep
    exact ih.inspect hw hfires hc a
  | sweep _ hc ih => exact ih.sweep httl hc

/-- **Two windows and their credits bound an interval**: in every run, what is
missed in an interval no longer than a window is at most twice the limit and `k`
times the credits in the interval widened by a window on each side. -/
theorem missed_le (hw : 0 < w) (httl : 2 * w ≤ ttl)
    (hfires : ∀ m n, fires m n = false → m ≤ limit + k * n)
    (h : (component w ttl fires).Run none tr c s) {lo hi : Nat} (hlen : hi ≤ lo + w + 1) :
    countIn isMissed lo hi tr ≤ 2 * limit + k * countIn isCredit (lo - w) (hi + w) tr :=
  (Run.inv hw httl hfires h).missed_le lo hi hlen

end TumblingAlarm

end Ocellus
