import Ocellus.Base.Clock
import Ocellus.Base.Component

/-!
# Token buckets

A bucket of capacity `cap` is refilled at `rate` tokens per second and asked for
one token by each call. It is created full on demand, and a sweep drops it once
it has not been asked for `ttl`, which is long enough to fill it.

Over every run of such a bucket:

- `granted_le`: between `lo` and `hi` at most `cap + rate * (hi - lo)` tokens are
  granted;
- `excess_of_denied`: a token is denied only if, since some earlier call, the
  tokens granted and this one exceed that bound.

Both compare the level of the bucket with a count: the first from above at every
starting moment (`Bounded`), the second exactly, since the last call that found
the bucket full (`Spent`).
-/

namespace Ocellus

/-- A token bucket: its level after its last refill. -/
structure TokenBucket where
  tokens : ℚ
  lastRefill : Nat

namespace TokenBucket

/-! ## What was granted -/

/-- The trace of a bucket: each call with whether it was granted. -/
abbrev Trace := List (Entry Unit Bool)

def isGranted : Entry Unit Bool → Bool
  | .inspect _ _ o => o
  | .sweep _ => false

/-- The tokens granted in a trace. -/
def granted (tr : Trace) : Nat := tr.countP isGranted

/-- The tokens granted from `lo` on. -/
def grantedFrom (lo : Nat) (tr : Trace) : Nat :=
  tr.countP fun e => isGranted e && decide (lo ≤ e.time)

/-- The tokens granted between `lo` and `hi`, both included. -/
def grantedIn (lo hi : Nat) (tr : Trace) : Nat :=
  tr.countP fun e => isGranted e && decide (lo ≤ e.time) && decide (e.time ≤ hi)

theorem grantedIn_le_grantedFrom (lo hi : Nat) (tr : Trace) :
    grantedIn lo hi tr ≤ grantedFrom lo tr := by
  refine List.countP_mono_left fun e _ h => ?_
  simp only [Bool.and_eq_true] at h ⊢
  exact h.1

theorem grantedFrom_of_time_lt {lo : Nat} {tr : Trace} (h : ∀ e ∈ tr, e.time < lo) :
    grantedFrom lo tr = 0 := by
  refine List.countP_eq_zero.mpr fun e he hgr => ?_
  have hlt := h e he
  simp only [Bool.and_eq_true, decide_eq_true_eq] at hgr
  omega

theorem granted_concat (tr : Trace) (e : Entry Unit Bool) :
    granted (tr ++ [e]) = granted tr + if isGranted e then 1 else 0 := by
  simp [granted, List.countP_singleton]

theorem grantedFrom_concat (lo : Nat) (tr : Trace) (e : Entry Unit Bool) :
    grantedFrom lo (tr ++ [e])
      = grantedFrom lo tr + if isGranted e && decide (lo ≤ e.time) then 1 else 0 := by
  simp only [grantedFrom, List.countP_append, List.countP_singleton]

theorem grantedIn_concat (lo hi : Nat) (tr : Trace) (e : Entry Unit Bool) :
    grantedIn lo hi (tr ++ [e]) = grantedIn lo hi tr +
      if isGranted e && decide (lo ≤ e.time) && decide (e.time ≤ hi) then 1 else 0 := by
  simp only [grantedIn, List.countP_append, List.countP_singleton]

/-! ## The bucket -/

variable {rate cap : ℚ} {ttl : Nat}

/-- The level at `t`, if there is a bucket; a bucket created at `t` is full. -/
def level (rate cap : ℚ) (t : Nat) : Option TokenBucket → ℚ
  | some b => min (b.tokens + asSecsF64 (durationSince t b.lastRefill) * rate) cap
  | none => cap

/-- The bucket as a component. -/
def component (rate cap : ℚ) (ttl : Nat) : Component (Option TokenBucket) Unit Bool where
  inspect t _ s :=
    let l := level rate cap t s
    .ok (decide (1 ≤ l), some ⟨if 1 ≤ l then l - 1 else l, t⟩)
  sweep t s := s.bind fun b => if durationSince t b.lastRefill < ttl then some b else none

theorem level_le_cap (t : Nat) (s : Option TokenBucket) : level rate cap t s ≤ cap := by
  cases s with
  | none => exact le_refl cap
  | some b => exact min_le_right _ _

/-- Between refills the level rises at most at the rate. -/
theorem level_later_le {c t : Nat} (hrate : 0 ≤ rate) (hct : c ≤ t) {s : Option TokenBucket}
    (hs : ∀ b, s = some b → b.lastRefill ≤ c) :
    level rate cap t s ≤ level rate cap c s + asSecsF64 (t - c) * rate := by
  have hgrow : 0 ≤ asSecsF64 (t - c) * rate := mul_nonneg (asSecsF64_nonneg _) hrate
  cases s with
  | none => exact le_add_of_nonneg_right hgrow
  | some b =>
    have hb : b.lastRefill ≤ c := hs b rfl
    have hsplit : asSecsF64 (durationSince t b.lastRefill)
        = asSecsF64 (durationSince c b.lastRefill) + asSecsF64 (t - c) :=
      asSecsF64_sub_add_sub hb hct
    show min (b.tokens + asSecsF64 (durationSince t b.lastRefill) * rate) cap
      ≤ min (b.tokens + asSecsF64 (durationSince c b.lastRefill) * rate) cap
        + asSecsF64 (t - c) * rate
    rw [hsplit, ← min_add_add_right]
    refine min_le_min (le_of_eq (by ring)) (le_add_of_nonneg_right hgrow)

/-- Right after a refill to at most the capacity, the level is what is there. -/
theorem level_now {t : Nat} {x : ℚ} (hx : x ≤ cap) : level rate cap t (some ⟨x, t⟩) = x := by
  have hzero : asSecsF64 (durationSince t t) = 0 := by
    simp [durationSince]
  show min (x + asSecsF64 (durationSince t t) * rate) cap = x
  rw [hzero, zero_mul, add_zero, min_eq_left hx]

/-! ## The level bounds what was granted -/

/-- What holds of a bucket `s` at time `c` after `tr`. -/
structure Bounded (rate cap : ℚ) (tr : Trace) (c : Nat) (s : Option TokenBucket) : Prop where
  tokens_mem : ∀ b, s = some b → 0 ≤ b.tokens ∧ b.tokens ≤ cap
  lastRefill_le : ∀ b, s = some b → b.lastRefill ≤ c
  /-- What was granted since any moment, and what is left. -/
  recent : ∀ lo ≤ c, grantedFrom lo tr + level rate cap c s ≤ cap + asSecsF64 (c - lo) * rate
  grantedIn_le : ∀ lo hi, lo ≤ hi → grantedIn lo hi tr ≤ cap + asSecsF64 (hi - lo) * rate

namespace Bounded

variable {tr : Trace} {c t : Nat} {s : Option TokenBucket}

/-- The bound survives the passing of time. -/
theorem later (h : Bounded rate cap tr c s) (hrate : 0 ≤ rate) (hct : c ≤ t)
    (htime : ∀ e ∈ tr, e.time ≤ c) (lo : Nat) :
    grantedFrom lo tr + level rate cap t s ≤ cap + asSecsF64 (t - lo) * rate := by
  by_cases hloc : lo ≤ c
  · have hrecent := h.recent lo hloc
    have hlevel : level rate cap t s ≤ level rate cap c s + asSecsF64 (t - c) * rate :=
      level_later_le hrate hct h.lastRefill_le
    rw [asSecsF64_sub_add_sub hloc hct, add_mul]
    linarith
  · have hnone : grantedFrom lo tr = 0 :=
      grantedFrom_of_time_lt fun e he => Nat.lt_of_le_of_lt (htime e he) (Nat.lt_of_not_le hloc)
    have hgrow : 0 ≤ asSecsF64 (t - lo) * rate := mul_nonneg (asSecsF64_nonneg _) hrate
    have hcap : level rate cap t s ≤ cap := level_le_cap t s
    rw [hnone, Nat.cast_zero]
    linarith

theorem level_nonneg (h : Bounded rate cap tr c s) (hrate : 0 ≤ rate) (hcap : 0 ≤ cap) :
    0 ≤ level rate cap t s := by
  cases s with
  | none => exact hcap
  | some b =>
    exact le_min (add_nonneg (h.tokens_mem b rfl).1 (mul_nonneg (asSecsF64_nonneg _) hrate)) hcap

/-- A call keeps the bound. -/
theorem inspect (h : Bounded rate cap tr c s) (hrate : 0 ≤ rate) (hcap : 1 ≤ cap)
    (hct : c ≤ t) (htime : ∀ e ∈ tr, e.time ≤ c) :
    let l := level rate cap t s
    Bounded rate cap (tr ++ [.inspect t () (decide (1 ≤ l))]) t
      (some ⟨if 1 ≤ l then l - 1 else l, t⟩) := by
  intro l
  have hl0 : 0 ≤ l := h.level_nonneg hrate (by linarith)
  have hlcap : l ≤ cap := level_le_cap t s
  have hafter : (if 1 ≤ l then l - 1 else l) ≤ l := by split <;> linarith
  refine ⟨?_, ?_, ?_, ?_⟩
  · rintro b ⟨⟩
    refine ⟨?_, hafter.trans hlcap⟩
    show 0 ≤ if 1 ≤ l then l - 1 else l
    split <;> linarith
  · rintro b ⟨⟩
    exact Nat.le_refl t
  · intro lo hlo
    have hbefore := h.later hrate hct htime lo
    rw [grantedFrom_concat, level_now (hafter.trans hlcap)]
    by_cases hgr : 1 ≤ l
    · simp only [isGranted, Entry.time, hgr, hlo, decide_true, Bool.and_self, if_true]
      push_cast
      linarith
    · simp only [isGranted, hgr, decide_false, Bool.false_and, Bool.false_eq_true, if_false]
      simpa using hbefore
  · intro lo hi hle
    have hbound := h.grantedIn_le lo hi hle
    rw [grantedIn_concat]
    split
    · rename_i hnew
      -- the new grant is in the interval, so all grants in it came since `lo`
      simp only [isGranted, Bool.and_eq_true] at hnew
      have hgr : 1 ≤ level rate cap t s := of_decide_eq_true hnew.1.1
      have hhi : t ≤ hi := of_decide_eq_true hnew.2
      have hbefore := h.later hrate hct htime lo
      have hsub : (grantedIn lo hi tr : ℚ) ≤ grantedFrom lo tr := by
        exact_mod_cast grantedIn_le_grantedFrom lo hi tr
      have hlonger : asSecsF64 (t - lo) * rate ≤ asSecsF64 (hi - lo) * rate :=
        mul_le_mul_of_nonneg_right (asSecsF64_mono (Nat.sub_le_sub_right hhi lo)) hrate
      push_cast
      linarith
    · simpa using hbound

/-- A sweep keeps the bound: what it drops would have been full. -/
theorem sweep (h : Bounded rate cap tr c s) (hrate : 0 ≤ rate)
    (httl : cap ≤ asSecsF64 ttl * rate) (hct : c ≤ t) (htime : ∀ e ∈ tr, e.time ≤ c) :
    Bounded rate cap (tr ++ [.sweep t]) t ((component rate cap ttl).sweep t s) := by
  have hlevel : level rate cap t ((component rate cap ttl).sweep t s) = level rate cap t s := by
    -- a bucket that is swept would be full by now, as a new one is
    cases s with
    | none => rfl
    | some b =>
      show level rate cap t (if durationSince t b.lastRefill < ttl then some b else none) = _
      split
      · rfl
      · rename_i hold
        have hlong : asSecsF64 ttl ≤ asSecsF64 (durationSince t b.lastRefill) :=
          asSecsF64_mono (Nat.le_of_not_lt hold)
        have hrefill := mul_le_mul_of_nonneg_right hlong hrate
        have htokens := (h.tokens_mem b rfl).1
        have hfull : cap ≤ b.tokens + asSecsF64 (durationSince t b.lastRefill) * rate := by
          linarith
        exact (min_eq_right hfull).symm
  have hkept : ∀ b, (component rate cap ttl).sweep t s = some b → s = some b := by
    intro b hb
    obtain ⟨b', hs, hb'⟩ := Option.bind_eq_some_iff.mp hb
    split at hb'
    · rw [hs, hb']
    · cases hb'
  refine ⟨fun b hb => h.tokens_mem b (hkept b hb), fun b hb => ?_, ?_, ?_⟩
  · exact Nat.le_trans (h.lastRefill_le b (hkept b hb)) hct
  · intro lo _
    rw [grantedFrom_concat, hlevel]
    simpa [isGranted] using h.later hrate hct htime lo
  · intro lo hi hle
    rw [grantedIn_concat]
    simpa [isGranted] using h.grantedIn_le lo hi hle

end Bounded

theorem Run.bounded {tr : Trace} {c : Nat} {s : Option TokenBucket} (hrate : 0 ≤ rate)
    (hcap : 1 ≤ cap) (httl : cap ≤ asSecsF64 ttl * rate)
    (h : (component rate cap ttl).Run none tr c s) : Bounded rate cap tr c s := by
  induction h with
  | nil =>
    refine ⟨nofun, nofun, ?_, ?_⟩
    · intro lo _
      simp [grantedFrom, level]
    · intro lo hi _
      have hgrow : 0 ≤ asSecsF64 (hi - lo) * rate := mul_nonneg (asSecsF64_nonneg _) hrate
      show ((0 : Nat) : ℚ) ≤ _
      rw [Nat.cast_zero]
      linarith
  | @inspect tr c t s s' a o hrun hc hstep ih =>
    cases hstep
    exact ih.inspect hrate hcap hc hrun.time_le
  | sweep hrun hc ih => exact ih.sweep hrate httl hc hrun.time_le

/-! ## Nothing else is denied -/

/-- The bucket holds exactly what was not granted since some call that found it
full. -/
def Spent (rate cap : ℚ) (tr : Trace) (b : TokenBucket) : Prop :=
  ∃ pre lo o mid, tr = pre ++ .inspect lo () o :: mid ∧ lo ≤ b.lastRefill ∧
    b.tokens = cap + asSecsF64 (b.lastRefill - lo) * rate - granted (.inspect lo () o :: mid)

/-- At a later call the bucket is full, or still holds exactly what was not
granted since. -/
theorem Spent.level {tr : Trace} {b : TokenBucket} {t : Nat} (h : Spent rate cap tr b)
    (ht : b.lastRefill ≤ t) :
    level rate cap t (some b) = cap ∨
      ∃ pre lo o mid, tr = pre ++ .inspect lo () o :: mid ∧ lo ≤ t ∧
        level rate cap t (some b)
          = cap + asSecsF64 (t - lo) * rate - granted (.inspect lo () o :: mid) := by
  obtain ⟨pre, lo, o, mid, htr, hlo, htokens⟩ := h
  rcases min_choice (b.tokens + asSecsF64 (durationSince t b.lastRefill) * rate) cap with hmin | hmin
  · refine .inr ⟨pre, lo, o, mid, htr, Nat.le_trans hlo ht, ?_⟩
    show min _ cap = _
    rw [hmin, htokens, durationSince, asSecsF64_sub_add_sub hlo ht]
    ring
  · exact .inl hmin

theorem Run.spent {tr : Trace} {c : Nat} {s : Option TokenBucket} (hcap : 1 ≤ cap)
    (h : (component rate cap ttl).Run none tr c s) :
    ∀ b, s = some b → b.lastRefill ≤ c ∧ Spent rate cap tr b := by
  induction h with
  | nil => exact nofun
  | @inspect tr c t s s' a o hrun hc hstep ih =>
    cases hstep
    rintro b ⟨⟩
    refine ⟨Nat.le_refl t, ?_⟩
    have hlevel : level rate cap t s = cap ∨
        ∃ pre lo o mid, tr = pre ++ .inspect lo () o :: mid ∧ lo ≤ t ∧
          level rate cap t s
            = cap + asSecsF64 (t - lo) * rate - granted (.inspect lo () o :: mid) := by
      -- a new bucket is full; an old one is full, or spent since some call
      cases s with
      | none => exact .inl rfl
      | some b =>
        obtain ⟨hb, hspent⟩ := ih b rfl
        exact hspent.level (Nat.le_trans hb hc)
    rcases hlevel with hfull | ⟨pre, lo, o, mid, rfl, hlo, hexact⟩
    · -- this call finds the bucket full
      refine ⟨tr, t, _, [], rfl, Nat.le_refl t, ?_⟩
      rw [hfull, if_pos hcap]
      simp [granted, isGranted, hcap]
    · refine ⟨pre, lo, o, mid ++ [.inspect t () (decide (1 ≤ level rate cap t s))],
        by simp, hlo, ?_⟩
      rw [← List.cons_append, granted_concat]
      by_cases hgr : 1 ≤ level rate cap t s
      · rw [if_pos hgr]
        simp only [isGranted, hgr, decide_true, if_true]
        push_cast
        linarith
      · rw [if_neg hgr]
        simp only [isGranted, hgr, decide_false, Bool.false_eq_true, if_false, add_zero]
        exact hexact
  | @sweep tr c t s hrun hc ih =>
    -- a bucket that the sweep leaves is the one from before
    intro b hb
    obtain ⟨b', rfl, hb'⟩ := Option.bind_eq_some_iff.mp hb
    split at hb'
    · cases hb'
      obtain ⟨hle, pre, lo, o, mid, rfl, hlo, htokens⟩ := ih b rfl
      refine ⟨Nat.le_trans hle hc, pre, lo, o, mid ++ [.sweep t], by simp, hlo, ?_⟩
      rw [← List.cons_append, granted_concat]
      simpa [isGranted] using htokens
    · cases hb'

/-- **No denial without excess**: a token is denied only if, since some earlier
call, the tokens granted and this one exceed the bound. -/
theorem excess_of_denied {tr : Trace} {c t : Nat} {s s' : Option TokenBucket} (hcap : 1 ≤ cap)
    (h : (component rate cap ttl).Run none tr c s) (hc : c ≤ t)
    (hstep : (component rate cap ttl).inspect t () s = .ok (false, s')) :
    ∃ pre lo o mid, tr = pre ++ .inspect lo () o :: mid ∧
      cap + asSecsF64 (t - lo) * rate < granted (.inspect lo () o :: mid) + 1 := by
  have hlow : ¬ 1 ≤ level rate cap t s :=
    of_decide_eq_false (congrArg Prod.fst (Except.ok.inj hstep))
  cases s with
  | none => exact absurd hcap hlow
  | some b =>
    obtain ⟨hb, hspent⟩ := Run.spent hcap h b rfl
    rcases hspent.level (Nat.le_trans hb hc) with hfull | ⟨pre, lo, o, mid, htr, -, hexact⟩
    · rw [hfull] at hlow
      exact absurd hcap hlow
    · refine ⟨pre, lo, o, mid, htr, ?_⟩
      rw [hexact] at hlow
      linarith

end TokenBucket

end Ocellus
