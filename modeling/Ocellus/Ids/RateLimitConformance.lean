import Ocellus.Base.TokenBucket
import Ocellus.Base.Tumbling
import Ocellus.Ids.RateLimitSource

/-!
# What the rate limiter guarantees

Of each source's bucket, the tokens are, as long as nothing is rounded, a
`TokenBucket` of capacity 1000 refilled at 500 a second, and the byte and the
connection counter are, however it is rounded, `Tumbling` counters with a window of
a second. The library's results carry over to every run of the limiter:

- `packetRate_conformance`: the packet check lets through what a token bucket
  does, and reports nothing else;
- `letThrough_le`: within a second no source gets more than twice the byte and
  the connection limit past the limiter.
-/

namespace Ocellus

namespace RateLimiter

variable {fp : Rounding}

/-- The history of a limiter. -/
abbrev Trace := List (Entry Packet (Option Signal))

/-! ## The packet rate -/

/-- The tokens of a bucket. -/
def tokenView (b : Bucket) : TokenBucket := ⟨b.tokens, b.lastRefill⟩

/-- Each call with whether it was granted a token. -/
def selectToken (_ : Nat × Bool) (o : Option Signal) : Option (Unit × Bool) :=
  some ((), !isPacketRate o)

theorem level_tokenView (t : Nat) (s : Option Bucket) :
    TokenBucket.level pktRate capacity t (s.map tokenView)
      = (s.getD (Bucket.new capacity t)).refilled .exact pktRate capacity t := by
  rw [Bucket.refilled_exact]
  cases s with
  | none => simp [TokenBucket.level, Bucket.new, durationSince]
  | some b => rfl

theorem sweepBucket_eq (t : Nat) (b : Bucket) :
    sweepBucket t b = if durationSince t b.lastRefill < secs 120 then some b else none := by
  unfold sweepBucket
  simp only [asSecs_lt_iff]

/-- The tokens of a source's bucket are a token bucket. -/
theorem run_token {ip : IpAddr} {tr : List (Entry (Nat × Bool) (Option Signal))} {c : Nat}
    {s : Option Bucket} (h : (source .exact ip).Run none tr c s) :
    ∃ c' ≤ c, (TokenBucket.component pktRate capacity (secs 120)).Run none
      (tr.filterMap (Entry.project selectToken)) c' (s.map tokenView) := by
  refine h.project (Option.map tokenView) selectToken ?_ ?_ ?_
  · intro t a s o s' _ hsel
    cases hsel
  · intro t a s o s' a' o' hstep hsel
    cases hsel
    obtain ⟨⟨o, b'⟩, hb, h⟩ := Checked.bind_eq_ok.mp hstep
    cases h
    have hspec := inspectBucket_eq_ok hb
    have hview : tokenView b' = ⟨b'.tokens, t⟩ := by
      rw [tokenView, hspec.lastRefill]
    show Except.ok (decide (1 ≤ TokenBucket.level pktRate capacity t (s.map tokenView)), _)
      = Except.ok (!isPacketRate o, some (tokenView b'))
    rw [level_tokenView, hview, hspec.tokens, hspec.signal, isPacketRate_verdict, Bool.not_not]
    rfl
  · intro t s
    cases s with
    | none => rfl
    | some b =>
      show (sweepBucket t b).map tokenView
        = if durationSince t b.lastRefill < secs 120 then some (tokenView b) else none
      rw [sweepBucket_eq]
      split <;> rfl

/-- A packet of `src` that was not reported for its rate. -/
def isAccepted (src : IpAddr) : Entry Packet (Option Signal) → Bool
  | .inspect _ p o => decide (p.srcIp = src) && !isPacketRate o
  | .sweep _ => false

/-- The number of packets of `src` accepted in a trace. -/
def accepted (src : IpAddr) (tr : Trace) : Nat := tr.countP (isAccepted src)

/-- The number of packets of `src` accepted between `lo` and `hi`, both included. -/
def acceptedIn (src : IpAddr) (lo hi : Nat) (tr : Trace) : Nat :=
  tr.countP fun e => isAccepted src e && decide (lo ≤ e.time) && decide (e.time ≤ hi)

/-- The calls of one source with whether they were accepted. -/
def selectAccepted (src : IpAddr) (p : Packet) (o : Option Signal) : Option (Unit × Bool) :=
  if p.srcIp = src then some ((), !isPacketRate o) else none

theorem filterMap_selectAccepted (src : IpAddr) (tr : Trace) :
    (tr.filterMap (Entry.project (selectSource src))).filterMap (Entry.project selectToken)
      = tr.filterMap (Entry.project (selectAccepted src)) := by
  rw [Entry.filterMap_project]
  refine congrArg (fun sel => tr.filterMap (Entry.project sel)) ?_
  funext p o
  by_cases hsrc : p.srcIp = src <;> simp [selectSource, selectAccepted, selectToken, hsrc]

theorem accepted_eq (src : IpAddr) (tr : Trace) :
    accepted src tr
      = TokenBucket.granted (tr.filterMap (Entry.project (selectAccepted src))) := by
  unfold accepted TokenBucket.granted
  rw [List.countP_filterMap]
  refine List.countP_congr fun e _ => ?_
  cases e with
  | inspect t p o =>
    by_cases hsrc : p.srcIp = src <;>
      simp [isAccepted, Entry.project, selectAccepted, TokenBucket.isGranted, hsrc]
  | sweep t => simp [isAccepted, Entry.project, TokenBucket.isGranted]

theorem acceptedIn_eq (src : IpAddr) (lo hi : Nat) (tr : Trace) :
    acceptedIn src lo hi tr
      = TokenBucket.grantedIn lo hi (tr.filterMap (Entry.project (selectAccepted src))) := by
  unfold acceptedIn TokenBucket.grantedIn
  rw [List.countP_filterMap]
  refine List.countP_congr fun e _ => ?_
  cases e with
  | inspect t p o =>
    by_cases hsrc : p.srcIp = src
    · simp [isAccepted, Entry.project, Entry.time, selectAccepted, TokenBucket.isGranted, hsrc]
      rfl
    · simp [isAccepted, Entry.project, selectAccepted, hsrc]
  | sweep t => simp [isAccepted, Entry.project, TokenBucket.isGranted]

/-- Every call of the projected trace is a call of the source. -/
theorem exists_of_filterMap {src : IpAddr} {tr : Trace} {pre mid : TokenBucket.Trace}
    {lo : Nat} {o : Bool}
    (h : tr.filterMap (Entry.project (selectAccepted src)) = pre ++ .inspect lo () o :: mid) :
    ∃ pre' p o' mid', tr = pre' ++ .inspect lo p o' :: mid' ∧ p.srcIp = src ∧
      accepted src (.inspect lo p o' :: mid') = TokenBucket.granted (.inspect lo () o :: mid) := by
  obtain ⟨pre', rest, rfl, -, hrest⟩ := List.filterMap_eq_append_iff.mp h
  obtain ⟨skipped, e, mid', rfl, hskip, he, hmid⟩ := List.filterMap_eq_cons_iff.mp hrest
  cases e with
  | sweep t => cases he
  | inspect t p o' =>
    by_cases hsrc : p.srcIp = src
    · have he' : some (Entry.inspect t () (!isPacketRate o')) = some (Entry.inspect lo () o) := by
        simpa [Entry.project, selectAccepted, hsrc] using he
      cases he'
      refine ⟨pre' ++ skipped, p, o', mid', by simp, hsrc, ?_⟩
      rw [accepted_eq, List.filterMap_cons_some he, hmid]
    · simp [Entry.project, selectAccepted, hsrc] at he

/-- The packets of a source and its tokens are those of a token bucket. -/
theorem run_tokens {tr : Trace} {c : Nat} {d : RateLimiter .exact} (h : component.Run new tr c d)
    (src : IpAddr) :
    ∃ c', (TokenBucket.component pktRate capacity (secs 120)).Run none
      (tr.filterMap (Entry.project (selectAccepted src))) c'
      ((d.buckets.lookup src).map tokenView) := by
  obtain ⟨c₁, -, hsource⟩ := run_source src h
  obtain ⟨c₂, -, htoken⟩ := run_token hsource
  rw [filterMap_selectAccepted] at htoken
  exact ⟨c₂, htoken⟩

/-- An idle bucket is full long before it is swept. -/
theorem bounded_tokens {tr : TokenBucket.Trace} {c : Nat} {s : Option TokenBucket}
    (h : (TokenBucket.component pktRate capacity (secs 120)).Run none tr c s) :
    TokenBucket.Bounded pktRate capacity tr c s := by
  refine TokenBucket.Run.bounded (by norm_num [pktRate]) (by norm_num [capacity]) ?_ h
  rw [asSecsF64_secs]
  norm_num [capacity, pktRate]

/-- Between `lo` and `hi` no more packets are accepted than a token bucket lets through. -/
theorem acceptedIn_le {tr : Trace} {c lo hi : Nat} {d : RateLimiter .exact}
    (h : component.Run new tr c d) (src : IpAddr) (hle : lo ≤ hi) :
    (acceptedIn src lo hi tr : ℚ) ≤ 1000 + 500 * asSecsF64 (hi - lo) := by
  obtain ⟨c', htokens⟩ := run_tokens h src
  rw [acceptedIn_eq, mul_comm]
  exact (bounded_tokens htokens).grantedIn_le lo hi hle

/-- **Token-bucket conformance** of the packet check, for every run and source:
the tokens stay within the capacity; between any two times at most
`1000 + 500 * (hi - lo)` packets are accepted; and a packet is reported only if,
since some earlier call of its source, the packets accepted and this one exceed
that bound. -/
theorem packetRate_conformance {tr : Trace} {c : Nat} {d : RateLimiter .exact}
    (h : component.Run new tr c d) (src : IpAddr) :
    (∀ b, d.buckets.lookup src = some b → 0 ≤ b.tokens ∧ b.tokens ≤ 1000) ∧
    (∀ lo hi, lo ≤ hi →
      (acceptedIn src lo hi tr : ℚ) ≤ 1000 + 500 * asSecsF64 (hi - lo)) ∧
    (∀ pre post t p o, tr = pre ++ .inspect t p o :: post → p.srcIp = src →
      isPacketRate o = true →
      ∃ pre' s p' o' mid, pre = pre' ++ .inspect s p' o' :: mid ∧ p'.srcIp = src ∧
        1000 + 500 * asSecsF64 (t - s) < (accepted src (.inspect s p' o' :: mid) : ℚ) + 1) := by
  refine ⟨fun b hb => ?_, fun lo hi => acceptedIn_le h src, fun pre post t p o htr hsrc ho => ?_⟩
  · obtain ⟨c', htokens⟩ := run_tokens h src
    exact (bounded_tokens htokens).tokens_mem (tokenView b) (by rw [hb]; rfl)
  · -- the run up to this call, seen through the same projections
    obtain ⟨c', d', hrun⟩ := h.upto htr
    obtain ⟨c'', htokens⟩ := run_tokens hrun src
    have hlast : [Entry.inspect t p o].filterMap (Entry.project (selectAccepted src))
        = [.inspect t () false] := by
      simp [Entry.project, selectAccepted, hsrc, ho]
    rw [List.filterMap_append, hlast] at htokens
    obtain ⟨c₀, s₀, hrun₀, hc₀, hstep⟩ := Component.Run.inspect_inv htokens
    obtain ⟨pre₁, s, o₁, mid, hpre, hexcess⟩ :=
      TokenBucket.excess_of_denied (by norm_num [capacity]) hrun₀ hc₀ hstep
    -- the call since when the bucket was spent, found in the whole run
    obtain ⟨pre', p', o', mid', rfl, hsrc', hcount⟩ := exists_of_filterMap hpre
    refine ⟨pre', s, p', o', mid', rfl, hsrc', ?_⟩
    rw [hcount, mul_comm]
    exact hexcess

/-- A packet to fill buckets with. -/
def probe (pktBytes : Nat) : Packet := ⟨.v4 1#32, pktBytes, false⟩

/-- One packet more than a full bucket has tokens for, a sweep, and another packet when
there is a token again. -/
def burst : List (Event Packet) :=
  List.replicate 1001 (.inspect 0 (probe 60)) ++ [.sweep 1000000, .inspect 2000000 (probe 60)]

/-- Of a burst, the packet without a token is refused, and the one after the refill is not. -/
theorem packetRate_conformance_burst :
    ∃ tr pre post c, ∃ d : RateLimiter .exact, component.Run new tr c d ∧
      tr.map Entry.event = burst ∧ accepted (probe 60).srcIp tr = 1001 ∧
      tr = pre ++ .inspect 0 (probe 60) (some (packetsSignal (probe 60).srcIp)) :: post ∧
      (∃ pre' s p' o' mid, pre = pre' ++ .inspect s p' o' :: mid ∧ p'.srcIp = (probe 60).srcIp ∧
        1000 + 500 * asSecsF64 (0 - s)
          < (accepted (probe 60).srcIp (.inspect s p' o' :: mid) : ℚ) + 1) := by
  have hperform : (component.perform (new : RateLimiter .exact) burst).Returns fun r =>
      r.1.map Entry.event = burst ∧ accepted (probe 60).srcIp r.1 = 1001 ∧
      r.1 = r.1.take 1000 ++ .inspect 0 (probe 60) (some (packetsSignal (probe 60).srcIp))
        :: r.1.drop 1001 := by
    decide +kernel
  obtain ⟨⟨tr, d⟩, hperform, hevents, haccepted, htr⟩ := hperform
  obtain ⟨c, hrun⟩ := Component.Run.nil.perform (fun _ _ => Nat.zero_le _) (by decide +kernel) hperform
  exact ⟨tr, _, _, c, d, hrun, hevents, haccepted, htr,
    (packetRate_conformance hrun (probe 60).srcIp).2.2 _ _ _ _ _ htr rfl rfl⟩

/-! ## The byte and the connection limit -/

/-- One counter of a bucket, with the window it is in. -/
def windowView (counter : Bucket → Nat) (b : Bucket) : Tumbling :=
  ⟨counter b, b.windowStart, b.lastRefill⟩

/-- The amount each call adds to a counter, and whether it was let through. -/
def selectAmount (amount : Nat × Bool → Nat) (a : Nat × Bool) (o : Option Signal) :
    Option ((Nat × Bool) × Bool) :=
  some ((amount a, o.isNone), o.isNone)

/-- What makes `counter` the counter of a tumbling window with the given limit:
a reset zeroes it, each call adds its amount, and what is let through is within
the limit. -/
structure IsWindowCounter (counter : Bucket → Nat) (amount : Nat × Bool → Nat)
    (limit : Nat) : Prop where
  reset : ∀ (b : Bucket) (now : Nat),
    counter { b with bytes := 0, connections := 0, windowStart := now } = 0
  add : ∀ {fp ip a now b o b'}, Inspected fp ip a.1 a.2 now b o b' →
    counter b' = counter (b.resetWindow fp windowSecs now) + amount a
  fits : ∀ {fp ip a now b b'}, Inspected fp ip a.1 a.2 now b none b' →
    amount a = 0 ∨ counter b' ≤ limit

theorem bytes_isWindowCounter : IsWindowCounter Bucket.bytes Prod.fst bytesRate where
  reset _ _ := rfl
  add h := h.bytes
  fits h := .inr (of_verdict_none h.signal.symm).2.1

theorem connections_isWindowCounter :
    IsWindowCounter Bucket.connections (fun a => a.2.toNat) connRate where
  reset _ _ := rfl
  add h := h.connections
  fits := by
    rintro fp ip ⟨n, syn⟩ now b b' h
    cases syn with
    | true => exact .inr ((of_verdict_none h.signal.symm).2.2 rfl)
    | false => exact .inl rfl

section Window

variable {fp : Rounding} {counter : Bucket → Nat} {amount : Nat × Bool → Nat} {limit : Nat}

theorem windowView_resetWindow (fp : Rounding) (hcounter : IsWindowCounter counter amount limit)
    (now : Nat) (b : Bucket) :
    windowView counter (b.resetWindow fp windowSecs now)
      = Tumbling.reset (secs 1) now (windowView counter b) := by
  have hover : windowSecs ≤ fp.asSecsF64 (durationSince now b.windowStart)
      ↔ secs 1 ≤ durationSince now b.windowStart := fp.one_le_asSecsF64_iff
  unfold Bucket.resetWindow Tumbling.reset
  by_cases h : secs 1 ≤ durationSince now b.windowStart
  · rw [if_pos (hover.mpr h)]
    refine Eq.trans ?_ (if_pos h).symm
    simp only [windowView, hcounter.reset]
  · rw [if_neg (mt hover.mp h)]
    exact (if_neg h).symm

/-- A counter of a source's bucket is a tumbling counter. -/
theorem run_window (hcounter : IsWindowCounter counter amount limit) {ip : IpAddr}
    {tr : List (Entry (Nat × Bool) (Option Signal))} {c : Nat} {s : Option Bucket}
    (h : (source fp ip).Run none tr c s) :
    ∃ c' ≤ c, (Tumbling.component (secs 1) limit (secs 120)).Run none
      (tr.filterMap (Entry.project (selectAmount amount))) c'
      (s.map (windowView counter)) := by
  refine h.project (Option.map (windowView counter)) (selectAmount amount) ?_ ?_ ?_
  · intro t a s o s' _ hsel
    cases hsel
  · intro t a s o s' a' o' hstep hsel
    cases hsel
    obtain ⟨⟨o, b'⟩, hb, h⟩ := Checked.bind_eq_ok.mp hstep
    cases h
    have hspec := inspectBucket_eq_ok hb
    -- no bucket, a new bucket and an empty window are seen as one
    have hnew : windowView counter (Bucket.new capacity t) = ⟨0, t, t⟩ := by
      simp only [windowView, Bucket.new, Tumbling.mk.injEq, and_true]
      exact hcounter.reset (Bucket.new capacity t) t
    have hfound : (s.map (windowView counter)).getD ⟨0, t, t⟩
        = windowView counter (s.getD (Bucket.new capacity t)) := by
      cases s with
      | none => exact hnew.symm
      | some b => rfl
    have hview : windowView counter b' = ⟨(windowView counter
        ((s.getD (Bucket.new capacity t)).resetWindow fp windowSecs t)).total + amount a,
        (windowView counter ((s.getD (Bucket.new capacity t)).resetWindow fp windowSecs t)).windowStart,
        t⟩ := by
      simp only [windowView, hcounter.add hspec, hspec.windowStart, hspec.lastRefill]
    -- a packet that got through fits, so the window would not deny it either
    have hpass : (o.isNone && (amount a == 0 || decide (counter b' ≤ limit))) = o.isNone := by
      cases o with
      | none => simpa using hcounter.fits hspec
      | some s => rfl
    have htotal : (windowView counter
        ((s.getD (Bucket.new capacity t)).resetWindow fp windowSecs t)).total + amount a = counter b' :=
      (hcounter.add hspec).symm
    simp only [Tumbling.component, hfound, ← windowView_resetWindow fp hcounter, Option.map_some]
    rw [hview, htotal, hpass]
  · intro t s
    cases s with
    | none => rfl
    | some b =>
      show (sweepBucket t b).map (windowView counter)
        = if durationSince t b.lastRefill < secs 120 then some (windowView counter b) else none
      rw [sweepBucket_eq]
      split <;> rfl

end Window

/-- What a call adds to the amounts of `src` let through between `lo` and `hi`. -/
def letThroughBy (amount : Nat × Bool → Nat) (src : IpAddr) (lo hi : Nat) :
    Entry Packet (Option Signal) → Nat
  | .inspect t p o =>
    if p.srcIp = src ∧ o = none ∧ lo ≤ t ∧ t ≤ hi then amount (p.pktBytes, p.isSyn) else 0
  | .sweep _ => 0

/-- The bytes of `src` in packets let through between `lo` and `hi`. -/
def bytesLetThrough (src : IpAddr) (lo hi : Nat) (tr : Trace) : Nat :=
  (tr.map (letThroughBy Prod.fst src lo hi)).sum

/-- The SYN packets of `src` let through between `lo` and `hi`. -/
def synsLetThrough (src : IpAddr) (lo hi : Nat) (tr : Trace) : Nat :=
  (tr.map (letThroughBy (fun a => a.2.toNat) src lo hi)).sum

theorem letThrough_eq (amount : Nat × Bool → Nat) (src : IpAddr) (lo hi : Nat) (tr : Trace) :
    (tr.map (letThroughBy amount src lo hi)).sum
      = Tumbling.passed lo (hi + 1) ((tr.filterMap (Entry.project (selectSource src))).filterMap
          (Entry.project (selectAmount amount))) := by
  rw [Entry.filterMap_project]
  induction tr with
  | nil => rfl
  | cons e tr ih =>
    rw [List.map_cons, List.sum_cons, ih]
    cases e with
    | inspect t p o =>
      by_cases hsrc : p.srcIp = src
      · have hbound : t < hi + 1 ↔ t ≤ hi := Nat.lt_succ_iff
        simp [Entry.project, selectSource, selectAmount, letThroughBy, Tumbling.passed,
          Tumbling.passedBy, hsrc, hbound]
      · simp [Entry.project, selectSource, letThroughBy, hsrc]
    | sweep t => simp [Entry.project, letThroughBy, Tumbling.passed, Tumbling.passedBy]

/-- Within a second, twice the limit of a window gets past the limiter, and no more. -/
theorem letThroughBy_le {counter : Bucket → Nat} {amount : Nat × Bool → Nat} {limit : Nat}
    (hcounter : IsWindowCounter counter amount limit) {tr : Trace} {c : Nat} {d : RateLimiter fp}
    (h : component.Run new tr c d) (src : IpAddr) {lo hi : Nat} (hlen : hi ≤ lo + secs 1) :
    (tr.map (letThroughBy amount src lo hi)).sum ≤ 2 * limit := by
  have hw : 0 < secs 1 := by decide
  have httl : secs 1 < secs 120 := by decide
  obtain ⟨c₁, -, hsource⟩ := run_source src h
  obtain ⟨c₂, -, hwindow⟩ := run_window hcounter hsource
  rw [letThrough_eq]
  exact Tumbling.passed_le hw httl hwindow (Nat.succ_le_succ hlen)

/-- **Bounded evasion**: in every run, within an interval no longer than a
second, no source gets more than twice the byte limit or twice the connection
limit past the limiter. -/
theorem letThrough_le {tr : Trace} {c : Nat} {d : RateLimiter fp} (h : component.Run new tr c d)
    (src : IpAddr) {lo hi : Nat} (hlen : hi ≤ lo + secs 1) :
    bytesLetThrough src lo hi tr ≤ 2 * 10485760 ∧ synsLetThrough src lo hi tr ≤ 2 * 50 :=
  ⟨letThroughBy_le bytes_isWindowCounter h src hlen,
    letThroughBy_le connections_isWindowCounter h src hlen⟩

/-- Two windows, each filled to the limit; a packet too many in the first is refused. -/
def twoWindows : List (Event Packet) :=
  [.inspect 0 (probe 10485760), .inspect 0 (probe 60), .sweep (secs 1), .inspect (secs 1) (probe 10485760)]

/-- Within a second, the bound on the bytes is reached. -/
theorem letThrough_le_two_windows :
    ∃ tr c, ∃ d : RateLimiter .ieee, component.Run new tr c d ∧ tr.map Entry.event = twoWindows ∧
      bytesLetThrough (probe 60).srcIp 0 (secs 1) tr = 2 * 10485760 ∧
      bytesLetThrough (probe 60).srcIp 0 (secs 1) tr ≤ 2 * 10485760 := by
  have hperform : (component.perform (new : RateLimiter .ieee) twoWindows).Returns fun r =>
      r.1.map Entry.event = twoWindows ∧
      bytesLetThrough (probe 60).srcIp 0 (secs 1) r.1 = 2 * 10485760 := by
    decide +kernel
  obtain ⟨⟨tr, d⟩, hperform, hevents, hbytes⟩ := hperform
  obtain ⟨c, hrun⟩ := Component.Run.nil.perform (fun _ _ => Nat.zero_le _) (by decide) hperform
  exact ⟨tr, c, d, hrun, hevents, hbytes, (letThrough_le hrun (probe 60).srcIp (by decide)).1⟩

end RateLimiter

end Ocellus
