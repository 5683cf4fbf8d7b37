import Ocellus.Base.Swept
import Ocellus.Ids.PortScanWindow
import Ocellus.Ids.RateLimitSource
import Ocellus.Ids.SynFlood

/-!
# The sweeper is unobservable

A background thread sweeps the detectors every 30 seconds. Each sweep drops state
under an age test of its own; here it is shown that whatever it drops would have
been expired, refilled or reset at its next use, so that no sequence of calls is
answered differently for the sweeps in between.

Each proof is a simulation between the swept detector and the same detector left
alone, and instantiates `Component.answers_erase_sweeps`.
-/

namespace Ocellus

/-! ## Port scans: a sweep drops expired entries -/

namespace PortScanDetector

variable {hasher : IpAddr → BitVec 64} {c t : Nat}

/-- From `c` on, the two sets have the same live entries. -/
def SameLive (c : Nat) (s s' : SlidingSet window) : Prop :=
  ∀ t, c ≤ t → TtlSet.liveAt window t s.entries = TtlSet.liveAt window t s'.entries

theorem SameLive.refl (c : Nat) (s : SlidingSet window) : SameLive c s s := fun _ _ => rfl

theorem SameLive.later {s s' : SlidingSet window} (h : SameLive c s s') (hct : c ≤ t) :
    SameLive t s s' := fun t' ht' => h t' (Nat.le_trans hct ht')

/-- An insertion makes them equal. -/
theorem SameLive.insert {s s' : SlidingSet window} (h : SameLive c s s') (hct : c ≤ t)
    (v : U16) : s.insert t v = s'.insert t v := by
  have hlive : s.live t = s'.live t := h t hct
  unfold SlidingSet.insert
  rw [hlive]

theorem SameLive.sweep {o : Option (SlidingSet window)} {s' : SlidingSet window}
    (h : SameLive c (o.getD SlidingSet.new) s') (hct : c ≤ t) :
    SameLive t ((o.bind fun s => s.sweep t).getD SlidingSet.new) s' := by
  have hlive : ((o.bind fun s => s.sweep t).getD SlidingSet.new).entries
      = TtlSet.liveAt window t (o.getD SlidingSet.new).entries := by
    cases o with
    | none => rfl
    | some s =>
      show ((s.sweep t).getD SlidingSet.new).entries = TtlSet.liveAt window t s.entries
      unfold SlidingSet.sweep
      rw [show s.live t = TtlSet.liveAt window t s.entries from rfl]
      split
      · rename_i hempty
        exact (List.isEmpty_iff.mp hempty).symm
      · rfl
  intro t' ht'
  rw [hlive, TtlSet.liveAt_liveAt ht']
  exact h t' (Nat.le_trans hct ht')

/-- The swept detector `d` and the unswept `d'` at time `c`. -/
structure Sim (c : Nat) (d d' : PortScanDetector) : Prop where
  ports : ∀ ip, SameLive c (d.portsOf ip) (d'.portsOf ip)
  srcs : ∀ port, SameLive c (d.srcsOf port) (d'.srcsOf port)

theorem Sim.sweep {d d' : PortScanDetector} (h : Sim c d d') (hct : c ≤ t) :
    Sim t (sweep t d) d' := by
  constructor
  · intro ip
    show SameLive t (((d.portsPerSrc.retain _).lookup ip).getD SlidingSet.new) (d'.portsOf ip)
    rw [Table.lookup_retain]
    exact (h.ports ip).sweep hct
  · intro port
    show SameLive t (((d.srcsPerPort.retain _).lookup port).getD SlidingSet.new) (d'.srcsOf port)
    rw [Table.lookup_retain]
    exact (h.srcs port).sweep hct

/-- Both detectors insert into the same set, and are left with it. -/
theorem SameLive.of_insert {κ : Type} [DecidableEq κ] {T T' : Table κ (SlidingSet window)}
    (h : ∀ k, SameLive c ((T.lookup k).getD SlidingSet.new) ((T'.lookup k).getD SlidingSet.new))
    (hct : c ≤ t) (k₀ : κ) (s : SlidingSet window) (k : κ) :
    SameLive t (((T.insert k₀ s).lookup k).getD SlidingSet.new)
      (((T'.insert k₀ s).lookup k).getD SlidingSet.new) := by
  rw [Table.lookup_insert_eq, Table.lookup_insert_eq]
  by_cases hk : k = k₀
  · rw [if_pos hk, if_pos hk]
    exact SameLive.refl t s
  · rw [if_neg hk, if_neg hk]
    exact (h k).later hct

theorem Sim.inspect {d d' : PortScanDetector} (h : Sim c d d') (hct : c ≤ t) (ip : IpAddr)
    (port : U16) :
    (inspect hasher t ip port d).1 = (inspect hasher t ip port d').1 ∧
      Sim t (inspect hasher t ip port d).2 (inspect hasher t ip port d').2 := by
  have hports := (h.ports ip).insert hct port
  have hsrcs := (h.srcs port).insert hct (ipHash hasher ip)
  have hportsSim := SameLive.of_insert h.ports hct ip ((d'.portsOf ip).insert t port).2
  have hsrcsSim := SameLive.of_insert h.srcs hct port
    ((d'.srcsOf port).insert t (ipHash hasher ip)).2
  have hkeep : ∀ port, SameLive t (d.srcsOf port) (d'.srcsOf port) :=
    fun port => (h.srcs port).later hct
  rcases inspect_cases hasher t ip port d' with ⟨hh', heq'⟩ | ⟨hh', heq'⟩
  · rcases inspect_cases hasher t ip port d with ⟨hh, heq⟩ | ⟨hh, heq⟩
    · rw [heq, heq', hports]
      exact ⟨rfl, hportsSim, hkeep⟩
    · rw [hports] at hh
      exact absurd hh' hh
  · rcases inspect_cases hasher t ip port d with ⟨hh, heq⟩ | ⟨hh, heq⟩
    · rw [hports] at hh
      exact absurd hh hh'
    · rw [heq, heq', hports, hsrcs]
      exact ⟨rfl, hportsSim, hsrcsSim⟩

theorem answers_erase_sweeps (hasher : IpAddr → BitVec 64) {es : List (Event (IpAddr × U16))}
    (hmono : es.Pairwise fun e e' => e.time ≤ e'.time) :
    (component hasher).answers new es
      = (component hasher).answers new (es.filter Event.isInspect) := by
  have hstart : Sim 0 new new :=
    ⟨fun ip => .refl 0 (new.portsOf ip), fun p => .refl 0 (new.srcsOf p)⟩
  have h := (component hasher).answers_erase_sweeps id Sim
    (fun hsim hct => hsim.sweep hct) (fun a hsim hct => hsim.inspect hct a.1 a.2)
    es hstart (fun _ _ => Nat.zero_le _) hmono
  simpa using h

end PortScanDetector

/-! ## Rates: a sweep drops buckets that are full again -/

namespace RateLimiter

variable {fp : Rounding} {c t : Nat}

/-- What every bucket of a run satisfies at time `c`. -/
def Sound (c : Nat) (b : Bucket) : Prop :=
  b.windowStart ≤ b.lastRefill ∧ b.lastRefill ≤ c ∧ 0 ≤ b.tokens

/-- Last used two minutes ago. -/
def Stale (c : Nat) (b : Bucket) : Prop := secs 120 ≤ durationSince c b.lastRefill

/-- The call sees of a bucket its window after the reset, and its level after
the refill. -/
theorem inspectBucket_congr {b b' : Bucket} {ip : IpAddr} {n : Nat} {syn : Bool}
    (hbytes : (b.resetWindow fp windowSecs t).bytes = (b'.resetWindow fp windowSecs t).bytes)
    (hconn : (b.resetWindow fp windowSecs t).connections
      = (b'.resetWindow fp windowSecs t).connections)
    (hstart : (b.resetWindow fp windowSecs t).windowStart
      = (b'.resetWindow fp windowSecs t).windowStart)
    (hlevel : b.refilled fp pktRate capacity t = b'.refilled fp pktRate capacity t) :
    inspectBucket fp ip n syn t b = inspectBucket fp ip n syn t b' := by
  have hcall : ∀ b : Bucket, inspectBucket fp ip n syn t b = do
      let bytes ← Checked.add 64 (b.resetWindow fp windowSecs t).bytes n
      let connections ← Checked.addIf 64 syn (b.resetWindow fp windowSecs t).connections 1
      let l := b.refilled fp pktRate capacity t
      let b' : Bucket := ⟨Bucket.left fp l, t, bytes, connections,
        (b.resetWindow fp windowSecs t).windowStart⟩
      return (verdict ip syn (decide (1 ≤ l)) b', b') := by
    intro b
    simp [inspectBucket, count, Bucket.consume_eq, Bucket.refilled]
  rw [hcall, hcall, hbytes, hconn, hstart, hlevel]

/-- What is full stays full, however it is rounded. -/
theorem refilled_eq_capacity {b : Bucket}
    (h : 1000 ≤ b.tokens + fp.f64 (fp.asSecsF64 (durationSince t b.lastRefill) * 500)) :
    b.refilled fp pktRate capacity t = capacity :=
  min_eq_right (by exact_mod_cast fp.f64_isRounding.natCast_le (n := 1000) (by norm_num) (by exact_mod_cast h))

/-- A stale bucket is used as a new one. -/
theorem inspectBucket_of_stale {b : Bucket} (hb : Sound t b) (hold : Stale t b) (ip : IpAddr)
    (n : Nat) (syn : Bool) :
    inspectBucket fp ip n syn t (Bucket.new capacity t) = inspectBucket fp ip n syn t b := by
  obtain ⟨hstart, -, htokens⟩ := hb
  have hidle : secs 120 ≤ t - b.lastRefill := hold
  have hover : windowSecs ≤ fp.asSecsF64 (durationSince t b.windowStart) := by
    refine fp.one_le_asSecsF64_iff.mpr ?_
    unfold durationSince
    simp only [secs] at hidle ⊢
    omega
  -- a stale bucket has outlived its window, and is full again
  have hreset : b.resetWindow fp windowSecs t
      = { b with bytes := 0, connections := 0, windowStart := t } := if_pos hover
  have hnew : (Bucket.new capacity t).resetWindow fp windowSecs t = Bucket.new capacity t := by
    refine if_neg ?_
    rw [windowSecs, fp.one_le_asSecsF64_iff]
    simp [Bucket.new, durationSince, secs]
  have hfull : b.refilled fp pktRate capacity t = capacity := by
    refine refilled_eq_capacity ?_
    have hlong := fp.le_asSecsF64 (n := 120) (by norm_num) hold
    have hrefill : (1000 : ℚ) ≤ fp.asSecsF64 (durationSince t b.lastRefill) * 500 := by
      push_cast at hlong
      linarith
    have hround := fp.f64_isRounding.natCast_le (n := 1000) (by norm_num) (by exact_mod_cast hrefill)
    push_cast at hround
    linarith
  have hfresh : (Bucket.new capacity t).refilled fp pktRate capacity t = capacity := by
    refine refilled_eq_capacity ?_
    have hnonneg := fp.f64_isRounding.nonneg
      (mul_nonneg (fp.asSecsF64_nonneg (durationSince t t)) (by norm_num : (0 : ℚ) ≤ 500))
    show (1000 : ℚ) ≤ 1000 + fp.f64 (fp.asSecsF64 (durationSince t t) * 500)
    linarith
  refine inspectBucket_congr ?_ ?_ ?_ (hfresh.trans hfull.symm)
  · rw [hnew, hreset]
    rfl
  · rw [hnew, hreset]
    rfl
  · rw [hnew, hreset]
    rfl

/-- A call leaves its bucket sound. -/
theorem Inspected.sound {ip : IpAddr} {n : Nat} {syn : Bool} {b b' : Bucket}
    {o : Option Signal} (h : Inspected fp ip n syn t b o b') (hb : Sound t b) : Sound t b' := by
  have hround := fp.f64_isRounding
  obtain ⟨hstart, hlast, htokens⟩ := hb
  have hlevel : 0 ≤ b.refilled fp pktRate capacity t := by
    refine le_min (hround.nonneg (add_nonneg htokens (hround.nonneg
      (mul_nonneg (fp.asSecsF64_nonneg _) ?_)))) ?_
    · norm_num [pktRate]
    · norm_num [capacity]
  refine ⟨?_, Nat.le_of_eq h.lastRefill, ?_⟩
  · rw [h.windowStart, h.lastRefill]
    unfold Bucket.resetWindow
    split
    · exact Nat.le_refl t
    · exact Nat.le_trans hstart hlast
  · rw [h.tokens, Bucket.left]
    split
    · exact hround.nonneg (by linarith)
    · exact hlevel

/-- The swept limiter `d` and the unswept `d'` at time `c`. -/
def Sim (c : Nat) (d d' : RateLimiter fp) : Prop := SweptTable Sound Stale c d.buckets d'.buckets

theorem Sim.later {d d' : RateLimiter fp} (h : Sim c d d') (hct : c ≤ t) : Sim t d d' := by
  refine SweptTable.later h (fun b hb => ?_) (fun b hold => ?_)
  · obtain ⟨hstart, hlast, htokens⟩ := hb
    exact ⟨hstart, Nat.le_trans hlast hct, htokens⟩
  · unfold Stale durationSince at hold ⊢
    omega

theorem Sim.sweep {d d' : RateLimiter fp} (h : Sim c d d') (hct : c ≤ t) : Sim t (sweep t d) d' := by
  refine SweptTable.retain (h.later hct) fun _ b => ?_
  unfold sweepBucket
  by_cases hyoung : asSecs (durationSince t b.lastRefill) < 120
  · exact .inl (if_pos hyoung)
  · refine .inr ⟨if_neg hyoung, ?_⟩
    rw [asSecs_lt_iff] at hyoung
    exact Nat.le_of_not_lt hyoung

theorem Sim.inspect {d d' : RateLimiter fp} (h : Sim c d d') (hct : c ≤ t) (p : Packet) :
    Component.Agree id (Sim t) (component.inspect t p d) (component.inspect t p d') := by
  have hslot := h.later hct p.srcIp
  have hnew : Sound t (Bucket.new capacity t) :=
    ⟨Nat.le_refl t, Nat.le_refl t, by norm_num [Bucket.new, capacity]⟩
  have hsound := hslot.valid_getD hnew
  have hcall : inspectBucket fp p.srcIp p.pktBytes p.isSyn t
        ((d.buckets.lookup p.srcIp).getD (Bucket.new capacity t))
      = inspectBucket fp p.srcIp p.pktBytes p.isSyn t
        ((d'.buckets.lookup p.srcIp).getD (Bucket.new capacity t)) := by
    rcases hslot.getD_cases (Bucket.new capacity t) with heq | ⟨hfresh, hvalid, hold⟩
    · rw [heq]
    · rw [hfresh]
      exact inspectBucket_of_stale hvalid hold _ _ _
  simp only [component, RateLimiter.inspect, hcall]
  cases hres : inspectBucket fp p.srcIp p.pktBytes p.isSyn t
      ((d'.buckets.lookup p.srcIp).getD (Bucket.new capacity t)) with
  | error f => exact rfl
  | ok r =>
    have hkept : Sound t r.2 := (inspectBucket_eq_ok hres).sound hsound
    exact ⟨rfl, SweptTable.insert (h.later hct) p.srcIp hkept⟩

theorem answers_erase_sweeps (fp : Rounding) {es : List (Event Packet)}
    (hmono : es.Pairwise fun e e' => e.time ≤ e'.time) :
    component.answers (new : RateLimiter fp) es
      = component.answers (new : RateLimiter fp) (es.filter Event.isInspect) := by
  have hstart : Sim 0 (new : RateLimiter fp) new := SweptTable.new 0
  have h := component.answers_erase_sweeps id Sim
    (fun hsim hct => hsim.sweep hct) (fun p hsim hct => hsim.inspect hct p)
    es hstart (fun _ _ => Nat.zero_le _) hmono
  simpa using h

end RateLimiter

/-! ## SYN floods: a sweep drops counters that the next segment resets -/

namespace SynFloodDetector

variable {fp : Rounding} {c t : Nat}

/-- The answer reports a SYN flood. -/
def emitsSynFlood (o : List Signal) : Bool := o.any fun s => s.name == .synFlood

/-- Last reset ten windows ago. -/
def Stale (c : Nat) (k : PerIpCounters) : Prop :=
  PerIpCounters.window * 10 ≤ durationSince c k.lastReset

/-- The signals of a call other than those on the SYN/ACK ratio. -/
def otherSignals (p : Segment) (halfOpen : Table FlowKey Nat) : List Signal :=
  (if halfOpenThreshold ≤ Table.len halfOpen then [halfOpenSignal (Table.len halfOpen)] else [])
  ++ (if p.isRst && (halfOpen.lookup p.flowKey).isNone && (halfOpen.lookup p.revKey).isNone then
      [rstSignal p.srcIp] else [])
  ++ (if p.flags = TCP_XMAS then [xmasSignal p.srcIp] else [])

/-- A call is the tracking of the ratio, and the rest. -/
theorem inspect_eq (now : Nat) (p : Segment) (d : SynFloodDetector fp) :
    inspect now p d = do
      let r ← trackRatio fp now p d.counters
      return (r.1 ++ otherSignals p (trackHalfOpen now p d.halfOpen),
        ⟨r.2, trackHalfOpen now p d.halfOpen⟩) := by
  unfold inspect
  refine congrArg (trackRatio fp now p d.counters >>= ·) ?_
  funext r
  simp [otherSignals]

theorem emitsSynFlood_append_other (o : List Signal) (p : Segment)
    (halfOpen : Table FlowKey Nat) :
    emitsSynFlood (o ++ otherSignals p halfOpen) = emitsSynFlood o := by
  have hother : emitsSynFlood (otherSignals p halfOpen) = false := by
    unfold otherSignals emitsSynFlood
    rw [List.any_append, List.any_append]
    refine Bool.or_eq_false_iff.mpr ⟨Bool.or_eq_false_iff.mpr ⟨?_, ?_⟩, ?_⟩
    · split <;> rfl
    · split <;> rfl
    · split <;> rfl
  unfold emitsSynFlood at hother ⊢
  rw [List.any_append, hother, Bool.or_false]

/-- The swept detector `d` and the unswept `d'` at time `c`; their half-open
connections may differ. -/
def Sim (c : Nat) (d d' : SynFloodDetector fp) : Prop :=
  SweptTable (fun _ _ => True) Stale c d.counters d'.counters

theorem Sim.later {d d' : SynFloodDetector fp} (h : Sim c d d') (hct : c ≤ t) : Sim t d d' := by
  refine SweptTable.later h (fun _ _ => trivial) (fun k hold => ?_)
  unfold Stale durationSince at hold ⊢
  omega

theorem Sim.sweep {d d' : SynFloodDetector fp} (h : Sim c d d') (hct : c ≤ t) :
    Sim t (sweep t d) d' := by
  refine SweptTable.retain (h.later hct) fun _ k => ?_
  by_cases hyoung : durationSince t k.lastReset < PerIpCounters.window * 10
  · exact .inl (if_pos hyoung)
  · exact .inr ⟨if_neg hyoung, Nat.le_of_not_lt hyoung⟩

/-- Stale counters are used as new ones. -/
theorem maybeReset_of_stale {k : PerIpCounters} (hold : Stale t k) :
    (PerIpCounters.new t).maybeReset t = k.maybeReset t := by
  have hover : PerIpCounters.window ≤ durationSince t k.lastReset := by
    unfold Stale at hold
    omega
  have hnew : ¬ PerIpCounters.window ≤ durationSince t (PerIpCounters.new t).lastReset := by
    simp [PerIpCounters.new, durationSince, PerIpCounters.window, secs]
  exact (if_neg hnew).trans (if_pos hover).symm

theorem Sim.trackRatio (fp : Rounding) {T T' : Table IpAddr PerIpCounters}
    (h : SweptTable (fun _ _ => True) Stale t T T') (p : Segment) :
    Component.Agree id (SweptTable (fun _ _ => True) Stale t)
      (trackRatio fp t p T) (trackRatio fp t p T') := by
  have hslot := h p.srcIp
  have hreset : ((T.lookup p.srcIp).getD (PerIpCounters.new t)).maybeReset t
      = ((T'.lookup p.srcIp).getD (PerIpCounters.new t)).maybeReset t := by
    rcases hslot.getD_cases (PerIpCounters.new t) with heq | ⟨hfresh, -, hold⟩
    · rw [heq]
    · rw [hfresh]
      exact maybeReset_of_stale hold
  simp only [SynFloodDetector.trackRatio, hreset]
  cases hcount : count p (((T'.lookup p.srcIp).getD (PerIpCounters.new t)).maybeReset t) with
  | error f => exact rfl
  | ok k => exact ⟨rfl, SweptTable.insert h p.srcIp trivial⟩

theorem Sim.inspect {d d' : SynFloodDetector fp} (h : Sim c d d') (hct : c ≤ t) (p : Segment) :
    Component.Agree emitsSynFlood (Sim t) (component.inspect t p d) (component.inspect t p d') := by
  have hagree := Sim.trackRatio fp (h.later hct) p
  show Component.Agree emitsSynFlood (Sim t) (SynFloodDetector.inspect t p d)
    (SynFloodDetector.inspect t p d')
  rw [inspect_eq, inspect_eq]
  rcases hagree.cases with ⟨f, hr, hr'⟩ | ⟨r, r', hr, hr', hsignals, htables⟩
  · rw [hr, hr']
    exact rfl
  · rw [hr, hr']
    refine ⟨?_, htables⟩
    rw [emitsSynFlood_append_other, emitsSynFlood_append_other]
    exact congrArg emitsSynFlood hsignals

theorem answers_erase_sweeps (fp : Rounding) {es : List (Event Segment)}
    (hmono : es.Pairwise fun e e' => e.time ≤ e'.time) :
    (component.answers (new : SynFloodDetector fp) es).map (List.map emitsSynFlood)
      = (component.answers (new : SynFloodDetector fp) (es.filter Event.isInspect)).map
        (List.map emitsSynFlood) :=
  component.answers_erase_sweeps emitsSynFlood Sim
    (fun hsim hct => hsim.sweep hct) (fun p hsim hct => hsim.inspect hct p)
    es (SweptTable.new 0) (fun _ _ => Nat.zero_le _) hmono

end SynFloodDetector

/-! ## All three -/

/-- **The sweeper is unobservable**: whatever sweeps are inserted into sequences
of calls, every call on the port-scan detector and on the rate limiter is
answered as without them, and the SYN-flood detector reports a SYN flood at the
same calls. With exact arithmetic or with any other. -/
theorem sweeps_unobservable (hasher : IpAddr → BitVec 64) (fp : Rounding)
    {contacts : List (Event (IpAddr × U16))} {packets : List (Event RateLimiter.Packet)}
    {segments : List (Event Segment)}
    (hcontacts : contacts.Pairwise fun e e' => e.time ≤ e'.time)
    (hpackets : packets.Pairwise fun e e' => e.time ≤ e'.time)
    (hsegments : segments.Pairwise fun e e' => e.time ≤ e'.time) :
    (PortScanDetector.component hasher).answers .new contacts
        = (PortScanDetector.component hasher).answers .new (contacts.filter Event.isInspect) ∧
      RateLimiter.component.answers (.new : RateLimiter fp) packets
        = RateLimiter.component.answers (.new : RateLimiter fp) (packets.filter Event.isInspect) ∧
      (SynFloodDetector.component.answers (.new : SynFloodDetector fp) segments).map
          (List.map SynFloodDetector.emitsSynFlood)
        = (SynFloodDetector.component.answers (.new : SynFloodDetector fp)
            (segments.filter Event.isInspect)).map (List.map SynFloodDetector.emitsSynFlood) :=
  ⟨PortScanDetector.answers_erase_sweeps hasher hcontacts,
    RateLimiter.answers_erase_sweeps fp hpackets,
    SynFloodDetector.answers_erase_sweeps fp hsegments⟩

/-- One call, a sweep that drops what it left, and the same call again. -/
def sweptBetween {α : Type} (t : Nat) (a : α) : List (Event α) :=
  [.inspect 0 a, .sweep t, .inspect (t + 1) a]

theorem sweeps_unobservable_dropping :
    let ip : IpAddr := .v4 1#32
    let contact := (ip, 80#16)
    let pkt : RateLimiter.Packet := ⟨ip, 60, true⟩
    let syn : Segment := ⟨ip, .v4 2#32, 1024#16, 80#16, TCP_SYN⟩
    let ports := PortScanDetector.component fun _ => 0#64
    let rates := @RateLimiter.component .exact
    let floods := @SynFloodDetector.component .exact
    ((ports.perform .new [.inspect 0 contact, .sweep (secs 60)]).Returns fun r =>
        Table.len r.2.portsPerSrc = 0 ∧ Table.len r.2.srcsPerPort = 0) ∧
      ((rates.perform .new [.inspect 0 pkt, .sweep (secs 120)]).Returns fun r =>
        Table.len r.2.buckets = 0) ∧
      ((floods.perform .new [.inspect 0 syn, .sweep (secs 100)]).Returns fun r =>
        Table.len r.2.counters = 0 ∧ Table.len r.2.halfOpen = 0) ∧
      ports.answers .new (sweptBetween (secs 60) contact)
        = ports.answers .new [.inspect 0 contact, .inspect (secs 60 + 1) contact] ∧
      rates.answers .new (sweptBetween (secs 120) pkt)
        = rates.answers .new [.inspect 0 pkt, .inspect (secs 120 + 1) pkt] ∧
      (floods.answers .new (sweptBetween (secs 100) syn)).map
          (List.map SynFloodDetector.emitsSynFlood)
        = (floods.answers .new [.inspect 0 syn, .inspect (secs 100 + 1) syn]).map
          (List.map SynFloodDetector.emitsSynFlood) := by
  intro ip contact pkt syn ports rates floods
  refine ⟨by decide +kernel, by decide +kernel, by decide +kernel, ?_⟩
  exact sweeps_unobservable (fun _ => 0#64) .exact
    (show (sweptBetween (secs 60) contact).Pairwise _ by decide)
    (show (sweptBetween (secs 120) pkt).Pairwise _ by decide)
    (show (sweptBetween (secs 100) syn).Pairwise _ by decide)

end Ocellus
