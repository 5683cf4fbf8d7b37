import Ocellus.Base.Isolation
import Ocellus.Ids.SynFloodSegment

/-!
# Sources do not interfere

Next to state that all sources share (the per-port sets, the half-open table),
each detector keeps one entry per source: its bucket, its ports, its counters.
What is reported of a source through its entry depends on the source's own
packets and on the sweeps alone. The entry is the view, and each detector
satisfies the step conditions of `Component.Unwinding` for it.
-/

namespace Ocellus

open Component (Unwinding)

namespace RateLimiter

variable {fp : Rounding}

/-- The packet is from `ip`. -/
def isFrom (ip : IpAddr) (p : Packet) : Bool := p.srcIp = ip

/-- Whatever it answers or how it fails, a call leaves its source's bucket as
the call on that bucket does. -/
theorem inspect_view (t : Nat) (p : Packet) (d : RateLimiter fp) :
    (component.inspect t p d).map (fun r => (id r.1, r.2.buckets.lookup p.srcIp))
      = (inspectBucket fp p.srcIp p.pktBytes p.isSyn t
          ((d.buckets.lookup p.srcIp).getD (Bucket.new capacity t))).map
            fun r => (r.1, some r.2) := by
  simp only [component, inspect]
  cases inspectBucket fp p.srcIp p.pktBytes p.isSyn t
      ((d.buckets.lookup p.srcIp).getD (Bucket.new capacity t)) with
  | error f => rfl
  | ok r =>
    show Except.ok (r.1, (d.buckets.insert p.srcIp r.2).lookup p.srcIp) = _
    rw [Table.lookup_insert_eq, if_pos rfl]
    rfl

theorem unwinding (ip : IpAddr) :
    Unwinding component (isFrom ip) id fun d : RateLimiter fp => d.buckets.lookup ip where
  skip := by
    intro t p d o d' hother hstep
    obtain ⟨b', -, rfl⟩ := inspect_eq_ok hstep
    have hne : ip ≠ p.srcIp := fun heq => of_decide_eq_false hother heq.symm
    show (d.buckets.insert p.srcIp b').lookup ip = d.buckets.lookup ip
    rw [Table.lookup_insert_eq, if_neg hne]
  call := by
    intro t p d d' hmine hview
    obtain rfl : p.srcIp = ip := of_decide_eq_true hmine
    rw [inspect_view, inspect_view, hview]
  sweep := by
    intro t d d' hview
    simp only [component, sweep, Table.lookup_retain, hview]

end RateLimiter

namespace PortScanDetector

/-- The contact is by `ip`. -/
def isFrom (ip : IpAddr) (a : IpAddr × U16) : Bool := a.1 = ip

theorem unwinding (hasher : IpAddr → BitVec 64) (ip : IpAddr) :
    Unwinding (component hasher) (isFrom ip) isHorizontal fun d => d.portsPerSrc.lookup ip where
  skip := by
    intro t a d o d' hother hstep
    obtain ⟨-, rfl⟩ := step_eq hstep
    have hne : ip ≠ a.1 := fun heq => of_decide_eq_false hother heq.symm
    rw [inspect_portsPerSrc, Table.lookup_insert_eq, if_neg hne]
  call := by
    intro t a d d' hmine hview
    obtain rfl : a.1 = ip := of_decide_eq_true hmine
    have hports : d.portsOf a.1 = d'.portsOf a.1 := by
      unfold portsOf
      rw [hview]
    -- a vertical report is no part of what the observer sees
    show Except.ok (isHorizontal (inspect hasher t a.1 a.2 d).1,
        (inspect hasher t a.1 a.2 d).2.portsPerSrc.lookup a.1)
      = Except.ok (isHorizontal (inspect hasher t a.1 a.2 d').1,
        (inspect hasher t a.1 a.2 d').2.portsPerSrc.lookup a.1)
    rw [isHorizontal_inspect, isHorizontal_inspect, inspect_portsPerSrc, inspect_portsPerSrc,
      Table.lookup_insert_eq, Table.lookup_insert_eq, if_pos rfl, if_pos rfl, hports]
  sweep := by
    intro t d d' hview
    simp only [component, sweep, Table.lookup_retain, hview]

end PortScanDetector

namespace SynFloodDetector

variable {fp : Rounding}

/-- The segment is from `ip`. -/
def isFrom (ip : IpAddr) (p : Segment) : Bool := p.srcIp = ip

theorem emitsSynFlood_ratio (p : Segment) (k : PerIpCounters) :
    emitsSynFlood (if flooding fp k then [synFloodSignal fp p.srcIp k] else []) = flooding fp k := by
  cases flooding fp k <;> rfl

/-- The flood report of a call, and the counters it leaves its source, come from
the counters it finds. -/
theorem inspect_view (t : Nat) (p : Segment) (d : SynFloodDetector fp) :
    (inspect t p d).map (fun r => (emitsSynFlood r.1, r.2.counters.lookup p.srcIp))
      = (count p (current t p d)).map fun k => (flooding fp k, some k) := by
  rw [inspect_eq_count]
  cases count p (current t p d) with
  | error f => rfl
  | ok k =>
    show Except.ok (emitsSynFlood (_ ++ otherSignals p _),
      (d.counters.insert p.srcIp k).lookup p.srcIp) = _
    rw [emitsSynFlood_append_other, emitsSynFlood_ratio, Table.lookup_insert_eq, if_pos rfl]
    rfl

theorem unwinding (ip : IpAddr) :
    Unwinding component (isFrom ip) emitsSynFlood
      fun d : SynFloodDetector fp => d.counters.lookup ip where
  skip := by
    intro t p d o d' hother hstep
    have hne : ip ≠ p.srcIp := fun heq => of_decide_eq_false hother heq.symm
    obtain ⟨-, rfl⟩ := Prod.mk.inj (inspect_eq_ok hstep)
    show (d.counters.insert p.srcIp _).lookup ip = d.counters.lookup ip
    rw [Table.lookup_insert_eq, if_neg hne]
  call := by
    intro t p d d' hmine hview
    obtain rfl : p.srcIp = ip := of_decide_eq_true hmine
    have hcurrent : current t p d = current t p d' := by
      unfold current
      rw [hview]
    show (inspect t p d).map _ = (inspect t p d').map _
    rw [inspect_view, inspect_view, hcurrent]
  sweep := by
    intro t d d' hview
    simp only [component, sweep, Table.lookup_retain, hview]

end SynFloodDetector

/-- **Sources do not interfere**: for every source, whatever packets the others
send, its packets get the same answers of the rate limiter, the same reports of
horizontal scans and the same reports of SYN floods. -/
theorem sources_isolated (hasher : IpAddr → BitVec 64) (fp : Rounding) (ip : IpAddr) :
    RateLimiter.component.Isolates (.new : RateLimiter fp) (RateLimiter.isFrom ip) id ∧
      (PortScanDetector.component hasher).Isolates .new (PortScanDetector.isFrom ip)
        PortScanDetector.isHorizontal ∧
      SynFloodDetector.component.Isolates (.new : SynFloodDetector fp) (SynFloodDetector.isFrom ip)
        SynFloodDetector.emitsSynFlood :=
  ⟨(RateLimiter.unwinding ip).isolates _, (PortScanDetector.unwinding hasher ip).isolates _,
    (SynFloodDetector.unwinding ip).isolates _⟩

end Ocellus
