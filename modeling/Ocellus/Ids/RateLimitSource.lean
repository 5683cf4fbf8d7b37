import Ocellus.Ids.RateLimit

/-!
# The rate limiter, one source at a time

A call touches its source's bucket only, and a sweep treats each bucket on its
own, so the limiter projects onto one component per source (`run_source`), whose
state is that source's bucket, if it has one. `Inspected` says everything a call
does to that bucket; the results on token buckets and tumbling windows are
derived from it.
-/

namespace Ocellus

namespace Bucket

variable {fp : Rounding} {windowSecs : ℚ} {now : Nat} {b : Bucket}

@[simp] theorem resetWindow_tokens : (b.resetWindow fp windowSecs now).tokens = b.tokens := by
  unfold resetWindow
  split <;> rfl

@[simp] theorem resetWindow_lastRefill :
    (b.resetWindow fp windowSecs now).lastRefill = b.lastRefill := by
  unfold resetWindow
  split <;> rfl

/-- The level of a bucket after its refill at `now`. -/
def refilled (fp : Rounding) (ratePerSec capacity : ℚ) (now : Nat) (b : Bucket) : ℚ :=
  min (fp.f64 (b.tokens + fp.f64 (fp.asSecsF64 (durationSince now b.lastRefill) * ratePerSec)))
    capacity

/-- Without rounding. -/
theorem refilled_exact (ratePerSec capacity : ℚ) (now : Nat) (b : Bucket) :
    b.refilled .exact ratePerSec capacity now
      = min (b.tokens + asSecsF64 (durationSince now b.lastRefill) * ratePerSec) capacity := by
  rw [refilled, Rounding.exact_asSecsF64]
  rfl

/-- The level that a call leaves. -/
def left (fp : Rounding) (level : ℚ) : ℚ := if 1 ≤ level then fp.f64 (level - 1) else level

theorem consume_eq (fp : Rounding) (ratePerSec capacity : ℚ) (now : Nat) (b : Bucket) :
    b.consume fp ratePerSec capacity now =
      (decide (1 ≤ b.refilled fp ratePerSec capacity now),
        { b with
          tokens := left fp (b.refilled fp ratePerSec capacity now)
          lastRefill := now }) := by
  unfold left
  show (if 1 ≤ b.refilled fp ratePerSec capacity now then _ else _) = _
  by_cases h : 1 ≤ b.refilled fp ratePerSec capacity now
  · rw [if_pos h, if_pos h, decide_eq_true h]
    rfl
  · rw [if_neg h, if_neg h, decide_eq_false h]
    rfl

end Bucket

namespace RateLimiter

open Bucket (refilled)

variable {fp : Rounding}

/-! ## One call on one bucket -/

/-- A report on the packet rate. -/
def isPacketRate (o : Option Signal) : Bool := o.any fun s => s.name == .rateExceededPackets

/-- Everything a call does with its source's bucket `b`, leaving `b'` and
answering `o`. -/
structure Inspected (fp : Rounding) (srcIp : IpAddr) (pktBytes : Nat) (isSyn : Bool) (now : Nat)
    (b : Bucket) (o : Option Signal) (b' : Bucket) : Prop where
  bytes : b'.bytes = (b.resetWindow fp windowSecs now).bytes + pktBytes
  connections : b'.connections = (b.resetWindow fp windowSecs now).connections + isSyn.toNat
  windowStart : b'.windowStart = (b.resetWindow fp windowSecs now).windowStart
  lastRefill : b'.lastRefill = now
  tokens : b'.tokens = Bucket.left fp (refilled fp pktRate capacity now b)
  signal : o = verdict srcIp isSyn (decide (1 ≤ refilled fp pktRate capacity now b)) b'

section Inspect

variable {ip : IpAddr} {n : Nat} {syn : Bool} {now : Nat} {b b' : Bucket} {o : Option Signal}

theorem count_eq_ok (h : count n syn b = .ok b') :
    b' = { b with bytes := b.bytes + n, connections := b.connections + syn.toNat } := by
  obtain ⟨bytes, hbytes, h⟩ := Checked.bind_eq_ok.mp h
  obtain ⟨connections, hconn, h⟩ := Checked.bind_eq_ok.mp h
  have hconn' : connections = b.connections + syn.toNat := by
    rw [Checked.addIf_eq_ok hconn]
    cases syn <;> rfl
  rw [← Except.ok.inj h, Checked.add_eq_ok hbytes, hconn']

theorem inspectBucket_eq_ok (h : inspectBucket fp ip n syn now b = .ok (o, b')) :
    Inspected fp ip n syn now b o b' := by
  obtain ⟨r, hr, h⟩ := Checked.bind_eq_ok.mp h
  obtain rfl := count_eq_ok hr
  -- neither the reset nor the count touches the tokens
  have hlevel : refilled fp pktRate capacity now
      { b.resetWindow fp windowSecs now with
        bytes := (b.resetWindow fp windowSecs now).bytes + n
        connections := (b.resetWindow fp windowSecs now).connections + syn.toNat }
      = refilled fp pktRate capacity now b := by
    simp [refilled]
  rw [Bucket.consume_eq, hlevel] at h
  cases h
  exact ⟨rfl, rfl, rfl, rfl, rfl, rfl⟩

/-- A call returns as long as its counters fit. -/
theorem inspectBucket_returns (hbytes : b.bytes + n < 2 ^ 64) (hconn : b.connections + 1 < 2 ^ 64) :
    (inspectBucket fp ip n syn now b).Returns fun p => Inspected fp ip n syn now b p.1 p.2 := by
  have hreset : (b.resetWindow fp windowSecs now).bytes ≤ b.bytes ∧
      (b.resetWindow fp windowSecs now).connections ≤ b.connections := by
    unfold Bucket.resetWindow
    split
    · exact ⟨Nat.zero_le _, Nat.zero_le _⟩
    · exact ⟨Nat.le_refl _, Nat.le_refl _⟩
  have hcount : (count n syn (b.resetWindow fp windowSecs now)).Returns fun _ => True :=
    (Checked.add_returns (by omega)).bind fun _ _ =>
      (Checked.addIf_returns syn (by omega)).bind fun _ _ => .ok trivial
  obtain ⟨r, hr, -⟩ := hcount
  have hret : inspectBucket fp ip n syn now b
      = .ok (verdict ip syn (r.consume fp pktRate capacity now).1 (r.consume fp pktRate capacity now).2,
          (r.consume fp pktRate capacity now).2) := by
    unfold inspectBucket
    rw [hr]
    rfl
  exact ⟨_, hret, inspectBucket_eq_ok hret⟩

/-- The packet-rate report is exactly the refusal of a token. -/
theorem isPacketRate_verdict (w : Bool) : isPacketRate (verdict ip syn w b) = !w := by
  unfold verdict
  cases w with
  | false => rfl
  | true =>
    by_cases hbytes : bytesRate < b.bytes
    · simp [hbytes, isPacketRate, bytesSignal]
    · by_cases hconn : connRate < b.connections
      · cases syn <;> simp [hbytes, hconn, isPacketRate, connectionsSignal]
      · simp [hbytes, hconn, isPacketRate]

/-- What is let through has passed all three checks. -/
theorem of_verdict_none {w : Bool} (h : verdict ip syn w b = none) :
    w = true ∧ b.bytes ≤ bytesRate ∧ (syn = true → b.connections ≤ connRate) := by
  unfold verdict at h
  split at h
  · cases h
  · rename_i hw
    split at h
    · cases h
    · rename_i hbytes
      split at h
      · cases h
      · rename_i hconn
        refine ⟨by simpa using hw, by omega, fun hsyn => ?_⟩
        subst hsyn
        simpa using hconn

end Inspect

/-! ## One source -/

/-- The limiter for a single source: its bucket, created on demand and swept. -/
def source (fp : Rounding) (ip : IpAddr) : Component (Option Bucket) (Nat × Bool) (Option Signal) where
  inspect now a s := do
    let (o, b) ← inspectBucket fp ip a.1 a.2 now (s.getD (Bucket.new capacity now))
    return (o, some b)
  sweep now s := s.bind (sweepBucket now)

/-- The packets of one source, by size and SYN flag, with the limiter's answers. -/
def selectSource (ip : IpAddr) (p : Packet) (o : Option Signal) :
    Option ((Nat × Bool) × Option Signal) :=
  if p.srcIp = ip then some ((p.pktBytes, p.isSyn), o) else none

theorem inspect_eq_ok {now : Nat} {p : Packet} {d d' : RateLimiter fp} {o : Option Signal}
    (h : component.inspect now p d = .ok (o, d')) :
    ∃ b', inspectBucket fp p.srcIp p.pktBytes p.isSyn now
        ((d.buckets.lookup p.srcIp).getD (Bucket.new capacity now)) = .ok (o, b') ∧
      d' = ⟨d.buckets.insert p.srcIp b'⟩ := by
  obtain ⟨⟨o', b'⟩, hb, h⟩ := Checked.bind_eq_ok.mp h
  cases h
  exact ⟨b', hb, rfl⟩

/-- A call returns as long as the counters of its source fit. -/
theorem inspect_returns {now : Nat} {p : Packet} {d : RateLimiter fp}
    (hbytes : ∀ b, d.buckets.lookup p.srcIp = some b → b.bytes + p.pktBytes < 2 ^ 64)
    (hconn : ∀ b, d.buckets.lookup p.srcIp = some b → b.connections + 1 < 2 ^ 64)
    (hpkt : p.pktBytes < 2 ^ 64) :
    (component.inspect now p d).Returns fun r =>
      ∃ b', Inspected fp p.srcIp p.pktBytes p.isSyn now
          ((d.buckets.lookup p.srcIp).getD (Bucket.new capacity now)) r.1 b' ∧
        r.2 = ⟨d.buckets.insert p.srcIp b'⟩ := by
  refine (inspectBucket_returns ?_ ?_).bind fun r hr => .ok ⟨r.2, hr, rfl⟩
  · cases h : d.buckets.lookup p.srcIp with
    | none => simpa [Bucket.new] using hpkt
    | some b => exact hbytes b h
  · cases h : d.buckets.lookup p.srcIp with
    | none => simp [Bucket.new]
    | some b => exact hconn b h

/-- Seen from one source, a run is a run of that source's bucket. -/
theorem run_source {tr : List (Entry Packet (Option Signal))} {c : Nat} {d : RateLimiter fp}
    (ip : IpAddr) (h : component.Run new tr c d) :
    ∃ c' ≤ c, (source fp ip).Run none (tr.filterMap (Entry.project (selectSource ip))) c'
      (d.buckets.lookup ip) := by
  refine h.project (fun d => d.buckets.lookup ip) (selectSource ip) ?_ ?_ ?_
  · intro t p d o d' hstep hsel
    obtain ⟨b', -, rfl⟩ := inspect_eq_ok hstep
    -- a call of another source
    have hne : ip ≠ p.srcIp := by
      rintro rfl
      simp [selectSource] at hsel
    show (d.buckets.insert p.srcIp b').lookup ip = d.buckets.lookup ip
    rw [Table.lookup_insert_eq, if_neg hne]
  · intro t p d o d' a o' hstep hsel
    obtain ⟨b', hb, rfl⟩ := inspect_eq_ok hstep
    unfold selectSource at hsel
    split at hsel
    · rename_i hip
      subst hip
      cases hsel
      show (source fp p.srcIp).inspect t _ (d.buckets.lookup p.srcIp)
        = .ok (o, (d.buckets.insert p.srcIp b').lookup p.srcIp)
      rw [Table.lookup_insert_eq, if_pos rfl]
      simp only [source, hb]
      rfl
    · cases hsel
  · intro t d
    exact Table.lookup_retain _ ip d.buckets

end RateLimiter

end Ocellus
