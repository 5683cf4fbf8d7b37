import Ocellus.Base.Component
import Ocellus.Base.Rounding
import Ocellus.Base.Table
import Ocellus.Ids.Score

/-!
# Per-source rate limiting (`ids/rate_limit.rs`)

A token bucket for the packet rate, and two counters in a tumbling window for
the byte rate and the connection (SYN) rate. The limiter's rates are set by
`new` and never written; here they are constants. Seconds and tokens are `f64`s,
whose rounding is a parameter of the limiter; the `u64` counters are added to with
an overflow check.
-/

namespace Ocellus

/-- Token-bucket state for a single source. -/
structure Bucket where
  tokens : ℚ
  lastRefill : Nat
  /-- Bytes this window. -/
  bytes : Nat
  /-- Connection (SYN) count this window. -/
  connections : Nat
  windowStart : Nat
  deriving DecidableEq, Repr

namespace Bucket

def new (capacity : ℚ) (now : Nat) : Bucket where
  tokens := capacity
  lastRefill := now
  bytes := 0
  connections := 0
  windowStart := now

/-- Refill tokens by the elapsed time; true if the packet is within rate. -/
def consume (fp : Rounding) (ratePerSec capacity : ℚ) (now : Nat) (b : Bucket) : Bool × Bucket :=
  let elapsed := fp.asSecsF64 (durationSince now b.lastRefill)
  let tokens := min (fp.f64 (b.tokens + fp.f64 (elapsed * ratePerSec))) capacity
  if 1 ≤ tokens then (true, { b with tokens := fp.f64 (tokens - 1), lastRefill := now })
  else (false, { b with tokens := tokens, lastRefill := now })

/-- Two refills that make a token together, 2.001 µs and 1997.999 µs long, fall short
of it by the last bit. -/
example :
    let granted := fun fp => (((new 0 0).consume fp 500 1000 2001).2.consume fp 500 1000 2000000).1
    granted .exact = true ∧ granted .ieee = false := by
  decide +kernel

/-- Reset the per-window counters if the window elapsed. -/
def resetWindow (fp : Rounding) (windowSecs : ℚ) (now : Nat) (b : Bucket) : Bucket :=
  if windowSecs ≤ fp.asSecsF64 (durationSince now b.windowStart) then
    { b with bytes := 0, connections := 0, windowStart := now }
  else b

end Bucket

/-- One token bucket per source address; `fp` is the rounding of its arithmetic. -/
structure RateLimiter (fp : Rounding) where
  buckets : Table IpAddr Bucket

namespace RateLimiter

variable {fp : Rounding}

/-- Max packets per second and source. -/
def pktRate : ℚ := 500
/-- Token bucket capacity (burst headroom). -/
def capacity : ℚ := 1000
/-- Max bytes per second and source: 10 MB/s. -/
def bytesRate : Nat := 10 * 1024 * 1024
/-- Max new connections per second and source. -/
def connRate : Nat := 50
def windowSecs : ℚ := 1

def new : RateLimiter fp := ⟨∅⟩

def packetsSignal (srcIp : IpAddr) : Signal where
  name := .rateExceededPackets
  score := SCORE_RATE_EXCEEDED
  detail := .packetRate srcIp pktRate

def bytesSignal (srcIp : IpAddr) (bytes : Nat) : Signal where
  name := .rateExceededBytes
  score := SCORE_RATE_EXCEEDED
  detail := .byteRate srcIp bytes bytesRate

def connectionsSignal (srcIp : IpAddr) (connections : Nat) : Signal where
  name := .rateExceededConnections
  score := SCORE_RATE_EXCEEDED
  detail := .connRate srcIp connections connRate

/-- Count a packet in the current window of its source's bucket. -/
def count (pktBytes : Nat) (isSyn : Bool) (b : Bucket) : Checked Bucket := do
  let bytes ← Checked.add 64 b.bytes pktBytes
  let connections ← Checked.addIf 64 isSyn b.connections 1
  return { b with bytes, connections }

/-- The verdict on a packet that has been counted and has asked for a token. -/
def verdict (srcIp : IpAddr) (isSyn withinRate : Bool) (b : Bucket) : Option Signal :=
  if !withinRate then some (packetsSignal srcIp)
  else if bytesRate < b.bytes then some (bytesSignal srcIp b.bytes)
  else if isSyn && decide (connRate < b.connections) then
    some (connectionsSignal srcIp b.connections)
  else none

/-- The part of `inspect` that holds the source's bucket. -/
def inspectBucket (fp : Rounding) (srcIp : IpAddr) (pktBytes : Nat) (isSyn : Bool) (now : Nat)
    (b : Bucket) : Checked (Option Signal × Bucket) := do
  let b ← count pktBytes isSyn (b.resetWindow fp windowSecs now)
  let (withinRate, b) := b.consume fp pktRate capacity now
  return (verdict srcIp isSyn withinRate b, b)

/-- Observe one packet from `src_ip`; report if any rate limit is exceeded. -/
def inspect (now : Nat) (srcIp : IpAddr) (pktBytes : Nat) (isSyn : Bool)
    (d : RateLimiter fp) : Checked (Option Signal × RateLimiter fp) := do
  let bucket := (d.buckets.lookup srcIp).getD (Bucket.new capacity now)
  let (signal, bucket) ← inspectBucket fp srcIp pktBytes isSyn now bucket
  return (signal, ⟨d.buckets.insert srcIp bucket⟩)

/-- A bucket survives a sweep while its last refill is under 120 whole seconds
ago. -/
def sweepBucket (now : Nat) (b : Bucket) : Option Bucket :=
  if asSecs (durationSince now b.lastRefill) < 120 then some b else none

/-- Drop stale buckets; called by the background sweeper. -/
def sweep (now : Nat) (d : RateLimiter fp) : RateLimiter fp :=
  ⟨Table.retain (fun _ b => sweepBucket now b) d.buckets⟩

/-- What a packet tells the limiter. -/
structure Packet where
  srcIp : IpAddr
  pktBytes : Nat
  isSyn : Bool
  deriving DecidableEq, Repr

/-- The limiter as a clocked component. -/
def component : Component (RateLimiter fp) Packet (Option Signal) where
  inspect now p d := inspect now p.srcIp p.pktBytes p.isSyn d
  sweep := sweep

end RateLimiter

end Ocellus
