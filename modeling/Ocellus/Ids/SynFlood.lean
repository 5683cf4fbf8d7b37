import Ocellus.Base.Component
import Ocellus.Base.Rounding
import Ocellus.Base.Table
import Ocellus.Ids.Score

/-!
# TCP flag analysis (`ids/syn_flood.rs`)

SYN floods by the SYN/ACK ratio of a source in a tumbling window, half-open
connections, RST injection and Xmas scans. The detector's thresholds are set by
`new` and never written; here they are constants. The ratio is an `f32`, whose
rounding is a parameter of the detector; the `u64` counters are added to with an
overflow check.
-/

namespace Ocellus

def TCP_SYN : U8 := 0x02#8
def TCP_ACK : U8 := 0x10#8
def TCP_RST : U8 := 0x04#8
def TCP_FIN : U8 := 0x01#8
def TCP_PSH : U8 := 0x08#8
def TCP_URG : U8 := 0x20#8
/-- Xmas scan: FIN + PSH + URG. -/
def TCP_XMAS : U8 := TCP_FIN ||| TCP_PSH ||| TCP_URG

def SCORE_PORT_SCAN_XMAS : F32 := .fin 55

/-- `flags & bit != 0`. -/
def hasFlag (flags bit : U8) : Bool := flags &&& bit != 0#8

/-- SYN and ACK counts of one source in its current window. -/
structure PerIpCounters where
  syns : Nat
  acks : Nat
  lastReset : Nat
  deriving DecidableEq, Repr

namespace PerIpCounters

def window : Nat := secs 10

def new (now : Nat) : PerIpCounters := ⟨0, 0, now⟩

def maybeReset (now : Nat) (c : PerIpCounters) : PerIpCounters :=
  if window ≤ durationSince now c.lastReset then ⟨0, 0, now⟩ else c

def synAckRatio (fp : Rounding) (c : PerIpCounters) : ℚ :=
  if c.acks = 0 then fp.f32 c.syns else fp.f32 (fp.f32 c.syns / fp.f32 c.acks)

/-- One SYN short of five to each ACK is still a ratio of 5. -/
example : synAckRatio .ieee ⟨24999999, 5000000, 0⟩ = 5 ∧
    synAckRatio .exact ⟨24999999, 5000000, 0⟩ < 5 := by
  decide +kernel

end PerIpCounters

/-- `(src_ip, dst_ip, src_port, dst_port)`. -/
abbrev FlowKey := IpAddr × IpAddr × U16 × U16

/-- The counters of each source and the half-open connections; `fp` is the rounding of
the ratios. -/
structure SynFloodDetector (fp : Rounding) where
  counters : Table IpAddr PerIpCounters
  /-- Flow key to time of its SYN. -/
  halfOpen : Table FlowKey Nat

/-- A TCP segment, as `inspect` sees it. -/
structure Segment where
  srcIp : IpAddr
  dstIp : IpAddr
  srcPort : U16
  dstPort : U16
  flags : U8
  deriving DecidableEq, Repr

namespace Segment

def flowKey (p : Segment) : FlowKey := (p.srcIp, p.dstIp, p.srcPort, p.dstPort)
def revKey (p : Segment) : FlowKey := (p.dstIp, p.srcIp, p.dstPort, p.srcPort)

def isSyn (p : Segment) : Bool := hasFlag p.flags TCP_SYN && !hasFlag p.flags TCP_ACK
def isSynAck (p : Segment) : Bool := hasFlag p.flags TCP_SYN && hasFlag p.flags TCP_ACK
def isRst (p : Segment) : Bool := hasFlag p.flags TCP_RST
def isAck (p : Segment) : Bool := !p.isSyn && hasFlag p.flags TCP_ACK

end Segment

namespace SynFloodDetector

variable {fp : Rounding}

def synAckRatioThreshold : ℚ := 5
def halfOpenThreshold : Nat := 200
def halfOpenTtl : Nat := secs 30

def new : SynFloodDetector fp := ⟨∅, ∅⟩

/-- Count a segment in the current window of its source. -/
def count (p : Segment) (c : PerIpCounters) : Checked PerIpCounters := do
  let syns ← Checked.addIf 64 p.isSyn c.syns 1
  let acks ← Checked.addIf 64 (p.isAck || p.isSynAck) c.acks 1
  return { c with syns, acks }

/-- The SYN-flood verdict on counters that have counted the segment. -/
def flooding (fp : Rounding) (c : PerIpCounters) : Bool :=
  decide (50 ≤ c.syns) && decide (synAckRatioThreshold ≤ c.synAckRatio fp)

def synFloodSignal (fp : Rounding) (srcIp : IpAddr) (c : PerIpCounters) : Signal where
  name := .synFlood
  score := SCORE_SYN_FLOOD
  detail := .synAckRatio srcIp (c.synAckRatio fp) c.syns c.acks

def halfOpenSignal (count : Nat) : Signal where
  name := .halfOpenHigh
  score := SCORE_HALF_OPEN_HIGH
  detail := .halfOpen count

def rstSignal (srcIp : IpAddr) : Signal where
  name := .rstInjection
  score := .fin 25
  detail := .rst srcIp

def xmasSignal (srcIp : IpAddr) : Signal where
  name := .xmasScan
  score := SCORE_PORT_SCAN_XMAS
  detail := .xmas srcIp

/-- Track the SYN/ACK ratio of the segment's source. -/
def trackRatio (fp : Rounding) (now : Nat) (p : Segment) (counters : Table IpAddr PerIpCounters) :
    Checked (List Signal × Table IpAddr PerIpCounters) := do
  let c := (counters.lookup p.srcIp).getD (PerIpCounters.new now)
  let c ← count p (c.maybeReset now)
  let signals := if flooding fp c then [synFloodSignal fp p.srcIp c] else []
  return (signals, counters.insert p.srcIp c)

/-- Track the half-open connection of the segment. -/
def trackHalfOpen (now : Nat) (p : Segment) (halfOpen : Table FlowKey Nat) :
    Table FlowKey Nat :=
  if p.isSyn then halfOpen.insert p.flowKey now
  else if p.isSynAck || p.isRst || p.isAck then
    -- complete or reset the half-open entry
    (halfOpen.erase p.revKey).erase p.flowKey
  else halfOpen

/-- Inspect TCP flags and return any detected signals. -/
def inspect (now : Nat) (p : Segment) (d : SynFloodDetector fp) :
    Checked (List Signal × SynFloodDetector fp) := do
  let (ratio, counters) ← trackRatio fp now p d.counters
  let halfOpen := trackHalfOpen now p d.halfOpen
  let halfOpenCount := Table.len halfOpen
  let high := if halfOpenThreshold ≤ halfOpenCount then [halfOpenSignal halfOpenCount] else []
  -- a RST without a matching half-open entry is suspicious
  let rst :=
    if p.isRst && (halfOpen.lookup p.flowKey).isNone && (halfOpen.lookup p.revKey).isNone then
      [rstSignal p.srcIp]
    else []
  let xmas := if p.flags = TCP_XMAS then [xmasSignal p.srcIp] else []
  return (ratio ++ high ++ rst ++ xmas, ⟨counters, halfOpen⟩)

/-- Evict expired half-open entries and stale counters. -/
def sweep (now : Nat) (d : SynFloodDetector fp) : SynFloodDetector fp where
  halfOpen := Table.retain
    (fun _ created => if durationSince now created < halfOpenTtl then some created else none)
    d.halfOpen
  counters := Table.retain
    (fun _ c => if durationSince now c.lastReset < PerIpCounters.window * 10 then some c else none)
    d.counters

/-- The detector as a clocked component. -/
def component : Component (SynFloodDetector fp) Segment (List Signal) where
  inspect := inspect
  sweep := sweep

end SynFloodDetector

end Ocellus
