import Ocellus.Base.Clock
import Ocellus.Base.Component
import Ocellus.Base.Table
import Ocellus.Ids.Score

/-!
# Port-scan detection (`ids/port_scan.rs`)

One sliding set of destination ports per source (horizontal scans) and one of
hashed sources per destination port (vertical scans). The detector's `window`,
`port_threshold` and `src_threshold` are set by `new` and never written; here
they are constants, and a set's window is a parameter of its type.

`hasher` is the 64-bit result of the standard library's `DefaultHasher` on an
address, of which nothing is assumed but that it is a function.
-/

namespace Ocellus

/-- Sliding-window set of unique values seen within `window`. -/
structure SlidingSet (window : Nat) where
  entries : List (U16 × Nat)
  deriving DecidableEq, Repr

namespace SlidingSet

variable {window : Nat}

def new : SlidingSet window := ⟨[]⟩

/-- The entries that have not expired at `now`. -/
def live (now : Nat) (s : SlidingSet window) : List (U16 × Nat) :=
  s.entries.filter fun e => durationSince now e.2 < window

/-- Insert a value, evict expired entries, return the current unique count. -/
def insert (now : Nat) (val : U16) (s : SlidingSet window) : Nat × SlidingSet window :=
  let kept := s.live now
  -- a value already present keeps the time it was first inserted at
  let entries := if kept.any fun e => e.1 == val then kept else kept ++ [(val, now)]
  (entries.length, ⟨entries⟩)

/-- What a sweep leaves of a set: its live entries, or nothing at all. -/
def sweep (now : Nat) (s : SlidingSet window) : Option (SlidingSet window) :=
  if (s.live now).isEmpty then none else some ⟨s.live now⟩

end SlidingSet

/-- `ip_hash`: the low 16 bits of the hash of an address. -/
def ipHash (hasher : IpAddr → BitVec 64) (ip : IpAddr) : U16 :=
  (hasher ip &&& 0xFFFF#64).setWidth 16

namespace PortScanDetector

def window : Nat := secs 60
/-- Alert when one source hits this many distinct ports. -/
def portThreshold : Nat := 20
/-- Alert when one port sees this many distinct source addresses. -/
def srcThreshold : Nat := 50

end PortScanDetector

/-- Detects horizontal scans (one source, many ports) and vertical scans (one
port, many sources). -/
structure PortScanDetector where
  /-- Source address to unique destination ports seen. -/
  portsPerSrc : Table IpAddr (SlidingSet PortScanDetector.window)
  /-- Destination port to unique (hashed) sources seen. -/
  srcsPerPort : Table U16 (SlidingSet PortScanDetector.window)

namespace PortScanDetector

def new : PortScanDetector := ⟨∅, ∅⟩

/-- The set of ports of a source, empty when there is no entry yet. -/
def portsOf (d : PortScanDetector) (ip : IpAddr) : SlidingSet window :=
  (d.portsPerSrc.lookup ip).getD SlidingSet.new

/-- The set of source hashes of a port, empty when there is no entry yet. -/
def srcsOf (d : PortScanDetector) (port : U16) : SlidingSet window :=
  (d.srcsPerPort.lookup port).getD SlidingSet.new

def horizontalSignal (srcIp : IpAddr) (count : Nat) : Signal where
  name := .portScanHorizontal
  score := SCORE_PORT_SCAN
  detail := .portsContacted srcIp count (asSecs window)

def verticalSignal (dstPort : U16) (count : Nat) : Signal where
  name := .portScanVertical
  score := SCORE_PORT_SCAN
  detail := .portHit dstPort count (asSecs window)

/-- Record a `(src_ip, dst_port)` observation and report a scan. -/
def inspect (hasher : IpAddr → BitVec 64) (now : Nat) (srcIp : IpAddr) (dstPort : U16)
    (d : PortScanDetector) : Option Signal × PortScanDetector :=
  -- horizontal: one source, many ports
  let h := (d.portsOf srcIp).insert now dstPort
  let d := { d with portsPerSrc := d.portsPerSrc.insert srcIp h.2 }
  if portThreshold ≤ h.1 then (some (horizontalSignal srcIp h.1), d)
  else
    -- vertical: one port, many sources
    let v := (d.srcsOf dstPort).insert now (ipHash hasher srcIp)
    let d := { d with srcsPerPort := d.srcsPerPort.insert dstPort v.2 }
    if srcThreshold ≤ v.1 then (some (verticalSignal dstPort v.1), d)
    else (none, d)

/-- Remove stale entries; called by the background sweeper. -/
def sweep (now : Nat) (d : PortScanDetector) : PortScanDetector where
  portsPerSrc := Table.retain (fun _ s => s.sweep now) d.portsPerSrc
  srcsPerPort := Table.retain (fun _ s => s.sweep now) d.srcsPerPort

/-- The detector as a clocked component. -/
def component (hasher : IpAddr → BitVec 64) :
    Component PortScanDetector (IpAddr × U16) (Option Signal) where
  inspect now a d := .ok (inspect hasher now a.1 a.2 d)
  sweep := sweep

end PortScanDetector

end Ocellus
