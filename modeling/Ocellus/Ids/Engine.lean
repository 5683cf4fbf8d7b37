import Ocellus.Ids.Baseline
import Ocellus.Ids.Blacklist
import Ocellus.Ids.Dns
import Ocellus.Ids.Payload
import Ocellus.Ids.PortScan
import Ocellus.Ids.RateLimit
import Ocellus.Ids.SynFlood

/-!
# The engine (`ids/mod.rs`)

`analyze` runs every detector on a packet, in a fixed order, and collects their
signals. Some of the detectors also bid for the packet's one `flag_reason`: the
first of them to fire gets it (`Findings.raise`).

The libraries behind the detectors and the rounding of their floating-point
arithmetic are parameters (`Libs`), and so is the GeoIP database. Each detector reads
the clock on its own.
-/

namespace Ocellus

/-- What the engine uses of libraries, and of floating-point arithmetic. -/
structure Libs where
  /-- The standard library's `DefaultHasher` on an address. -/
  hasher : IpAddr → BitVec 64
  /-- `str::to_lowercase`. -/
  lower : Str → Str
  bloom : BloomFilter U32
  ac : AhoCorasick PayloadScanner.patterns
  fp : Rounding

/-- Libraries to run the model with: one hash for all addresses, ASCII lower case,
an exact filter and a naive search; the arithmetic is that of the code. -/
def Libs.plain : Libs where
  hasher _ := 0#64
  lower s := s.map Char.toLower
  bloom := .exact U32
  ac := .naive PayloadScanner.patterns PayloadScanner.patterns_ne_nil
  fp := .ieee

/-- The clock readings of a call or a sweep. -/
structure Instants where
  rateLimiter : Nat
  portScan : Nat
  synFlood : Nat
  /-- `SystemTime::now()`, which only sweeps read. -/
  system : Int

/-- All detectors with a state; the payload scanner and the DNS detector have
none. -/
structure IdsEngine (libs : Libs) where
  portScan : PortScanDetector
  synFlood : SynFloodDetector libs.fp
  rateLimiter : RateLimiter libs.fp
  blacklist : Blacklist libs.bloom
  /-- `country_code`: the country of an address, if the database knows it. -/
  geo : IpAddr → Option Str
  baseline : Baseline

/-- Well-known service ports. -/
def WELL_KNOWN_PORTS : List U16 :=
  [20#16, 21#16, 22#16, 23#16, 25#16, 53#16, 67#16, 68#16, 69#16, 80#16, 110#16, 111#16, 119#16,
    123#16, 135#16, 137#16, 138#16, 139#16, 143#16, 161#16, 162#16, 179#16, 194#16, 389#16,
    443#16, 445#16, 464#16, 465#16, 514#16, 515#16, 587#16, 631#16, 636#16, 993#16, 995#16,
    1080#16, 1194#16, 1433#16, 1521#16, 1723#16, 3306#16, 3389#16, 5432#16, 5900#16, 6379#16,
    8080#16, 8443#16, 8888#16]

/-! ## Collecting signals -/

/-- The variables `signals` and `primary_flag` of `analyze`. -/
structure Findings where
  signals : List Signal
  primaryFlag : FlagReason

namespace Findings

def empty : Findings := ⟨[], .unspecified⟩

/-- For each signal: `if primary_flag == 0 { primary_flag = reason }`, and push it. -/
def raise (reason : FlagReason) (ss : List Signal) (f : Findings) : Findings :=
  ss.foldl (fun f s => ⟨f.signals ++ [s],
    if f.primaryFlag = .unspecified then reason else f.primaryFlag⟩) f

/-- Push signals that do not bid for the flag. -/
def note (ss : List Signal) (f : Findings) : Findings := { f with signals := f.signals ++ ss }

end Findings

namespace IdsEngine

variable {libs : Libs}

/-- `IdsEngine::new`. -/
def new (baseline : Baseline) (geo : IpAddr → Option Str) (blacklist : Blacklist libs.bloom) :
    IdsEngine libs where
  portScan := .new
  synFlood := .new
  rateLimiter := .new
  blacklist := blacklist
  geo := geo
  baseline := baseline

/-! ## The steps of `analyze` -/

/-- SYN without ACK. -/
def isSyn (tm : TransportMeta) : Bool :=
  tm.tcpFlags.any fun f => f &&& 0x02#8 != 0#8 && f &&& 0x10#8 == 0#8

/-- The port-scan detector, for packets with a destination port. -/
def inspectPorts (libs : Libs) (t : Instants) (tm : TransportMeta) (d : PortScanDetector) :
    Option Signal × PortScanDetector :=
  match tm.dstPort with
  | some dstPort => d.inspect libs.hasher t.portScan tm.srcIp dstPort
  | none => (none, d)

/-- The SYN-flood detector, for packets with TCP flags and ports. -/
def inspectSegment {fp : Rounding} (t : Instants) (tm : TransportMeta) (d : SynFloodDetector fp) :
    Checked (List Signal × SynFloodDetector fp) :=
  match tm.tcpFlags, tm.srcPort, tm.dstPort with
  | some flags, some srcPort, some dstPort =>
    d.inspect t.synFlood ⟨tm.srcIp, tm.dstIp, srcPort, dstPort, flags⟩
  | _, _, _ => .ok ([], d)

/-- ICMP anomalies. -/
def icmpSignals (tm : TransportMeta) : List Signal :=
  match tm.icmpType, tm.icmpCode with
  | some icmpType, some icmpCode =>
    if tm.protocol = 1#8 ∧ 30#8 ≤ icmpType then
      [⟨.icmpUnusualType, .fin 25, .icmp icmpType icmpCode⟩]
    else []
  | _, _ => []

/-- IP fragmentation and evasion. -/
def fragmentSignals (tm : TransportMeta) : List Signal :=
  let mf := tm.ipFlags &&& 0x01#8 != 0#8
  let df := tm.ipFlags &&& 0x02#8 != 0#8
  if 0#16 < tm.ipFragOffset ∨ mf = true then
    [⟨.ipFragmentation, .fin 20, .fragment tm.ipFragOffset mf df⟩]
  else []

/-- Truncation. -/
def truncationSignals (pkt : RawPacket) : List Signal :=
  if pkt.isTruncated then [⟨.packetTruncated, .fin 10, .truncated pkt.capLen pkt.origLen⟩] else []

/-- Geo anomaly. -/
def geoSignals (tm : TransportMeta) (e : IdsEngine libs) : List Signal :=
  match e.geo tm.srcIp with
  | some code =>
    if e.baseline.phase = .refinement ∧ e.baseline.isKnownCountry code = false then
      [⟨.geoNewCountry, SCORE_GEO_ANOMALY, .country code tm.srcIp⟩]
    else []
  | none => []

/-- The payload offset lies inside the captured data. -/
def HasPayload (pkt : RawPacket) (tm : TransportMeta) : Prop :=
  0 < tm.payloadOffset ∧ tm.payloadOffset < pkt.data.bytes.length

instance (pkt : RawPacket) (tm : TransportMeta) : Decidable (HasPayload pkt tm) :=
  inferInstanceAs (Decidable (_ ∧ _))

/-- `&pkt.data[tm.payload_offset..]`. -/
def payload (pkt : RawPacket) (tm : TransportMeta) : Checked Bytes :=
  Checked.sliceFrom pkt.data.bytes tm.payloadOffset

/-- Payload signatures. -/
def scanPayload (libs : Libs) (pkt : RawPacket) (tm : TransportMeta) : Checked (List Signal) :=
  if HasPayload pkt tm then do PayloadScanner.scanAll libs.ac (← payload pkt tm) else .ok []

/-- The queried name, for UDP packets from or to port 53. -/
def dnsQueryName (pkt : RawPacket) (tm : TransportMeta) : Checked (Option Str) :=
  if tm.protocol = 17#8 ∧ (tm.dstPort = some 53#16 ∨ tm.srcPort = some 53#16) ∧
      HasPayload pkt tm then do
    extractDnsQueryName (← payload pkt tm)
  else .ok none

/-- Anomaly detection, skipped for domains of the baseline. -/
def inspectDomain (domain : Str) (e : IdsEngine libs) : Checked (List Signal) :=
  if e.baseline.isKnownDns libs.lower domain then .ok []
  else DnsDetector.inspectName libs.lower domain

/-- Full payload inspection. -/
def inspectDnsPayload (libs : Libs) (pkt : RawPacket) (tm : TransportMeta) : Checked (List Signal) :=
  if tm.payloadOffset < pkt.data.bytes.length then do
    DnsDetector.inspectPayload libs.lower (← payload pkt tm)
  else .ok []

/-- What is done with the queried name. -/
def analyzeDomain (pkt : RawPacket) (tm : TransportMeta) (e : IdsEngine libs) (f : Findings) :
    Option Str → Checked Findings
  | none => .ok f
  | some domain => do
    let f := f.raise .blacklisted (e.blacklist.checkDomain libs.lower domain).toList
    let f := f.raise .dnsAnomaly (← inspectDomain domain e)
    let f := f.raise .dnsAnomaly (← inspectDnsPayload libs pkt tm)
    return f

/-- Unusual port. -/
def portSignals (tm : TransportMeta) (e : IdsEngine libs) : List Signal :=
  match tm.dstPort with
  | some dstPort =>
    if e.baseline.phase = .refinement ∧ e.baseline.isKnownPort dstPort = false then
      [⟨.unusualPort, if dstPort ∈ WELL_KNOWN_PORTS then SCORE_UNUSUAL_PORT_NETWORK
        else SCORE_UNUSUAL_PORT_GLOBAL, .port dstPort⟩]
    else []
  | none => []

/-- VLAN hopping. -/
def vlanSignals (tm : TransportMeta) : List Signal :=
  match tm.vlanId with
  | some vid => if vid = 0#16 ∨ vid = 4095#16 then [⟨.vlanReservedId, .fin 20, .vlan vid⟩] else []
  | none => []

/-- The update of the baseline. -/
def observe (tm : TransportMeta) (domain : Option Str) (e : IdsEngine libs) : Baseline :=
  let b := e.baseline
  let b := match tm.dstPort with | some dstPort => b.observePort dstPort | none => b
  let b := (b.observeDstIp tm.dstIp).observeProtocol tm.protocol
  let b := match e.geo tm.srcIp with | some code => b.observeCountry code | none => b
  match domain with | some domain => b.observeDns libs.lower domain | none => b

/-! ## The whole -/

/-- `analyze` on a packet with transport metadata. -/
def analyzeTransport (t : Instants) (pkt : RawPacket) (tm : TransportMeta) (e : IdsEngine libs) :
    Checked (IdsResult × IdsEngine libs) := do
  -- the source sets the flag for a listed source without looking at it, when it
  -- is still unspecified
  let f := Findings.empty.raise .blacklisted (e.blacklist.checkIp tm.srcIp).toList
  let f := f.raise .blacklisted (e.blacklist.checkIp tm.dstIp).toList
  let rate ← e.rateLimiter.inspect t.rateLimiter tm.srcIp pkt.origLen.toNat (isSyn tm)
  let f := f.raise .rateExceeded rate.1.toList
  let scan := inspectPorts libs t tm e.portScan
  let f := f.raise .portScan scan.1.toList
  let tcp ← inspectSegment t tm e.synFlood
  let f := f.raise .synFlood tcp.1
  let f := f.note (icmpSignals tm)
  let f := f.note (fragmentSignals tm)
  let f := f.note (truncationSignals pkt)
  let f := f.raise .geoAnomaly (geoSignals tm e)
  let f := f.raise .payloadSig (← scanPayload libs pkt tm)
  let domain ← dnsQueryName pkt tm
  let f ← analyzeDomain pkt tm e f domain
  let f := f.note (portSignals tm e)
  let f := f.note (vlanSignals tm)
  let result ← IdsResult.fromSignals f.signals f.primaryFlag
  let baseline := if e.baseline.isLearning = true ∨ result.totalScore < THRESHOLD_INFO then
    observe tm domain e else e.baseline
  return (result, { e with
    rateLimiter := rate.2, portScan := scan.2, synFlood := tcp.2, baseline })

/-- `IdsEngine::analyze`: analyze one packet. -/
def analyze (t : Instants) (pkt : RawPacket) (e : IdsEngine libs) :
    Checked (IdsResult × IdsEngine libs) :=
  match pkt.transport with
  | none => do
    let result ← IdsResult.fromSignals [] .unspecified
    return (result, e)
  | some tm => analyzeTransport t pkt tm e

/-- One round of the background sweeper. -/
def sweep (t : Instants) (e : IdsEngine libs) : IdsEngine libs :=
  { e with
    portScan := e.portScan.sweep t.portScan
    synFlood := e.synFlood.sweep t.synFlood
    rateLimiter := e.rateLimiter.sweep t.rateLimiter
    baseline := e.baseline.tickPhase t.system }

end IdsEngine

end Ocellus
