import Ocellus.Base.AtomicProgram
import Ocellus.Ids.Engine

/-!
# The engine, access by access

Several workers and the sweeper are at work on one engine at the same time. What they
share is behind locks, each taken for one access: an entry of a `DashMap`, or one of
the `RwLock`s of the baseline and of the blacklist. Here `analyze` and a round of the
sweeper are programs of such accesses, in the order of the source; every access reads
the clock for itself.

Run alone, the programs do what `IdsEngine.analyze` and `IdsEngine.sweep` say
(`analyzeProgram_run`, `sweepProgram_run`). `DashMap::len` and `DashMap::retain` visit
the shards of a map one after the other; here each is one access. The phase lock is
held while `finish_learning` stores the time, so nobody sees the phase in between.
-/

namespace Ocellus

namespace IdsEngine

/-- A program on the shared engine. -/
abbrev Program (libs : Libs) : Type → Type 1 := Prog Instants (IdsEngine libs)

variable {libs : Libs}

/-! ## The detectors -/

/-- `RateLimiter::inspect`, which holds the entry of the source throughout. -/
def rateProgram (pkt : RawPacket) (tm : TransportMeta) : Program libs (Option Signal) :=
  .access fun t e => do
    let rate ← e.rateLimiter.inspect t.rateLimiter tm.srcIp pkt.origLen.toNat (isSyn tm)
    return (rate.1, { e with rateLimiter := rate.2 })

/-- An access to the ports of a source. -/
def countPort (srcIp : IpAddr) (dstPort : U16) : Program libs Nat :=
  .access fun t e =>
    let h := (e.portScan.portsOf srcIp).insert t.portScan dstPort
    .ok (h.1, { e with portScan :=
      { e.portScan with portsPerSrc := e.portScan.portsPerSrc.insert srcIp h.2 } })

/-- An access to the sources of a port. -/
def countSource (srcIp : IpAddr) (dstPort : U16) : Program libs Nat :=
  .access fun t e =>
    let v := (e.portScan.srcsOf dstPort).insert t.portScan (ipHash libs.hasher srcIp)
    .ok (v.1, { e with portScan :=
      { e.portScan with srcsPerPort := e.portScan.srcsPerPort.insert dstPort v.2 } })

/-- `PortScanDetector::inspect`, for packets with a destination port. -/
def portsProgram (tm : TransportMeta) : Program libs (Option Signal) :=
  match tm.dstPort with
  | none => pure none
  | some dstPort => do
    let horizontal ← countPort tm.srcIp dstPort
    if PortScanDetector.portThreshold ≤ horizontal then
      return some (PortScanDetector.horizontalSignal tm.srcIp horizontal)
    else
      let vertical ← countSource tm.srcIp dstPort
      if PortScanDetector.srcThreshold ≤ vertical then
        return some (PortScanDetector.verticalSignal dstPort vertical)
      else
        return none

/-- An access to the counters of a source. -/
def ratioProgram (p : Segment) : Program libs (List Signal) :=
  .access fun t e => do
    let ratio ← SynFloodDetector.trackRatio libs.fp t.synFlood p e.synFlood.counters
    return (ratio.1, { e with synFlood := { e.synFlood with counters := ratio.2 } })

/-- A write to the half-open table. -/
def updateHalfOpen (f : Instants → Table FlowKey Nat → Table FlowKey Nat) : Program libs Unit :=
  .write fun t e => { e with synFlood := { e.synFlood with halfOpen := f t e.synFlood.halfOpen } }

/-- The half-open connection of the segment. -/
def halfOpenProgram (p : Segment) : Program libs Unit :=
  if p.isSyn then updateHalfOpen fun t halfOpen => halfOpen.insert p.flowKey t.synFlood
  else if p.isSynAck || p.isRst || p.isAck then do
    updateHalfOpen fun _ halfOpen => halfOpen.erase p.revKey
    updateHalfOpen fun _ halfOpen => halfOpen.erase p.flowKey
  else pure ()

/-- `half_open.contains_key`. -/
def containsFlow (k : FlowKey) : Program libs Bool :=
  .read fun e => (e.synFlood.halfOpen.lookup k).isSome

/-- The check of a RST. -/
def rstProgram (p : Segment) : Program libs (List Signal) :=
  if p.isRst then do
    if ← containsFlow p.flowKey then return []
    else if ← containsFlow p.revKey then return []
    else return [SynFloodDetector.rstSignal p.srcIp]
  else pure []

/-- `SynFloodDetector::inspect`. -/
def segmentProgram (p : Segment) : Program libs (List Signal) := do
  let ratio ← ratioProgram p
  halfOpenProgram p
  let halfOpenCount ← .read fun e => Table.len e.synFlood.halfOpen
  let high := if SynFloodDetector.halfOpenThreshold ≤ halfOpenCount then
    [SynFloodDetector.halfOpenSignal halfOpenCount] else []
  let rst ← rstProgram p
  let xmas := if p.flags = TCP_XMAS then [SynFloodDetector.xmasSignal p.srcIp] else []
  return ratio ++ high ++ rst ++ xmas

/-- It is called for packets with TCP flags and ports. -/
def tcpProgram (tm : TransportMeta) : Program libs (List Signal) :=
  match tm.tcpFlags, tm.srcPort, tm.dstPort with
  | some flags, some srcPort, some dstPort =>
    segmentProgram ⟨tm.srcIp, tm.dstIp, srcPort, dstPort, flags⟩
  | _, _, _ => pure []

/-! ## The checks against the baseline -/

def readPhase : Program libs Phase := .read fun e => e.baseline.phase

/-- Geo anomaly. -/
def geoProgram (tm : TransportMeta) : Option Str → Program libs (List Signal)
  | none => pure []
  | some code => do
    if (← readPhase) = .refinement then
      if ← Prog.read fun e => e.baseline.isKnownCountry code then return []
      else return [⟨.geoNewCountry, SCORE_GEO_ANOMALY, .country code tm.srcIp⟩]
    else return []

/-- Unusual port. -/
def portProgram (tm : TransportMeta) : Program libs (List Signal) :=
  match tm.dstPort with
  | none => pure []
  | some dstPort => do
    if (← readPhase) = .refinement then
      if ← Prog.read fun e => e.baseline.isKnownPort dstPort then return []
      else return [⟨.unusualPort, if WELL_KNOWN_PORTS.contains dstPort then
        SCORE_UNUSUAL_PORT_NETWORK else SCORE_UNUSUAL_PORT_GLOBAL, .port dstPort⟩]
    else return []

/-- Anomaly detection, skipped for domains of the baseline. -/
def inspectDomainProgram (domain : Str) : Program libs (List Signal) := do
  if ← Prog.read fun e => e.baseline.isKnownDns libs.lower domain then return []
  else .lift (DnsDetector.inspectName libs.lower domain)

/-- What is done with the queried name. -/
def domainProgram (pkt : RawPacket) (tm : TransportMeta) (f : Findings) :
    Option Str → Program libs Findings
  | none => pure f
  | some domain => do
    let listed ← Prog.read fun e => e.blacklist.checkDomain libs.lower domain
    let f := f.raise .blacklisted listed.toList
    let f := f.raise .dnsAnomaly (← inspectDomainProgram domain)
    let f := f.raise .dnsAnomaly (← Prog.lift (inspectDnsPayload libs pkt tm))
    return f

/-! ## The update of the baseline -/

def updateBaseline (f : Baseline → Baseline) : Program libs Unit :=
  .write fun _ e => { e with baseline := f e.baseline }

/-- `if let Some(x)`, observe it. -/
def observeSome {β : Type} (f : β → Baseline → Baseline) : Option β → Program libs Unit
  | some x => updateBaseline (f x)
  | none => pure ()

/-- Each observation takes the lock of the state for itself. -/
def observeProgram (tm : TransportMeta) (country domain : Option Str) : Program libs Unit := do
  observeSome Baseline.observePort tm.dstPort
  updateBaseline (Baseline.observeDstIp tm.dstIp)
  updateBaseline (Baseline.observeProtocol tm.protocol)
  observeSome Baseline.observeCountry country
  observeSome (Baseline.observeDns libs.lower) domain

/-! ## The whole -/

/-- The checks up to the length of the packet. -/
def detectProgram (pkt : RawPacket) (tm : TransportMeta) : Program libs Findings := do
  let src ← Prog.read fun e => e.blacklist.checkIp tm.srcIp
  let f := Findings.empty.raise .blacklisted src.toList
  let dst ← Prog.read fun e => e.blacklist.checkIp tm.dstIp
  let f := f.raise .blacklisted dst.toList
  let f := f.raise .rateExceeded (← rateProgram pkt tm).toList
  let f := f.raise .portScan (← portsProgram tm).toList
  let f := f.raise .synFlood (← tcpProgram tm)
  let f := f.note (icmpSignals tm)
  let f := f.note (fragmentSignals tm)
  return f.note (truncationSignals pkt)

/-- The checks after that, with the country of the source and the queried name. -/
def compareProgram (pkt : RawPacket) (tm : TransportMeta) (f : Findings) :
    Program libs (Findings × Option Str × Option Str) := do
  let country ← Prog.read fun e => e.geo tm.srcIp
  let f := f.raise .geoAnomaly (← geoProgram tm country)
  let f := f.raise .payloadSig (← Prog.lift (scanPayload libs pkt tm))
  let domain ← Prog.lift (dnsQueryName pkt tm)
  let f ← domainProgram pkt tm f domain
  let f := f.note (← portProgram tm)
  return (f.note (vlanSignals tm), country, domain)

/-- The result of the findings, after which the baseline is updated. -/
def concludeProgram (tm : TransportMeta) (f : Findings) (country domain : Option Str) :
    Program libs IdsResult := do
  let result ← Prog.lift (IdsResult.fromSignals f.signals f.primaryFlag)
  let learning ← Prog.read fun e => e.baseline.isLearning
  if learning = true ∨ result.totalScore < THRESHOLD_INFO then
    observeProgram tm country domain
  return result

/-- `IdsEngine::analyze`. -/
def analyzeProgram (pkt : RawPacket) : Program libs IdsResult :=
  match pkt.transport with
  | none => .lift (IdsResult.fromSignals [] .unspecified)
  | some tm => do
    let f ← detectProgram pkt tm
    let (f, country, domain) ← compareProgram pkt tm f
    concludeProgram tm f country domain

/-- One round of the background sweeper. -/
def sweepProgram : Program libs Unit := do
  let now ← Prog.access fun t e => .ok (t.portScan, e)
  .write fun _ e => { e with portScan := { e.portScan with
    portsPerSrc := Table.retain (fun _ s => s.sweep now) e.portScan.portsPerSrc } }
  .write fun _ e => { e with portScan := { e.portScan with
    srcsPerPort := Table.retain (fun _ s => s.sweep now) e.portScan.srcsPerPort } }
  .write fun t e => { e with synFlood := { e.synFlood with
    halfOpen := (e.synFlood.sweep t.synFlood).halfOpen } }
  .write fun t e => { e with synFlood := { e.synFlood with
    counters := (e.synFlood.sweep t.synFlood).counters } }
  .write fun t e => { e with rateLimiter := e.rateLimiter.sweep t.rateLimiter }
  .write fun t e => { e with baseline := e.baseline.tickPhase t.system }

/-! ## Run alone -/

variable {t : Instants} {pkt : RawPacket} {tm : TransportMeta} {e : IdsEngine libs}

@[simp] theorem rateProgram_run : (rateProgram pkt tm).run t e
    = e.rateLimiter.inspect t.rateLimiter tm.srcIp pkt.origLen.toNat (isSyn tm) >>= fun rate =>
        .ok (rate.1, { e with rateLimiter := rate.2 }) := Prog.run_access _

@[simp] theorem portsProgram_run : (portsProgram tm).run t e
    = .ok ((inspectPorts libs t tm e.portScan).1,
        { e with portScan := (inspectPorts libs t tm e.portScan).2 }) := by
  unfold portsProgram inspectPorts
  cases tm.dstPort with
  | none => rfl
  | some dstPort =>
    simp only [Prog.run_bind, countPort, Prog.run_access, Checked.ok_bind,
      PortScanDetector.inspect]
    split
    · rfl
    · simp only [Prog.run_bind, countSource, Prog.run_access, Checked.ok_bind]
      split
      · rfl
      · rfl

theorem halfOpenProgram_run (p : Segment) : (halfOpenProgram p).run t e
    = .ok ((), { e with synFlood := { e.synFlood with
        halfOpen := SynFloodDetector.trackHalfOpen t.synFlood p e.synFlood.halfOpen } }) := by
  unfold halfOpenProgram SynFloodDetector.trackHalfOpen
  split
  · rfl
  · split
    · rfl
    · rfl

theorem rstProgram_run (p : Segment) : (rstProgram p).run t e
    = .ok (if p.isRst && (e.synFlood.halfOpen.lookup p.flowKey).isNone
        && (e.synFlood.halfOpen.lookup p.revKey).isNone then
        [SynFloodDetector.rstSignal p.srcIp] else [], e) := by
  unfold rstProgram
  cases p.isRst with
  | false => rfl
  | true =>
    simp only [if_true, Prog.run_bind, containsFlow, Prog.run_read, Checked.ok_bind]
    cases e.synFlood.halfOpen.lookup p.flowKey with
    | some _ => rfl
    | none =>
      cases h : e.synFlood.halfOpen.lookup p.revKey <;> simp [h]

theorem segmentProgram_run (p : Segment) : (segmentProgram p).run t e
    = e.synFlood.inspect t.synFlood p >>= fun tcp => .ok (tcp.1, { e with synFlood := tcp.2 }) := by
  simp only [segmentProgram, ratioProgram, SynFloodDetector.inspect, Prog.run_bind,
    Prog.run_access]
  cases SynFloodDetector.trackRatio libs.fp t.synFlood p e.synFlood.counters with
  | error f => rfl
  | ok ratio =>
    simp only [Checked.ok_bind, Checked.pure_eq_ok, halfOpenProgram_run, Prog.run_read,
      rstProgram_run, Prog.run_pure]

@[simp] theorem tcpProgram_run : (tcpProgram tm).run t e
    = inspectSegment t tm e.synFlood >>= fun tcp => .ok (tcp.1, { e with synFlood := tcp.2 }) := by
  unfold tcpProgram inspectSegment
  cases tm.tcpFlags with
  | none => rfl
  | some flags =>
    cases tm.srcPort with
    | none => rfl
    | some srcPort =>
      cases tm.dstPort with
      | none => rfl
      | some dstPort => exact segmentProgram_run _

@[simp] theorem geoProgram_run : (geoProgram tm (e.geo tm.srcIp)).run t e
    = .ok (geoSignals tm e, e) := by
  unfold geoSignals
  cases e.geo tm.srcIp with
  | none => rfl
  | some code =>
    simp only [geoProgram, Prog.run_bind, readPhase, Prog.run_read, Checked.ok_bind]
    by_cases hphase : e.baseline.phase = .refinement
    · rw [if_pos hphase]
      cases hknown : e.baseline.isKnownCountry code <;> simp [hphase, hknown]
    · rw [if_neg hphase, if_neg fun h => hphase h.1]
      rfl

@[simp] theorem portProgram_run : (portProgram tm).run t e = .ok (portSignals tm e, e) := by
  unfold portProgram portSignals
  cases tm.dstPort with
  | none => rfl
  | some dstPort =>
    simp only [Prog.run_bind, readPhase, Prog.run_read, Checked.ok_bind]
    by_cases hphase : e.baseline.phase = .refinement
    · rw [if_pos hphase]
      cases hknown : e.baseline.isKnownPort dstPort <;> simp [hphase, hknown]
    · rw [if_neg hphase, if_neg fun h => hphase h.1]
      rfl

@[simp] theorem domainProgram_run (f : Findings) (domain : Option Str) :
    (domainProgram pkt tm f domain).run t e
      = analyzeDomain pkt tm e f domain >>= fun f => .ok (f, e) := by
  cases domain with
  | none => rfl
  | some domain =>
    simp only [domainProgram, analyzeDomain, inspectDomainProgram, inspectDomain, Prog.run_bind,
      Prog.run_read, Checked.ok_bind]
    cases e.baseline.isKnownDns libs.lower domain with
    | true =>
      simp only [if_true, Prog.run_pure, Checked.ok_bind, Prog.run_lift]
      cases inspectDnsPayload libs pkt tm <;> rfl
    | false =>
      simp only [Bool.false_eq_true, if_false, Prog.run_lift]
      cases DnsDetector.inspectName libs.lower domain with
      | error f => rfl
      | ok ss =>
        simp only [Checked.ok_bind]
        cases inspectDnsPayload libs pkt tm <;> rfl

@[simp] theorem observeProgram_run (domain : Option Str) :
    (observeProgram tm (e.geo tm.srcIp) domain).run t e
      = .ok ((), { e with baseline := observe tm domain e }) := by
  unfold observe observeProgram
  cases tm.dstPort <;> cases e.geo tm.srcIp <;> cases domain <;> rfl

theorem sweepProgram_run : (sweepProgram : Program libs Unit).run t e = .ok ((), sweep t e) := rfl

theorem concludeProgram_run (f : Findings) (domain : Option Str) :
    (concludeProgram tm f (e.geo tm.srcIp) domain).run t e
      = IdsResult.fromSignals f.signals f.primaryFlag >>= fun r =>
        .ok (r, { e with
          baseline := if e.baseline.isLearning = true ∨ r.totalScore < THRESHOLD_INFO then
            observe tm domain e else e.baseline }) := by
  simp only [concludeProgram, Prog.run_bind, Prog.run_lift]
  cases IdsResult.fromSignals f.signals f.primaryFlag with
  | error f => rfl
  | ok r =>
    simp only [Checked.ok_bind, Prog.run_read]
    split
    · simp only [Prog.run_bind, observeProgram_run, Checked.ok_bind, Prog.run_pure]
    · rfl

theorem compareProgram_run (f : Findings) :
    (compareProgram pkt tm f).run t e = do
      let scanned ← scanPayload libs pkt tm
      let domain ← dnsQueryName pkt tm
      let f ← analyzeDomain pkt tm e
        ((f.raise .geoAnomaly (geoSignals tm e)).raise .payloadSig scanned) domain
      return ((((f.note (portSignals tm e)).note (vlanSignals tm)), e.geo tm.srcIp, domain), e) := by
  simp only [compareProgram, Prog.run_bind, Prog.run_read, Checked.ok_bind, geoProgram_run,
    Prog.run_lift]
  cases scanPayload libs pkt tm with
  | error f => rfl
  | ok scanned =>
    simp only [Checked.ok_bind]
    cases dnsQueryName pkt tm with
    | error f => rfl
    | ok domain =>
      simp only [Checked.ok_bind, domainProgram_run]
      cases analyzeDomain pkt tm e _ domain with
      | error f => rfl
      | ok f => simp only [Checked.ok_bind, portProgram_run, Prog.run_pure, Checked.pure_eq_ok]

/-- What comes after the detectors does not look at them. -/
theorem analyzeDomain_detectors (portScan : PortScanDetector) (synFlood : SynFloodDetector libs.fp)
    (rateLimiter : RateLimiter libs.fp) :
    analyzeDomain pkt tm { e with portScan, synFlood, rateLimiter } = analyzeDomain pkt tm e := rfl

theorem geoSignals_detectors (portScan : PortScanDetector) (synFlood : SynFloodDetector libs.fp)
    (rateLimiter : RateLimiter libs.fp) :
    geoSignals tm { e with portScan, synFlood, rateLimiter } = geoSignals tm e := rfl

/-- **Alone, the accesses are the call**: when nobody else is at work, the program does
what `analyze` does. -/
theorem analyzeProgram_run : (analyzeProgram pkt).run t e = analyze t pkt e := by
  unfold analyzeProgram analyze
  cases pkt.transport with
  | none => simp
  | some tm =>
    simp only [detectProgram, analyzeTransport, Prog.run_bind, Prog.run_read, Checked.ok_bind,
      rateProgram_run]
    cases e.rateLimiter.inspect t.rateLimiter tm.srcIp pkt.origLen.toNat (isSyn tm) with
    | error f => rfl
    | ok rate =>
      simp only [Checked.ok_bind, portsProgram_run, tcpProgram_run]
      cases inspectSegment t tm e.synFlood with
      | error f => rfl
      | ok tcp =>
        simp only [Checked.ok_bind, Prog.run_pure, compareProgram_run]
        cases scanPayload libs pkt tm with
        | error f => rfl
        | ok scanned =>
          cases dnsQueryName pkt tm with
          | error f => rfl
          | ok domain =>
            simp only [Checked.ok_bind, geoSignals_detectors, analyzeDomain_detectors]
            cases analyzeDomain pkt tm e _ domain with
            | error f => rfl
            | ok f =>
              simp only [Checked.ok_bind, Checked.pure_eq_ok]
              exact concludeProgram_run (e := { e with
                portScan := (inspectPorts libs t tm e.portScan).2, synFlood := tcp.2,
                rateLimiter := rate.2 }) _ domain

end IdsEngine

end Ocellus
