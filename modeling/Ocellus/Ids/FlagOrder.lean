import Ocellus.Ids.PrimaryFlag

/-!
# When the reported reason is that of the strongest signal

For a packet and the state before it, `strengths` lists how strongly each of the
detectors that bid for the `flag_reason` reacts, in the order in which `analyze`
runs them. The reason reported is that of a highest-scoring signal exactly when
no strength exceeds the first positive one (`IdsEngine.flagOfStrongest_iff`); a
RST that carries a payload signature is reported as a SYN flood
(`IdsEngine.flag_of_weaker_rst`).
-/

namespace Ocellus

/-- The segment that the SYN-flood detector is called with, for packets with TCP
flags and ports. -/
def TransportMeta.segment (tm : TransportMeta) : Option Segment :=
  match tm.tcpFlags, tm.srcPort, tm.dstPort with
  | some flags, some srcPort, some dstPort => some ⟨tm.srcIp, tm.dstIp, srcPort, dstPort, flags⟩
  | _, _, _ => none

namespace IdsEngine

variable {libs : Libs} {fp : Rounding}

/-! ## How strongly the detectors react to a packet -/

/-- The bytes behind the transport header. -/
def appPayload (pkt : RawPacket) (tm : TransportMeta) : Bytes :=
  pkt.data.bytes.drop tm.payloadOffset

/-- The name that the packet queries, if it is a DNS packet. -/
def queriedName (pkt : RawPacket) (tm : TransportMeta) : Option Str :=
  (dnsQueryName pkt tm).toOption.join

/-- An address of the packet is blacklisted. -/
def IsListed (tm : TransportMeta) (e : IdsEngine libs) : Prop :=
  (e.blacklist.checkIp tm.srcIp).isSome = true ∨ (e.blacklist.checkIp tm.dstIp).isSome = true

instance (tm : TransportMeta) (e : IdsEngine libs) : Decidable (IsListed tm e) :=
  inferInstanceAs (Decidable (_ ∨ _))

def scanStrength (libs : Libs) (t : Instants) (tm : TransportMeta) (d : PortScanDetector) : ℚ :=
  match tm.dstPort with
  | some dstPort => if d.Scans libs.hasher t.portScan tm.srcIp dstPort then 60 else 0
  | none => 0

def tcpStrength (t : Instants) (tm : TransportMeta) (d : SynFloodDetector fp) : ℚ :=
  match tm.tcpFlags, tm.srcPort, tm.dstPort with
  | some flags, some srcPort, some dstPort =>
    d.segmentStrength t.synFlood ⟨tm.srcIp, tm.dstIp, srcPort, dstPort, flags⟩
  | _, _, _ => 0

/-- The country of the source is known, but new to a baseline that has learned. -/
def geoStrength (tm : TransportMeta) (e : IdsEngine libs) : ℚ :=
  match e.geo tm.srcIp with
  | some code =>
    if e.baseline.phase = .refinement ∧ e.baseline.isKnownCountry code = false then 35 else 0
  | none => 0

def payloadStrength (libs : Libs) (pkt : RawPacket) (tm : TransportMeta) : ℚ :=
  if HasPayload pkt tm then PayloadScanner.matchStrength libs.ac (appPayload pkt tm) else 0

def domainStrength (pkt : RawPacket) (tm : TransportMeta) (e : IdsEngine libs) : ℚ :=
  match queriedName pkt tm with
  | some name => if (e.blacklist.checkDomain libs.lower name).isSome then 80 else 0
  | none => 0

def dnsStrength (libs : Libs) (pkt : RawPacket) (tm : TransportMeta) : ℚ :=
  match queriedName pkt tm with
  | some name =>
    if DnsDetector.IsTunnel (appPayload pkt tm) then 50
    else DnsDetector.nameStrength libs.lower name
  | none => 0

/-- The strengths of the detectors that bid for the reason, in their order. -/
def strengths (t : Instants) (pkt : RawPacket) (e : IdsEngine libs) : List ℚ :=
  match pkt.transport with
  | none => []
  | some tm => [
    if IsListed tm e then 90 else 0,
    if e.rateLimiter.Exceeds t.rateLimiter tm.srcIp pkt.origLen.toNat (isSyn tm) then 40 else 0,
    scanStrength libs t tm e.portScan,
    tcpStrength t tm e.synFlood,
    geoStrength tm e,
    payloadStrength libs pkt tm,
    domainStrength pkt tm e,
    dnsStrength libs pkt tm]

/-! ## The steps of `analyze` -/

section Steps

variable {t : Instants} {pkt : RawPacket} {tm : TransportMeta} {e : IdsEngine libs}

theorem strength_listed (tm : TransportMeta) (e : IdsEngine libs) :
    strength ((e.blacklist.checkIp tm.srcIp).toList ++ (e.blacklist.checkIp tm.dstIp).toList)
      = if IsListed tm e then 90 else 0 := by
  rw [strength_append, Blacklist.strength_checkIp, Blacklist.strength_checkIp]
  unfold IsListed
  by_cases hsrc : (e.blacklist.checkIp tm.srcIp).isSome = true
  · by_cases hdst : (e.blacklist.checkIp tm.dstIp).isSome = true
    · simp [hsrc, hdst]
    · simp [hsrc, hdst]
  · by_cases hdst : (e.blacklist.checkIp tm.dstIp).isSome = true
    · simp [hsrc, hdst]
    · simp [hsrc, hdst]

theorem strength_inspectPorts (libs : Libs) (t : Instants) (tm : TransportMeta)
    (d : PortScanDetector) :
    strength (inspectPorts libs t tm d).1.toList = scanStrength libs t tm d := by
  unfold inspectPorts scanStrength
  cases tm.dstPort with
  | some dstPort => exact PortScanDetector.strength_inspect _ _ _ _ d
  | none => rfl

theorem inspectSegment_eq (t : Instants) (tm : TransportMeta) (d : SynFloodDetector fp) :
    inspectSegment t tm d = match tm.segment with
      | some p => d.inspect t.synFlood p
      | none => .ok ([], d) := by
  rw [inspectSegment, TransportMeta.segment]
  cases tm.tcpFlags <;> cases tm.srcPort <;> cases tm.dstPort <;> rfl

theorem tcpStrength_eq (t : Instants) (tm : TransportMeta) (d : SynFloodDetector fp) :
    tcpStrength t tm d = match tm.segment with
      | some p => d.segmentStrength t.synFlood p
      | none => 0 := by
  rw [tcpStrength, TransportMeta.segment]
  cases tm.tcpFlags <;> cases tm.srcPort <;> cases tm.dstPort <;> rfl

theorem strength_inspectSegment {d : SynFloodDetector fp}
    {r : List Signal × SynFloodDetector fp}
    (h : inspectSegment t tm d = .ok r) :
    strength r.1 = tcpStrength t tm d ∧ Graded (some .synFlood) r.1 := by
  rw [inspectSegment_eq] at h
  rw [tcpStrength_eq]
  cases hp : tm.segment with
  | none =>
    rw [hp] at h
    cases h
    exact ⟨rfl, .nil⟩
  | some p =>
    rw [hp] at h
    rw [SynFloodDetector.inspect_eq_ok h]
    constructor
    · exact SynFloodDetector.strength_segmentSignals _ _ d
    · exact SynFloodDetector.graded_segmentSignals _ _ d

theorem strength_geoSignals (tm : TransportMeta) (e : IdsEngine libs) :
    strength (geoSignals tm e) = geoStrength tm e := by
  unfold geoSignals geoStrength
  cases e.geo tm.srcIp with
  | some code => exact strength_ite (q := 35) rfl (by norm_num)
  | none => rfl

theorem payload_eq {p : Bytes} (h : payload pkt tm = .ok p) : p = appPayload pkt tm := by
  unfold payload Checked.sliceFrom at h
  split at h
  · exact (Except.ok.inj h).symm
  · cases h

theorem strength_scanPayload {ss : List Signal} (h : scanPayload libs pkt tm = .ok ss) :
    strength ss = payloadStrength libs pkt tm ∧ Graded (some .payloadSig) ss := by
  unfold scanPayload at h
  unfold payloadStrength
  split at h
  · rename_i hpayload
    obtain ⟨p, hp, h⟩ := Checked.bind_eq_ok.mp h
    rw [if_pos hpayload, ← payload_eq hp]
    exact PayloadScanner.strength_scanAll h
  · rename_i hpayload
    cases h
    rw [if_neg hpayload]
    exact ⟨rfl, .nil⟩

/-- A queried name was extracted from the payload. -/
theorem of_dnsQueryName {name : Str} (h : dnsQueryName pkt tm = .ok (some name)) :
    HasPayload pkt tm ∧ extractDnsQueryName (appPayload pkt tm) = .ok (some name) := by
  unfold dnsQueryName at h
  split at h
  · rename_i hdns
    obtain ⟨p, hp, h⟩ := Checked.bind_eq_ok.mp h
    rw [← payload_eq hp]
    exact ⟨hdns.2.2, h⟩
  · cases h

theorem appPayload_length_le (pkt : RawPacket) (tm : TransportMeta) :
    (appPayload pkt tm).length ≤ isizeMax := by
  have hvec := pkt.data.length_le
  unfold appPayload
  rw [List.length_drop]
  omega

/-- What `queriedName` is. -/
theorem queriedName_eq {o : Option Str} (h : dnsQueryName pkt tm = .ok o) :
    queriedName pkt tm = o := by
  show (dnsQueryName pkt tm).toOption.join = o
  rw [h]
  rfl

/-- The name that is found has short pieces. -/
theorem isShort_of_dnsQueryName {name : Str} (h : dnsQueryName pkt tm = .ok (some name)) :
    Str.IsShort name := by
  obtain ⟨-, hextract⟩ := of_dnsQueryName h
  obtain ⟨o, ho, hshort⟩ := extractDnsQueryName_returns (appPayload_length_le pkt tm)
  obtain rfl := Except.ok.inj (hextract.symm.trans ho)
  exact (hshort name rfl).2

/-- The inspection of the name is skipped for a name of the baseline, and finds what is
wrong with any other. -/
theorem inspectDomain_eq_ok {name : Str} {ss : List Signal} (hshort : Str.IsShort name)
    (h : inspectDomain name e = .ok ss) :
    ss = if e.baseline.isKnownDns libs.lower name then []
      else DnsDetector.nameSignals libs.lower name := by
  unfold inspectDomain at h
  rw [DnsDetector.inspectName_eq _ hshort] at h
  split at h
  · rename_i hknown
    rw [if_pos hknown, Except.ok.inj h]
  · rename_i hknown
    rw [if_neg hknown, Except.ok.inj h]

/-- The inspection of the payload finds what is wrong with the name and the size. -/
theorem inspectDnsPayload_eq_ok {name : Str} {ss : List Signal}
    (hname : dnsQueryName pkt tm = .ok (some name)) (h : inspectDnsPayload libs pkt tm = .ok ss) :
    ss = DnsDetector.nameSignals libs.lower name
      ++ DnsDetector.sizeSignals (appPayload pkt tm) := by
  obtain ⟨hpayload, hextract⟩ := of_dnsQueryName hname
  unfold inspectDnsPayload at h
  rw [if_pos hpayload.2] at h
  obtain ⟨p, hp, h⟩ := Checked.bind_eq_ok.mp h
  obtain rfl := payload_eq hp
  obtain ⟨signals, hret, hsignals⟩ :=
    DnsDetector.inspectPayload_returns libs.lower (appPayload_length_le pkt tm)
  rw [h] at hret
  rw [Except.ok.inj hret]
  exact hsignals name hextract

/-- The signals of the DNS detector, from both of its calls: the first adds
nothing to the second. -/
theorem strength_dns {name : Str} {ss ss' : List Signal}
    (hname : dnsQueryName pkt tm = .ok (some name)) (h : inspectDomain name e = .ok ss)
    (h' : inspectDnsPayload libs pkt tm = .ok ss') :
    strength (ss ++ ss') = dnsStrength libs pkt tm ∧
      Graded (some .dnsAnomaly) (ss ++ ss') := by
  have hss : ss = [] ∨ ss = DnsDetector.nameSignals libs.lower name := by
    have hss := inspectDomain_eq_ok (isShort_of_dnsQueryName hname) h
    split at hss
    · exact .inl hss
    · exact .inr hss
  have hss' := inspectDnsPayload_eq_ok hname h'
  have hgraded := DnsDetector.graded_nameSignals libs.lower name
  have hgraded' := hgraded.append (DnsDetector.graded_sizeSignals (appPayload pkt tm))
  -- the name is looked at twice, and the second time is as strong
  have hrepeat : strength (ss ++ ss') = strength ss' := by
    rw [strength_append]
    refine max_eq_right ?_
    rcases hss with rfl | rfl
    · exact strength_nonneg ss'
    · rw [hss', strength_append]
      exact le_max_left _ _
  constructor
  · rw [hrepeat, hss', strength_append, DnsDetector.strength_nameSignals,
      DnsDetector.strength_sizeSignals]
    unfold dnsStrength
    rw [queriedName_eq hname]
    dsimp only
    unfold DnsDetector.nameStrength
    split_ifs <;> norm_num
  · rw [hss']
    rcases hss with rfl | rfl
    · exact hgraded'
    · exact hgraded.append hgraded'

/-- What is done with the queried name is two bids. -/
theorem analyzeDomain_eq_ok {f f' : Findings} {domain : Option Str}
    (hname : dnsQueryName pkt tm = .ok domain) (h : analyzeDomain pkt tm e f domain = .ok f') :
    ∃ listed dns, f' = (f.raise .blacklisted listed).raise .dnsAnomaly dns ∧
      strength listed = domainStrength pkt tm e ∧ Graded (some .blacklisted) listed ∧
      strength dns = dnsStrength libs pkt tm ∧ Graded (some .dnsAnomaly) dns := by
  have hqueried := queriedName_eq hname
  cases domain with
  | none =>
    refine ⟨[], [], (Except.ok.inj h).symm, ?_, .nil, ?_, .nil⟩
    · unfold domainStrength
      rw [hqueried]
      rfl
    · unfold dnsStrength
      rw [hqueried]
      rfl
  | some name =>
    obtain ⟨ss, hss, h⟩ := Checked.bind_eq_ok.mp h
    obtain ⟨ss', hss', h⟩ := Checked.bind_eq_ok.mp h
    obtain ⟨hdns, hgraded⟩ := strength_dns hname hss hss'
    refine ⟨(e.blacklist.checkDomain libs.lower name).toList, ss ++ ss', ?_, ?_,
      Blacklist.graded_checkDomain libs.lower name e.blacklist, hdns, hgraded⟩
    · rw [← Findings.raise_raise]
      exact (Except.ok.inj h).symm
    · unfold domainStrength
      rw [hqueried]
      exact Blacklist.strength_checkDomain libs.lower name e.blacklist

end Steps

/-! ## The whole -/

/-- The result of a call is made of eight bids, as strong as `strengths` says. -/
theorem analyzeTransport_eq_ok {t : Instants} {pkt : RawPacket} {tm : TransportMeta}
    {e e' : IdsEngine libs} {r : IdsResult} (htm : pkt.transport = some tm)
    (h : analyzeTransport t pkt tm e = .ok (r, e')) :
    ∃ f bids, Collected f bids ∧ bids.Pairwise Tie ∧
      bids.map (fun b => strength b.2) = strengths t pkt e ∧
      IdsResult.fromSignals f.signals f.primaryFlag = .ok r := by
  obtain ⟨rate, hrate, h⟩ := Checked.bind_eq_ok.mp h
  obtain ⟨tcp, htcp, h⟩ := Checked.bind_eq_ok.mp h
  obtain ⟨sigs, hsigs, h⟩ := Checked.bind_eq_ok.mp h
  obtain ⟨domain, hdomain, h⟩ := Checked.bind_eq_ok.mp h
  obtain ⟨f, hf, h⟩ := Checked.bind_eq_ok.mp h
  obtain ⟨result, hresult, h⟩ := Checked.bind_eq_ok.mp h
  cases h
  obtain ⟨htcpStrength, htcpGraded⟩ := strength_inspectSegment htcp
  obtain ⟨hsigsStrength, hsigsGraded⟩ := strength_scanPayload hsigs
  obtain ⟨listed, dns, rfl, hlisted, hlistedGraded, hdns, hdnsGraded⟩ :=
    analyzeDomain_eq_ok hdomain hf
  have hipGraded := (Blacklist.graded_checkIp tm.srcIp e.blacklist).append
    (Blacklist.graded_checkIp tm.dstIp e.blacklist)
  have hcollected := Collected.empty
    |>.raise (by decide) hipGraded
    |>.raise (by decide) (RateLimiter.graded_inspect hrate)
    |>.raise (by decide) (inspectPorts_graded libs t tm e.portScan)
    |>.raise (by decide) htcpGraded
    |>.note (graded_icmpSignals tm)
    |>.note (graded_fragmentSignals tm)
    |>.note (graded_truncationSignals pkt)
    |>.raise (by decide) (graded_geoSignals tm e)
    |>.raise (by decide) hsigsGraded
    |>.raise (by decide) hlistedGraded
    |>.raise (by decide) hdnsGraded
    |>.note (graded_portSignals tm e)
    |>.note (graded_vlanSignals tm)
  rw [← Findings.raise_raise] at hcollected
  refine ⟨_, _, hcollected, ?_, ?_, hresult⟩
  · -- only the blacklist bids twice, and its first bid cannot be outdone
    have hreasons : [FlagReason.rateExceeded, .portScan, .synFlood, .geoAnomaly, .payloadSig,
        .blacklisted, .dnsAnomaly].Nodup := by decide
    refine List.pairwise_cons.mpr ⟨fun b hb _ hne => ?_, pairwise_tie_of_nodup hreasons⟩
    have hfirst : strength ((e.blacklist.checkIp tm.srcIp).toList
        ++ (e.blacklist.checkIp tm.dstIp).toList) = 90 := by
      have hstrength := strength_listed tm e
      split at hstrength
      · exact hstrength
      · exact absurd (hipGraded.strength_eq_zero_iff.mp hstrength) hne
    exact (hcollected.named b (List.mem_cons_of_mem _ hb)).2.strength_le.trans hfirst.ge
  · simp only [List.nil_append, List.cons_append, List.map_cons, List.map_nil, strengths, htm]
    rw [strength_listed, RateLimiter.strength_inspect hrate, strength_inspectPorts, htcpStrength,
      strength_geoSignals, hsigsStrength, hlisted, hdns]

/-- **When the reason is that of the strongest signal**: for every packet and
every state, exactly when no detector reacts more strongly than the first one to
react. -/
theorem flagOfStrongest_iff {t : Instants} {pkt : RawPacket} {e e' : IdsEngine libs}
    {r : IdsResult} (h : analyze t pkt e = .ok (r, e')) :
    r.FlagOfStrongest ↔ FirstIsStrongest (strengths t pkt e) := by
  cases htm : pkt.transport with
  | none =>
    unfold analyze at h
    rw [htm] at h
    obtain ⟨result, hresult, h⟩ := Checked.bind_eq_ok.mp h
    cases h
    unfold strengths
    rw [htm]
    exact Collected.empty.strongest_signal_iff List.Pairwise.nil hresult
  | some tm =>
    unfold analyze at h
    rw [htm] at h
    obtain ⟨f, bids, hcollected, htie, hstrengths, hr⟩ := analyzeTransport_eq_ok htm h
    rw [← hstrengths]
    exact hcollected.strongest_signal_iff htie hr

/-- A UDP datagram that carries the four bytes `MSFV`. -/
def markerPacket : RawPacket where
  timestamp := 0
  data := ⟨List.replicate 28 0#8 ++ ascii "MSFV", by decide⟩
  origLen := 32#32
  capLen := 32#32
  interface := []
  linkType := .rawIp
  transport := some {
    srcIp := .v4 1#32, dstIp := .v4 2#32, srcPort := some 8080#16, dstPort := some 443#16
    protocol := 17#8, tcpFlags := none, ttl := 64#8, ipFlags := 0#8, ipFragOffset := 0#16
    icmpType := none, icmpCode := none, ethSrcMac := none, vlanId := none, payloadOffset := 28 }
  isTruncated := false
  packetId := 0
  idsScore := .fin 0
  idsFlag := .unspecified

/-- The same with four zero bytes. -/
def zerosPacket : RawPacket := { markerPacket with data := ⟨List.replicate 32 0#8, by decide⟩ }

/-- The marker alone names the reason. -/
theorem flagOfStrongest_iff_marker :
    ∃ r e', analyze ⟨0, 0, 0, 0⟩ markerPacket
        (new (.new none 0) (fun _ => none) .new : IdsEngine .plain) = .ok (r, e') ∧
      r.FlagOfStrongest := by
  obtain ⟨⟨r, e'⟩, h, -⟩ := analyze_returns
    (bounded_new (.new none 0) (fun _ => none) .new) (by decide) ⟨0, 0, 0, 0⟩ markerPacket
  exact ⟨r, e', h, (flagOfStrongest_iff h).mpr (by decide +kernel)⟩

/-- An IPv4 packet with a TCP RST from 10.0.0.1:8080 to 10.0.0.2:443 that carries
the four bytes `MSFV`. -/
def rstPacket : Bytes :=
  [0x45#8, 0#8, 0#8, 44#8, 0#8, 0#8, 0#8, 0#8, 64#8, 6#8, 0#8, 0#8, 10#8, 0#8, 0#8, 1#8,
    10#8, 0#8, 0#8, 2#8,
    0x1F#8, 0x90#8, 0x01#8, 0xBB#8, 0#8, 0#8, 0#8, 0#8, 0#8, 0#8, 0#8, 0#8, 0x50#8, 0x04#8,
    0#8, 0#8, 0#8, 0#8, 0#8, 0#8] ++ ascii "MSFV"

/-- **The first detector wins**: with an agent that has just started, the RST
without a SYN (25 points) names the reason, and the Metasploit marker in its
payload (70 points) does not. -/
theorem flag_of_weaker_rst :
    (do
      let pkt ← capturePacket ⟨rstPacket, by decide⟩ .rawIp 44#32 44#32 [] 0 0
      analyze ⟨0, 0, 0, 0⟩ pkt
        (new (.new none 0) (fun _ => none) .new : IdsEngine .plain) :
        Checked (IdsResult × IdsEngine .plain)).Returns
      fun p => p.1.flagReason = .synFlood ∧ ¬ p.1.FlagOfStrongest := by
  decide +kernel

end IdsEngine

end Ocellus
