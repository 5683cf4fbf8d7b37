import Ocellus.Base.TimedProgram
import Ocellus.Ids.AnalyzeProgram
import Ocellus.Ids.FlagOrder

/-!
# What one access can do

All accesses of a call of `analyze` to the shared engine are of a few kinds: readings,
updates of the baseline (`IdsEngine.Allows`), and writes to one slot of a table of a
detector (`IdsEngine.AllowsPorts`, `IdsEngine.AllowsFlows`). A relation that has those of a
part of the call has every access of this part.

What each part reports is told by the names of its signals: only the detectors report rates,
scans and floods, and the rest of the call only adds signals (`Allows.compare`,
`Allows.conclude`).
-/

namespace Ocellus

namespace IdsEngine

variable {libs : Libs}

/-- The segment that the SYN-flood detector is told of. -/
def IsSegment (tm : TransportMeta) (p : Segment) : Prop :=
  p.srcIp = tm.srcIp ∧ p.dstIp = tm.dstIp ∧ tm.srcPort = some p.srcPort ∧
    tm.dstPort = some p.dstPort

def setPorts (T : Table IpAddr (SlidingSet PortScanDetector.window)) (e : IdsEngine libs) :
    IdsEngine libs := { e with portScan := { e.portScan with portsPerSrc := T } }

def setSources (T : Table U16 (SlidingSet PortScanDetector.window)) (e : IdsEngine libs) :
    IdsEngine libs := { e with portScan := { e.portScan with srcsPerPort := T } }

def setCounters (T : Table IpAddr PerIpCounters) (e : IdsEngine libs) : IdsEngine libs :=
  { e with synFlood := { e.synFlood with counters := T } }

def setHalfOpen (T : Table FlowKey Nat) (e : IdsEngine libs) : IdsEngine libs :=
  { e with synFlood := { e.synFlood with halfOpen := T } }

/-! ## Names of signals -/

/-- One of the signals has the name. -/
def named (name : SignalName) (ss : List Signal) : Bool := ss.any fun s => s.name == name

@[simp] theorem named_append (name : SignalName) (ss ss' : List Signal) :
    named name (ss ++ ss') = (named name ss || named name ss') := List.any_append

/-- Signals of no detector. -/
def Aside (ss : List Signal) : Prop :=
  ∀ s ∈ ss, s.name.reason ∉ [some .rateExceeded, some .portScan, some .synFlood]

theorem aside_of_graded {reason : Option FlagReason} {ss : List Signal} (h : Graded reason ss)
    (hreason : reason ∉ [some .rateExceeded, some .portScan, some .synFlood]) : Aside ss :=
  fun s hs => (h s hs).1 ▸ hreason

theorem Aside.append {ss ss' : List Signal} (h : Aside ss) (h' : Aside ss') :
    Aside (ss ++ ss') := by
  intro s hs
  rcases List.mem_append.mp hs with hs | hs
  · exact h s hs
  · exact h' s hs

/-! ## Kinds of accesses -/

/-- The relation has readings, and updates of the baseline. -/
structure Allows (guar : Instants → IdsEngine libs → IdsEngine libs → Prop) : Prop where
  same : ∀ t e, guar t e e
  baseline : ∀ t e baseline, guar t e { e with baseline }

/-- It has what is recorded of the ports of a packet with the metadata `tm`. -/
structure AllowsPorts (tm : TransportMeta)
    (guar : Instants → IdsEngine libs → IdsEngine libs → Prop) : Prop where
  port : ∀ t e dstPort, tm.dstPort = some dstPort → guar t e
    (e.setPorts (e.portScan.portsPerSrc.insert tm.srcIp
      ((e.portScan.portsOf tm.srcIp).insert t.portScan dstPort).2))
  source : ∀ t e dstPort, tm.dstPort = some dstPort → guar t e
    (e.setSources (e.portScan.srcsPerPort.insert dstPort
      ((e.portScan.srcsOf dstPort).insert t.portScan (ipHash libs.hasher tm.srcIp)).2))

/-- It has what is recorded of its connection. -/
structure AllowsFlows (tm : TransportMeta)
    (guar : Instants → IdsEngine libs → IdsEngine libs → Prop) : Prop where
  opened : ∀ t e p, IsSegment tm p →
    guar t e (e.setHalfOpen (e.synFlood.halfOpen.insert p.flowKey t.synFlood))
  closed : ∀ t e k, guar t e (e.setHalfOpen (e.synFlood.halfOpen.erase k))

variable {guar : Instants → IdsEngine libs → IdsEngine libs → Prop} {pkt : RawPacket}
  {tm : TransportMeta}

/-- Every access is in the relation. -/
abbrev Does (guar : Instants → IdsEngine libs → IdsEngine libs → Prop) {α : Type}
    (p : Program libs α) : Prop := Prog.Within guar (fun _ => True) p

/-- And what is reported bids for the reason. -/
abbrev Bids (guar : Instants → IdsEngine libs → IdsEngine libs → Prop)
    (reason : Option FlagReason) (p : Program libs (List Signal)) : Prop :=
  Prog.Within guar (Graded reason) p

theorem does_pure {α : Type} (a : α) : Does guar (pure a : Program libs α) := .pure trivial

theorem does_lift {α : Type} (x : Checked α) : Does guar (Prog.lift x : Program libs α) :=
  .lift fun _ _ => trivial

theorem countPort_does {ip : IpAddr} {port : U16}
    (h : ∀ t e, guar t e (e.setPorts (e.portScan.portsPerSrc.insert ip
      ((e.portScan.portsOf ip).insert t.portScan port).2))) :
    Does guar (countPort ip port : Program libs Nat) := by
  refine .access fun t e a e' haccess => ⟨?_, trivial⟩
  cases haccess
  exact h t e

theorem countSource_does {ip : IpAddr} {port : U16}
    (h : ∀ t e, guar t e (e.setSources (e.portScan.srcsPerPort.insert port
      ((e.portScan.srcsOf port).insert t.portScan (ipHash libs.hasher ip)).2))) :
    Does guar (countSource ip port : Program libs Nat) := by
  refine .access fun t e a e' haccess => ⟨?_, trivial⟩
  cases haccess
  exact h t e

theorem ratioProgram_bids {p : Segment}
    (h : ∀ t e r, SynFloodDetector.trackRatio libs.fp t.synFlood p e.synFlood.counters = .ok r →
      guar t e (e.setCounters r.2)) :
    Bids guar (some .synFlood) (ratioProgram p) := by
  refine .access fun t e a e' haccess => ?_
  obtain ⟨r, hr, haccess⟩ := Checked.bind_eq_ok.mp haccess
  obtain ⟨c, -, hsignals⟩ := Checked.bind_eq_ok.mp hr
  cases haccess
  refine ⟨h t e r hr, ?_⟩
  cases hsignals
  exact .ite (.singleton 65 rfl rfl (by norm_num) (by norm_num))

theorem rateProgram_bids
    (h : ∀ t e r, e.rateLimiter.inspect t.rateLimiter tm.srcIp pkt.origLen.toNat (isSyn tm) = .ok r →
      guar t e { e with rateLimiter := r.2 }) :
    Prog.Within guar (fun o => Graded (some .rateExceeded) o.toList)
      (rateProgram pkt tm : Program libs (Option Signal)) := by
  refine .access fun t e a e' haccess => ?_
  obtain ⟨r, hr, haccess⟩ := Checked.bind_eq_ok.mp haccess
  cases haccess
  exact ⟨h t e r hr, RateLimiter.graded_inspect hr⟩

/-! ## The detectors -/

theorem AllowsPorts.ports (h : AllowsPorts tm guar) :
    Prog.Within guar (fun o => Graded (some .portScan) o.toList)
      (portsProgram tm : Program libs (Option Signal)) := by
  unfold portsProgram
  cases hport : tm.dstPort with
  | none => exact .pure .nil
  | some dstPort =>
    refine (countPort_does fun t e => h.port t e dstPort hport).bind fun horizontal _ => ?_
    split
    · exact .pure (.singleton 60 rfl rfl (by norm_num) (by norm_num))
    · refine (countSource_does fun t e => h.source t e dstPort hport).bind fun vertical _ => ?_
      split
      · exact .pure (.singleton 60 rfl rfl (by norm_num) (by norm_num))
      · exact .pure .nil

theorem AllowsFlows.halfOpen (h : AllowsFlows tm guar) {p : Segment} (hp : IsSegment tm p) :
    Does guar (halfOpenProgram p : Program libs Unit) := by
  have hclose : ∀ k, Does guar (updateHalfOpen fun _ halfOpen => halfOpen.erase k) :=
    fun k => .write fun t e => h.closed t e k
  unfold halfOpenProgram
  split
  · exact .write fun t e => h.opened t e p hp
  · split
    · exact (hclose p.revKey).bind fun _ _ => hclose p.flowKey
    · exact does_pure _

namespace Allows

variable (h : Allows guar)

include h

theorem read {α : Type} (g : IdsEngine libs → α) : Does guar (Prog.read g) :=
  .read h.same fun _ => trivial

/-- A reading of signals. -/
theorem readSignals {reason : Option FlagReason} {g : IdsEngine libs → Option Signal}
    (hg : ∀ e, Graded reason (g e).toList) :
    Prog.Within guar (fun o => Graded reason o.toList) (Prog.read g) :=
  .read h.same hg

/-- The check of a RST, and the readings before it. -/
theorem rst (p : Segment) : Prog.Within guar
    (fun ss => Graded (some .synFlood) ss ∧ named .synFlood ss = false)
    (rstProgram p : Program libs (List Signal)) := by
  have hnone : Graded (some .synFlood) [] ∧ named .synFlood [] = false := ⟨.nil, rfl⟩
  unfold rstProgram
  split
  · refine (h.read _).bind fun _ _ => ?_
    split
    · exact .pure hnone
    · refine (h.read _).bind fun _ _ => ?_
      split
      · exact .pure hnone
      · exact .pure ⟨.singleton 25 rfl rfl (by norm_num) (by norm_num), rfl⟩
  · exact .pure hnone

/-- All of the check of a segment but its ratio, which is the only one to report a flood. -/
theorem afterRatio (hflows : AllowsFlows tm guar) {p : Segment} (hp : IsSegment tm p)
    {ratio : List Signal} (hratio : Graded (some .synFlood) ratio) :
    Prog.Within guar
      (fun ss => Graded (some .synFlood) ss ∧ named .synFlood ss = named .synFlood ratio)
      (do
        halfOpenProgram p
        let halfOpenCount ← .read fun e => Table.len e.synFlood.halfOpen
        let high := if SynFloodDetector.halfOpenThreshold ≤ halfOpenCount then
          [SynFloodDetector.halfOpenSignal halfOpenCount] else []
        let rst ← rstProgram p
        let xmas := if p.flags = TCP_XMAS then [SynFloodDetector.xmasSignal p.srcIp] else []
        return ratio ++ high ++ rst ++ xmas : Program libs (List Signal)) := by
  refine (hflows.halfOpen hp).bind fun _ _ => (h.read _).bind fun count _ => ?_
  refine (h.rst p).bind fun rst hrst => .pure ⟨?_, ?_⟩
  · refine ((hratio.append (.ite ?_)).append hrst.1).append (.ite ?_)
    · exact .singleton 50 rfl rfl (by norm_num) (by norm_num)
    · exact .singleton 55 rfl rfl (by norm_num) (by norm_num)
  · have hhigh : ∀ (q : Prop) [Decidable q] (s : Signal), s.name ≠ .synFlood →
        named .synFlood (if q then [s] else []) = false := by
      intro q _ s hs
      split
      · simp [named, hs]
      · rfl
    rw [named_append, named_append, named_append, hrst.2,
      hhigh _ _ (show SignalName.halfOpenHigh ≠ .synFlood by decide),
      hhigh _ _ (show SignalName.xmasScan ≠ .synFlood by decide),
      Bool.or_false, Bool.or_false, Bool.or_false]

theorem tcp (hflows : AllowsFlows tm guar)
    (hratio : ∀ p, IsSegment tm p → Bids guar (some .synFlood) (ratioProgram p)) :
    Bids guar (some .synFlood) (tcpProgram tm : Program libs (List Signal)) := by
  unfold tcpProgram
  split
  · rename_i hsrc hdst
    refine (hratio _ ⟨rfl, rfl, hsrc, hdst⟩).bind fun ratio hgraded => ?_
    exact (h.afterRatio hflows ⟨rfl, rfl, hsrc, hdst⟩ hgraded).mono fun _ hss => hss.1
  · exact .pure .nil

/-! ## The checks against the baseline -/

theorem phase : Does guar (readPhase : Program libs Phase) := h.read _

theorem geo (country : Option Str) :
    Bids guar (some .geoAnomaly) (geoProgram tm country : Program libs (List Signal)) := by
  cases country with
  | none => exact .pure .nil
  | some code =>
    refine h.phase.bind fun _ _ => ?_
    split
    · refine (h.read _).bind fun _ _ => ?_
      split
      · exact .pure .nil
      · exact .pure (.singleton 35 rfl rfl (by norm_num) (by norm_num))
    · exact .pure .nil

theorem unusualPort : Bids guar none (portProgram tm : Program libs (List Signal)) := by
  unfold portProgram
  cases tm.dstPort with
  | none => exact .pure .nil
  | some dstPort =>
    refine h.phase.bind fun _ _ => ?_
    split
    · refine (h.read _).bind fun _ _ => ?_
      split
      · exact .pure .nil
      · refine .pure ?_
        cases WELL_KNOWN_PORTS.contains dstPort with
        | true => exact .singleton 30 rfl rfl (by norm_num) (by norm_num)
        | false => exact .singleton 20 rfl rfl (by norm_num) (by norm_num)
    · exact .pure .nil

theorem inspectDomain {domain : Str} (hname : dnsQueryName pkt tm = .ok (some domain)) :
    Bids guar (some .dnsAnomaly) (inspectDomainProgram domain : Program libs (List Signal)) := by
  refine (h.read _).bind fun known _ => ?_
  split
  · exact .pure .nil
  · rw [DnsDetector.inspectName_eq libs.lower (isShort_of_dnsQueryName hname)]
    exact .pure (DnsDetector.graded_nameSignals libs.lower domain)

/-- Signals of no detector are added. -/
theorem domain (f : Findings) {name : Option Str} (hname : dnsQueryName pkt tm = .ok name) :
    Prog.Within guar (fun f' => ∃ ss, f'.signals = f.signals ++ ss ∧ Aside ss)
      (domainProgram pkt tm f name : Program libs Findings) := by
  cases name with
  | none => exact .pure ⟨[], (List.append_nil _).symm, fun _ hs => nomatch hs⟩
  | some name =>
    refine (h.readSignals fun e => Blacklist.graded_checkDomain libs.lower name e.blacklist).bind
      fun listed hlisted => (h.inspectDomain hname).bind fun ss hss => ?_
    have hpayload : Bids guar (some .dnsAnomaly)
        (Prog.lift (inspectDnsPayload libs pkt tm) : Program libs (List Signal)) :=
      .lift fun ss' hss' => by
        rw [inspectDnsPayload_eq_ok hname hss']
        exact (DnsDetector.graded_nameSignals _ _).append (DnsDetector.graded_sizeSignals _)
    refine hpayload.bind fun ss' hss' => .pure ⟨listed.toList ++ (ss ++ ss'), ?_, ?_⟩
    · simp only [Findings.raise_signals, List.append_assoc]
    · refine (aside_of_graded hlisted (by decide)).append ?_
      exact (aside_of_graded hss (by decide)).append (aside_of_graded hss' (by decide))

theorem compare (f : Findings) :
    Prog.Within guar (fun r => ∃ ss, r.1.signals = f.signals ++ ss ∧ Aside ss)
      (compareProgram pkt tm f : Program libs _) := by
  have hname : Prog.Within guar (fun name => dnsQueryName pkt tm = .ok name)
      (Prog.lift (dnsQueryName pkt tm) : Program libs _) := .lift fun _ hname => hname
  have hscan : Bids guar (some .payloadSig)
      (Prog.lift (scanPayload libs pkt tm) : Program libs _) :=
    .lift fun _ hss => (strength_scanPayload hss).2
  refine (h.read _).bind fun country _ => (h.geo country).bind fun geo hgeo => ?_
  refine hscan.bind fun scanned hscanned => hname.bind fun name hname => ?_
  refine (h.domain _ hname).bind fun f' hf' => h.unusualPort.bind fun ports hports => .pure ?_
  obtain ⟨ss, hf', hss⟩ := hf'
  refine ⟨geo ++ (scanned ++ (ss ++ (ports ++ vlanSignals tm))), ?_, ?_⟩
  · simp only [Findings.note_signals, hf', Findings.raise_signals, List.append_assoc]
  · refine (aside_of_graded hgeo (by decide)).append ?_
    refine (aside_of_graded hscanned (by decide)).append (hss.append ?_)
    exact (aside_of_graded hports (by decide)).append
      (aside_of_graded (graded_vlanSignals tm) (by decide))

/-! ## The update of the baseline -/

theorem updateBaseline (g : Baseline → Baseline) :
    Does guar (updateBaseline g : Program libs Unit) := .write fun t e => h.baseline t e _

theorem observeSome {β : Type} (g : β → Baseline → Baseline) (o : Option β) :
    Does guar (observeSome g o : Program libs Unit) := by
  cases o with
  | none => exact does_pure _
  | some x => exact h.updateBaseline _

theorem observe (country name : Option Str) :
    Does guar (observeProgram tm country name : Program libs Unit) := by
  refine (h.observeSome _ _).bind fun _ _ => (h.updateBaseline _).bind fun _ _ => ?_
  refine (h.updateBaseline _).bind fun _ _ => (h.observeSome _ _).bind fun _ _ => ?_
  exact h.observeSome _ _

/-- The result is made of the signals. -/
theorem conclude (f : Findings) (country name : Option Str) :
    Prog.Within guar (fun r => r.signals.Perm f.signals)
      (concludeProgram tm f country name : Program libs IdsResult) := by
  have hresult : Prog.Within guar (fun r => r.signals.Perm f.signals)
      (Prog.lift (IdsResult.fromSignals f.signals f.primaryFlag) : Program libs IdsResult) :=
    .lift fun r hr => IdsResult.signals_perm hr
  refine hresult.bind fun r hr => (h.read _).bind fun learning _ => ?_
  split
  · exact (h.observe country name).bind fun _ _ => .pure hr
  · exact .pure hr

/-- What comes after the detectors adds signals of no detector. -/
theorem rest (f : Findings) : Prog.Within guar
    (fun r => ∃ ss, r.signals.Perm (f.signals ++ ss) ∧ Aside ss)
    (do
      let (f, country, domain) ← compareProgram pkt tm f
      concludeProgram tm f country domain : Program libs IdsResult) := by
  refine (h.compare f).bind fun r hr => ?_
  obtain ⟨ss, hf', hss⟩ := hr
  exact (h.conclude r.1 r.2.1 r.2.2).mono fun r' hr' => ⟨ss, hf' ▸ hr', hss⟩

/-- The whole call, if the relation has the accesses to the detectors too. -/
theorem analyze (htm : pkt.transport = some tm)
    (hrate : Does guar (rateProgram pkt tm : Program libs (Option Signal)))
    (hports : Does guar (portsProgram tm : Program libs (Option Signal)))
    (htcp : Does guar (tcpProgram tm : Program libs (List Signal))) :
    Does guar (analyzeProgram pkt : Program libs IdsResult) := by
  unfold analyzeProgram
  rw [htm]
  have hdetect : Does guar (detectProgram pkt tm : Program libs Findings) := by
    refine (h.read _).bind fun _ _ => (h.read _).bind fun _ _ => hrate.bind fun _ _ => ?_
    exact hports.bind fun _ _ => htcp.bind fun _ _ => does_pure _
  exact hdetect.bind fun f _ => (h.rest f).mono fun _ _ => trivial

end Allows

end IdsEngine

end Ocellus
