import Ocellus.Ids.DnsDecoding
import Ocellus.Ids.EngineSignals

/-!
# DNS findings and how often they are counted

`analyze` inspects the queried name with `inspect_name`, and then the payload with
`inspect_payload`, which inspects the name again. Each finding about a name that
the baseline does not know is thus reported twice (`findings_twice`), and counts
as two: a name with one finding gets twice its score and the bonus for
independent signals. The findings are counted once exactly for names without any
(`countedOnce_iff`).
-/

namespace Ocellus

/-- The signal is one of `inspect_name`. -/
def isNameFinding (s : Signal) : Bool :=
  s.name ∈ [.dnsLongFqdn, .dnsSuspiciousTld, .dnsLongLabel, .dnsHighEntropy]

/-- A result counts the findings `ss` of one inspection of a name once: it has no
other findings about a name, and a single finding that is all there is gets its
own score. -/
structure CountedOnce (r : IdsResult) (ss : List Signal) : Prop where
  findings : (r.signals.filter isNameFinding).Perm ss
  single : ∀ s, ss = [s] → (∀ s' ∈ r.signals, isNameFinding s' = true) → r.totalScore = s.score

/-! ## Whose signals are findings about a name -/

theorem isNameFinding_reason {s : Signal} (h : isNameFinding s = true) :
    s.name.reason = some .dnsAnomaly := by
  unfold isNameFinding at h
  simp only [decide_eq_true_eq, List.mem_cons, List.not_mem_nil, or_false] at h
  rcases h with h | h | h | h <;> rw [h] <;> rfl

/-- The other detectors have none. -/
theorem Graded.filter_isNameFinding {reason : Option FlagReason} {ss : List Signal}
    (h : Graded reason ss) (hreason : reason ≠ some .dnsAnomaly) :
    ss.filter isNameFinding = [] :=
  List.filter_eq_nil_iff.mpr fun s hs hname =>
    hreason ((h s hs).1.symm.trans (isNameFinding_reason hname))

namespace DnsDetector

theorem isNameFinding_nameSignals (lower : Str → Str) (name : Str) :
    ∀ s ∈ nameSignals lower name, isNameFinding s = true := by
  intro s hs
  unfold nameSignals at hs
  rcases List.mem_append.mp hs with hs | hs
  · rcases List.mem_append.mp hs with hs | hs
    · split at hs
      · rw [List.mem_singleton.mp hs]
        rfl
      · cases hs
    · obtain ⟨tld, -, rfl⟩ := List.mem_map.mp hs
      rfl
  · obtain ⟨label, -, hs⟩ := List.mem_flatMap.mp hs
    rcases List.mem_append.mp hs with hs | hs
    · split at hs
      · rw [List.mem_singleton.mp hs]
        rfl
      · cases hs
    · split at hs
      · rw [List.mem_singleton.mp hs]
        rfl
      · cases hs

theorem filter_sizeSignals (payload : Bytes) :
    (sizeSignals payload).filter isNameFinding = [] := by
  unfold sizeSignals
  split <;> rfl

/-- A name without findings. -/
theorem nameSignals_eq_nil_iff (lower : Str → Str) (name : Str) :
    nameSignals lower name = [] ↔ ¬ IsAnomalous name ∧ ¬ HasSuspiciousTld lower name := by
  rw [← (graded_nameSignals lower name).strength_eq_zero_iff, strength_nameSignals, nameStrength]
  by_cases hanom : IsAnomalous name
  · simp [hanom]
  · by_cases htld : HasSuspiciousTld lower name <;> simp [hanom, htld]

end DnsDetector

/-! ## One call -/

namespace IdsEngine

variable {libs : Libs} {t : Instants} {pkt : RawPacket} {tm : TransportMeta}
  {e e' : IdsEngine libs} {r : IdsResult} {name : Str}

/-- The findings about a name, in the signals of a call: those about its queried
name. -/
theorem Checks.filter_signals (c : Checks t pkt tm e) :
    c.signals.filter isNameFinding = c.named.filter isNameFinding := by
  unfold signals
  simp only [List.filter_append]
  rw [c.listed_graded.filter_isNameFinding (by decide),
    c.rate_graded.filter_isNameFinding (by decide),
    (inspectPorts_graded libs t tm e.portScan).filter_isNameFinding (by decide),
    c.tcp_graded.filter_isNameFinding (by decide),
    (graded_icmpSignals tm).filter_isNameFinding (by decide),
    (graded_fragmentSignals tm).filter_isNameFinding (by decide),
    (graded_truncationSignals pkt).filter_isNameFinding (by decide),
    (graded_geoSignals tm e).filter_isNameFinding (by decide),
    c.scanned_graded.filter_isNameFinding (by decide),
    (graded_portSignals tm e).filter_isNameFinding (by decide),
    (graded_vlanSignals tm).filter_isNameFinding (by decide)]
  simp

/-- The findings in a result are those of two inspections of the name, of which the
baseline can spare it the first. -/
theorem findings_perm (htm : pkt.transport = some tm)
    (hname : dnsQueryName pkt tm = .ok (some name)) (h : analyze t pkt e = .ok (r, e')) :
    (r.signals.filter isNameFinding).Perm
      ((if e.baseline.isKnownDns libs.lower name then []
          else DnsDetector.nameSignals libs.lower name)
        ++ DnsDetector.nameSignals libs.lower name) := by
  unfold analyze at h
  rw [htm] at h
  obtain ⟨c, flag, hresult, -⟩ := analyzeTransport_checks h
  obtain ⟨-, hperm, -⟩ := IdsResult.fromSignals_eq_ok c.scored hresult
  have hdomain : c.domain = some name := Except.ok.inj (c.domain_eq.symm.trans hname)
  have hfindings := List.filter_eq_self.mpr
    (DnsDetector.isNameFinding_nameSignals libs.lower name)
  refine (hperm.filter isNameFinding).trans (List.Perm.of_eq ?_)
  rw [c.filter_signals, c.named_eq_of_some hdomain]
  simp only [List.filter_append, hfindings, DnsDetector.filter_sizeSignals]
  rw [(Blacklist.graded_checkDomain libs.lower name e.blacklist).filter_isNameFinding (by decide)]
  split <;> simp [hfindings]

/-- **Twice**: the findings about a name that the baseline does not know. -/
theorem findings_twice (htm : pkt.transport = some tm)
    (hname : dnsQueryName pkt tm = .ok (some name))
    (hnew : e.baseline.isKnownDns libs.lower name = false)
    (h : analyze t pkt e = .ok (r, e')) :
    (r.signals.filter isNameFinding).Perm
      (DnsDetector.nameSignals libs.lower name ++ DnsDetector.nameSignals libs.lower name) := by
  have hperm := findings_perm htm hname h
  rwa [if_neg (by simp [hnew])] at hperm

/-- **When findings are counted once**: for a DNS packet that queries a name which
the baseline does not know, exactly if there is nothing to find about the name. -/
theorem countedOnce_iff (htm : pkt.transport = some tm)
    (hname : dnsQueryName pkt tm = .ok (some name))
    (hnew : e.baseline.isKnownDns libs.lower name = false)
    (h : analyze t pkt e = .ok (r, e')) :
    ∃ ss, DnsDetector.inspectName libs.lower name = .ok ss ∧
      (CountedOnce r ss ↔
        ¬ DnsDetector.IsAnomalous name ∧ ¬ DnsDetector.HasSuspiciousTld libs.lower name) := by
  have htwice := findings_twice htm hname hnew h
  refine ⟨_, DnsDetector.inspectName_eq libs.lower (isShort_of_dnsQueryName hname), ?_⟩
  rw [← DnsDetector.nameSignals_eq_nil_iff]
  generalize DnsDetector.nameSignals libs.lower name = ss at htwice
  constructor
  · rintro ⟨honce, -⟩
    -- twice as many are as many only when there are none
    have hlength := (htwice.symm.trans honce).length_eq
    rw [List.length_append] at hlength
    exact List.length_eq_zero_iff.mp (by omega)
  · rintro rfl
    exact ⟨htwice, fun s hs => absurd hs.symm (List.cons_ne_nil s [])⟩

/-- The metadata of a UDP datagram to port 53. -/
def queryMeta : TransportMeta where
  srcIp := .v4 1#32
  dstIp := .v4 2#32
  srcPort := some 4096#16
  dstPort := some 53#16
  protocol := 17#8
  tcpFlags := none
  ttl := 64#8
  ipFlags := 0#8
  ipFragOffset := 0#16
  icmpType := none
  icmpCode := none
  ethSrcMac := none
  vlanId := none
  payloadOffset := 28

/-- A datagram with a DNS query. -/
def queryPacket (query : Bytes) (h : query.length ≤ 512) : RawPacket where
  timestamp := 0
  data := ⟨List.replicate 28 0#8 ++ query, by
    have hmax : 512 + 28 ≤ isizeMax := by decide
    simp
    omega⟩
  origLen := BitVec.ofNat 32 (28 + query.length)
  capLen := BitVec.ofNat 32 (28 + query.length)
  interface := []
  linkType := .rawIp
  transport := some queryMeta
  isTruncated := false
  packetId := 0
  idsScore := .fin 0
  idsFlag := .unspecified

/-- The query for `a.xyz`. -/
def xyzQuery : Bytes :=
  [0#8, 1#8, 1#8, 0#8, 0#8, 1#8, 0#8, 0#8, 0#8, 0#8, 0#8, 0#8, 1#8, 0x61#8, 3#8, 0x78#8, 0x79#8,
    0x7A#8, 0#8, 0#8, 1#8, 0#8, 1#8]

theorem countedOnce_iff_xyz :
    ∃ r e' ss, analyze ⟨0, 0, 0, 0⟩ (queryPacket xyzQuery (by decide))
        (new (.new none 0) (fun _ => none) .new : IdsEngine .plain) = .ok (r, e') ∧
      DnsDetector.inspectName Libs.plain.lower "a.xyz".toList = .ok ss ∧
      (CountedOnce r ss ↔ ¬ DnsDetector.IsAnomalous "a.xyz".toList ∧
        ¬ DnsDetector.HasSuspiciousTld Libs.plain.lower "a.xyz".toList) := by
  obtain ⟨⟨r, e'⟩, h, -⟩ := analyze_returns
    (bounded_new (.new none 0) (fun _ => none) .new) (by decide) ⟨0, 0, 0, 0⟩
    (queryPacket xyzQuery (by decide))
  have hname : dnsQueryName (queryPacket xyzQuery (by decide)) queryMeta
      = .ok (some "a.xyz".toList) := by decide +kernel
  have hnew : (Baseline.new none 0).isKnownDns Libs.plain.lower "a.xyz".toList = false := by
    decide
  obtain ⟨ss, hss, hiff⟩ := countedOnce_iff rfl hname hnew h
  exact ⟨r, e', ss, h, hss, hiff⟩

/-- **One finding that counts as two**: the abused TLD of `a.xyz`, worth 15 points,
is reported twice and raises the total to 40. -/
theorem xyz_counted_twice :
    ∃ r e', analyze ⟨0, 0, 0, 0⟩ (queryPacket xyzQuery (by decide))
        (new (.new none 0) (fun _ => none) .new : IdsEngine .plain) = .ok (r, e') ∧
      DnsDetector.inspectName Libs.plain.lower "a.xyz".toList
        = .ok [DnsDetector.suspiciousTldSignal "xyz".toList] ∧
      r.signals = [DnsDetector.suspiciousTldSignal "xyz".toList,
        DnsDetector.suspiciousTldSignal "xyz".toList] ∧
      r.totalScore = .fin 40 ∧
      ¬ CountedOnce r [DnsDetector.suspiciousTldSignal "xyz".toList] := by
  have hret : (analyze ⟨0, 0, 0, 0⟩ (queryPacket xyzQuery (by decide))
      (new (.new none 0) (fun _ => none) .new : IdsEngine .plain)).Returns fun p =>
        p.1.signals = [DnsDetector.suspiciousTldSignal "xyz".toList,
          DnsDetector.suspiciousTldSignal "xyz".toList] ∧ p.1.totalScore = .fin 40 := by
    decide +kernel
  obtain ⟨⟨r, e'⟩, h, hsignals, htotal⟩ := hret
  refine ⟨r, e', h, by decide +kernel, hsignals, htotal, fun honce => ?_⟩
  have hlength := honce.findings.length_eq
  rw [hsignals] at hlength
  exact absurd hlength (by decide)

end IdsEngine

end Ocellus
