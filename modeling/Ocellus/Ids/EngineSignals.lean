import Ocellus.Ids.FlagOrder
import Ocellus.Ids.ScoreTotal

/-!
# The signals of one call of the engine

`Checks` holds what the checks of a call came to, one field for each check that
can fail, and `Checks.signals` the list of everything they reported, in the order
of `analyze`. A call that returns has such checks, and its result is made of their
signals (`analyzeTransport_checks`): what a packet is reported for can be read off
check by check.
-/

namespace Ocellus

/-! ## Results of scored signals -/

/-- Signals with positive scores. -/
def Scored (ss : List Signal) : Prop := ∀ s ∈ ss, ∃ q : ℚ, s.score = .fin q ∧ 0 < q

theorem Graded.scored {reason : Option FlagReason} {ss : List Signal} (h : Graded reason ss) :
    Scored ss := by
  intro s hs
  obtain ⟨-, q, hq, hpos, -⟩ := h s hs
  exact ⟨q, hq, hpos⟩

theorem Scored.nil : Scored [] := fun _ hs => absurd hs List.not_mem_nil

theorem Scored.append {ss ss' : List Signal} (h : Scored ss) (h' : Scored ss') :
    Scored (ss ++ ss') := by
  intro s hs
  rcases List.mem_append.mp hs with hs | hs
  · exact h s hs
  · exact h' s hs

namespace IdsResult

variable {ss : List Signal} {flag : FlagReason} {r : IdsResult}

/-- A result made of scored signals. -/
theorem fromSignals_eq_ok (hss : Scored ss) (h : fromSignals ss flag = .ok r) :
    r.flagReason = flag ∧ r.signals.Perm ss ∧ r.totalScore = .fin (total ss) ∧
      r.severity = Severity.fromScore (.fin (total ss)) := by
  have hfin : ∀ s ∈ ss, s.score.IsFin := fun s hs =>
    let ⟨q, hq, _⟩ := hss s hs
    ⟨q, hq⟩
  rw [fromSignals_eq hfin] at h
  cases h
  exact ⟨rfl, List.perm_insertionSort _ ss, rfl, rfl⟩

/-- The total counts every signal, up to 100. -/
theorem min_points_le_total (hss : Scored ss) {s : Signal} (hs : s ∈ ss) :
    min s.points 100 ≤ total ss := by
  have hnonneg : ∀ x ∈ ss.map Signal.points, 0 ≤ x := by
    intro x hx
    obtain ⟨s', hs', rfl⟩ := List.mem_map.mp hx
    obtain ⟨p, hp, hpos⟩ := hss s' hs'
    rw [Signal.points, hp]
    exact hpos.le
  have hsum : s.points ≤ (ss.map Signal.points).sum :=
    List.single_le_sum hnonneg _ (List.mem_map_of_mem hs)
  have hbonus := bonus_nonneg ss.length
  exact min_le_min_right 100 (by linarith)

/-- A result is worth each of its signals. -/
theorem le_totalScore (hss : Scored ss) (h : fromSignals ss flag = .ok r) {s : Signal}
    (hs : s ∈ ss) {q : ℚ} (hq : s.score = .fin q) (hle : q ≤ 100) : .fin q ≤ r.totalScore := by
  have htotal := min_points_le_total hss hs
  rw [Signal.points, hq, min_eq_left hle] at htotal
  rw [(fromSignals_eq_ok hss h).2.2.1, F32.fin_le]
  exact htotal

/-- A result below a threshold of at most 100 was built from signals below it. -/
theorem score_lt_of_totalScore_lt (hss : Scored ss) (h : fromSignals ss flag = .ok r) {a : ℚ}
    (ha : a ≤ 100) (hlow : r.totalScore < .fin a) : ∀ s ∈ ss, s.score < .fin a := by
  intro s hs
  obtain ⟨q, hq, -⟩ := hss s hs
  have htotal := min_points_le_total hss hs
  rw [Signal.points, hq] at htotal
  rw [(fromSignals_eq_ok hss h).2.2.1, F32.fin_lt] at hlow
  rw [hq, F32.fin_lt]
  exact (min_lt_iff.mp (htotal.trans_lt hlow)).resolve_right (not_lt.mpr ha)

end IdsResult

/-! ## The flag -/

namespace Findings

/-- A flag that is set stays. -/
theorem raise_of_set {f : Findings} {flag : FlagReason} (hset : flag ≠ .unspecified)
    (h : f.primaryFlag = flag) (reason : FlagReason) (ss : List Signal) :
    (f.raise reason ss).primaryFlag = flag := by
  rw [raise_primaryFlag, h, if_neg fun h' => hset h'.1]

theorem note_of_set {f : Findings} {flag : FlagReason} (h : f.primaryFlag = flag)
    (ss : List Signal) : (f.note ss).primaryFlag = flag := h

end Findings

/-! ## The checks of a call -/

namespace IdsEngine

variable {libs : Libs} {t : Instants} {pkt : RawPacket} {tm : TransportMeta}
  {e e' : IdsEngine libs} {r : IdsResult}

/-- The signals about the queried name: the blacklist's, and those of both calls
of the DNS detector. -/
def domainSignals (pkt : RawPacket) (tm : TransportMeta) (e : IdsEngine libs) :
    Option Str → Checked (List Signal)
  | none => .ok []
  | some domain => do
    let anomalies ← inspectDomain domain e
    let payload ← inspectDnsPayload libs pkt tm
    return (e.blacklist.checkDomain libs.lower domain).toList ++ (anomalies ++ payload)

theorem analyzeDomain_signals {f f' : Findings} {domain : Option Str}
    (h : analyzeDomain pkt tm e f domain = .ok f') :
    ∃ named, domainSignals pkt tm e domain = .ok named ∧ f'.signals = f.signals ++ named ∧
      ∀ flag ≠ .unspecified, f.primaryFlag = flag → f'.primaryFlag = flag := by
  cases domain with
  | none =>
    cases h
    exact ⟨[], rfl, (List.append_nil _).symm, fun _ _ h => h⟩
  | some name =>
    obtain ⟨ss, hss, h⟩ := Checked.bind_eq_ok.mp h
    obtain ⟨ss', hss', h⟩ := Checked.bind_eq_ok.mp h
    cases h
    have hnamed : domainSignals pkt tm e (some name)
        = .ok ((e.blacklist.checkDomain libs.lower name).toList ++ (ss ++ ss')) := by
      simp only [domainSignals, hss, hss', Checked.ok_bind, Checked.pure_eq_ok]
    refine ⟨_, hnamed, by simp, fun flag hset hflag => ?_⟩
    exact Findings.raise_of_set hset
      (Findings.raise_of_set hset (Findings.raise_of_set hset hflag _ _) _ _) _ _

/-- What the checks of a call that can fail came to. -/
structure Checks (t : Instants) (pkt : RawPacket) (tm : TransportMeta) (e : IdsEngine libs) where
  rate : Option Signal × RateLimiter libs.fp
  tcp : List Signal × SynFloodDetector libs.fp
  scanned : List Signal
  domain : Option Str
  named : List Signal
  rate_eq : e.rateLimiter.inspect t.rateLimiter tm.srcIp pkt.origLen.toNat (isSyn tm) = .ok rate
  tcp_eq : inspectSegment t tm e.synFlood = .ok tcp
  scanned_eq : scanPayload libs pkt tm = .ok scanned
  domain_eq : dnsQueryName pkt tm = .ok domain
  named_eq : domainSignals pkt tm e domain = .ok named

namespace Checks

/-- The signals of the blacklist for the addresses. -/
def listed (_ : Checks t pkt tm e) : List Signal :=
  (e.blacklist.checkIp tm.srcIp).toList ++ (e.blacklist.checkIp tm.dstIp).toList

/-- Everything the checks report, in the order of `analyze`. -/
def signals (c : Checks t pkt tm e) : List Signal :=
  c.listed ++ c.rate.1.toList ++ (inspectPorts libs t tm e.portScan).1.toList ++ c.tcp.1
    ++ icmpSignals tm ++ fragmentSignals tm ++ truncationSignals pkt ++ geoSignals tm e
    ++ c.scanned ++ c.named ++ portSignals tm e ++ vlanSignals tm

variable (c : Checks t pkt tm e)

/-! What each check can report. -/

theorem rate_graded : Graded (some .rateExceeded) c.rate.1.toList :=
  RateLimiter.graded_inspect c.rate_eq

theorem listed_graded : Graded (some .blacklisted) c.listed :=
  (Blacklist.graded_checkIp tm.srcIp e.blacklist).append
    (Blacklist.graded_checkIp tm.dstIp e.blacklist)

theorem tcp_graded : Graded (some .synFlood) c.tcp.1 := (strength_inspectSegment c.tcp_eq).2

theorem scanned_graded : Graded (some .payloadSig) c.scanned := (strength_scanPayload c.scanned_eq).2

/-- What is reported about a queried name: the blacklist's signal, then those of
the name unless the baseline knows it, then those of the name and of the size. -/
theorem named_eq_of_some {name : Str} (hname : c.domain = some name) :
    c.named = (e.blacklist.checkDomain libs.lower name).toList
      ++ ((if e.baseline.isKnownDns libs.lower name then []
            else DnsDetector.nameSignals libs.lower name)
          ++ (DnsDetector.nameSignals libs.lower name
            ++ DnsDetector.sizeSignals (appPayload pkt tm))) := by
  have hdomain := c.domain_eq
  have hnamed := c.named_eq
  rw [hname] at hdomain hnamed
  obtain ⟨ss, hss, hnamed⟩ := Checked.bind_eq_ok.mp hnamed
  obtain ⟨ss', hss', hnamed⟩ := Checked.bind_eq_ok.mp hnamed
  rw [← Except.ok.inj hnamed, inspectDomain_eq_ok (isShort_of_dnsQueryName hdomain) hss,
    inspectDnsPayload_eq_ok hdomain hss']

theorem named_eq_of_none (hname : c.domain = none) : c.named = [] := by
  have hnamed := c.named_eq
  rw [hname] at hnamed
  exact (Except.ok.inj hnamed).symm

theorem named_scored : Scored c.named := by
  cases hname : c.domain with
  | none =>
    rw [c.named_eq_of_none hname]
    exact .nil
  | some name =>
    have hsignals := DnsDetector.graded_nameSignals libs.lower name
    rw [c.named_eq_of_some hname]
    refine (Blacklist.graded_checkDomain libs.lower name e.blacklist).scored.append ?_
    refine Scored.append ?_
      (hsignals.append (DnsDetector.graded_sizeSignals (appPayload pkt tm))).scored
    split
    · exact .nil
    · exact hsignals.scored

theorem scored : Scored c.signals :=
  c.listed_graded.scored.append c.rate_graded.scored
    |>.append (inspectPorts_graded libs t tm e.portScan).scored
    |>.append c.tcp_graded.scored
    |>.append (graded_icmpSignals tm).scored
    |>.append (graded_fragmentSignals tm).scored
    |>.append (graded_truncationSignals pkt).scored
    |>.append (graded_geoSignals tm e).scored
    |>.append c.scanned_graded.scored
    |>.append c.named_scored
    |>.append (graded_portSignals tm e).scored
    |>.append (graded_vlanSignals tm).scored

end Checks

/-- **What a call does**: the result is made of the signals of the checks, a listed
address names the reason, and the baseline is updated as the phase and the total
say. -/
theorem analyzeTransport_checks (h : analyzeTransport t pkt tm e = .ok (r, e')) :
    ∃ (c : Checks t pkt tm e) (flag : FlagReason),
      IdsResult.fromSignals c.signals flag = .ok r ∧
      (IsListed tm e → flag = .blacklisted) ∧
      e' = { e with
        rateLimiter := c.rate.2, portScan := (inspectPorts libs t tm e.portScan).2
        synFlood := c.tcp.2
        baseline := if e.baseline.isLearning = true ∨ r.totalScore < THRESHOLD_INFO then
          observe tm c.domain e else e.baseline } := by
  obtain ⟨rate, hrate, h⟩ := Checked.bind_eq_ok.mp h
  obtain ⟨tcp, htcp, h⟩ := Checked.bind_eq_ok.mp h
  obtain ⟨scanned, hscanned, h⟩ := Checked.bind_eq_ok.mp h
  obtain ⟨domain, hdomain, h⟩ := Checked.bind_eq_ok.mp h
  obtain ⟨f, hf, h⟩ := Checked.bind_eq_ok.mp h
  obtain ⟨result, hresult, h⟩ := Checked.bind_eq_ok.mp h
  cases h
  obtain ⟨named, hnamed, hsignals, hflag⟩ := analyzeDomain_signals hf
  refine ⟨⟨rate, tcp, scanned, domain, named, hrate, htcp, hscanned, hdomain, hnamed⟩,
    f.primaryFlag, ?_, fun hlisted => hflag .blacklisted (by decide) ?_, rfl⟩
  · rw [← hresult]
    refine congrArg (IdsResult.fromSignals · _) ?_
    simp [Checks.signals, Checks.listed, hsignals, Findings.empty]
  · -- the first two bids set the flag
    have hne : (e.blacklist.checkIp tm.srcIp).toList ++ (e.blacklist.checkIp tm.dstIp).toList
        ≠ [] := by
      rcases hlisted with h | h
      · obtain ⟨s, hs⟩ := Option.isSome_iff_exists.mp h
        simp [hs]
      · obtain ⟨s, hs⟩ := Option.isSome_iff_exists.mp h
        simp [hs]
    have hfirst : ((Findings.empty.raise .blacklisted (e.blacklist.checkIp tm.srcIp).toList).raise
        .blacklisted (e.blacklist.checkIp tm.dstIp).toList).primaryFlag = .blacklisted := by
      rw [Findings.raise_raise, Findings.raise_primaryFlag, if_pos ⟨rfl, hne⟩]
    have hset : FlagReason.blacklisted ≠ .unspecified := by decide
    have htcp := Findings.raise_of_set hset (Findings.raise_of_set hset
      (Findings.raise_of_set hset hfirst .rateExceeded rate.1.toList) .portScan
      (inspectPorts libs t tm e.portScan).1.toList) .synFlood tcp.1
    have hnoted := Findings.note_of_set (Findings.note_of_set (Findings.note_of_set htcp
      (icmpSignals tm)) (fragmentSignals tm)) (truncationSignals pkt)
    exact Findings.raise_of_set hset (Findings.raise_of_set hset hnoted _ _) _ _

end IdsEngine

end Ocellus
