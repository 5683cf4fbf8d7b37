import Ocellus.Ids.DnsSafety
import Ocellus.Ids.Engine
import Ocellus.Ids.RateLimitSource
import Ocellus.Ids.SynFloodSegment

/-!
# What each detector can report

Every signal of every detector has a finite score in `(0, 90]`, and the name of a
signal tells for which `flag_reason` its detector bids, if it bids for one.
`Graded` says both of a list of signals; there is one lemma for each detector.
-/

namespace Ocellus

/-- The reason that `analyze` assigns for the detector of a signal. -/
def SignalName.reason : SignalName → Option FlagReason
  | .blacklistedIp | .blacklistedCidr | .blacklistedDomain => some .blacklisted
  | .rateExceededPackets | .rateExceededBytes | .rateExceededConnections => some .rateExceeded
  | .portScanHorizontal | .portScanVertical => some .portScan
  | .synFlood | .halfOpenHigh | .rstInjection | .xmasScan => some .synFlood
  | .geoNewCountry => some .geoAnomaly
  | .nopSled | .infiniteJmpLoop | .metasploitPayloadMarker | .log4shellJndi
  | .phpWebshellEvalB64 | .phpPassthru | .cmdExec | .reverseShellSh | .csBeaconMz
  | .mimikatzSekurlsa | .mimikatzLsadump | .sqliOr1eq1 | .sqliUnionSelect
  | .pathTraversalPasswd | .ssrfAwsMetadata => some .payloadSig
  | .dnsLongFqdn | .dnsSuspiciousTld | .dnsLongLabel | .dnsHighEntropy
  | .dnsTunnelLargeResponse => some .dnsAnomaly
  | .icmpUnusualType | .ipFragmentation | .packetTruncated | .unusualPort
  | .vlanReservedId => none

/-- Signals of detectors that bid for `reason`. -/
def Graded (reason : Option FlagReason) (ss : List Signal) : Prop :=
  ∀ s ∈ ss, s.name.reason = reason ∧ ∃ q : ℚ, s.score = .fin q ∧ 0 < q ∧ q ≤ 90

namespace Graded

variable {reason : Option FlagReason} {ss ss' : List Signal}

theorem nil : Graded reason [] := fun _ h => absurd h List.not_mem_nil

theorem append (h : Graded reason ss) (h' : Graded reason ss') : Graded reason (ss ++ ss') := by
  intro s hs
  rcases List.mem_append.mp hs with hs | hs
  · exact h s hs
  · exact h' s hs

theorem singleton {s : Signal} (q : ℚ) (hname : s.name.reason = reason)
    (hscore : s.score = .fin q) (hpos : 0 < q) (hle : q ≤ 90) : Graded reason [s] := by
  intro s' hs'
  rw [List.mem_singleton.mp hs']
  exact ⟨hname, q, hscore, hpos, hle⟩

theorem ite {p : Prop} [Decidable p] (h : Graded reason ss) :
    Graded reason (if p then ss else []) := by
  split
  · exact h
  · exact nil

theorem isFin (h : Graded reason ss) : ∀ s ∈ ss, s.score.IsFin := by
  intro s hs
  obtain ⟨-, q, hq, -⟩ := h s hs
  exact ⟨q, hq⟩

end Graded

/-! ## The detectors -/

theorem Blacklist.graded_checkIp {bloom : BloomFilter U32} (ip : IpAddr) (b : Blacklist bloom) :
    Graded (some .blacklisted) (b.checkIp ip).toList := by
  unfold Blacklist.checkIp
  cases ip with
  | v6 a => exact .nil
  | v4 a =>
    dsimp only
    split
    · exact .singleton 90 rfl rfl (by norm_num) (by norm_num)
    · split
      · exact .singleton 90 rfl rfl (by norm_num) (by norm_num)
      · exact .nil

theorem Blacklist.graded_checkDomain {bloom : BloomFilter U32} (lower : Str → Str) (domain : Str)
    (b : Blacklist bloom) : Graded (some .blacklisted) (b.checkDomain lower domain).toList := by
  unfold Blacklist.checkDomain
  split
  · exact .singleton 80 rfl rfl (by norm_num) (by norm_num)
  · exact .nil

theorem RateLimiter.graded_verdict (ip : IpAddr) (syn w : Bool) (b : Bucket) :
    Graded (some .rateExceeded) (verdict ip syn w b).toList := by
  unfold RateLimiter.verdict
  split
  · exact .singleton 40 rfl rfl (by norm_num) (by norm_num)
  · split
    · exact .singleton 40 rfl rfl (by norm_num) (by norm_num)
    · split
      · exact .singleton 40 rfl rfl (by norm_num) (by norm_num)
      · exact .nil

theorem RateLimiter.graded_inspect {fp : Rounding} {now pktBytes : Nat} {ip : IpAddr} {syn : Bool}
    {d : RateLimiter fp} {r : Option Signal × RateLimiter fp}
    (h : inspect now ip pktBytes syn d = .ok r) : Graded (some .rateExceeded) r.1.toList := by
  obtain ⟨b', hb, -⟩ := inspect_eq_ok (p := ⟨ip, pktBytes, syn⟩) h
  rw [(inspectBucket_eq_ok hb).signal]
  exact graded_verdict _ _ _ b'

theorem PortScanDetector.graded_inspect (hasher : IpAddr → BitVec 64) (now : Nat) (ip : IpAddr)
    (port : U16) (d : PortScanDetector) :
    Graded (some .portScan) (inspect hasher now ip port d).1.toList := by
  unfold PortScanDetector.inspect
  dsimp only
  split
  · exact .singleton 60 rfl rfl (by norm_num) (by norm_num)
  · split
    · exact .singleton 60 rfl rfl (by norm_num) (by norm_num)
    · exact .nil

theorem SynFloodDetector.graded_segmentSignals {fp : Rounding} (now : Nat) (p : Segment)
    (d : SynFloodDetector fp) :
    Graded (some .synFlood) (segmentSignals now p d) := by
  unfold SynFloodDetector.segmentSignals SynFloodDetector.otherSignals
  refine .append (.ite ?_) (.append (.append (.ite ?_) (.ite ?_)) (.ite ?_))
  · exact .singleton 65 rfl rfl (by norm_num) (by norm_num)
  · exact .singleton 50 rfl rfl (by norm_num) (by norm_num)
  · exact .singleton 25 rfl rfl (by norm_num) (by norm_num)
  · exact .singleton 55 rfl rfl (by norm_num) (by norm_num)

/-- Every rule bids for the payload reason, with one of three scores. -/
theorem PayloadScanner.rules_graded : ∀ r ∈ rules, r.name.reason = some .payloadSig ∧
    (r.score = .fin 35 ∨ r.score = .fin 40 ∨ r.score = .fin 70) := by
  decide +kernel

theorem PayloadScanner.graded_scanAll {ac : AhoCorasick patterns} {payload : Bytes}
    {signals : List Signal}
    (h : ∀ s ∈ signals, ∃ r ∈ matched ac payload, r.name = s.name ∧ r.score = s.score) :
    Graded (some .payloadSig) signals := by
  intro s hs
  obtain ⟨r, hr, hname, hscore⟩ := h s hs
  obtain ⟨hreason, hscores⟩ := rules_graded r (mem_rules hr)
  rw [← hname, ← hscore]
  rcases hscores with h | h | h
  · exact ⟨hreason, 35, h, by norm_num, by norm_num⟩
  · exact ⟨hreason, 40, h, by norm_num, by norm_num⟩
  · exact ⟨hreason, 70, h, by norm_num, by norm_num⟩

namespace DnsDetector

theorem graded_labelSignals (label : Str) : Graded (some .dnsAnomaly) (labelSignals label) :=
  .append (.ite (.singleton 45 rfl rfl (by norm_num) (by norm_num)))
    (.ite (.singleton 45 rfl rfl (by norm_num) (by norm_num)))

theorem graded_nameSignals (lower : Str → Str) (name : Str) :
    Graded (some .dnsAnomaly) (nameSignals lower name) := by
  unfold nameSignals
  refine .append (.append (.ite ?_) ?_) ?_
  · exact .singleton 45 rfl rfl (by norm_num) (by norm_num)
  · intro s hs
    obtain ⟨tld, -, rfl⟩ := List.mem_map.mp hs
    exact ⟨rfl, 15, rfl, by norm_num, by norm_num⟩
  · intro s hs
    obtain ⟨label, -, hs⟩ := List.mem_flatMap.mp hs
    exact graded_labelSignals label s hs

theorem graded_sizeSignals (payload : Bytes) :
    Graded (some .dnsAnomaly) (sizeSignals payload) :=
  .ite (.singleton (45 + 5) rfl rfl (by norm_num) (by norm_num))

end DnsDetector

/-! ## The checks of the engine itself -/

namespace IdsEngine

variable {libs : Libs}

theorem graded_icmpSignals (tm : TransportMeta) : Graded none (icmpSignals tm) := by
  unfold icmpSignals
  split
  · exact .ite (.singleton 25 rfl rfl (by norm_num) (by norm_num))
  · exact .nil

theorem graded_fragmentSignals (tm : TransportMeta) : Graded none (fragmentSignals tm) :=
  .ite (.singleton 20 rfl rfl (by norm_num) (by norm_num))

theorem graded_truncationSignals (pkt : RawPacket) : Graded none (truncationSignals pkt) :=
  .ite (.singleton 10 rfl rfl (by norm_num) (by norm_num))

theorem graded_geoSignals (tm : TransportMeta) (e : IdsEngine libs) :
    Graded (some .geoAnomaly) (geoSignals tm e) := by
  unfold geoSignals
  split
  · exact .ite (.singleton 35 rfl rfl (by norm_num) (by norm_num))
  · exact .nil

theorem graded_portSignals (tm : TransportMeta) (e : IdsEngine libs) :
    Graded none (portSignals tm e) := by
  unfold portSignals
  split
  · rename_i dstPort _
    by_cases hport : dstPort ∈ WELL_KNOWN_PORTS
    · rw [if_pos hport]
      exact .ite (.singleton 30 rfl rfl (by norm_num) (by norm_num))
    · rw [if_neg hport]
      exact .ite (.singleton 20 rfl rfl (by norm_num) (by norm_num))
  · exact .nil

theorem graded_vlanSignals (tm : TransportMeta) : Graded none (vlanSignals tm) := by
  unfold vlanSignals
  split
  · exact .ite (.singleton 20 rfl rfl (by norm_num) (by norm_num))
  · exact .nil

end IdsEngine

end Ocellus
