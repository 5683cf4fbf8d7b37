import Ocellus.Ids.EngineCall
import Ocellus.Ids.Refinement
import Ocellus.Ids.RstJudgement

/-!
# Alerts in the learning phase

In the learning phase all traffic is recorded, and neither countries nor ports are
compared with what has been learned so far: these two checks look at the phase. The
other checks do not, and score as ever. `Quiet` lists what has to hold of a packet and of
the state before it for the result to be clean: none of the checks fires that scores
an alert by itself, and at most one of the others does. `learning_characterised` says
all of this of every call.
-/

namespace Ocellus

/-! ## Minor signals -/

/-- `n` signals that make no alert by themselves. -/
def Minor (n : Nat) (ss : List Signal) : Prop :=
  ss.length = n ∧ ∀ s ∈ ss, 10 ≤ s.points ∧ s.points < 30

namespace Minor

variable {m n : Nat} {ss ss' : List Signal}

theorem nil : Minor 0 [] := ⟨rfl, fun _ h => absurd h List.not_mem_nil⟩

theorem append (h : Minor m ss) (h' : Minor n ss') : Minor (m + n) (ss ++ ss') := by
  refine ⟨by rw [List.length_append, h.1, h'.1], fun s hs => ?_⟩
  rcases List.mem_append.mp hs with hs | hs
  · exact h.2 s hs
  · exact h'.2 s hs

/-- One signal that fires on a condition. -/
theorem ite {p : Prop} [Decidable p] {b : Bool} {s : Signal} (hp : p ↔ b = true)
    (hs : 10 ≤ s.points ∧ s.points < 30) : Minor b.toNat (if p then [s] else []) := by
  cases b with
  | true =>
    rw [if_pos (hp.mpr rfl)]
    exact ⟨rfl, fun s' hs' => List.mem_singleton.mp hs' ▸ hs⟩
  | false =>
    rw [if_neg fun h => Bool.false_ne_true (hp.mp h)]
    exact nil

/-- Two of them make an alert: together they are worth 20 points, and get the
bonus. -/
theorem total_lt_iff (h : Minor n ss) : IdsResult.total ss < 30 ↔ n ≤ 1 := by
  obtain ⟨rfl, hpoints⟩ := h
  match ss with
  | [] => norm_num [IdsResult.total]
  | [s] =>
    have htotal : IdsResult.total [s] = min s.points 100 := by simp [IdsResult.total]
    rw [htotal]
    exact iff_of_true (min_lt_of_left_lt (hpoints s (List.mem_singleton_self s)).2) (Nat.le_refl 1)
  | s :: s' :: rest =>
    have hsum : 20 ≤ ((s :: s' :: rest).map Signal.points).sum := by
      have hs := (hpoints s (by simp)).1
      have hs' := (hpoints s' (by simp)).1
      have hrest : 0 ≤ (rest.map Signal.points).sum := List.sum_nonneg (by
        intro q hq
        obtain ⟨x, hx, rfl⟩ := List.mem_map.mp hq
        have := (hpoints x (by simp [hx])).1
        linarith)
      rw [List.map_cons, List.map_cons, List.sum_cons, List.sum_cons]
      linarith
    refine iff_of_false ?_ (by simp)
    rw [IdsResult.total, if_pos (by simp), not_lt, le_min_iff]
    exact ⟨by linarith, by norm_num⟩

end Minor

/-- A score of 30 or more makes an alert. -/
theorem ite_lt_thirty_iff {p : Prop} [Decidable p] {q : ℚ} (hq : 30 ≤ q) :
    (if p then q else 0) < 30 ↔ ¬ p := by
  by_cases hp : p
  · rw [if_pos hp]
    exact iff_of_false (not_lt.mpr hq) (not_not.mpr hp)
  · rw [if_neg hp]
    exact iff_of_true (by norm_num) hp

theorem strength_lt_thirty {ss : List Signal} (hss : Scored ss)
    (h : ∀ s ∈ ss, s.score < .fin 30) : strength ss < 30 := by
  rcases (strength_nonneg ss).eq_or_lt with hzero | hpos
  · rw [← hzero]
    norm_num
  · obtain ⟨s, hs, heq⟩ := exists_points_eq_strength hpos
    obtain ⟨q, hq, -⟩ := hss s hs
    have hlow := h s hs
    rw [hq, F32.fin_lt] at hlow
    rw [← heq, Signal.points, hq]
    exact hlow

theorem Graded.eq_nil_of_strength {reason : Option FlagReason} {ss : List Signal} {p : Prop}
    [Decidable p] {q : ℚ} (h : Graded reason ss) (hs : strength ss = if p then q else 0)
    (hp : ¬ p) : ss = [] := by
  rw [if_neg hp] at hs
  exact h.strength_eq_zero_iff.mp hs

/-! ## Room in the counters -/

namespace RateLimiter

variable {fp : Rounding}

/-- The counters of the source have room for one more packet. -/
def HasRoom (now : Nat) (ip : IpAddr) (pktBytes : Nat) (isSyn : Bool) (d : RateLimiter fp) :
    Prop :=
  let b := ((d.buckets.lookup ip).getD (Bucket.new capacity now)).resetWindow fp windowSecs now
  b.bytes + pktBytes < 2 ^ 64 ∧ (isSyn = true → b.connections + 1 < 2 ^ 64)

/-- A call returns exactly when the counters have room. -/
theorem inspect_returns_iff {now : Nat} {ip : IpAddr} {pktBytes : Nat} {isSyn : Bool}
    {d : RateLimiter fp} :
    (inspect now ip pktBytes isSyn d).Returns (fun _ => True) ↔
      HasRoom now ip pktBytes isSyn d := by
  have hcount : ∀ b : Bucket, (count pktBytes isSyn b).Returns (fun _ => True) ↔
      b.bytes + pktBytes < 2 ^ 64 ∧ (isSyn = true → b.connections + 1 < 2 ^ 64) := by
    intro b
    rw [← Checked.add_returns_iff, ← Checked.addIf_returns_iff]
    constructor
    · rintro ⟨b', h, -⟩
      obtain ⟨bytes, hbytes, h⟩ := Checked.bind_eq_ok.mp h
      obtain ⟨connections, hconn, -⟩ := Checked.bind_eq_ok.mp h
      exact ⟨⟨bytes, hbytes, trivial⟩, ⟨connections, hconn, trivial⟩⟩
    · rintro ⟨hbytes, hconn⟩
      exact hbytes.bind fun _ _ => hconn.bind fun _ _ => .ok trivial
  rw [HasRoom, ← hcount]
  constructor
  · rintro ⟨r, h, -⟩
    obtain ⟨p, hp, -⟩ := Checked.bind_eq_ok.mp h
    obtain ⟨b, hb, -⟩ := Checked.bind_eq_ok.mp hp
    exact ⟨b, hb, trivial⟩
  · rintro ⟨b, hb, -⟩
    have hbucket : (inspectBucket fp ip pktBytes isSyn now
        ((d.buckets.lookup ip).getD (Bucket.new capacity now))).Returns (fun _ => True) := by
      unfold inspectBucket
      rw [hb]
      exact .ok trivial
    exact hbucket.bind fun _ _ => .ok trivial

end RateLimiter

namespace SynFloodDetector

variable {fp : Rounding}

/-- The counters of the source have room for one more segment. -/
def HasRoom (now : Nat) (p : Segment) (d : SynFloodDetector fp) : Prop :=
  (p.isSyn = true → (current now p d).syns + 1 < 2 ^ 64) ∧
    ((p.isAck || p.isSynAck) = true → (current now p d).acks + 1 < 2 ^ 64)

/-- A call returns exactly when the counters have room. -/
theorem inspect_returns_iff {now : Nat} {p : Segment} {d : SynFloodDetector fp} :
    (inspect now p d).Returns (fun _ => True) ↔ HasRoom now p d := by
  rw [inspect_eq_count, Checked.returns_bind_iff, HasRoom, ← Checked.addIf_returns_iff,
    ← Checked.addIf_returns_iff]
  constructor
  · rintro ⟨c, h, -⟩
    obtain ⟨syns, hsyns, h⟩ := Checked.bind_eq_ok.mp h
    obtain ⟨acks, hacks, -⟩ := Checked.bind_eq_ok.mp h
    exact ⟨⟨syns, hsyns, trivial⟩, ⟨acks, hacks, trivial⟩⟩
  · rintro ⟨hsyns, hacks⟩
    exact hsyns.bind fun _ _ => hacks.bind fun _ _ => .ok (.ok trivial)

end SynFloodDetector

/-- A name that is not anomalous is reported for its TLD, if at all. -/
theorem DnsDetector.nameSignals_minor (lower : Str → Str) {name : Str} (h : ¬ IsAnomalous name) :
    Minor (if HasSuspiciousTld lower name then 1 else 0) (nameSignals lower name) := by
  obtain ⟨hshort, hlabels⟩ := not_or.mp h
  have heven : ((Str.trimEndDots name).splitOn '.').dropLast.flatMap labelSignals = [] :=
    List.flatMap_eq_nil_iff.mpr fun label hlabel => by
      by_contra hodd
      exact hlabels ⟨label, hlabel, labelSignals_ne_nil.mp hodd⟩
  have hsignals : nameSignals lower name
      = tldSignals lower ((Str.trimEndDots name).splitOn '.') := by
    show (if _ then _ else []) ++ tldSignals _ _ ++ List.flatMap _ _ = _
    rw [if_neg hshort, heven, List.nil_append, List.append_nil]
  have htld : HasSuspiciousTld lower name ↔
      ∃ tld ∈ ((Str.trimEndDots name).splitOn '.').getLast?.toList, lower tld ∈ SUSPICIOUS_TLDS :=
    Iff.rfl
  rw [hsignals, tldSignals]
  simp only [htld]
  cases ((Str.trimEndDots name).splitOn '.').getLast? with
  | none => exact .nil
  | some tld =>
    have hpoints : 10 ≤ (suspiciousTldSignal tld).points ∧ (suspiciousTldSignal tld).points < 30 :=
      ⟨by show (10 : ℚ) ≤ 15; norm_num, by show (15 : ℚ) < 30; norm_num⟩
    by_cases hrare : lower tld ∈ SUSPICIOUS_TLDS
    · simpa [hrare] using Minor.ite (p := True) (b := true) (by simp) hpoints
    · simpa [hrare] using Minor.nil

namespace IdsEngine

variable {libs : Libs} {t : Instants} {pkt : RawPacket} {tm : TransportMeta}
  {e e' : IdsEngine libs} {r : IdsResult}

/-- The counters of the packet's source have room for it. -/
structure HasRoom (t : Instants) (pkt : RawPacket) (tm : TransportMeta) (e : IdsEngine libs) :
    Prop where
  rate : e.rateLimiter.HasRoom t.rateLimiter tm.srcIp pkt.origLen.toNat (isSyn tm)
  segment : ∀ p, tm.segment = some p → e.synFlood.HasRoom t.synFlood p

/-- A call returns exactly when the counters have room. -/
theorem analyzeTransport_returns_iff :
    (analyzeTransport t pkt tm e).Returns (fun _ => True) ↔ HasRoom t pkt tm e := by
  constructor
  · rintro ⟨⟨r, e'⟩, h, -⟩
    obtain ⟨c, -⟩ := analyzeTransport_checks h
    refine ⟨RateLimiter.inspect_returns_iff.mp ⟨_, c.rate_eq, trivial⟩, fun p hp => ?_⟩
    have htcp := c.tcp_eq
    rw [inspectSegment_eq, hp] at htcp
    exact SynFloodDetector.inspect_returns_iff.mp ⟨_, htcp, trivial⟩
  · rintro ⟨hrate, hsegment⟩
    have hlimiter := RateLimiter.inspect_returns_iff.mpr hrate
    have htcp : (inspectSegment t tm e.synFlood).Returns (fun _ => True) := by
      cases hp : tm.segment with
      | some p =>
        rw [inspectSegment_eq, hp]
        exact SynFloodDetector.inspect_returns_iff.mpr (hsegment p hp)
      | none =>
        rw [inspectSegment_eq, hp]
        exact .ok trivial
    refine (analyzeTransport_returns_of (P := fun _ => True) (Q := fun _ => True) ?_ ?_).mono
      fun _ _ => trivial
    · obtain ⟨r, hr, -⟩ := hlimiter
      exact ⟨r, hr, RateLimiter.graded_inspect hr, trivial⟩
    · obtain ⟨r, hr, -⟩ := htcp
      exact ⟨r, hr, (strength_inspectSegment hr).2, trivial⟩

/-! ## Quiet packets -/

/-- A RST that is not a SYN too; no SYN of its connection is tracked once it has
been seen. -/
def isStrayRst (tm : TransportMeta) : Bool := tm.segment.any fun p => p.isRst && !p.isSyn

def isOddIcmp (tm : TransportMeta) : Bool :=
  tm.icmpType.any (fun icmpType => decide (30#8 ≤ icmpType)) && tm.icmpCode.isSome
    && decide (tm.protocol = 1#8)

def isFragment (tm : TransportMeta) : Bool :=
  decide (0#16 < tm.ipFragOffset) || tm.ipFlags &&& 0x01#8 != 0#8

def isReservedVlan (tm : TransportMeta) : Bool :=
  tm.vlanId.any fun vid => decide (vid = 0#16 ∨ vid = 4095#16)

/-- How often a suspicious TLD is found in the queried name: twice, unless the
baseline knows the name. -/
def tldFindings (pkt : RawPacket) (tm : TransportMeta) (e : IdsEngine libs) : Nat :=
  match queriedName pkt tm with
  | some name =>
    if DnsDetector.HasSuspiciousTld libs.lower name then
      if e.baseline.isKnownDns libs.lower name then 1 else 2
    else 0
  | none => 0

/-- The findings that make no alert by themselves. -/
def minorFindings (pkt : RawPacket) (tm : TransportMeta) (e : IdsEngine libs) : Nat :=
  (isStrayRst tm).toNat + (isOddIcmp tm).toNat + (isFragment tm).toNat + pkt.isTruncated.toNat
    + tldFindings pkt tm e + (isReservedVlan tm).toNat

/-- None of the checks fires that scores an alert by itself. -/
structure Calm (t : Instants) (pkt : RawPacket) (tm : TransportMeta) (e : IdsEngine libs) :
    Prop where
  unlisted : ¬ IsListed tm e
  rate : ¬ e.rateLimiter.Exceeds t.rateLimiter tm.srcIp pkt.origLen.toNat (isSyn tm)
  scan : ∀ port, tm.dstPort = some port →
    ¬ e.portScan.Scans libs.hasher t.portScan tm.srcIp port
  segment : ∀ p, tm.segment = some p →
    SynFloodDetector.flooding libs.fp (SynFloodDetector.counted t.synFlood p e.synFlood) = false ∧
    p.flags ≠ TCP_XMAS ∧
    Table.len (SynFloodDetector.trackHalfOpen t.synFlood p e.synFlood.halfOpen)
      < SynFloodDetector.halfOpenThreshold
  payload : HasPayload pkt tm →
    ∀ m : Match, ¬ m.Occurs PayloadScanner.patterns (appPayload pkt tm) 0
  name : ∀ name, queriedName pkt tm = some name →
    e.blacklist.checkDomain libs.lower name = none ∧ ¬ DnsDetector.IsAnomalous name ∧
    ¬ DnsDetector.IsTunnel (appPayload pkt tm)

/-- A packet that no alert is raised for in the learning phase. -/
structure Quiet (t : Instants) (pkt : RawPacket) (tm : TransportMeta) (e : IdsEngine libs) :
    Prop extends Calm t pkt tm e where
  minor : minorFindings pkt tm e ≤ 1

/-! ## What the checks report of a calm packet -/

theorem icmpSignals_minor (tm : TransportMeta) :
    Minor (isOddIcmp tm).toNat (icmpSignals tm) := by
  unfold icmpSignals isOddIcmp
  generalize tm.icmpType = icmpType, tm.icmpCode = icmpCode
  match icmpType, icmpCode with
  | none, _ => exact .nil
  | some _, none => simpa using Minor.nil
  | some icmpType, some icmpCode =>
    refine .ite ?_ ⟨by show (10 : ℚ) ≤ 25; norm_num, by show (25 : ℚ) < 30; norm_num⟩
    simp [and_comm]

theorem fragmentSignals_minor (tm : TransportMeta) :
    Minor (isFragment tm).toNat (fragmentSignals tm) := by
  refine .ite ?_ ⟨by show (10 : ℚ) ≤ 20; norm_num, by show (20 : ℚ) < 30; norm_num⟩
  simp [isFragment]

theorem truncationSignals_minor (pkt : RawPacket) :
    Minor pkt.isTruncated.toNat (truncationSignals pkt) :=
  .ite Iff.rfl ⟨by show (10 : ℚ) ≤ 10; norm_num, by show (10 : ℚ) < 30; norm_num⟩

theorem vlanSignals_minor (tm : TransportMeta) :
    Minor (isReservedVlan tm).toNat (vlanSignals tm) := by
  unfold vlanSignals isReservedVlan
  cases tm.vlanId with
  | none => exact .nil
  | some vid =>
    refine .ite ?_ ⟨by show (10 : ℚ) ≤ 20; norm_num, by show (20 : ℚ) < 30; norm_num⟩
    simp

/-- A calm segment is reported for being a stray RST, if at all. -/
theorem Calm.tcp_minor (h : Calm t pkt tm e) (c : Checks t pkt tm e) :
    Minor (isStrayRst tm).toNat c.tcp.1 := by
  have htcp := c.tcp_eq
  unfold isStrayRst
  cases hp : tm.segment with
  | none =>
    rw [inspectSegment_eq, hp] at htcp
    rw [← Except.ok.inj htcp]
    exact .nil
  | some p =>
    rw [inspectSegment_eq, hp] at htcp
    obtain ⟨hflood, hxmas, hhalfOpen⟩ := h.segment p hp
    rw [SynFloodDetector.inspect_eq_ok htcp]
    unfold SynFloodDetector.segmentSignals SynFloodDetector.otherSignals
    rw [hflood, if_neg hxmas, if_neg (not_le.mpr hhalfOpen), List.append_nil]
    refine .ite ?_ ⟨by show (10 : ℚ) ≤ 25; norm_num, by show (25 : ℚ) < 30; norm_num⟩
    cases hrst : p.isRst with
    | false => simp [hrst]
    | true =>
      have htest := SynFloodDetector.rst_test_eq t.synFlood hrst e.synFlood.halfOpen
      rw [hrst] at htest
      rw [htest]
      simp [hrst]

/-- A calm name is reported for its TLD, if at all. -/
theorem Calm.named_minor (h : Calm t pkt tm e) (c : Checks t pkt tm e) :
    Minor (tldFindings pkt tm e) c.named := by
  have hqueried := queriedName_eq c.domain_eq
  unfold tldFindings
  cases hname : c.domain with
  | none =>
    rw [hqueried, hname, c.named_eq_of_none hname]
    exact .nil
  | some name =>
    obtain ⟨hlisted, hanom, htunnel⟩ := h.name name (hqueried.trans hname)
    have hsize : DnsDetector.sizeSignals (appPayload pkt tm) = [] := if_neg htunnel
    have hfound := DnsDetector.nameSignals_minor libs.lower hanom
    rw [hqueried, hname, c.named_eq_of_some hname, hlisted, hsize, List.append_nil]
    dsimp only
    cases e.baseline.isKnownDns libs.lower name with
    | true => simpa using hfound
    | false =>
      have htwice := hfound.append hfound
      by_cases htld : DnsDetector.HasSuspiciousTld libs.lower name
      · simpa [htld] using htwice
      · simpa [htld] using htwice

/-- In a packet that scores no alert by any signal, all is calm. -/
theorem Checks.calm_of_strength (c : Checks t pkt tm e) (h : strength c.signals < 30) :
    Calm t pkt tm e := by
  unfold signals listed at h
  simp only [strength_append, max_lt_iff] at h
  obtain ⟨⟨⟨⟨⟨⟨⟨⟨⟨⟨⟨hlisted, hrate⟩, hscan⟩, htcp⟩, -⟩, -⟩, -⟩, -⟩, hscanned⟩, hnamed⟩, -⟩, -⟩ := h
  rw [← max_lt_iff, ← strength_append, strength_listed, ite_lt_thirty_iff (by norm_num)] at hlisted
  rw [RateLimiter.strength_inspect c.rate_eq, ite_lt_thirty_iff (by norm_num)] at hrate
  rw [strength_inspectPorts] at hscan
  rw [(strength_inspectSegment c.tcp_eq).1] at htcp
  rw [(strength_scanPayload c.scanned_eq).1] at hscanned
  refine ⟨hlisted, hrate, fun port hport => ?_, fun p hp => ?_, fun hpayload => ?_,
    fun name hname => ?_⟩
  · unfold scanStrength at hscan
    rw [hport] at hscan
    exact (ite_lt_thirty_iff (by norm_num)).mp hscan
  · rw [tcpStrength_eq, hp] at htcp
    unfold SynFloodDetector.segmentStrength at htcp
    dsimp only at htcp
    split_ifs at htcp with hflood hxmas hhalfOpen
    · norm_num at htcp
    · norm_num at htcp
    · norm_num at htcp
    all_goals exact ⟨by simpa using hflood, hxmas, not_le.mp hhalfOpen⟩
  · rw [payloadStrength, if_pos hpayload] at hscanned
    unfold PayloadScanner.matchStrength at hscanned
    split_ifs at hscanned with h70 h40 hne
    · norm_num at hscanned
    · norm_num at hscanned
    · norm_num at hscanned
    exact (PayloadScanner.matched_eq_nil_iff _ _).mp (not_not.mp hne)
  · have hdomain : c.domain = some name := (queriedName_eq c.domain_eq).symm.trans hname
    rw [c.named_eq_of_some hdomain, strength_append, strength_append, strength_append,
      max_lt_iff, max_lt_iff, max_lt_iff, Blacklist.strength_checkDomain,
      ite_lt_thirty_iff (by norm_num), DnsDetector.strength_nameSignals,
      DnsDetector.strength_sizeSignals, ite_lt_thirty_iff (by norm_num)] at hnamed
    obtain ⟨hblack, -, hanom, htunnel⟩ := hnamed
    refine ⟨by simpa using hblack, fun h => ?_, htunnel⟩
    rw [DnsDetector.nameStrength, if_pos h] at hanom
    norm_num at hanom

/-! ## What is raised in refinement only -/

/-- No signal is one of the two that are raised in refinement only. -/
def Ungated (ss : List Signal) : Prop :=
  ∀ s ∈ ss, s.name ≠ .geoNewCountry ∧ s.name ≠ .unusualPort

namespace Ungated

variable {ss ss' : List Signal}

theorem nil : Ungated [] := fun _ h => absurd h List.not_mem_nil

theorem append (h : Ungated ss) (h' : Ungated ss') : Ungated (ss ++ ss') := by
  intro s hs
  rcases List.mem_append.mp hs with hs | hs
  · exact h s hs
  · exact h' s hs

/-- A detector that bids for a reason raises neither, if the reason is not the country. -/
theorem of_graded {reason : FlagReason} (h : Graded (some reason) ss)
    (hreason : reason ≠ .geoAnomaly) : Ungated ss := by
  refine fun s hs => ⟨fun hname => hreason ?_, fun hname => ?_⟩
  all_goals
    have hof := (h s hs).1
    rw [hname] at hof
  · exact (Option.some.inj hof).symm
  · cases hof

theorem ite {p : Prop} [Decidable p] {s : Signal}
    (hs : s.name ≠ .geoNewCountry ∧ s.name ≠ .unusualPort) :
    Ungated (if p then [s] else []) := by
  split
  · exact fun s' hs' => List.mem_singleton.mp hs' ▸ hs
  · exact nil

end Ungated

theorem icmpSignals_ungated (tm : TransportMeta) : Ungated (icmpSignals tm) := by
  unfold icmpSignals
  split
  · exact .ite ⟨SignalName.noConfusion, SignalName.noConfusion⟩
  · exact .nil

theorem vlanSignals_ungated (tm : TransportMeta) : Ungated (vlanSignals tm) := by
  unfold vlanSignals
  split
  · exact .ite ⟨SignalName.noConfusion, SignalName.noConfusion⟩
  · exact .nil

theorem Checks.named_ungated (c : Checks t pkt tm e) : Ungated c.named := by
  cases hname : c.domain with
  | none =>
    rw [c.named_eq_of_none hname]
    exact .nil
  | some name =>
    have hsignals := Ungated.of_graded (DnsDetector.graded_nameSignals libs.lower name) (by decide)
    have hsize := Ungated.of_graded (DnsDetector.graded_sizeSignals (appPayload pkt tm)) (by decide)
    rw [c.named_eq_of_some hname]
    refine (Ungated.of_graded (Blacklist.graded_checkDomain libs.lower name e.blacklist)
      (by decide)).append (Ungated.append ?_ (hsignals.append hsize))
    split
    · exact .nil
    · exact hsignals

theorem geoSignals_of_learning (hlearn : e.baseline.phase = .learning) : geoSignals tm e = [] := by
  unfold geoSignals
  split
  · exact if_neg fun h => Phase.noConfusion (hlearn.symm.trans h.1)
  · rfl

theorem portSignals_of_learning (hlearn : e.baseline.phase = .learning) :
    portSignals tm e = [] := by
  unfold portSignals
  split
  · exact if_neg fun h => Phase.noConfusion (hlearn.symm.trans h.1)
  · rfl

/-- The learning phase raises neither. -/
theorem Checks.ungated (hlearn : e.baseline.phase = .learning) (c : Checks t pkt tm e) :
    Ungated c.signals := by
  have hother : ∀ {name : SignalName}, name = .ipFragmentation ∨ name = .packetTruncated →
      name ≠ .geoNewCountry ∧ name ≠ .unusualPort := by
    rintro name (rfl | rfl) <;> exact ⟨SignalName.noConfusion, SignalName.noConfusion⟩
  unfold Checks.signals
  rw [geoSignals_of_learning hlearn, portSignals_of_learning hlearn]
  exact (Ungated.of_graded c.listed_graded (by decide)).append
      (.of_graded c.rate_graded (by decide))
    |>.append (.of_graded (inspectPorts_graded libs t tm e.portScan) (by decide))
    |>.append (.of_graded c.tcp_graded (by decide))
    |>.append (icmpSignals_ungated tm)
    |>.append (.ite (hother (.inl rfl)))
    |>.append (.ite (hother (.inr rfl)))
    |>.append .nil
    |>.append (.of_graded c.scanned_graded (by decide))
    |>.append c.named_ungated
    |>.append .nil
    |>.append (vlanSignals_ungated tm)

/-! ## What is clean -/

/-- In the learning phase, what is reported of a calm packet are its minor findings. -/
theorem Calm.signals_minor (h : Calm t pkt tm e) (hlearn : e.baseline.phase = .learning)
    (c : Checks t pkt tm e) : Minor (minorFindings pkt tm e) c.signals := by
  have hlisted : c.listed = [] := c.listed_graded.eq_nil_of_strength (strength_listed tm e) h.unlisted
  have hrate : c.rate.1.toList = [] :=
    c.rate_graded.eq_nil_of_strength (RateLimiter.strength_inspect c.rate_eq) h.rate
  have hscan : (inspectPorts libs t tm e.portScan).1.toList = [] := by
    have hscan := strength_inspectPorts libs t tm e.portScan
    refine (inspectPorts_graded libs t tm e.portScan).strength_eq_zero_iff.mp (hscan.trans ?_)
    unfold scanStrength
    cases hport : tm.dstPort with
    | none => rfl
    | some port => exact if_neg (h.scan port hport)
  have hscanned : c.scanned = [] := by
    refine c.scanned_graded.strength_eq_zero_iff.mp
      ((strength_scanPayload c.scanned_eq).1.trans ?_)
    unfold payloadStrength
    split
    · rename_i hpayload
      have hnone := (PayloadScanner.matched_eq_nil_iff libs.ac _).mpr (h.payload hpayload)
      simp [PayloadScanner.matchStrength, hnone]
    · rfl
  have hminor := h.tcp_minor c
    |>.append (icmpSignals_minor tm)
    |>.append (fragmentSignals_minor tm)
    |>.append (truncationSignals_minor pkt)
    |>.append (h.named_minor c)
    |>.append (vlanSignals_minor tm)
  unfold Checks.signals
  rw [hlisted, hrate, hscan, geoSignals_of_learning hlearn, hscanned, portSignals_of_learning hlearn]
  simp only [List.nil_append, List.append_nil]
  exact hminor

/-- **What is clean in the learning phase**: the result of a quiet packet. -/
theorem Checks.isClean_iff (c : Checks t pkt tm e) (hlearn : e.baseline.phase = .learning)
    {flag : FlagReason} (hr : IdsResult.fromSignals c.signals flag = .ok r) :
    r.isClean = true ↔ Quiet t pkt tm e := by
  obtain ⟨-, -, htotal, -⟩ := IdsResult.fromSignals_eq_ok c.scored hr
  have hclean : r.isClean = true ↔ IdsResult.total c.signals < 30 := by
    rw [IdsResult.isClean, decide_eq_true_iff, htotal]
    exact F32.fin_lt
  constructor
  · intro h
    have hlow := IdsResult.score_lt_of_totalScore_lt c.scored hr (a := 30) (by norm_num)
      (of_decide_eq_true h)
    have hcalm := c.calm_of_strength (strength_lt_thirty c.scored hlow)
    exact ⟨hcalm, (hcalm.signals_minor hlearn c).total_lt_iff.mp (hclean.mp h)⟩
  · intro h
    exact hclean.mpr ((h.toCalm.signals_minor hlearn c).total_lt_iff.mpr h.minor)

/-! ## What is recorded -/

/-- The baseline has recorded all that the packet carries: its destination port and
address, its protocol, its country and its DNS name. -/
def Recorded (pkt : RawPacket) (e e' : IdsEngine libs) : Prop :=
  ∀ x, Carries libs e.geo pkt x → e'.baseline.Knows x

/-- The call returns a clean result and records the packet. -/
def LearnsQuietly (t : Instants) (pkt : RawPacket) (e : IdsEngine libs) : Prop :=
  (analyze t pkt e).Returns fun p => p.1.isClean = true ∧ Recorded pkt e p.2

/-- Learning records whatever is analyzed, clean or not. -/
theorem recorded (hlearn : e.baseline.phase = .learning) (h : analyze t pkt e = .ok (r, e')) :
    Recorded pkt e e' ∧ e'.baseline.phase = .learning := by
  rcases analyze_cases h with ⟨htm, rfl⟩ | ⟨tm, htm, hcall⟩
  · refine ⟨fun x hx => ?_, hlearn⟩
    obtain ⟨tm', domain, htm', -⟩ := hx
    rw [htm] at htm'
    cases htm'
  · obtain ⟨domain, hdomain, hbaseline⟩ := hcall.baseline
    have hlearning : e.baseline.isLearning = true := by
      rw [Baseline.isLearning, hlearn]
      rfl
    rw [if_pos (.inl hlearning)] at hbaseline
    rw [Recorded, hbaseline]
    refine ⟨fun x hx => (knows_observe tm domain e x).mpr (.inl ?_),
      (observe_eq tm domain e).1.trans hlearn⟩
    obtain ⟨tm', domain', htm', hdomain', hbears⟩ := hx
    rw [htm] at htm'
    cases htm'
    obtain rfl := Except.ok.inj (hdomain.symm.trans hdomain')
    exact hbears

/-- A call on a packet without transport metadata reports nothing. -/
theorem analyze_of_transport_none (htm : pkt.transport = none) :
    (analyze t pkt e).Returns fun p => p.1.isClean = true ∧ p.1.signals = [] := by
  have hempty : (IdsResult.fromSignals [] .unspecified).Returns
      fun r => r.isClean = true ∧ r.signals = [] := by
    decide +kernel
  unfold analyze
  rw [htm]
  exact hempty.bind fun r hr => .ok hr

/-- **What the learning phase does**, for every packet and every state in it: the call
returns exactly when the counters of the packet's source have room for it, and one that
returns records the packet, stays in the phase, reports neither a new country nor an
unusual port, and is clean exactly when the packet is quiet. -/
theorem learning_characterised (hlearn : e.baseline.phase = .learning) :
    ((analyze t pkt e).Returns (fun _ => True) ↔
      ∀ tm, pkt.transport = some tm → HasRoom t pkt tm e) ∧
    ∀ r e', analyze t pkt e = .ok (r, e') →
      Recorded pkt e e' ∧ e'.baseline.phase = .learning ∧ Ungated r.signals ∧
      (r.isClean = true ↔ ∀ tm, pkt.transport = some tm → Quiet t pkt tm e) := by
  cases htm : pkt.transport with
  | none =>
    have hcall := @analyze_of_transport_none _ t _ e htm
    have hnone : ∀ tm : TransportMeta, none ≠ some tm := fun tm => (Option.some_ne_none tm).symm
    refine ⟨iff_of_true (hcall.mono fun _ _ => trivial) fun tm h => absurd h (hnone tm),
      fun r e' h => ?_⟩
    obtain ⟨p, hp, hclean, hsignals⟩ := hcall
    obtain rfl := Except.ok.inj (hp.symm.trans h)
    obtain ⟨hrecorded, hphase⟩ := recorded hlearn h
    rw [hsignals]
    exact ⟨hrecorded, hphase, .nil, iff_of_true hclean fun tm h => absurd h (hnone tm)⟩
  | some tm =>
    have hanalyze : analyze t pkt e = analyzeTransport t pkt tm e := by
      rw [analyze, htm]
    simp only [Option.some.injEq, forall_eq']
    rw [hanalyze]
    refine ⟨analyzeTransport_returns_iff, fun r e' h => ?_⟩
    obtain ⟨c, flag, hr, -⟩ := analyzeTransport_checks h
    obtain ⟨hrecorded, hphase⟩ := recorded hlearn (hanalyze.trans h)
    have hungated : Ungated r.signals := fun s hs =>
      c.ungated hlearn s ((IdsResult.signals_perm hr).mem_iff.mp hs)
    exact ⟨hrecorded, hphase, hungated, c.isClean_iff hlearn hr⟩

/-- A new agent, which is learning. -/
def learner : IdsEngine .plain := new (.new none 0) (fun _ => none) .new

/-- Four zero bytes are quiet, the Metasploit marker is not, and both are recorded. -/
theorem learning_characterised_zeros_marker :
    ((analyze ⟨0, 0, 0, 0⟩ zerosPacket learner).Returns fun p => p.1.isClean = true ∧
      Recorded zerosPacket learner p.2 ∧
      ∀ tm, zerosPacket.transport = some tm → Quiet ⟨0, 0, 0, 0⟩ zerosPacket tm learner) ∧
    ((analyze ⟨0, 0, 0, 0⟩ markerPacket learner).Returns fun p => p.1.isClean = false ∧
      Recorded markerPacket learner p.2 ∧
      ¬ ∀ tm, markerPacket.transport = some tm → Quiet ⟨0, 0, 0, 0⟩ markerPacket tm learner) := by
  have hzeros : (analyze ⟨0, 0, 0, 0⟩ zerosPacket learner).Returns fun p => p.1.isClean = true := by
    decide +kernel
  have hmarker : (analyze ⟨0, 0, 0, 0⟩ markerPacket learner).Returns
      fun p => p.1.isClean = false := by
    decide +kernel
  obtain ⟨⟨r, e⟩, hp, hclean⟩ := hzeros
  obtain ⟨⟨r', e'⟩, hp', halert⟩ := hmarker
  obtain ⟨hrecorded, -, -, hquiet⟩ := (learning_characterised rfl).2 r e hp
  obtain ⟨hrecorded', -, -, hquiet'⟩ := (learning_characterised rfl).2 r' e' hp'
  refine ⟨⟨_, hp, hclean, hrecorded, hquiet.mp hclean⟩, ⟨_, hp', halert, hrecorded', fun h => ?_⟩⟩
  exact Bool.false_ne_true (halert.symm.trans (hquiet'.mpr h))

/-- **Learning raises alerts**: a new agent scores the Metasploit marker as it
would in refinement. -/
theorem marker_alerts : learner.baseline.phase = .learning ∧
    (analyze ⟨0, 0, 0, 0⟩ markerPacket learner).Returns (fun p => p.1.isClean = false ∧
      p.1.totalScore = .fin 70 ∧ p.2.baseline.phase = .learning) ∧
    ¬ LearnsQuietly ⟨0, 0, 0, 0⟩ markerPacket learner := by
  have hcall : (analyze ⟨0, 0, 0, 0⟩ markerPacket learner).Returns fun p => p.1.isClean = false ∧
      p.1.totalScore = .fin 70 ∧ p.2.baseline.phase = .learning := by
    decide +kernel
  refine ⟨rfl, hcall, ?_⟩
  rintro ⟨p, hp, hclean, -⟩
  obtain ⟨p', hp', halert, -⟩ := hcall
  obtain rfl := Except.ok.inj (hp.symm.trans hp')
  rw [hclean] at halert
  cases halert

end IdsEngine

end Ocellus
