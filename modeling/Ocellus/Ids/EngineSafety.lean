import Ocellus.Capture.ParseSafety
import Ocellus.Ids.Grades

/-!
# No packet crashes the agent

The agent is built with `panic = "abort"`. Parsing a packet and analyzing it are
shown to return, for all captured bytes and every state of the engine that fewer
than 2^32 packets and sweeps lead to.

The state matters for the counters only: after `n` steps no source has sent more
than `n * (2^32 - 1)` bytes, `n` connections, `n` SYNs or `n` ACKs in its window
(`Reaches.bounded`), which leaves a `u64` room for one more packet.
-/

namespace Ocellus

/-! ## The counters of the rate limiter -/

namespace RateLimiter

variable {fp : Rounding} {n : Nat} {d : RateLimiter fp}

/-- The counters of `n` packets of 32-bit length. -/
def Bounded (n : Nat) (d : RateLimiter fp) : Prop :=
  ∀ ip b, d.buckets.lookup ip = some b → b.bytes ≤ n * (2 ^ 32 - 1) ∧ b.connections ≤ n

theorem bounded_new : Bounded 0 (new : RateLimiter fp) := by
  intro ip b h
  cases h

theorem Bounded.mono {m : Nat} (h : Bounded n d) (hnm : n ≤ m) : Bounded m d := by
  intro ip b hb
  obtain ⟨hbytes, hconn⟩ := h ip b hb
  exact ⟨hbytes.trans (Nat.mul_le_mul_right _ hnm), hconn.trans hnm⟩

theorem Bounded.sweep (h : Bounded n d) (t : Nat) : Bounded n (sweep t d) := by
  intro ip b hb
  rw [RateLimiter.sweep, Table.lookup_retain] at hb
  obtain ⟨b', hb', hkept⟩ := Option.bind_eq_some_iff.mp hb
  unfold sweepBucket at hkept
  split at hkept
  · obtain rfl := Option.some.inj hkept
    exact h ip b' hb'
  · cases hkept

/-- A call returns a graded signal, and counts one more packet. -/
theorem Bounded.inspect_returns (h : Bounded n d) (hn : n < 2 ^ 32) (now : Nat) (ip : IpAddr)
    {pktBytes : Nat} (hpkt : pktBytes < 2 ^ 32) (syn : Bool) :
    (inspect now ip pktBytes syn d).Returns fun r =>
      Graded (some .rateExceeded) r.1.toList ∧ Bounded (n + 1) r.2 := by
  have hroom : ∀ b, d.buckets.lookup ip = some b →
      b.bytes + pktBytes < 2 ^ 64 ∧ b.connections + 1 < 2 ^ 64 := by
    intro b hb
    obtain ⟨hbytes, hconn⟩ := h ip b hb
    omega
  have hcall : (component.inspect now ⟨ip, pktBytes, syn⟩ d).Returns _ :=
    RateLimiter.inspect_returns (fun b hb => (hroom b hb).1) (fun b hb => (hroom b hb).2) (by
      show pktBytes < 2 ^ 64
      omega)
  refine hcall.mono fun r hr => ?_
  obtain ⟨b', hspec, hd⟩ := hr
  refine ⟨hspec.signal ▸ graded_verdict ip syn _ b', fun ip' b hb => ?_⟩
  rw [hd, Table.lookup_insert_eq] at hb
  split at hb
  · obtain rfl := Option.some.inj hb
    -- a reset only lowers the counters
    have hstored : ((d.buckets.lookup ip).getD (Bucket.new capacity now)).bytes
          ≤ n * (2 ^ 32 - 1) ∧
        ((d.buckets.lookup ip).getD (Bucket.new capacity now)).connections ≤ n := by
      cases hb : d.buckets.lookup ip with
      | none => exact ⟨Nat.zero_le _, Nat.zero_le _⟩
      | some b => exact h ip b hb
    have hbytes := hspec.bytes
    have hconn := hspec.connections
    have hbit : syn.toNat ≤ 1 := Bool.toNat_le syn
    unfold Bucket.resetWindow at hbytes hconn
    split at hbytes
    · rw [if_pos (by assumption)] at hconn
      dsimp only at hbytes hconn
      omega
    · rw [if_neg (by assumption)] at hconn
      dsimp only at hbytes hconn
      omega
  · exact (h.mono (Nat.le_succ n)) ip' b hb

end RateLimiter

/-! ## The steps of `analyze` -/

/-- The signals so far can be compared. -/
def Findings.Sound (f : Findings) : Prop := ∀ s ∈ f.signals, s.score.IsFin

namespace Findings

@[simp] theorem raise_signals (reason : FlagReason) (ss : List Signal) (f : Findings) :
    (f.raise reason ss).signals = f.signals ++ ss := by
  induction ss generalizing f with
  | nil => exact (List.append_nil _).symm
  | cons s ss ih =>
    show (raise reason ss _).signals = _
    rw [ih, List.append_assoc]
    rfl

@[simp] theorem note_signals (ss : List Signal) (f : Findings) :
    (f.note ss).signals = f.signals ++ ss := rfl

theorem sound_empty : empty.Sound := fun _ h => absurd h List.not_mem_nil

variable {f : Findings} {ss : List Signal} {o : Option FlagReason}

theorem Sound.raise (h : f.Sound) (hss : Graded o ss) (reason : FlagReason) :
    (f.raise reason ss).Sound := by
  intro s hs
  rw [raise_signals] at hs
  rcases List.mem_append.mp hs with hs | hs
  · exact h s hs
  · exact hss.isFin s hs

theorem Sound.note (h : f.Sound) (hss : Graded o ss) : (f.note ss).Sound := by
  intro s hs
  rcases List.mem_append.mp hs with hs | hs
  · exact h s hs
  · exact hss.isFin s hs

end Findings

namespace IdsEngine

variable {libs : Libs} {n : Nat}

theorem inspectPorts_graded (libs : Libs) (t : Instants) (tm : TransportMeta)
    (d : PortScanDetector) :
    Graded (some .portScan) (inspectPorts libs t tm d).1.toList := by
  unfold inspectPorts
  split
  · exact PortScanDetector.graded_inspect _ _ _ _ d
  · exact .nil

theorem inspectSegment_returns {fp : Rounding} {d : SynFloodDetector fp} (h : d.Bounded n) (hn : n < 2 ^ 32)
    (t : Instants) (tm : TransportMeta) :
    (inspectSegment t tm d).Returns fun r =>
      Graded (some .synFlood) r.1 ∧ r.2.Bounded (n + 1) := by
  unfold inspectSegment
  split
  · refine (h.inspect_returns (by omega) _ _).mono fun r hr => ?_
    rw [hr]
    exact ⟨SynFloodDetector.graded_segmentSignals _ _ d, h.segmentState _ _⟩
  · exact .ok ⟨.nil, h.mono (Nat.le_succ n)⟩

/-- The slice of the payload, behind the test of its offset. -/
theorem payload_returns {pkt : RawPacket} {tm : TransportMeta}
    (h : tm.payloadOffset < pkt.data.bytes.length) :
    (payload pkt tm).Returns fun p => p.length ≤ isizeMax := by
  refine (Checked.sliceFrom_returns h.le).mono fun p hp => ?_
  have hvec := pkt.data.length_le
  rw [hp, List.length_drop]
  omega

theorem scanPayload_returns (pkt : RawPacket) (tm : TransportMeta) :
    (scanPayload libs pkt tm).Returns (Graded (some .payloadSig)) := by
  unfold scanPayload
  split
  · rename_i hpayload
    refine (payload_returns hpayload.2).bind fun p _ => ?_
    exact (PayloadScanner.scanAll_returns libs.ac p).mono fun signals h =>
      PayloadScanner.graded_scanAll h.1
  · exact .ok .nil

theorem dnsQueryName_returns (pkt : RawPacket) (tm : TransportMeta) :
    (dnsQueryName pkt tm).Returns fun o => ∀ name, o = some name → Str.IsShort name := by
  unfold dnsQueryName
  split
  · rename_i hdns
    refine (payload_returns hdns.2.2.2).bind fun p hp => ?_
    exact (extractDnsQueryName_returns hp).mono fun o ho name hname => (ho name hname).2
  · exact .ok fun _ h => nomatch h

/-- `inspect_payload` reports graded signals, whatever it extracts. -/
theorem graded_inspectPayload {lower : Str → Str} {p : Bytes} (hp : p.length ≤ isizeMax) :
    (DnsDetector.inspectPayload lower p).Returns (Graded (some .dnsAnomaly)) := by
  obtain ⟨o, ho, hname⟩ := extractDnsQueryName_returns hp
  cases o with
  | none =>
    refine ⟨[], ?_, .nil⟩
    unfold DnsDetector.inspectPayload
    rw [ho]
    rfl
  | some name =>
    refine (DnsDetector.inspectPayload_returns lower hp).mono fun signals h => ?_
    rw [h name ho]
    exact (DnsDetector.graded_nameSignals lower name).append (DnsDetector.graded_sizeSignals p)

theorem analyzeDomain_returns (pkt : RawPacket) (tm : TransportMeta) (e : IdsEngine libs)
    {f : Findings} (hf : f.Sound) {domain : Option Str}
    (hdomain : ∀ name, domain = some name → Str.IsShort name) :
    (analyzeDomain pkt tm e f domain).Returns Findings.Sound := by
  cases domain with
  | none => exact .ok hf
  | some name =>
    have hname : (inspectDomain name e).Returns (Graded (some .dnsAnomaly)) := by
      unfold inspectDomain
      split
      · exact .ok .nil
      · rw [DnsDetector.inspectName_eq _ (hdomain name rfl)]
        exact .ok (DnsDetector.graded_nameSignals libs.lower name)
    have hpayload : (inspectDnsPayload libs pkt tm).Returns
        (Graded (some .dnsAnomaly)) := by
      unfold inspectDnsPayload
      split
      · rename_i hoffset
        exact (payload_returns hoffset).bind fun p hp => graded_inspectPayload hp
      · exact .ok .nil
    refine hname.bind fun ss hss => hpayload.bind fun ss' hss' => .ok ?_
    have hlisted := Blacklist.graded_checkDomain libs.lower name e.blacklist
    exact ((hf.raise hlisted _).raise hss _).raise hss' _

/-! ## One call and one sweep -/

/-- The counters of `n` packets. -/
def Bounded (n : Nat) (e : IdsEngine libs) : Prop :=
  e.rateLimiter.Bounded n ∧ e.synFlood.Bounded n

theorem Bounded.mono {m : Nat} {e : IdsEngine libs} (h : Bounded n e) (hnm : n ≤ m) :
    Bounded m e := ⟨h.1.mono hnm, h.2.mono hnm⟩

theorem Bounded.sweep {e : IdsEngine libs} (h : Bounded n e) (t : Instants) :
    Bounded n (e.sweep t) := ⟨h.1.sweep _, h.2.sweep _⟩

theorem bounded_new (baseline : Baseline) (geo : IpAddr → Option Str)
    (blacklist : Blacklist libs.bloom) : Bounded 0 (new baseline geo blacklist) :=
  ⟨RateLimiter.bounded_new, SynFloodDetector.bounded_new⟩

/-- A call returns if its rate limiter and its SYN-flood detector do. -/
theorem analyzeTransport_returns_of {t : Instants} {pkt : RawPacket} {tm : TransportMeta}
    {e : IdsEngine libs} {P : RateLimiter libs.fp → Prop}
    {Q : SynFloodDetector libs.fp → Prop}
    (hrate : (e.rateLimiter.inspect t.rateLimiter tm.srcIp pkt.origLen.toNat (isSyn tm)).Returns
      fun r => Graded (some .rateExceeded) r.1.toList ∧ P r.2)
    (htcp : (inspectSegment t tm e.synFlood).Returns
      fun r => Graded (some .synFlood) r.1 ∧ Q r.2) :
    (analyzeTransport t pkt tm e).Returns fun r => P r.2.rateLimiter ∧ Q r.2.synFlood := by
  unfold analyzeTransport
  refine hrate.bind fun rate hrate => htcp.bind fun tcp htcp => ?_
  refine (scanPayload_returns pkt tm).bind fun sigs hsigs => ?_
  refine (dnsQueryName_returns pkt tm).bind fun domain hdomain => ?_
  have hf := Findings.sound_empty
    |>.raise (Blacklist.graded_checkIp tm.srcIp e.blacklist) .blacklisted
    |>.raise (Blacklist.graded_checkIp tm.dstIp e.blacklist) .blacklisted
    |>.raise hrate.1 .rateExceeded
    |>.raise (inspectPorts_graded libs t tm e.portScan) .portScan
    |>.raise htcp.1 .synFlood
    |>.note (graded_icmpSignals tm)
    |>.note (graded_fragmentSignals tm)
    |>.note (graded_truncationSignals pkt)
    |>.raise (graded_geoSignals tm e) .geoAnomaly
    |>.raise hsigs .payloadSig
  refine (analyzeDomain_returns pkt tm e hf hdomain).bind fun f hf => ?_
  have hf := (hf.note (graded_portSignals tm e)).note (graded_vlanSignals tm)
  refine (IdsResult.fromSignals_returns _ hf).bind fun result _ => ?_
  exact .ok ⟨hrate.2, htcp.2⟩

theorem analyzeTransport_returns {e : IdsEngine libs} (h : Bounded n e) (hn : n < 2 ^ 32)
    (t : Instants) (pkt : RawPacket) (tm : TransportMeta) :
    (analyzeTransport t pkt tm e).Returns fun r => Bounded (n + 1) r.2 :=
  analyzeTransport_returns_of (h.1.inspect_returns hn _ _ pkt.origLen.isLt _)
    (inspectSegment_returns h.2 hn t tm)

/-- A call returns, and counts at most one more packet. -/
theorem analyze_returns {e : IdsEngine libs} (h : Bounded n e) (hn : n < 2 ^ 32) (t : Instants)
    (pkt : RawPacket) : (analyze t pkt e).Returns fun r => Bounded (n + 1) r.2 := by
  unfold analyze
  split
  · refine (IdsResult.fromSignals_returns _ Findings.sound_empty).bind fun result _ => ?_
    exact .ok (h.mono (Nat.le_succ n))
  · exact analyzeTransport_returns h hn t pkt _

/-! ## Runs -/

/-- The engines that `n` packets and sweeps lead to from `e₀`, at any clock
readings. -/
inductive Reaches (e₀ : IdsEngine libs) : Nat → IdsEngine libs → Prop where
  | start : Reaches e₀ 0 e₀
  | packet {n : Nat} {e e' : IdsEngine libs} {t : Instants} {pkt : RawPacket} {r : IdsResult} :
      Reaches e₀ n e → analyze t pkt e = .ok (r, e') → Reaches e₀ (n + 1) e'
  | sweep {n : Nat} {e : IdsEngine libs} (t : Instants) :
      Reaches e₀ n e → Reaches e₀ (n + 1) (e.sweep t)

theorem Reaches.bounded {e₀ e : IdsEngine libs} (h₀ : Bounded 0 e₀) (h : Reaches e₀ n e)
    (hn : n ≤ 2 ^ 32) : Bounded n e := by
  induction h with
  | start => exact h₀
  | @packet n e e' t pkt r _ hcall ih =>
    obtain ⟨r', hr', hbounded⟩ := analyze_returns (ih (Nat.le_of_succ_le hn)) hn t pkt
    rw [hcall] at hr'
    cases hr'
    exact hbounded
  | @sweep n e t _ ih => exact ((ih (Nat.le_of_succ_le hn)).sweep t).mono (Nat.le_succ n)

/-- **No packet crashes the agent**: fewer than 2^32 packets and sweeps after its
start, with any baseline, blacklist and GeoIP database, the engine analyzes
whatever is captured. -/
theorem capture_analyze_returns {baseline : Baseline} {geo : IpAddr → Option Str}
    {blacklist : Blacklist libs.bloom} {e : IdsEngine libs}
    (h : Reaches (new baseline geo blacklist) n e) (hn : n < 2 ^ 32) (t : Instants)
    (data : ByteVec) (linkType : LinkType) (origLen capLen : U32) (interface : Str)
    (timestamp : Int) (packetId : Nat) :
    (do
      let pkt ← capturePacket data linkType origLen capLen interface timestamp packetId
      analyze t pkt e : Checked (IdsResult × IdsEngine libs)).Returns fun _ => True := by
  have hbounded := h.bounded (bounded_new baseline geo blacklist) hn.le
  have hcapture : (capturePacket data linkType origLen capLen interface timestamp
      packetId).Returns fun _ => True :=
    (parseTransport_returns data.bytes linkType).bind fun _ _ => .ok trivial
  exact hcapture.bind fun pkt _ => (analyze_returns hbounded hn t pkt).mono fun _ _ => trivial

/-- An IPv4 header without the 20 bytes of its TCP header, after one sweep. -/
theorem capture_analyze_returns_after_sweep :
    (do
      let pkt ← capturePacket ⟨0x45#8 :: List.replicate 30 6#8, by decide⟩ .rawIp 60#32 31#32 [] 0 0
      analyze ⟨9, 9, 9, 9⟩ pkt
        (sweep ⟨8, 8, 8, 8⟩ (new (.new none 0) (fun _ => none) .new)) :
        Checked (IdsResult × IdsEngine .plain)).Returns fun _ => True :=
  capture_analyze_returns (.sweep ⟨8, 8, 8, 8⟩ .start) (by decide) ⟨9, 9, 9, 9⟩ _ .rawIp 60#32
    31#32 [] 0 0

end IdsEngine

end Ocellus
