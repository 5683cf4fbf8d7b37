import Ocellus.Capture.TransportFields
import Ocellus.Ids.FlagOrder

/-!
# Where the payload starts

The detectors scan a packet from its payload offset on. Behind a UDP header that is
always payload. Behind a TCP header the offset is as far as the header says, and a
header that announces less than its own fixed part is believed: then fixed header
bytes are scanned as payload (`payload_start_iff`). The parser of IPv4 checks the
same of the length in the IP header.
-/

namespace Ocellus

/-- The length of the fixed header of TCP and UDP. -/
def fixedHeaderLen (proto : U8) : Nat := if proto = 6#8 then 20 else 8

/-- Where the transport header of a packet in an encapsulation starts. -/
def transportStart (link : Encapsulation) (ip : Bytes) : Nat :=
  link.layer2.ipOffset + ipHeaderLen ip

/-- A TCP segment that announces a header of less than five words. -/
def ShortTcpHeader (ip : Bytes) : Prop :=
  ipProtocol ip = 6#8 ∧ (ip.drop (ipHeaderLen ip)).getD 12 0#8 >>> 4 < 5#8

instance (ip : Bytes) : Decidable (ShortTcpHeader ip) := inferInstanceAs (Decidable (_ ∧ _))

/-- The payload offset is past the fixed header at `start`, and what is scanned of the
packet lies behind that header. -/
structure StartsBehind (data : Bytes) (start : Nat) (tm : TransportMeta) : Prop where
  offset : start + fixedHeaderLen tm.protocol ≤ tm.payloadOffset
  scanned : ∀ (pkt : RawPacket) (payload : Bytes), pkt.data.bytes = data →
    IdsEngine.HasPayload pkt tm → IdsEngine.payload pkt tm = .ok payload →
      payload <:+ data.drop (start + fixedHeaderLen tm.protocol)

theorem startsBehind_iff {data : Bytes} {start : Nat} {tm : TransportMeta} :
    StartsBehind data start tm ↔ start + fixedHeaderLen tm.protocol ≤ tm.payloadOffset := by
  constructor
  · exact StartsBehind.offset
  · refine fun h => ⟨h, fun pkt payload hdata _ hpayload => ?_⟩
    rw [IdsEngine.payload_eq hpayload, IdsEngine.appPayload, hdata, ← Nat.sub_add_cancel h,
      Nat.add_comm, ← List.drop_drop]
    exact List.drop_suffix _ _

/-- The nibble of five is the header of twenty bytes. -/
theorem tcpHeaderLen_lt_iff (tl : Bytes) :
    tcpHeaderLen tl < 20 ↔ tl.getD 12 0#8 >>> 4 < 5#8 := by
  rw [tcpHeaderLen, BitVec.lt_def]
  show _ * 4 < 20 ↔ _ < 5
  omega

/-- **Where the payload starts**: a frame parsed with ports is a packet in an
encapsulation, and its payload offset lies behind the fixed header of its TCP segment or
UDP datagram exactly if that is not a TCP segment that announces a header of less than
five words. -/
theorem payload_start_iff {data : Bytes} {linkType : LinkType} {tm : TransportMeta}
    (h : parseTransport data linkType = .ok (some tm))
    (hports : tm.srcPort ≠ none ∧ tm.dstPort ≠ none) :
    (∃ link ip, Carries data linkType link ip) ∧
      ∀ link ip, Carries data linkType link ip →
        (StartsBehind data (transportStart link ip) tm ↔ ¬ ShortTcpHeader ip) := by
  refine ⟨exists_carries h, fun link ip hcarries => ?_⟩
  obtain ⟨hproto, hfields⟩ := parseIp_fields (hcarries.parseTransport_eq.symm.trans h)
  have hsrc : tm.layer4.srcPort ≠ none := hports.1
  rw [startsBehind_iff, hproto, transportStart, ShortTcpHeader, ← tcpHeaderLen_lt_iff]
  show _ ≤ tm.layer4.appPayloadOffset ↔ _
  rcases parseLayer4_eq_ok hfields with ⟨htcp, -, hl4⟩ | ⟨hudp, -, hl4⟩ | ⟨-, -, hl4⟩ | ⟨-, hl4⟩
  · rw [hl4, htcp, fixedHeaderLen, if_pos rfl]
    show _ ≤ _ + _ ↔ ¬ (_ ∧ _)
    rw [Nat.add_le_add_iff_left, and_iff_right rfl, not_lt]
  · rw [hl4, hudp, fixedHeaderLen, if_neg (by decide)]
    exact iff_of_true le_rfl fun hshort => absurd hshort.1 (by decide)
  -- nothing else has ports
  · rw [hl4] at hsrc
    exact absurd rfl hsrc
  · rw [hl4] at hsrc
    exact absurd rfl hsrc

/-- A TCP segment to port 80 in an IPv4 packet, with a data offset. -/
def webSegment (dataOffset : U8) : Bytes :=
  [0x45#8, 0#8, 0#8, 44#8, 0#8, 7#8, 0x40#8, 0#8, 64#8, 6#8, 0#8, 0#8,
    10#8, 0#8, 0#8, 1#8, 10#8, 0#8, 0#8, 2#8] ++
  [0x9C#8, 0x40#8, 0#8, 80#8, 0#8, 0#8, 0#8, 1#8, 0#8, 0#8, 0#8, 0#8, dataOffset, 0x18#8,
    0#8, 0#8, 0#8, 0#8, 0#8, 0#8] ++ [0x47#8, 0x45#8, 0x54#8, 0x20#8]

/-- With five words of header, the payload starts behind them. -/
theorem payload_start_iff_webSegment :
    ∃ tm, parseTransport (webSegment 0x50#8) .rawIp = .ok (some tm) ∧
      StartsBehind (webSegment 0x50#8) 20 tm := by
  have hcarries : Carries (webSegment 0x50#8) .rawIp .rawIp (webSegment 0x50#8) :=
    ⟨rfl, ⟨0x0800#16, .inl rfl, rfl⟩, by decide⟩
  refine ⟨_, rfl, ?_⟩
  exact ((payload_start_iff rfl ⟨by decide, by decide⟩).2 .rawIp _ hcarries).mpr (by decide)

/-- **Header bytes taken for payload**: with an announced header of no words, the scan
starts with the ports. -/
theorem payload_start_in_header :
    Carries (webSegment 0x00#8) .rawIp .rawIp (webSegment 0x00#8) ∧
    ∃ tm, parseTransport (webSegment 0x00#8) .rawIp = .ok (some tm) ∧
      tm.srcPort = some 40000#16 ∧ tm.dstPort = some 80#16 ∧
      transportStart .rawIp (webSegment 0x00#8) = 20 ∧ tm.payloadOffset = 20 ∧
      ¬ StartsBehind (webSegment 0x00#8) 20 tm :=
  ⟨⟨rfl, ⟨0x0800#16, .inl rfl, rfl⟩, by decide⟩, _, rfl, rfl, rfl, by decide, by decide,
    fun h => absurd h.offset (by decide)⟩

end Ocellus
