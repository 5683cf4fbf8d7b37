import Ocellus.Capture.TransportFields
import Ocellus.Ids.EngineSignals

/-!
# Fields read from fragments

Only the first fragment of a datagram has its transport header. The parser reads the
bytes behind the IP header of every fragment as one, if there are enough of them, and
the detectors count what it finds. `fragment_fields_iff` says which of the later
fragments are spared: those too short for a header of their protocol, and those of
other protocols.
-/

namespace Ocellus

namespace IdsEngine

variable {libs : Libs} {t : Instants} {pkt : RawPacket} {tm : TransportMeta}
  {e e' : IdsEngine libs} {r : IdsResult}

/-- Without a port and flags there is nothing to count. -/
theorem analyze_of_noFields (htm : pkt.transport = some tm) (h : tm.layer4.NoFields)
    (hcall : analyze t pkt e = .ok (r, e')) :
    e'.portScan = e.portScan ∧ e'.synFlood = e.synFlood := by
  obtain ⟨-, hdst, hflags, -, -⟩ := h
  have hdst : tm.dstPort = none := hdst
  have hflags : tm.tcpFlags = none := hflags
  rw [analyze, htm] at hcall
  obtain ⟨c, flag, -, -, rfl⟩ := analyzeTransport_checks hcall
  constructor
  · show (inspectPorts libs t tm e.portScan).2 = e.portScan
    rw [inspectPorts, hdst]
  · have htcp := c.tcp_eq
    rw [inspectSegment, hflags] at htcp
    rw [← Except.ok.inj htcp]

end IdsEngine

/-- Nothing is found of a transport header, and no call of the engine counts the
packet in its port-scan maps, its SYN and ACK counters or its half-open table. -/
structure Unread (tm : TransportMeta) : Prop where
  noFields : tm.layer4.NoFields
  uncounted : ∀ (libs : Libs) (t : Instants) (pkt : RawPacket) (e e' : IdsEngine libs)
    (r : IdsResult), pkt.transport = some tm → e.analyze t pkt = .ok (r, e') →
      e'.portScan = e.portScan ∧ e'.synFlood = e.synFlood

theorem unread_iff {tm : TransportMeta} : Unread tm ↔ tm.layer4.NoFields := by
  constructor
  · exact Unread.noFields
  · intro h
    exact ⟨h, fun _ _ _ _ _ _ htm hcall => IdsEngine.analyze_of_noFields htm h hcall⟩

/-- **Which later fragments are not read**: an IPv4 packet with a fragment offset is
parsed without transport fields exactly if it is not a TCP fragment of 20 bytes, a UDP
fragment of 8 or an ICMP fragment of 4. -/
theorem fragment_fields_iff {data ip : Bytes} {linkType : LinkType}
    (hip : CarriesIpv4 data linkType ip) (_ : fragmentOffset ip ≠ 0#16) :
    (∃ tm, parseTransport data linkType = .ok (some tm) ∧ Unread tm) ↔
      ¬ HasTransport 1#8 (ip.getD 9 0#8) (ip.drop (ipv4HeaderLen ip)) := by
  obtain ⟨tm, htm, -, -⟩ := parsesAsIpv4_iff.mpr ⟨ip, hip, rfl, rfl⟩
  obtain ⟨link, hcarries⟩ := hip.carries
  have hv4 : IsVersion4 ip := hip.1.version
  obtain ⟨-, hfields⟩ := parseIp_fields (hcarries.parseTransport_eq.symm.trans htm)
  rw [ipIcmp, ipProtocol, ipHeaderLen, if_pos hv4, if_pos hv4, if_pos hv4] at hfields
  rw [← noFields_iff hfields]
  constructor
  · rintro ⟨tm', htm', h⟩
    obtain rfl := Option.some.inj (Except.ok.inj (htm'.symm.trans htm))
    exact h.noFields
  · exact fun h => ⟨tm, htm, unread_iff.mpr h⟩

/-- The header of the last fragment of a datagram, 1480 bytes in. -/
def lastFragment (proto : U8) (payload : Bytes) : Bytes :=
  [0x45#8, 0#8, 0#8, 28#8, 0#8, 7#8, 0#8, 185#8, 64#8, proto, 0#8, 0#8,
    10#8, 0#8, 0#8, 1#8, 10#8, 0#8, 0#8, 2#8] ++ payload

/-- Eight bytes from the middle of a TCP stream. -/
theorem fragment_fields_iff_tcp :
    ∃ tm, parseTransport (lastFragment 6#8 (List.replicate 8 0x41#8)) .rawIp = .ok (some tm) ∧
      Unread tm := by
  have hip : CarriesIpv4 (lastFragment 6#8 (List.replicate 8 0x41#8)) .rawIp
      (lastFragment 6#8 (List.replicate 8 0x41#8)) :=
    ⟨⟨by decide, by decide, by decide⟩, .rawIp, 0x0800#16, rfl, .inl rfl, rfl⟩
  exact (fragment_fields_iff hip (by decide)).mpr (by decide)

/-- **Ports that nobody sent**: the same bytes from the middle of a UDP datagram are
two ports, and the scan detector counts one. -/
theorem fragment_read_as_udp :
    CarriesIpv4 (lastFragment 17#8 (List.replicate 8 0x41#8)) .rawIp
      (lastFragment 17#8 (List.replicate 8 0x41#8)) ∧
    fragmentOffset (lastFragment 17#8 (List.replicate 8 0x41#8)) ≠ 0#16 ∧
    ∃ tm, parseTransport (lastFragment 17#8 (List.replicate 8 0x41#8)) .rawIp = .ok (some tm) ∧
      tm.srcPort = some 0x4141#16 ∧ tm.dstPort = some 0x4141#16 ∧ ¬ Unread tm ∧
      (IdsEngine.inspectPorts .plain ⟨0, 0, 0, 0⟩ tm .new).2.portsOf tm.srcIp
        = ⟨[(0x4141#16, 0)]⟩ := by
  refine ⟨⟨⟨by decide, by decide, by decide⟩, .rawIp, 0x0800#16, rfl, .inl rfl, rfl⟩, by decide,
    _, rfl, rfl, rfl, fun h => ?_, by decide⟩
  cases h.noFields.1

end Ocellus
