import Ocellus.Capture.Framing
import Ocellus.Capture.ParseSafety

/-!
# Which frames parse as IPv4

A frame parses as IPv4 exactly if it is an encapsulation, with the EtherType of
either IP version if it has one, and in it a packet of version 4 whose header
fits (`parsesAsIpv4_iff`). The addresses found are those in bytes 12 to 19 of the
packet, whatever its options, its fragment and its payload are.
-/

namespace Ocellus

open Checked (index)

/-- The length of the header that an IPv4 packet announces. -/
def ipv4HeaderLen (ip : Bytes) : Nat := (ip.getD 0 0#8 &&& 0x0F#8).toNat * 4

/-- The packet is of version 4, and its header fits. -/
structure IsIpv4 (ip : Bytes) : Prop where
  version : (ip.getD 0 0#8 >>> 4) &&& 0xF#8 = 4#8
  header_ge : 20 ≤ ipv4HeaderLen ip
  header_le : ipv4HeaderLen ip ≤ ip.length

theorem IsIpv4.ne_nil {ip : Bytes} (h : IsIpv4 ip) : ip ≠ [] := by
  rintro rfl
  exact absurd (h.header_ge.trans h.header_le) (by decide)

/-- The address at byte `i` of a packet. -/
def addrAt (ip : Bytes) (i : Nat) : U32 :=
  ip.getD i 0#8 ++ ip.getD (i + 1) 0#8 ++ ip.getD (i + 2) 0#8 ++ ip.getD (i + 3) 0#8

/-- The fields that come from the transport header. -/
def TransportMeta.layer4 (tm : TransportMeta) : Layer4 :=
  ⟨tm.srcPort, tm.dstPort, tm.tcpFlags, tm.icmpType, tm.icmpCode, tm.payloadOffset⟩

/-- The frame carries the IPv4 packet `ip`. -/
def CarriesIpv4 (data : Bytes) (linkType : LinkType) (ip : Bytes) : Prop :=
  IsIpv4 ip ∧ ∃ (link : Encapsulation) (etype : U16), linkType = link.linkType ∧
    (etype = 0x0800#16 ∨ etype = 0x86DD#16) ∧ data = link.encode etype ++ ip

/-! ## Layer 2 -/

theorem toBeBytes_fromBeBytes (hi lo : U8) : toBeBytes (fromBeBytes hi lo) = [hi, lo] := by
  unfold toBeBytes fromBeBytes
  simp only [List.cons.injEq, and_true]
  constructor
  · ext i hi
    grind
  · ext i hi
    grind

/-- 14 bytes are an Ethernet header. -/
theorem exists_ethernet {data : Bytes} (h : 14 ≤ data.length) :
    ∃ (dst src : Octets 6) (hi lo : U8) (rest : Bytes),
      data = dst.1 ++ src.1 ++ hi :: lo :: rest := by
  match data, h with
  | d₁ :: d₂ :: d₃ :: d₄ :: d₅ :: d₆ :: s₁ :: s₂ :: s₃ :: s₄ :: s₅ :: s₆ :: hi :: lo :: rest, _ =>
    exact ⟨⟨[d₁, d₂, d₃, d₄, d₅, d₆], rfl⟩, ⟨[s₁, s₂, s₃, s₄, s₅, s₆], rfl⟩, hi, lo, rest, rfl⟩

/-- Five bytes are a VLAN tag's and a packet's. -/
theorem exists_tag {rest : Bytes} (h : 4 < rest.length) :
    ∃ (hi lo hi' lo' : U8) (ip : Bytes), rest = hi :: lo :: hi' :: lo' :: ip ∧ ip ≠ [] := by
  match rest, h with
  | hi :: lo :: hi' :: lo' :: b :: ip, _ => exact ⟨hi, lo, hi', lo', b :: ip, rfl, by simp⟩

/-- What the Ethernet parser accepts is an Ethernet frame of an IP packet. -/
theorem parseEthernet_eq_some {data : Bytes} {l2 : Layer2}
    (h : parseEthernet data = .ok (some l2)) :
    ∃ (link : Encapsulation) (etype : U16) (ip : Bytes), link.linkType = .ethernet ∧
      (etype = 0x0800#16 ∨ etype = 0x86DD#16) ∧ data = link.encode etype ++ ip ∧
      l2 = link.layer2 := by
  have hlen : 14 ≤ data.length := by
    by_contra hshort
    rw [parseEthernet, if_pos (by omega)] at h
    cases h
  obtain ⟨dst, src, hi, lo, rest, rfl⟩ := exists_ethernet hlen
  rw [Encapsulation.parseEthernet_cons] at h
  obtain ⟨⟨etype, offset, vlanId⟩, hvlan, h⟩ := Checked.bind_eq_ok.mp h
  dsimp only at h
  split at h
  · cases h
  · rename_i hetype
    cases h
    have hknown : etype = 0x0800#16 ∨ etype = 0x86DD#16 := by tauto
    by_cases htag : fromBeBytes hi lo = 0x8100#16 ∧ 4 < rest.length
    · obtain ⟨a, b, hi', lo', ip, rfl, hip⟩ := exists_tag htag.2
      rw [htag.1, Encapsulation.parseVlan_cons hip] at hvlan
      cases hvlan
      refine ⟨.ethernet dst src (some (fromBeBytes a b)), _, ip, rfl, hknown, ?_, rfl⟩
      have hbytes := toBeBytes_fromBeBytes hi lo
      rw [htag.1] at hbytes
      simp [Encapsulation.encode, toBeBytes_fromBeBytes, hbytes]
    · have hplain : ¬ (fromBeBytes hi lo = 0x8100#16 ∧
          14 + 4 < (dst.1 ++ src.1 ++ hi :: lo :: rest).length) := by
        rintro ⟨h8100, hroom⟩
        refine htag ⟨h8100, ?_⟩
        simp only [List.length_append, List.length_cons, dst.2, src.2] at hroom
        omega
      rw [parseVlan, if_neg hplain] at hvlan
      cases hvlan
      refine ⟨.ethernet dst src none, _, rest, rfl, hknown, ?_, rfl⟩
      simp [Encapsulation.encode, toBeBytes_fromBeBytes]

/-- What the link parser accepts is an encapsulation of an IP packet. -/
theorem parseLink_eq_some {data ip : Bytes} {linkType : LinkType} {l2 : Layer2}
    (h : parseLink data linkType = .ok (some l2)) (hget : getFrom data l2.ipOffset = some ip) :
    ∃ (link : Encapsulation) (etype : U16), linkType = link.linkType ∧
      (etype = 0x0800#16 ∨ etype = 0x86DD#16) ∧ data = link.encode etype ++ ip ∧
      l2 = link.layer2 := by
  cases linkType with
  | ethernet =>
    obtain ⟨link, etype, ip', hlink, hetype, rfl, rfl⟩ := parseEthernet_eq_some h
    rw [← link.length_encode etype, getFrom_append] at hget
    cases hget
    exact ⟨link, etype, hlink.symm, hetype, rfl, rfl⟩
  | rawIp =>
    cases h
    cases hget
    exact ⟨.rawIp, _, rfl, .inl rfl, rfl, rfl⟩
  | loopback =>
    cases h
    unfold getFrom at hget
    split at hget
    · rename_i hlen
      cases hget
      refine ⟨.loopback ⟨data.take 4, List.length_take_of_le hlen⟩, _, rfl, .inl rfl, ?_, rfl⟩
      exact (List.take_append_drop 4 data).symm
    · cases hget
  | unknown code => cases h

/-! ## Layer 3 -/

theorem getD_eq_of_index {v : Bytes} {i : Nat} {b : U8} (h : index v i = .ok b) :
    v.getD i 0#8 = b := by
  unfold index at h
  split at h
  · rename_i hv
    cases h
    simp [hv]
  · cases h

theorem getFrom_eq_some {v tl : Bytes} {lo : Nat} (h : getFrom v lo = some tl) :
    tl = v.drop lo := by
  unfold getFrom at h
  split at h
  · exact (Option.some.inj h).symm
  · cases h

theorem ofOctets_of_index {ip : Bytes} {i : Nat} {a b c d : U8} (ha : index ip i = .ok a)
    (hb : index ip (i + 1) = .ok b) (hc : index ip (i + 2) = .ok c)
    (hd : index ip (i + 3) = .ok d) : IpAddr.ofOctets a b c d = .v4 (addrAt ip i) := by
  rw [IpAddr.ofOctets, addrAt, getD_eq_of_index ha, getD_eq_of_index hb, getD_eq_of_index hc,
    getD_eq_of_index hd]

/-- The metadata that a call of `parse_ipv4` finds has the addresses and the protocol
of the packet, and what is read behind the header; it finds some exactly if the header
fits. -/
theorem parseIpv4_cases {ip : Bytes} {l2 : Layer2} {o : Option TransportMeta}
    (h : parseIpv4 ip l2 = .ok o) :
    (o = none ∧ ¬ (20 ≤ ipv4HeaderLen ip ∧ ipv4HeaderLen ip ≤ ip.length)) ∨
      ∃ tm, o = some tm ∧ (20 ≤ ipv4HeaderLen ip ∧ ipv4HeaderLen ip ≤ ip.length) ∧
        (tm.srcIp = .v4 (addrAt ip 12) ∧ tm.dstIp = .v4 (addrAt ip 16)) ∧
        tm.protocol = ip.getD 9 0#8 ∧
        parseLayer4 1#8 tm.protocol (ip.drop (ipv4HeaderLen ip)) (l2.ipOffset + ipv4HeaderLen ip)
          = .ok tm.layer4 := by
  unfold parseIpv4 at h
  split at h
  · cases h
    exact .inl ⟨rfl, by omega⟩
  · obtain ⟨b, hb, h⟩ := Checked.bind_eq_ok.mp h
    obtain ⟨ihl, hihl, h⟩ := Checked.bind_eq_ok.mp h
    have hlen : ipv4HeaderLen ip = ihl := by
      rw [Checked.mul_eq_ok hihl, ipv4HeaderLen, getD_eq_of_index hb]
    rw [hlen]
    split at h
    · cases h
      exact .inl ⟨rfl, by omega⟩
    · obtain ⟨ttl, -, h⟩ := Checked.bind_eq_ok.mp h
      obtain ⟨proto, h9, h⟩ := Checked.bind_eq_ok.mp h
      obtain ⟨b6, -, h⟩ := Checked.bind_eq_ok.mp h
      obtain ⟨b7, -, h⟩ := Checked.bind_eq_ok.mp h
      obtain ⟨frag, -, h⟩ := Checked.bind_eq_ok.mp h
      obtain ⟨b12, h12, h⟩ := Checked.bind_eq_ok.mp h
      obtain ⟨b13, h13, h⟩ := Checked.bind_eq_ok.mp h
      obtain ⟨b14, h14, h⟩ := Checked.bind_eq_ok.mp h
      obtain ⟨b15, h15, h⟩ := Checked.bind_eq_ok.mp h
      obtain ⟨b16, h16, h⟩ := Checked.bind_eq_ok.mp h
      obtain ⟨b17, h17, h⟩ := Checked.bind_eq_ok.mp h
      obtain ⟨b18, h18, h⟩ := Checked.bind_eq_ok.mp h
      obtain ⟨b19, h19, h⟩ := Checked.bind_eq_ok.mp h
      have hfits : getFrom ip ihl = some (ip.drop ihl) := if_pos (by omega)
      rw [hfits] at h
      obtain ⟨offset, hoffset, h⟩ := Checked.bind_eq_ok.mp h
      obtain ⟨l4, hl4, h⟩ := Checked.bind_eq_ok.mp h
      cases h
      refine .inr ⟨_, rfl, by omega, ⟨ofOctets_of_index h12 h13 h14 h15,
        ofOctets_of_index h16 h17 h18 h19⟩, (getD_eq_of_index h9).symm, ?_⟩
      rw [← Checked.add_eq_ok hoffset]
      exact hl4

/-- The metadata that `parse_ipv6` finds has an IPv6 address, the next header as its
protocol, and what is read behind the fixed header. -/
theorem parseIpv6_eq_some {ip : Bytes} {l2 : Layer2} {tm : TransportMeta}
    (h : parseIpv6 ip l2 = .ok (some tm)) :
    (∀ a, tm.srcIp ≠ .v4 a) ∧ tm.protocol = ip.getD 6 0#8 ∧
      parseLayer4 58#8 tm.protocol (ip.drop 40) (l2.ipOffset + 40) = .ok tm.layer4 := by
  have hv6 : ∀ s b, ipv6FromSlice s = some b → ∀ a, b ≠ .v4 a := by
    intro s b hb a
    unfold ipv6FromSlice at hb
    split at hb
    · cases hb
      simp
    · cases hb
  unfold parseIpv6 at h
  split at h
  · cases h
  · obtain ⟨proto, hproto, h⟩ := Checked.bind_eq_ok.mp h
    obtain ⟨ttl, -, h⟩ := Checked.bind_eq_ok.mp h
    obtain ⟨src, -, h⟩ := Checked.bind_eq_ok.mp h
    cases hsrc : ipv6FromSlice src with
    | none =>
      rw [hsrc] at h
      cases h
    | some srcIp =>
      rw [hsrc] at h
      obtain ⟨dst, -, h⟩ := Checked.bind_eq_ok.mp h
      cases hdst : ipv6FromSlice dst with
      | none =>
        rw [hdst] at h
        cases h
      | some dstIp =>
        rw [hdst] at h
        cases htl : getFrom ip 40 with
        | none =>
          rw [htl] at h
          cases h
        | some tl =>
          rw [htl] at h
          obtain ⟨offset, hoffset, h⟩ := Checked.bind_eq_ok.mp h
          obtain ⟨l4, hl4, h⟩ := Checked.bind_eq_ok.mp h
          cases h
          refine ⟨hv6 src srcIp hsrc, (getD_eq_of_index hproto).symm, ?_⟩
          rw [← getFrom_eq_some htl, ← Checked.add_eq_ok hoffset]
          exact hl4

theorem getD_of_head? {ip : Bytes} {b : U8} (h : ip.head? = some b) : ip.getD 0 0#8 = b := by
  rw [List.getD_eq_getElem?_getD, ← List.head?_eq_getElem?, h]
  rfl

/-- What is parsed to IPv4 addresses is an IPv4 packet, and they are its own. -/
theorem parseIp_eq_v4 {ip : Bytes} {l2 : Layer2} {tm : TransportMeta} {a : U32}
    (h : parseIp ip l2 = .ok (some tm)) (ha : tm.srcIp = .v4 a) :
    IsIpv4 ip ∧ tm.srcIp = .v4 (addrAt ip 12) ∧ tm.dstIp = .v4 (addrAt ip 16) := by
  unfold parseIp at h
  cases hb : ip.head? with
  | none =>
    rw [hb] at h
    cases h
  | some b =>
    rw [hb] at h
    dsimp only at h
    split at h
    · rename_i hversion
      rcases parseIpv4_cases h with ⟨hnone, -⟩ | ⟨tm', htm', ⟨hge, hle⟩, ⟨hsrc, hdst⟩, -⟩
      · cases hnone
      · cases htm'
        exact ⟨⟨(getD_of_head? hb).symm ▸ hversion, hge, hle⟩, hsrc, hdst⟩
    · split at h
      · exact absurd ha ((parseIpv6_eq_some h).1 a)
      · cases h

/-- An IPv4 packet is parsed to its addresses. -/
theorem parseIp_of_isIpv4 {ip : Bytes} (hip : IsIpv4 ip) {l2 : Layer2} (hoff : l2.ipOffset ≤ 18) :
    ∃ tm, parseIp ip l2 = .ok (some tm) ∧ tm.srcIp = .v4 (addrAt ip 12) ∧
      tm.dstIp = .v4 (addrAt ip 16) := by
  obtain ⟨b, tl, rfl⟩ := List.exists_cons_of_ne_nil hip.ne_nil
  have hparse : parseIp (b :: tl) l2 = parseIpv4 (b :: tl) l2 := if_pos hip.version
  obtain ⟨o, ho, -⟩ := parseIpv4_returns (b :: tl) hoff
  rcases parseIpv4_cases ho with ⟨-, hshort⟩ | ⟨tm, rfl, -, ⟨hsrc, hdst⟩, -⟩
  · exact absurd ⟨hip.header_ge, hip.header_le⟩ hshort
  · exact ⟨tm, hparse.trans ho, hsrc, hdst⟩

/-! ## Frames -/

/-- The frame is the IP packet `ip` in an encapsulation. -/
structure Carries (data : Bytes) (linkType : LinkType) (link : Encapsulation) (ip : Bytes) :
    Prop where
  linkType_eq : linkType = link.linkType
  data_eq : ∃ etype, (etype = 0x0800#16 ∨ etype = 0x86DD#16) ∧ data = link.encode etype ++ ip
  ne_nil : ip ≠ []

/-- What is found of a frame is what is found of its packet. -/
theorem Carries.parseTransport_eq {data ip : Bytes} {linkType : LinkType} {link : Encapsulation}
    (h : Carries data linkType link ip) :
    parseTransport data linkType = parseIp ip link.layer2 := by
  obtain ⟨rfl, ⟨etype, hetype, rfl⟩, hne⟩ := h
  exact link.parseTransport_append hetype hne

theorem CarriesIpv4.carries {data ip : Bytes} {linkType : LinkType}
    (h : CarriesIpv4 data linkType ip) : ∃ link, Carries data linkType link ip := by
  obtain ⟨hip, link, etype, hlinkType, hetype, hdata⟩ := h
  exact ⟨link, hlinkType, ⟨etype, hetype, hdata⟩, hip.ne_nil⟩

/-- What is found is found of a packet in an encapsulation. -/
theorem exists_carries {data : Bytes} {linkType : LinkType} {tm : TransportMeta}
    (h : parseTransport data linkType = .ok (some tm)) :
    ∃ link ip, Carries data linkType link ip := by
  obtain ⟨o, hlink, h⟩ := Checked.bind_eq_ok.mp h
  cases o with
  | none => cases h
  | some l2 =>
    cases hget : getFrom data l2.ipOffset with
    | none =>
      dsimp only at h
      rw [hget] at h
      cases h
    | some ip =>
      dsimp only at h
      rw [hget] at h
      obtain ⟨link, etype, hlinkType, hetype, hdata, -⟩ := parseLink_eq_some hlink hget
      refine ⟨link, ip, hlinkType, ⟨etype, hetype, hdata⟩, ?_⟩
      rintro rfl
      cases h

/-- **What parses as IPv4**: the frames that carry an IPv4 packet, with its
addresses. -/
theorem parsesAsIpv4_iff {data : Bytes} {linkType : LinkType} {src dst : U32} :
    (∃ tm, parseTransport data linkType = .ok (some tm) ∧ tm.srcIp = .v4 src ∧
        tm.dstIp = .v4 dst) ↔
      ∃ ip, CarriesIpv4 data linkType ip ∧ addrAt ip 12 = src ∧ addrAt ip 16 = dst := by
  constructor
  · rintro ⟨tm, h, hsrc, hdst⟩
    obtain ⟨link, ip, hcarries⟩ := exists_carries h
    rw [hcarries.parseTransport_eq] at h
    obtain ⟨hip, hsrc', hdst'⟩ := parseIp_eq_v4 h hsrc
    obtain ⟨etype, hetype, hdata⟩ := hcarries.data_eq
    refine ⟨ip, ⟨hip, link, etype, hcarries.linkType_eq, hetype, hdata⟩, ?_, ?_⟩
    · exact IpAddr.v4.inj (hsrc'.symm.trans hsrc)
    · exact IpAddr.v4.inj (hdst'.symm.trans hdst)
  · rintro ⟨ip, hip, rfl, rfl⟩
    obtain ⟨link, hcarries⟩ := hip.carries
    obtain ⟨tm, htm, hsrc, hdst⟩ := parseIp_of_isIpv4 hip.1 link.ipOffset_le
    exact ⟨tm, hcarries.parseTransport_eq.trans htm, hsrc, hdst⟩

end Ocellus
