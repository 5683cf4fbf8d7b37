import Ocellus.Capture.Parse

/-!
# Framing, and that parsing undoes it

A `Frame` is a link encapsulation, an IP header, a transport header and a
payload; each header is a structure whose length fields agree with its options,
so that every frame is well formed. `parseTransport_encode` says that parsing the
serialized frame gives exactly its `transport`, with one lemma for each layer.
-/

namespace Ocellus

open Checked (index)

/-! ## Serialization of words -/

/-- A byte string of `n` bytes. -/
abbrev Octets (n : Nat) := { l : Bytes // l.length = n }

/-- The bytes of a 32-bit word, most significant first. -/
def toBeBytes32 (x : U32) : Bytes :=
  [x.extractLsb' 24 8, x.extractLsb' 16 8, x.extractLsb' 8 8, x.extractLsb' 0 8]

/-- The bytes of a 128-bit word, most significant first. -/
def toBeBytes128 (x : BitVec 128) : Bytes :=
  [x.extractLsb' 120 8, x.extractLsb' 112 8, x.extractLsb' 104 8, x.extractLsb' 96 8,
    x.extractLsb' 88 8, x.extractLsb' 80 8, x.extractLsb' 72 8, x.extractLsb' 64 8,
    x.extractLsb' 56 8, x.extractLsb' 48 8, x.extractLsb' 40 8, x.extractLsb' 32 8,
    x.extractLsb' 24 8, x.extractLsb' 16 8, x.extractLsb' 8 8, x.extractLsb' 0 8]

theorem ofOctets_toBeBytes32 (x : U32) :
    IpAddr.ofOctets (x.extractLsb' 24 8) (x.extractLsb' 16 8) (x.extractLsb' 8 8)
      (x.extractLsb' 0 8) = .v4 x := by
  unfold IpAddr.ofOctets
  rw [BitVec.extractLsb'_append_extractLsb'_eq_extractLsb' (by decide),
    BitVec.extractLsb'_append_extractLsb'_eq_extractLsb' (by decide),
    BitVec.extractLsb'_append_extractLsb'_eq_extractLsb' (by decide)]
  exact congrArg IpAddr.v4 BitVec.extractLsb'_eq_self

theorem ipv6FromSlice_toBeBytes128 (x : BitVec 128) :
    ipv6FromSlice (toBeBytes128 x) = some (.v6 x) := by
  simp only [toBeBytes128, ipv6FromSlice]
  iterate 15 rw [BitVec.extractLsb'_append_extractLsb'_eq_extractLsb' (by decide)]
  exact congrArg (fun a => some (IpAddr.v6 a)) BitVec.extractLsb'_eq_self

/-! ## Layer 2 -/

/-- How a frame carries its IP packet. -/
inductive Encapsulation where
  /-- Ethernet, with the tag control information of its 802.1Q tag, if any. -/
  | ethernet (dst src : Octets 6) (tci : Option U16)
  | rawIp
  | loopback (header : Octets 4)

namespace Encapsulation

def linkType : Encapsulation → LinkType
  | .ethernet .. => .ethernet
  | .rawIp => .rawIp
  | .loopback _ => .loopback

/-- The bytes before the IP header, for a payload of the given EtherType. -/
def encode (etype : U16) : Encapsulation → Bytes
  | .ethernet dst src none => dst.1 ++ src.1 ++ toBeBytes etype
  | .ethernet dst src (some tci) =>
    dst.1 ++ src.1 ++ toBeBytes 0x8100#16 ++ toBeBytes tci ++ toBeBytes etype
  | .rawIp => []
  | .loopback header => header.1

/-- What a parser should find of it. -/
def layer2 : Encapsulation → Layer2
  | .ethernet _ src none => ⟨14, some src.1, none⟩
  | .ethernet _ src (some tci) => ⟨18, some src.1, some (tci &&& 0x0FFF#16)⟩
  | .rawIp => ⟨0, none, none⟩
  | .loopback _ => ⟨4, none, none⟩

theorem length_encode (etype : U16) (e : Encapsulation) :
    (e.encode etype).length = e.layer2.ipOffset := by
  rcases e with ⟨dst, src, _ | tci⟩ | _ | header
  · simp [encode, layer2, dst.2, src.2]
  · simp [encode, layer2, dst.2, src.2]
  · rfl
  · exact header.2

theorem ipOffset_le (e : Encapsulation) : e.layer2.ipOffset ≤ 18 := by
  rcases e with ⟨dst, src, _ | tci⟩ | _ | header <;> simp [layer2]

/-- The Ethernet header with its EtherType spelled out. -/
theorem parseEthernet_cons {dst src : Octets 6} {hi lo : U8} {rest : Bytes} :
    parseEthernet (dst.1 ++ src.1 ++ hi :: lo :: rest)
      = (parseVlan (dst.1 ++ src.1 ++ hi :: lo :: rest) 14 (fromBeBytes hi lo) >>=
        fun (etype, offset, vlanId) =>
          if etype ≠ 0x0800#16 ∧ etype ≠ 0x86DD#16 then .ok none
          else .ok (some ⟨offset, some src.1, vlanId⟩)) := by
  match dst, src with
  | ⟨[_, _, _, _, _, _], _⟩, ⟨[_, _, _, _, _, _], _⟩ =>
    simp [parseEthernet, Checked.slice, index]

/-- A tag at byte 14. -/
theorem parseVlan_cons {dst src : Octets 6} {a b hi lo hi' lo' : U8} {rest : Bytes}
    (hrest : rest ≠ []) :
    parseVlan (dst.1 ++ src.1 ++ a :: b :: hi :: lo :: hi' :: lo' :: rest) 14 0x8100#16
      = .ok (fromBeBytes hi' lo', 18, some (fromBeBytes hi lo &&& 0x0FFF#16)) := by
  have hlen : 0 < rest.length := List.length_pos_iff.mpr hrest
  match dst, src with
  | ⟨[_, _, _, _, _, _], _⟩, ⟨[_, _, _, _, _, _], _⟩ =>
    simp [parseVlan, hlen]

theorem parseLink_encode (e : Encapsulation) {etype : U16}
    (hetype : etype = 0x0800#16 ∨ etype = 0x86DD#16) {ip : Bytes} (hip : ip ≠ []) :
    parseLink (e.encode etype ++ ip) e.linkType = .ok (some e.layer2) := by
  have hknown : ¬ (etype ≠ 0x0800#16 ∧ etype ≠ 0x86DD#16) := by
    rcases hetype with rfl | rfl <;> decide
  have hnotag : etype ≠ 0x8100#16 := by
    rcases hetype with rfl | rfl <;> decide
  rcases e with ⟨dst, src, _ | tci⟩ | _ | header
  · have hbytes : dst.1 ++ src.1 ++ toBeBytes etype ++ ip
        = dst.1 ++ src.1 ++ etype.extractLsb' 8 8 :: etype.extractLsb' 0 8 :: ip := by
      simp [toBeBytes]
    show parseEthernet (encode etype (.ethernet dst src none) ++ ip) = _
    simp only [encode]
    rw [hbytes, parseEthernet_cons, fromBeBytes_toBeBytes]
    have hplain : ∀ data, parseVlan data 14 etype = .ok (etype, 14, none) :=
      fun data => if_neg fun h => hnotag h.1
    rw [hplain]
    exact if_neg hknown
  · have hbytes : dst.1 ++ src.1 ++ toBeBytes 0x8100#16 ++ toBeBytes tci ++ toBeBytes etype ++ ip
        = dst.1 ++ src.1 ++ 0x81#8 :: 0x00#8 :: tci.extractLsb' 8 8 :: tci.extractLsb' 0 8 ::
          etype.extractLsb' 8 8 :: etype.extractLsb' 0 8 :: ip := by
      simp [toBeBytes]
    show parseEthernet (encode etype (.ethernet dst src (some tci)) ++ ip) = _
    simp only [encode]
    rw [hbytes, parseEthernet_cons, show fromBeBytes 0x81#8 0x00#8 = 0x8100#16 from rfl,
      parseVlan_cons hip, fromBeBytes_toBeBytes, fromBeBytes_toBeBytes]
    exact if_neg hknown
  · rfl
  · rfl

/-- Parsing a frame is parsing the packet in it. -/
theorem parseTransport_append (e : Encapsulation) {etype : U16}
    (hetype : etype = 0x0800#16 ∨ etype = 0x86DD#16) {ip : Bytes} (hip : ip ≠ []) :
    parseTransport (e.encode etype ++ ip) e.linkType = parseIp ip e.layer2 := by
  have hget : getFrom (e.encode etype ++ ip) e.layer2.ipOffset = some ip := by
    rw [← e.length_encode etype]
    exact getFrom_append _ _
  unfold parseTransport
  rw [e.parseLink_encode hetype hip]
  simp only [Checked.ok_bind, hget]

end Encapsulation

/-! ## Layer 4 -/

structure TcpHeader where
  srcPort : U16
  dstPort : U16
  sequence : U32
  acknowledgment : U32
  /-- The length of the header in words. -/
  dataOffset : BitVec 4
  reserved : BitVec 4
  flags : U8
  window : U16
  checksum : U16
  urgent : U16
  options : Bytes
  length_eq : 20 + options.length = 4 * dataOffset.toNat

/-- A transport header. -/
inductive TransportHeader where
  | tcp (h : TcpHeader)
  | udp (srcPort dstPort length checksum : U16)
  /-- ICMP or ICMPv6, with an 8-byte header. -/
  | icmp (type code : U8) (checksum : U16) (rest : Octets 4)

namespace TransportHeader

/-- The protocol number, given that of the address family's ICMP. -/
def protocol (icmp : U8) : TransportHeader → U8
  | .tcp _ => 6#8
  | .udp .. => 17#8
  | .icmp .. => icmp

def encode : TransportHeader → Bytes
  | .tcp h => toBeBytes h.srcPort ++ toBeBytes h.dstPort ++ toBeBytes32 h.sequence ++
    toBeBytes32 h.acknowledgment ++ [h.dataOffset ++ h.reserved, h.flags] ++
    toBeBytes h.window ++ toBeBytes h.checksum ++ toBeBytes h.urgent ++ h.options
  | .udp srcPort dstPort length checksum =>
    toBeBytes srcPort ++ toBeBytes dstPort ++ toBeBytes length ++ toBeBytes checksum
  | .icmp type code checksum rest => [type, code] ++ toBeBytes checksum ++ rest.1

/-- What a parser should find of a header at `offset`. -/
def layer4 (offset : Nat) : TransportHeader → Layer4
  | .tcp h => ⟨some h.srcPort, some h.dstPort, some h.flags, none, none,
    offset + 4 * h.dataOffset.toNat⟩
  | .udp srcPort dstPort _ _ => ⟨some srcPort, some dstPort, none, none, none, offset + 8⟩
  | .icmp type code _ _ => ⟨none, none, none, some type, some code, offset + 8⟩

/-- The payload starts behind the header. -/
theorem layer4_eq (offset : Nat) (h : TransportHeader) :
    h.layer4 offset = { h.layer4 0 with appPayloadOffset := offset + h.encode.length } := by
  cases h with
  | tcp h =>
    have := h.length_eq
    simp [layer4, encode, toBeBytes, toBeBytes32]
    omega
  | udp => rfl
  | icmp type code checksum rest => simp [layer4, encode, rest.2]

/-- The upper nibble of a byte. -/
theorem toNat_append_shiftRight (a b : BitVec 4) : (a ++ b : U8).toNat >>> 4 = a.toNat := by
  revert a b
  decide

theorem parseLayer4_encode (h : TransportHeader) {icmp : U8} (hicmp : icmp = 1#8 ∨ icmp = 58#8)
    {offset : Nat} (hoffset : offset ≤ 78) (payload : Bytes) :
    parseLayer4 icmp (h.protocol icmp) (h.encode ++ payload) offset = .ok (h.layer4 offset) := by
  have hadd : ∀ n, n ≤ 60 → Checked.add 64 offset n = .ok (offset + n) :=
    fun n hn => Checked.add_of_lt (by omega)
  cases h with
  | tcp h =>
    have hlen := h.length_eq
    have hnibble := h.dataOffset.isLt
    have hmul : Checked.mul 64 h.dataOffset.toNat 4 = .ok (4 * h.dataOffset.toNat) := by
      rw [Checked.mul_of_lt (by omega), Nat.mul_comm]
    simp [parseLayer4, protocol, encode, layer4, toBeBytes, toBeBytes32, toNat_append_shiftRight,
      hmul, hadd _ (show 4 * h.dataOffset.toNat ≤ 60 by omega)]
  | udp =>
    simp [parseLayer4, protocol, encode, layer4, toBeBytes, hadd 8 (by omega)]
  | icmp type code checksum rest =>
    have htcp : icmp ≠ 6#8 := by rcases hicmp with rfl | rfl <;> decide
    have hudp : icmp ≠ 17#8 := by rcases hicmp with rfl | rfl <;> decide
    simp [parseLayer4, protocol, encode, layer4, htcp, hudp, hadd 8 (by omega)]

end TransportHeader

/-! ## Layer 3 -/

structure Ipv4Header where
  /-- The length of the header in words. -/
  ihl : BitVec 4
  tos : U8
  totalLength : U16
  identification : U16
  /-- Reserved, DF and MF. -/
  flags : BitVec 3
  ttl : U8
  checksum : U16
  src : U32
  dst : U32
  options : Bytes
  length_eq : 20 + options.length = 4 * ihl.toNat

/-- An IPv6 header without extension headers. -/
structure Ipv6Header where
  /-- The upper half of the traffic class. -/
  traffic : BitVec 4
  /-- The rest of the traffic class, and the flow label. -/
  flow : Octets 3
  payloadLength : U16
  hopLimit : U8
  src : BitVec 128
  dst : BitVec 128

inductive NetworkHeader where
  | v4 (h : Ipv4Header)
  | v6 (h : Ipv6Header)

namespace NetworkHeader

def etherType : NetworkHeader → U16
  | .v4 _ => 0x0800#16
  | .v6 _ => 0x86DD#16

/-- The protocol number of ICMP in this family. -/
def icmp : NetworkHeader → U8
  | .v4 _ => 1#8
  | .v6 _ => 58#8

/-- The bytes of the header, for a payload of protocol `proto`; the fragment
offset is 0. -/
def encode (proto : U8) : NetworkHeader → Bytes
  | .v4 h => [0x4#4 ++ h.ihl, h.tos] ++ toBeBytes h.totalLength ++ toBeBytes h.identification ++
    toBeBytes (h.flags ++ 0#13) ++ [h.ttl, proto] ++ toBeBytes h.checksum ++
    toBeBytes32 h.src ++ toBeBytes32 h.dst ++ h.options
  | .v6 h => [0x6#4 ++ h.traffic] ++ h.flow.1 ++ toBeBytes h.payloadLength ++
    [proto, h.hopLimit] ++ toBeBytes128 h.src ++ toBeBytes128 h.dst

/-- What a parser should find, given what it found of the other layers. -/
def transport (proto : U8) (l2 : Layer2) (l4 : Layer4) (h : NetworkHeader) : TransportMeta where
  srcIp := match h with | .v4 h => .v4 h.src | .v6 h => .v6 h.src
  dstIp := match h with | .v4 h => .v4 h.dst | .v6 h => .v6 h.dst
  protocol := proto
  ttl := match h with | .v4 h => h.ttl | .v6 h => h.hopLimit
  ipFlags := match h with | .v4 h => h.flags.setWidth 8 | .v6 _ => 0#8
  ipFragOffset := 0#16
  srcPort := l4.srcPort
  dstPort := l4.dstPort
  tcpFlags := l4.tcpFlags
  icmpType := l4.icmpType
  icmpCode := l4.icmpCode
  ethSrcMac := l2.ethSrcMac
  vlanId := l2.vlanId
  payloadOffset := l4.appPayloadOffset

theorem icmp_eq (h : NetworkHeader) : h.icmp = 1#8 ∨ h.icmp = 58#8 := by
  cases h with
  | v4 => exact .inl rfl
  | v6 => exact .inr rfl

theorem etherType_eq (h : NetworkHeader) : h.etherType = 0x0800#16 ∨ h.etherType = 0x86DD#16 := by
  cases h with
  | v4 => exact .inl rfl
  | v6 => exact .inr rfl

theorem encode_ne_nil (proto : U8) (h : NetworkHeader) (tl : Bytes) :
    h.encode proto ++ tl ≠ [] := by
  cases h <;> simp [encode]

theorem length_encode_le (proto : U8) (h : NetworkHeader) : (h.encode proto).length ≤ 60 := by
  cases h with
  | v4 h =>
    have hlen := h.length_eq
    have hnibble := h.ihl.isLt
    simp [encode, toBeBytes, toBeBytes32]
    omega
  | v6 h => simp [encode, toBeBytes, toBeBytes128, h.flow.2]

/-- The lower nibble of the first byte of an IPv4 header. -/
theorem toNat_and_lower (a : BitVec 4) : ((0x4#4 ++ a : U8) &&& 0x0F#8).toNat = a.toNat := by
  revert a
  decide

theorem flags_of_append (a : BitVec 3) :
    (((a ++ 0#13 : U16) >>> 13) &&& 0x07#16).setWidth 8 = a.setWidth 8 ∧
      ((a ++ 0#13 : U16) &&& 0x1FFF#16).toNat = 0 := by
  revert a
  decide

/-- The bytes of an IPv4 header, where the parser reads them. -/
theorem index_encode_v4 (h : Ipv4Header) (proto : U8) (tl : Bytes) :
    let ip := encode proto (.v4 h) ++ tl
    (index ip 0 = .ok (0x4#4 ++ h.ihl) ∧ index ip 8 = .ok h.ttl ∧ index ip 9 = .ok proto) ∧
    (index ip 6 = .ok ((h.flags ++ 0#13 : U16).extractLsb' 8 8) ∧
      index ip 7 = .ok ((h.flags ++ 0#13 : U16).extractLsb' 0 8)) ∧
    (index ip 12 = .ok (h.src.extractLsb' 24 8) ∧ index ip 13 = .ok (h.src.extractLsb' 16 8) ∧
      index ip 14 = .ok (h.src.extractLsb' 8 8) ∧ index ip 15 = .ok (h.src.extractLsb' 0 8)) ∧
    (index ip 16 = .ok (h.dst.extractLsb' 24 8) ∧ index ip 17 = .ok (h.dst.extractLsb' 16 8) ∧
      index ip 18 = .ok (h.dst.extractLsb' 8 8) ∧ index ip 19 = .ok (h.dst.extractLsb' 0 8)) :=
  ⟨⟨rfl, rfl, rfl⟩, ⟨rfl, rfl⟩, ⟨rfl, rfl, rfl, rfl⟩, rfl, rfl, rfl, rfl⟩

theorem parseIpv4_encode (h : Ipv4Header) (proto : U8) {l2 : Layer2} (hoff : l2.ipOffset ≤ 18)
    (tl : Bytes) :
    parseIpv4 (encode proto (.v4 h) ++ tl) l2 = (do
      let l4 ← parseLayer4 1#8 proto tl (l2.ipOffset + (encode proto (.v4 h)).length)
      return some (transport proto l2 l4 (.v4 h))) := by
  have hlen := h.length_eq
  have hnibble := h.ihl.isLt
  have hihl : (encode proto (.v4 h)).length = h.ihl.toNat * 4 := by
    rw [Nat.mul_comm, ← hlen]
    simp [encode, toBeBytes, toBeBytes32]
    omega
  obtain ⟨⟨h0, h8, h9⟩, ⟨h6, h7⟩, ⟨h12, h13, h14, h15⟩, h16, h17, h18, h19⟩ :=
    index_encode_v4 h proto tl
  have htl : getFrom (encode proto (.v4 h) ++ tl) (h.ihl.toNat * 4) = some tl := by
    rw [← hihl]
    exact getFrom_append _ _
  have hip : (encode proto (.v4 h) ++ tl).length = h.ihl.toNat * 4 + tl.length := by
    rw [List.length_append, hihl]
  have hmul : Checked.mul 64 ((0x4#4 ++ h.ihl : U8) &&& 0x0F#8).toNat 4 = .ok (h.ihl.toNat * 4) := by
    rw [toNat_and_lower, Checked.mul_of_lt (by omega)]
  have hadd : Checked.add 64 l2.ipOffset (h.ihl.toNat * 4) = .ok (l2.ipOffset + h.ihl.toNat * 4) :=
    Checked.add_of_lt (by omega)
  obtain ⟨hflags, hfrag⟩ := flags_of_append h.flags
  have hfrag' : Checked.mul 16 ((h.flags ++ 0#13 : U16) &&& 0x1FFF#16).toNat 8 = .ok 0 := by
    rw [hfrag]
    rfl
  rw [hihl]
  generalize encode proto (.v4 h) ++ tl = ip at *
  unfold parseIpv4
  rw [if_neg (by omega), h0]
  simp only [Checked.ok_bind, hmul]
  rw [if_neg (by omega)]
  simp only [h6, h7, h8, h9, h12, h13, h14, h15, h16, h17, h18, h19, Checked.ok_bind,
    fromBeBytes_toBeBytes, hfrag', htl, hadd, ofOctets_toBeBytes32, hflags]
  rfl

/-- The bytes of an IPv6 header, where the parser reads them. -/
theorem read_encode_v6 (h : Ipv6Header) (proto : U8) (tl : Bytes) :
    let ip := encode proto (.v6 h) ++ tl
    ip.length = 40 + tl.length ∧
    (index ip 6 = .ok proto ∧ index ip 7 = .ok h.hopLimit) ∧
    (Checked.slice ip 8 24 = .ok (toBeBytes128 h.src) ∧
      Checked.slice ip 24 40 = .ok (toBeBytes128 h.dst)) ∧
    getFrom ip 40 = some tl := by
  obtain ⟨traffic, ⟨flow, hflow⟩, payloadLength, hopLimit, src, dst⟩ := h
  match flow, hflow with
  | [_, _, _], _ =>
    simp [encode, toBeBytes, toBeBytes128, Checked.slice, getFrom]
    omega

theorem parseIpv6_encode (h : Ipv6Header) (proto : U8) {l2 : Layer2} (hoff : l2.ipOffset ≤ 18)
    (tl : Bytes) :
    parseIpv6 (encode proto (.v6 h) ++ tl) l2 = (do
      let l4 ← parseLayer4 58#8 proto tl (l2.ipOffset + (encode proto (.v6 h)).length)
      return some (transport proto l2 l4 (.v6 h))) := by
  have hlen : (encode proto (.v6 h)).length = 40 := by
    simp [encode, toBeBytes, toBeBytes128, h.flow.2]
  obtain ⟨hip, ⟨h6, h7⟩, ⟨hsrc, hdst⟩, htl⟩ := read_encode_v6 h proto tl
  have hadd : Checked.add 64 l2.ipOffset 40 = .ok (l2.ipOffset + 40) :=
    Checked.add_of_lt (by omega)
  rw [hlen]
  generalize encode proto (.v6 h) ++ tl = ip at *
  unfold parseIpv6
  rw [if_neg (by omega)]
  simp only [h6, h7, hsrc, hdst, htl, hadd, Checked.ok_bind, ipv6FromSlice_toBeBytes128]
  rfl

/-- The version nibble selects the parser. -/
theorem parseIp_encode (h : NetworkHeader) (proto : U8) {l2 : Layer2} (hoff : l2.ipOffset ≤ 18)
    (tl : Bytes) :
    parseIp (h.encode proto ++ tl) l2 = (do
      let l4 ← parseLayer4 h.icmp proto tl (l2.ipOffset + (h.encode proto).length)
      return some (h.transport proto l2 l4)) := by
  cases h with
  | v4 h =>
    have hversion : ((0x4#4 ++ h.ihl : U8) >>> 4) &&& 0xF#8 = 4#8 := by
      generalize h.ihl = a
      revert a
      decide
    refine Eq.trans ?_ (parseIpv4_encode h proto hoff tl)
    exact if_pos hversion
  | v6 h =>
    have hversion : ((0x6#4 ++ h.traffic : U8) >>> 4) &&& 0xF#8 = 6#8 := by
      generalize h.traffic = a
      revert a
      decide
    have hother : ¬ ((0x6#4 ++ h.traffic : U8) >>> 4) &&& 0xF#8 = 4#8 := by
      rw [hversion]
      decide
    refine Eq.trans ?_ (parseIpv6_encode h proto hoff tl)
    exact (if_neg hother).trans (if_pos hversion)

end NetworkHeader

/-! ## Frames -/

/-- A frame, layer by layer. -/
structure Frame where
  link : Encapsulation
  network : NetworkHeader
  transport : TransportHeader
  payload : Bytes

namespace Frame

/-- The protocol number in the IP header. -/
def protocol (f : Frame) : U8 := f.transport.protocol f.network.icmp

/-- Everything before the payload. -/
def headers (f : Frame) : Bytes :=
  f.link.encode f.network.etherType ++ f.network.encode f.protocol ++ f.transport.encode

def encode (f : Frame) : Bytes := f.headers ++ f.payload

/-- What a parser should find: the layers' own fields, and the index of the
first byte of the payload. -/
def transportMeta (f : Frame) : TransportMeta :=
  { f.network.transport f.protocol f.link.layer2 (f.transport.layer4 0) with
    payloadOffset := f.headers.length }

/-- The IP packet in the frame. -/
def packet (f : Frame) : Bytes := f.network.encode f.protocol ++ (f.transport.encode ++ f.payload)

theorem encode_eq (f : Frame) : f.encode = f.link.encode f.network.etherType ++ f.packet := by
  simp [encode, headers, packet]

theorem packet_ne_nil (f : Frame) : f.packet ≠ [] := f.network.encode_ne_nil f.protocol _

/-- Behind the encapsulation, the packet is parsed to the metadata of the frame. -/
theorem parseIp_packet (f : Frame) : parseIp f.packet f.link.layer2 = .ok (some f.transportMeta) := by
  have hoffset : f.link.layer2.ipOffset + (f.network.encode f.protocol).length ≤ 78 := by
    have hl := f.link.ipOffset_le
    have hn := f.network.length_encode_le f.protocol
    omega
  have hlayer4 : parseLayer4 f.network.icmp f.protocol (f.transport.encode ++ f.payload)
      (f.link.layer2.ipOffset + (f.network.encode f.protocol).length) = .ok (f.transport.layer4 _) :=
    f.transport.parseLayer4_encode f.network.icmp_eq hoffset f.payload
  have hip := f.network.parseIp_encode f.protocol f.link.ipOffset_le
    (f.transport.encode ++ f.payload)
  rw [hlayer4] at hip
  have hpayload : f.link.layer2.ipOffset + (f.network.encode f.protocol).length
      + f.transport.encode.length = f.headers.length := by
    simp only [headers, List.length_append, f.link.length_encode]
  refine hip.trans ?_
  rw [f.transport.layer4_eq]
  exact congrArg (fun n => Except.ok (some
    (f.network.transport f.protocol f.link.layer2
      { f.transport.layer4 0 with appPayloadOffset := n }))) hpayload

/-- **Parsing undoes framing.** -/
theorem parseTransport_encode (f : Frame) :
    parseTransport f.encode f.link.linkType = .ok (some f.transportMeta) := by
  rw [f.encode_eq, f.link.parseTransport_append f.network.etherType_eq f.packet_ne_nil]
  exact f.parseIp_packet

end Frame

end Ocellus
