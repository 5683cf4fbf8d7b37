import Ocellus.Base.Fault
import Ocellus.Capture.RawPacket

/-!
# Header parsing (`capture.rs`)

`parse_transport` and its two network-layer parsers, with every index, slice and
sum that depends on the data checked. Offsets that are constants of the source
are not.
-/

namespace Ocellus

open Checked (index)

/-! ## Layer 2 -/

/-- What layer 2 says: where the IP header starts, and the Ethernet extras. -/
structure Layer2 where
  ipOffset : Nat
  ethSrcMac : Option Mac
  vlanId : Option U16
  deriving DecidableEq, Repr

/-- The 802.1Q VLAN tag at `offset`, if there is one: the EtherType behind it,
the offset behind that, and the VLAN id. -/
def parseVlan (data : Bytes) (offset : Nat) (etype : U16) :
    Checked (U16 × Nat × Option U16) :=
  if etype = 0x8100#16 ∧ offset + 4 < data.length then do
    let tci := fromBeBytes (← index data offset) (← index data (offset + 1))
    let offset := offset + 2
    let etype := fromBeBytes (← index data offset) (← index data (offset + 1))
    return (etype, offset + 2, some (tci &&& 0x0FFF#16))
  else .ok (etype, offset, none)

/-- The Ethernet header. -/
def parseEthernet (data : Bytes) : Checked (Option Layer2) :=
  if data.length < 14 then .ok none
  else do
    let mac ← Checked.slice data 6 12
    let ethSrcMac := if mac.length = 6 then some mac else none
    let etype := fromBeBytes (← index data 12) (← index data 13)
    let (etype, offset, vlanId) ← parseVlan data 14 etype
    if etype ≠ 0x0800#16 ∧ etype ≠ 0x86DD#16 then .ok none
    else .ok (some ⟨offset, ethSrcMac, vlanId⟩)

def parseLink (data : Bytes) : LinkType → Checked (Option Layer2)
  | .ethernet => parseEthernet data
  | .loopback => .ok (some ⟨4, none, none⟩)
  | .rawIp => .ok (some ⟨0, none, none⟩)
  | .unknown _ => .ok none

/-! ## Layer 4 -/

/-- What the transport header says. -/
structure Layer4 where
  srcPort : Option U16
  dstPort : Option U16
  tcpFlags : Option U8
  icmpType : Option U8
  icmpCode : Option U8
  appPayloadOffset : Nat
  deriving DecidableEq, Repr

/-- The transport header `tl`. The two address families share this code, but for
the protocol number of their ICMP. -/
def parseLayer4 (icmp : U8) (proto : U8) (tl : Bytes) (payloadOffset : Nat) : Checked Layer4 :=
  if proto = 6#8 ∧ 20 ≤ tl.length then do
    -- the data offset is the upper nibble of byte 12, in words
    let dataOff ← Checked.mul 64 ((← index tl 12) >>> 4).toNat 4
    return ⟨some (fromBeBytes (← index tl 0) (← index tl 1)),
      some (fromBeBytes (← index tl 2) (← index tl 3)),
      some (← index tl 13), none, none, ← Checked.add 64 payloadOffset dataOff⟩
  else if proto = 17#8 ∧ 8 ≤ tl.length then do
    return ⟨some (fromBeBytes (← index tl 0) (← index tl 1)),
      some (fromBeBytes (← index tl 2) (← index tl 3)),
      none, none, none, ← Checked.add 64 payloadOffset 8⟩
  else if proto = icmp ∧ 4 ≤ tl.length then do
    return ⟨none, none, none, some (← index tl 0), some (← index tl 1),
      ← Checked.add 64 payloadOffset 8⟩
  else .ok ⟨none, none, none, none, none, payloadOffset⟩

/-! ## Layer 3 -/

/-- `parse_ipv4`. -/
def parseIpv4 (ip : Bytes) (l2 : Layer2) : Checked (Option TransportMeta) :=
  if ip.length < 20 then .ok none
  else do
    let ihl ← Checked.mul 64 ((← index ip 0) &&& 0x0F#8).toNat 4
    if ihl < 20 ∨ ip.length < ihl then .ok none
    else do
      let ttl ← index ip 8
      let proto ← index ip 9
      let flagsFrag := fromBeBytes (← index ip 6) (← index ip 7)
      let ipFlags : U8 := ((flagsFrag >>> 13) &&& 0x07#16).setWidth 8
      -- in bytes
      let ipFragOffset ← Checked.mul 16 (flagsFrag &&& 0x1FFF#16).toNat 8
      let srcIp := IpAddr.ofOctets (← index ip 12) (← index ip 13) (← index ip 14) (← index ip 15)
      let dstIp := IpAddr.ofOctets (← index ip 16) (← index ip 17) (← index ip 18) (← index ip 19)
      match getFrom ip ihl with
      | none => .ok none
      | some tl => do
        let payloadOffset ← Checked.add 64 l2.ipOffset ihl
        let l4 ← parseLayer4 1#8 proto tl payloadOffset
        return some {
          srcIp, dstIp, protocol := proto, ttl, ipFlags
          ipFragOffset := BitVec.ofNat 16 ipFragOffset
          srcPort := l4.srcPort, dstPort := l4.dstPort, tcpFlags := l4.tcpFlags
          icmpType := l4.icmpType, icmpCode := l4.icmpCode
          ethSrcMac := l2.ethSrcMac, vlanId := l2.vlanId
          payloadOffset := l4.appPayloadOffset }

/-- `<[u8; 16]>::try_from(s)` and `Ipv6Addr::from`. -/
def ipv6FromSlice : Bytes → Option IpAddr
  | [a, b, c, d, e, f, g, h, i, j, k, l, m, n, o, p] =>
    some (.v6 (a ++ b ++ c ++ d ++ e ++ f ++ g ++ h ++ i ++ j ++ k ++ l ++ m ++ n ++ o ++ p))
  | _ => none

/-- `parse_ipv6`. -/
def parseIpv6 (ip : Bytes) (l2 : Layer2) : Checked (Option TransportMeta) :=
  if ip.length < 40 then .ok none
  else do
    let proto ← index ip 6
    let ttl ← index ip 7
    match ipv6FromSlice (← Checked.slice ip 8 24) with
    | none => .ok none
    | some srcIp => do
      match ipv6FromSlice (← Checked.slice ip 24 40) with
      | none => .ok none
      | some dstIp => do
        match getFrom ip 40 with
        | none => .ok none
        | some tl => do
          let payloadOffset ← Checked.add 64 l2.ipOffset 40
          let l4 ← parseLayer4 58#8 proto tl payloadOffset
          return some {
            srcIp, dstIp, protocol := proto, ttl, ipFlags := 0#8, ipFragOffset := 0#16
            srcPort := l4.srcPort, dstPort := l4.dstPort, tcpFlags := l4.tcpFlags
            icmpType := l4.icmpType, icmpCode := l4.icmpCode
            ethSrcMac := l2.ethSrcMac, vlanId := l2.vlanId
            payloadOffset := l4.appPayloadOffset }

/-- The IP packet `ip`, by its version. -/
def parseIp (ip : Bytes) (l2 : Layer2) : Checked (Option TransportMeta) :=
  match ip.head? with
  | none => .ok none
  | some b =>
    if (b >>> 4) &&& 0xF#8 = 4#8 then parseIpv4 ip l2
    else if (b >>> 4) &&& 0xF#8 = 6#8 then parseIpv6 ip l2
    else .ok none

/-- `parse_transport`: extract transport metadata at capture time. -/
def parseTransport (data : Bytes) (linkType : LinkType) : Checked (Option TransportMeta) := do
  match ← parseLink data linkType with
  | none => .ok none
  | some l2 =>
    match getFrom data l2.ipOffset with
    | none => .ok none
    | some ip => parseIp ip l2

/-! ## Packets -/

/-- `system_time_from_timeval`. -/
def systemTimeFromTimeval (secs : BitVec 64) (micros : U32) : Checked Int := do
  let nanos ← Checked.mul 32 micros.toNat 1000
  -- `Duration::new` carries
  let secs ← Checked.add 64 secs.toNat (nanos / 10 ^ 9)
  -- the seconds of a `SystemTime` are an `i64`
  let secs ← Checked.add 63 secs 0
  return (secs * 10 ^ 9 + nanos % 10 ^ 9 : Nat)

/-- The packet that `run_capture` makes of what pcap delivers. -/
def capturePacket (data : ByteVec) (linkType : LinkType) (origLen capLen : U32)
    (interface : Str) (timestamp : Int) (packetId : Nat) : Checked RawPacket := do
  let transport ← parseTransport data.bytes linkType
  return {
    timestamp, data, origLen, capLen, interface, linkType, transport
    isTruncated := capLen < origLen
    packetId, idsScore := .fin 0, idsFlag := .unspecified }

end Ocellus
