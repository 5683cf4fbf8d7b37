import Ocellus.Ids.FeedLoading

/-!
# Packet events (`parse_packet` in `grpc_client.rs`)

What is reported of a packet. The BLAKE3 hash is a library and a parameter. The
addresses are reported as text, as `IpAddr` displays itself.
-/

namespace Ocellus

/-! ## Addresses as text -/

namespace IpAddr

/-- The eight segments of an IPv6 address. -/
def segments (a : BitVec 128) : List U16 :=
  (List.range 8).map fun i => a.extractLsb' (112 - 16 * i) 16

/-- The first longest run of zero segments: where it starts, and its length. -/
def zeroRun (segments : List U16) : Nat × Nat :=
  (segments.zipIdx.foldl (fun (longest, current) (segment, i) =>
    if segment = 0#16 then
      let current := if current.2 = 0 then (i, 1) else (current.1, current.2 + 1)
      (if longest.2 < current.2 then current else longest, current)
    else (longest, (0, 0))) (((0, 0), (0, 0)) : (Nat × Nat) × (Nat × Nat))).1

/-- Segments in hexadecimal, with colons between them. -/
def segmentsText (segments : List U16) : Str :=
  [':'].intercalate (segments.map fun s => Nat.toDigits 16 s.toNat)

def v6Text (a : BitVec 128) : Str :=
  if a.extractLsb' 32 96 = 0xFFFF#96 then
    "::ffff:".toList ++ Blacklist.addrText (a.extractLsb' 0 32)
  else
    let (start, len) := zeroRun (segments a)
    if 1 < len then
      segmentsText ((segments a).take start) ++ "::".toList
        ++ segmentsText ((segments a).drop (start + len))
    else segmentsText (segments a)

/-- `to_string`. -/
def text : IpAddr → Str
  | .v4 a => Blacklist.addrText a
  | .v6 a => v6Text a

example : (IpAddr.v6 0xFE800000000000000000000000000001#128).text = "fe80::1".toList := by
  decide +kernel

end IpAddr

/-! ## Events -/

/-- The proto enum `Protocol`. -/
inductive Protocol where
  | unspecified
  | tcp
  | udp
  | icmp
  | other
  deriving DecidableEq, Repr

/-- `prost_types::Timestamp`. -/
structure Timestamp where
  seconds : Int
  nanos : Int
  deriving DecidableEq, Repr

/-- `as_secs() as i64` and `subsec_nanos() as i32`, of a duration. -/
def Timestamp.ofDuration (d : Nat) : Timestamp :=
  ⟨(BitVec.ofNat 64 (d / 10 ^ 9)).toInt, (BitVec.ofNat 32 (d % 10 ^ 9)).toInt⟩

/-- The proto message `PacketEvent`. -/
structure PacketEvent where
  agentId : Str
  capturedAt : Option Timestamp
  srcIp : Str
  srcPort : U32
  dstIp : Str
  destPort : U32
  protocol : Protocol
  bytes : BitVec 64
  ttl : U32
  tcpFlags : List Str
  flagReason : FlagReason
  anomalyScore : F32
  payloadHash : Bytes
  interface : Str
  direction : Str
  deriving DecidableEq

def protocolOf (protocol : U8) : Protocol :=
  if protocol = 6#8 then .tcp
  else if protocol = 17#8 then .udp
  else if protocol = 1#8 ∨ protocol = 58#8 then .icmp
  else .other

/-- `decode_tcp_flags`. -/
def decodeTcpFlags (flags : U8) : List Str :=
  (if flags &&& 0x01#8 ≠ 0#8 then ["FIN".toList] else [])
    ++ (if flags &&& 0x02#8 ≠ 0#8 then ["SYN".toList] else [])
    ++ (if flags &&& 0x04#8 ≠ 0#8 then ["RST".toList] else [])
    ++ (if flags &&& 0x08#8 ≠ 0#8 then ["PSH".toList] else [])
    ++ (if flags &&& 0x10#8 ≠ 0#8 then ["ACK".toList] else [])
    ++ (if flags &&& 0x20#8 ≠ 0#8 then ["URG".toList] else [])

/-- `parse_packet`: the event of a packet with transport metadata. -/
def parsePacket (blake3 : Bytes → Bytes) (agentId : Str) (raw : RawPacket) : Option PacketEvent :=
  raw.transport.map fun tm => {
    agentId
    -- a time before the epoch counts as the epoch
    capturedAt := some (.ofDuration (systemSince raw.timestamp 0))
    srcIp := tm.srcIp.text
    srcPort := (tm.srcPort.getD 0#16).setWidth 32
    dstIp := tm.dstIp.text
    destPort := (tm.dstPort.getD 0#16).setWidth 32
    protocol := protocolOf tm.protocol
    bytes := raw.origLen.setWidth 64
    ttl := tm.ttl.setWidth 32
    tcpFlags := (tm.tcpFlags.map decodeTcpFlags).getD []
    flagReason := raw.idsFlag
    anomalyScore := raw.idsScore
    payloadHash := blake3 raw.data.bytes
    interface := raw.interface
    direction := "unknown".toList }

@[simp] theorem parsePacket_isSome (blake3 : Bytes → Bytes) (agentId : Str) (raw : RawPacket) :
    (parsePacket blake3 agentId raw).isSome = raw.transport.isSome := Option.isSome_map ..

/-! ## A packet -/

/-- An IPv4 header with nothing behind it, from 10.0.0.1 to 10.0.0.2. -/
def bareHeader : Bytes :=
  [0x45#8, 0#8, 0#8, 20#8, 0#8, 0#8, 0#8, 0#8, 64#8, 253#8, 0#8, 0#8, 10#8, 0#8, 0#8, 1#8,
    10#8, 0#8, 0#8, 2#8]

/-- Its BLAKE3 hash. -/
def bareHash : Bytes :=
  [0x08#8, 0xA0#8, 0x7C#8, 0x5E#8, 0xCA#8, 0xFA#8, 0x4C#8, 0xE3#8, 0xA4#8, 0x9C#8, 0x61#8, 0x4E#8,
    0x11#8, 0x1E#8, 0xCC#8, 0x82#8, 0x0B#8, 0x4E#8, 0x4F#8, 0xE5#8, 0xEE#8, 0x2B#8, 0xEA#8, 0x94#8,
    0x41#8, 0x57#8, 0xDE#8, 0x8E#8, 0xFD#8, 0x9E#8, 0xA2#8, 0xF5#8]

/-- The packet that `run_capture` makes of it. -/
def barePacket (packetId : Nat) : RawPacket where
  timestamp := 0
  data := ⟨bareHeader, by decide⟩
  origLen := 20#32
  capLen := 20#32
  interface := []
  linkType := .rawIp
  transport := some {
    srcIp := .v4 0x0A000001#32, dstIp := .v4 0x0A000002#32, srcPort := none, dstPort := none
    protocol := 253#8, tcpFlags := none, ttl := 64#8, ipFlags := 0#8, ipFragOffset := 0#16
    icmpType := none, icmpCode := none, ethSrcMac := none, vlanId := none, payloadOffset := 20 }
  isTruncated := false
  packetId
  idsScore := .fin 0
  idsFlag := .unspecified

/-- What is reported of it. -/
def bareEvent : PacketEvent where
  agentId := []
  capturedAt := some ⟨0, 0⟩
  srcIp := "10.0.0.1".toList
  srcPort := 0#32
  dstIp := "10.0.0.2".toList
  destPort := 0#32
  protocol := .other
  bytes := 20#64
  ttl := 64#32
  tcpFlags := []
  flagReason := .unspecified
  anomalyScore := .fin 0
  payloadHash := bareHash
  interface := []
  direction := "unknown".toList

theorem parsePacket_barePacket (packetId : Nat) :
    parsePacket (fun _ => bareHash) [] (barePacket packetId) = some bareEvent := by
  rw [parsePacket, barePacket]
  simp only [Option.map_some, Option.some.injEq]
  decide +kernel

end Ocellus
