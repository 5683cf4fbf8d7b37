import Ocellus.Base.Bytes
import Ocellus.Base.F32
import Ocellus.Base.Text

/-!
# Packets (`raw_packet.rs`)

The record that the capture thread produces and the analyzer consumes. Clock
readings (`Instant`, `SystemTime`, `Duration`) are nanoseconds; those of a `SystemTime`
are since the Unix epoch, and negative before it.
-/

namespace Ocellus

/-- `later.duration_since(earlier).unwrap_or_default()` of system times. -/
def systemSince (later earlier : Int) : Nat := (later - earlier).toNat

/-- `std::net::IpAddr`. -/
inductive IpAddr where
  | v4 (a : U32)
  | v6 (a : BitVec 128)
  deriving DecidableEq, Repr

/-- `Ipv4Addr::new(a, b, c, d)`. -/
def IpAddr.ofOctets (a b c d : U8) : IpAddr := .v4 (a ++ b ++ c ++ d)

/-- pcap data-link type. -/
inductive LinkType where
  | ethernet
  | rawIp
  | loopback
  | unknown (code : U32)
  deriving DecidableEq, Repr

/-- A source MAC address. -/
abbrev Mac := List U8

/-- Transport- and network-layer metadata extracted at capture time. -/
structure TransportMeta where
  srcIp : IpAddr
  dstIp : IpAddr
  srcPort : Option U16
  dstPort : Option U16
  protocol : U8
  tcpFlags : Option U8
  ttl : U8
  ipFlags : U8
  ipFragOffset : U16
  icmpType : Option U8
  icmpCode : Option U8
  ethSrcMac : Option Mac
  vlanId : Option U16
  payloadOffset : Nat
  deriving DecidableEq, Repr

/-- The proto enum `FlagReason`. -/
inductive FlagReason where
  | unspecified
  | portScan
  | synFlood
  | dnsAnomaly
  | geoAnomaly
  | payloadSig
  | rateExceeded
  | blacklisted
  deriving DecidableEq, Repr

/-- A captured packet with its metadata. -/
structure RawPacket where
  timestamp : Int
  data : ByteVec
  origLen : U32
  capLen : U32
  interface : Str
  linkType : LinkType
  transport : Option TransportMeta
  isTruncated : Bool
  packetId : Nat
  /-- Set by the analyzer; 0 until analyzed. -/
  idsScore : F32
  /-- Set by the analyzer; unspecified until analyzed. -/
  idsFlag : FlagReason

end Ocellus
