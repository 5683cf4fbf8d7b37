import Ocellus.Capture.Parse
import Ocellus.Pipeline.AddressText

/-!
# What an event keeps of its packet (`parse_packet` in `grpc_client.rs`)

The time of a packet goes into its event as pcap has it (`capturedAt_of_timeval`).

Packets have the same event if and only if they are alike in what is listed here
(`parsePacket_eq_iff`). So an event tells the addresses, the time to live and the six
older TCP flags of its packet, but not whether a port is 0 or there is none, nor which of
the two ICMP protocols it is, nor a time before the epoch; and of the data, it tells the
length and the hash.
-/

namespace Ocellus

/-! ## Flags as names -/

/-- The flag of a name. -/
def tcpFlagOf (name : Str) : U8 :=
  if name = "FIN".toList then 0x01#8
  else if name = "SYN".toList then 0x02#8
  else if name = "RST".toList then 0x04#8
  else if name = "PSH".toList then 0x08#8
  else if name = "ACK".toList then 0x10#8
  else 0x20#8

/-- The flags of some names. -/
def encodeTcpFlags (names : List Str) : U8 := names.foldr (fun name flags => tcpFlagOf name ||| flags) 0#8

theorem encodeTcpFlags_decodeTcpFlags :
    ∀ flags : U8, encodeTcpFlags (decodeTcpFlags flags) = flags &&& 0x3F#8 := by
  decide +kernel

/-- Only the six older flags have names. -/
theorem decodeTcpFlags_and : ∀ flags : U8, decodeTcpFlags (flags &&& 0x3F#8) = decodeTcpFlags flags := by
  decide +kernel

theorem decodeTcpFlags_eq_iff {x y : U8} :
    decodeTcpFlags x = decodeTcpFlags y ↔ x &&& 0x3F#8 = y &&& 0x3F#8 := by
  constructor
  · intro h
    rw [← encodeTcpFlags_decodeTcpFlags, h, encodeTcpFlags_decodeTcpFlags]
  · intro h
    rw [← decodeTcpFlags_and, h, decodeTcpFlags_and]

/-- No flags have the same names as no TCP header. -/
theorem tcpFlags_eq_getD (flags : Option U8) :
    (flags.map decodeTcpFlags).getD [] = decodeTcpFlags (flags.getD 0#8) := by
  cases flags with
  | none => decide
  | some flags => rfl

/-! ## Times as numbers -/

/-- Seconds wrap; nanoseconds do not. -/
theorem Timestamp.ofDuration_eq_iff {d d' : Nat} : Timestamp.ofDuration d = Timestamp.ofDuration d' ↔
    d / 10 ^ 9 % 2 ^ 64 = d' / 10 ^ 9 % 2 ^ 64 ∧ d % 10 ^ 9 = d' % 10 ^ 9 := by
  have hnanos : ∀ n : Nat, n % 10 ^ 9 % 2 ^ 32 = n % 10 ^ 9 := fun n => Nat.mod_eq_of_lt <|
    (Nat.mod_lt n (by decide)).trans (by decide)
  rw [Timestamp.ofDuration, Timestamp.ofDuration, Timestamp.mk.injEq, BitVec.toInt_inj,
    BitVec.toInt_inj, ← BitVec.toNat_inj, ← BitVec.toNat_inj]
  simp only [BitVec.toNat_ofNat, hnanos]

theorem systemSince_zero (t : Int) : systemSince t 0 = t.toNat := by
  rw [systemSince, Int.sub_zero]

/-- Proper times are taken over as they are. -/
theorem systemTimeFromTimeval_eq {secs : BitVec 64} {micros : U32} (hsecs : secs.toNat < 2 ^ 63)
    (hmicros : micros.toNat < 10 ^ 6) : systemTimeFromTimeval secs micros
      = .ok (secs.toNat * 10 ^ 9 + micros.toNat * 1000 : Nat) := by
  have hnanos : micros.toNat * 1000 < 10 ^ 9 := by omega
  unfold systemTimeFromTimeval
  rw [Checked.mul_of_lt (hnanos.trans (by decide)), Checked.ok_bind, Nat.div_eq_of_lt hnanos,
    Nat.mod_eq_of_lt hnanos, Checked.add_of_lt (hsecs.trans (by decide)), Checked.ok_bind,
    Checked.add_of_lt hsecs]
  rfl

theorem toInt_ofNat_of_lt {w n : Nat} (hn : 2 * n < 2 ^ w) : (BitVec.ofNat w n).toInt = n := by
  have hnat : (BitVec.ofNat w n).toNat = n := by
    rw [BitVec.toNat_ofNat, Nat.mod_eq_of_lt (by omega)]
  rw [BitVec.toInt_eq_toNat_of_lt (by rw [hnat]; exact hn), hnat]

/-- **Times are reported as pcap has them**: a packet that is captured with a proper time
has an event, if any, with this time. -/
theorem capturedAt_of_timeval (blake3 : Bytes → Bytes) (agentId : Str) {secs : BitVec 64}
    {micros : U32} (hsecs : secs.toNat < 2 ^ 63) (hmicros : micros.toNat < 10 ^ 6)
    {data : ByteVec} {linkType : LinkType} {origLen capLen : U32} {interface : Str}
    {packetId : Nat} {raw : RawPacket} {event : PacketEvent}
    (hraw : (do
      let timestamp ← systemTimeFromTimeval secs micros
      capturePacket data linkType origLen capLen interface timestamp packetId) = .ok raw)
    (hevent : parsePacket blake3 agentId raw = some event) :
    event.capturedAt = some ⟨secs.toNat, micros.toNat * 1000⟩ := by
  rw [systemTimeFromTimeval_eq hsecs hmicros, Checked.ok_bind] at hraw
  obtain ⟨transport, -, hraw⟩ := Checked.bind_eq_ok.mp hraw
  obtain rfl := (Except.ok.inj hraw).symm
  obtain ⟨tm, -, rfl⟩ := Option.map_eq_some_iff.mp hevent
  have hdiv : (secs.toNat * 10 ^ 9 + micros.toNat * 1000) / 10 ^ 9 = secs.toNat := by omega
  have hmod : (secs.toNat * 10 ^ 9 + micros.toNat * 1000) % 10 ^ 9 = micros.toNat * 1000 := by omega
  rw [systemSince_zero, Int.toNat_natCast, Timestamp.ofDuration, hdiv, hmod,
    toInt_ofNat_of_lt (by omega), toInt_ofNat_of_lt (by omega)]
  rfl

/-! ## Packets with the same event -/

/-- What is the same of packets with the same event. -/
structure Alike (blake3 : Bytes → Bytes) (raw raw' : RawPacket) (tm tm' : TransportMeta) : Prop where
  seconds : raw.timestamp.toNat / 10 ^ 9 % 2 ^ 64 = raw'.timestamp.toNat / 10 ^ 9 % 2 ^ 64
  nanos : raw.timestamp.toNat % 10 ^ 9 = raw'.timestamp.toNat % 10 ^ 9
  srcIp : tm.srcIp = tm'.srcIp
  srcPort : tm.srcPort.getD 0#16 = tm'.srcPort.getD 0#16
  dstIp : tm.dstIp = tm'.dstIp
  dstPort : tm.dstPort.getD 0#16 = tm'.dstPort.getD 0#16
  protocol : tm.protocol = tm'.protocol ∨
    (tm.protocol ∈ [1#8, 58#8] ∧ tm'.protocol ∈ [1#8, 58#8]) ∨
    (tm.protocol ∉ [1#8, 6#8, 17#8, 58#8] ∧ tm'.protocol ∉ [1#8, 6#8, 17#8, 58#8])
  origLen : raw.origLen = raw'.origLen
  ttl : tm.ttl = tm'.ttl
  tcpFlags : tm.tcpFlags.getD 0#8 &&& 0x3F#8 = tm'.tcpFlags.getD 0#8 &&& 0x3F#8
  idsFlag : raw.idsFlag = raw'.idsFlag
  idsScore : raw.idsScore = raw'.idsScore
  hash : blake3 raw.data.bytes = blake3 raw'.data.bytes
  interface : raw.interface = raw'.interface

/-- Protocols with the same name are the same, or both ICMP, or both without a name. -/
theorem protocolOf_eq_iff {p p' : U8} : protocolOf p = protocolOf p' ↔
    p = p' ∨ (p ∈ [1#8, 58#8] ∧ p' ∈ [1#8, 58#8]) ∨
      (p ∉ [1#8, 6#8, 17#8, 58#8] ∧ p' ∉ [1#8, 6#8, 17#8, 58#8]) := by
  unfold protocolOf
  grind

theorem setWidth_inj {w v : Nat} (h : w ≤ v) {x y : BitVec w} :
    x.setWidth v = y.setWidth v ↔ x = y := by
  refine ⟨fun hxy => ?_, congrArg _⟩
  have hmod : ∀ x : BitVec w, x.toNat % 2 ^ v = x.toNat := fun x =>
    Nat.mod_eq_of_lt (x.isLt.trans_le (Nat.pow_le_pow_right (by decide) h))
  have hnat := congrArg BitVec.toNat hxy
  rw [BitVec.toNat_setWidth, BitVec.toNat_setWidth, hmod, hmod] at hnat
  exact BitVec.eq_of_toNat_eq hnat

/-- **What an event tells**: packets have the same event if and only if they are alike. -/
theorem parsePacket_eq_iff (blake3 : Bytes → Bytes) (agentId : Str) {raw raw' : RawPacket}
    {tm tm' : TransportMeta} (htm : raw.transport = some tm) (htm' : raw'.transport = some tm') :
    parsePacket blake3 agentId raw = parsePacket blake3 agentId raw'
      ↔ Alike blake3 raw raw' tm tm' := by
  unfold parsePacket
  rw [htm, htm', Option.map_some, Option.map_some, Option.some_inj, PacketEvent.mk.injEq]
  simp only [true_and, and_true, Option.some_inj, Timestamp.ofDuration_eq_iff, systemSince_zero,
    IpAddr.text_injective.eq_iff, setWidth_inj (show 16 ≤ 32 by decide),
    setWidth_inj (show 32 ≤ 64 by decide), setWidth_inj (show 8 ≤ 32 by decide),
    protocolOf_eq_iff, tcpFlags_eq_getD, decodeTcpFlags_eq_iff]
  constructor
  · rintro ⟨⟨hs, hn⟩, hsrc, hsp, hdst, hdp, hproto, hlen, httl, hflags, hflag, hscore, hhash, hif⟩
    exact ⟨hs, hn, hsrc, hsp, hdst, hdp, hproto, hlen, httl, hflags, hflag, hscore, hhash, hif⟩
  · rintro ⟨hs, hn, hsrc, hsp, hdst, hdp, hproto, hlen, httl, hflags, hflag, hscore, hhash, hif⟩
    exact ⟨⟨hs, hn⟩, hsrc, hsp, hdst, hdp, hproto, hlen, httl, hflags, hflag, hscore, hhash, hif⟩

/-- A time before the epoch, another protocol without a name, a port 0 and two newer flags
make no difference. -/
theorem parsePacket_eq_iff_bare : ∃ tm, (barePacket 0).transport = some tm ∧
    parsePacket (fun _ => bareHash) [] (barePacket 0)
      = parsePacket (fun _ => bareHash) [] { barePacket 1 with
          timestamp := -5000000000
          transport := some { tm with
            srcPort := some 0#16, protocol := 254#8, tcpFlags := some 0xC0#8 } } := by
  refine ⟨_, rfl, (parsePacket_eq_iff _ _ rfl rfl).mpr ?_⟩
  exact ⟨rfl, rfl, rfl, rfl, rfl, rfl, .inr (.inr (by decide)), rfl, rfl, by decide, rfl, rfl, rfl,
    rfl⟩

end Ocellus
