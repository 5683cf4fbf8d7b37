import Ocellus.Capture.Metadata

/-!
# Synthetic packets (`build_frame` and `frame_to_raw` in `tests/test_sender.rs`)

With `--test-send` the agent reports packets that it makes up: random IPv4 packets in
Ethernet frames, with a protocol of ICMP, TCP or UDP, of whose transport header there are
at most the ports. Their metadata are not parsed but read off the frame.

Whatever the random numbers are, the two functions return; and what the parser would have
found of the frame agrees with what they say, but for the fields of the transport header,
of which it finds none or the same ports, and for the start of the payload, which for them
is behind the ports and for the parser behind the header (`testPacket_agrees`).
-/

namespace Ocellus

namespace TestSender

def ETH_HDR : Nat := 14
def IPV4_HDR : Nat := 20
def PORT_HDR : Nat := 4

/-- An address, byte by byte, as the random numbers make it: the first byte is in
`1..=223`, and the last in `1..=254`. -/
structure RandomAddr where
  a : U8
  b : U8
  c : U8
  d : U8
  a_mem : 1 ≤ a.toNat ∧ a.toNat ≤ 223
  d_mem : 1 ≤ d.toNat ∧ d.toNat ≤ 254

/-- What `build_frame` draws from its random number generator. -/
structure Draws where
  /-- The index of the protocol, in `0..3`. -/
  proto : Fin 3
  macs : Octets 12
  ttl : U8
  ttl_ge : 32 ≤ ttl.toNat
  src : RandomAddr
  dst : RandomAddr
  srcPort : U16
  srcPort_ge : 1024 ≤ srcPort.toNat
  dstPort : U16
  dstPort_mem : 1 ≤ dstPort.toNat ∧ dstPort.toNat ≤ 1023
  /-- As many bytes as `payload_len` says. -/
  payload : Bytes
  payload_le : payload.length ≤ 256

/-- `buf[i] = b`. -/
def setAt : Bytes → Nat → U8 → Checked Bytes
  | [], _, _ => .error .index
  | _ :: buf, 0, b => .ok (b :: buf)
  | a :: buf, i + 1, b => (setAt buf i b).map (a :: ·)

/-- Each byte of `buf[lo..hi]` is set to the next one of `bytes`. -/
def fill (buf : Bytes) (lo hi : Nat) (bytes : Bytes) : Checked Bytes :=
  if lo ≤ hi ∧ hi ≤ buf.length then .ok (buf.take lo ++ bytes ++ buf.drop hi) else .error .slice

/-- `(x >> 8) as u8`. -/
def highByte (x : U16) : U8 := (x >>> 8).setWidth 8

/-- `(x & 0xFF) as u8`. -/
def lowByte (x : U16) : U8 := (x &&& 0xFF#16).setWidth 8

/-- The fixed fields of the Ethernet and the IPv4 header. -/
def writeHeaders (draws : Draws) (protoByte : U8) (total : Nat) (buf : Bytes) : Checked Bytes := do
  let buf ← setAt buf 12 0x08#8
  let buf ← setAt buf 13 0x00#8
  let buf ← setAt buf 14 0x45#8
  let ipLen := BitVec.ofNat 16 (total - ETH_HDR)
  let buf ← setAt buf 16 (highByte ipLen)
  let buf ← setAt buf 17 (lowByte ipLen)
  let buf ← setAt buf 22 draws.ttl
  let buf ← setAt buf 23 protoByte
  let buf ← setAt buf 26 draws.src.a
  let buf ← setAt buf 27 draws.src.b
  let buf ← setAt buf 28 draws.src.c
  let buf ← setAt buf 29 draws.src.d
  let buf ← setAt buf 30 draws.dst.a
  let buf ← setAt buf 31 draws.dst.b
  let buf ← setAt buf 32 draws.dst.c
  setAt buf 33 draws.dst.d

def writePorts (draws : Draws) (buf : Bytes) : Checked Bytes := do
  let buf ← setAt buf 34 (highByte draws.srcPort)
  let buf ← setAt buf 35 (lowByte draws.srcPort)
  let buf ← setAt buf 36 (highByte draws.dstPort)
  setAt buf 37 (lowByte draws.dstPort)

/-- The length of what stands before the payload. -/
def payloadStart (hasPorts : Bool) : Nat := ETH_HDR + IPV4_HDR + if hasPorts then PORT_HDR else 0

def buildFrame (draws : Draws) : Checked Bytes := do
  let protoByte ← Checked.unwrap [1#8, 6#8, 17#8][draws.proto.val]?
  let hasPorts := protoByte != 1#8
  let total := payloadStart hasPorts + draws.payload.length
  let buf ← fill (List.replicate total 0#8) 0 12 draws.macs.1
  let buf ← writeHeaders draws protoByte total buf
  let buf ← if hasPorts ∧ ETH_HDR + IPV4_HDR + 3 < total then writePorts draws buf else .ok buf
  fill buf (payloadStart hasPorts) buf.length draws.payload

/-- The ports in the frame. -/
def readPorts (data : Bytes) : Checked (U16 × U16) := do
  let srcPort := fromBeBytes (← Checked.index data 34) (← Checked.index data 35)
  let dstPort := fromBeBytes (← Checked.index data 36) (← Checked.index data 37)
  return (srcPort, dstPort)

/-- The metadata that `frame_to_raw` reads off the frame. -/
def readTransport (data : Bytes) : Checked TransportMeta := do
  let proto ← Checked.index data 23
  let srcIp := IpAddr.ofOctets (← Checked.index data 26) (← Checked.index data 27)
    (← Checked.index data 28) (← Checked.index data 29)
  let dstIp := IpAddr.ofOctets (← Checked.index data 30) (← Checked.index data 31)
    (← Checked.index data 32) (← Checked.index data 33)
  let ttl ← Checked.index data 22
  let hasPorts := proto != 1#8 && decide (ETH_HDR + IPV4_HDR + 3 < data.length)
  let ports ← if hasPorts then (readPorts data).map some else .ok none
  let ethSrcMac ← Checked.slice data 6 12
  return {
    srcIp, dstIp, srcPort := ports.map Prod.fst, dstPort := ports.map Prod.snd, protocol := proto
    -- a SYN
    tcpFlags := if proto = 6#8 then some 0x02#8 else none
    ttl, ipFlags := 0#8, ipFragOffset := 0#16
    icmpType := if proto = 1#8 then some 8#8 else none
    icmpCode := if proto = 1#8 then some 0#8 else none
    ethSrcMac := some ethSrcMac, vlanId := none
    payloadOffset := payloadStart hasPorts }

/-- `frame_to_raw`. -/
def frameToRaw (timestamp : Int) (data : ByteVec) : Checked RawPacket := do
  let len := BitVec.ofNat 32 data.bytes.length
  let transport ← if ETH_HDR + IPV4_HDR ≤ data.bytes.length then
      (readTransport data.bytes).map some
    else .ok none
  return {
    timestamp, data, origLen := len, capLen := len, interface := "test".toList
    linkType := .ethernet, transport, isTruncated := false
    packetId := 0, idsScore := .fin 0, idsFlag := .unspecified }

/-! ## The frames -/

/-- The protocol that was drawn. -/
def Draws.protoByte (draws : Draws) : U8 := [1#8, 6#8, 17#8].getD draws.proto.val 0#8

def Draws.hasPorts (draws : Draws) : Bool := draws.protoByte != 1#8

/-- The ports, if the protocol has any. -/
def Draws.portBytes (draws : Draws) : Bytes :=
  if draws.hasPorts then
    [highByte draws.srcPort, lowByte draws.srcPort, highByte draws.dstPort, lowByte draws.dstPort]
  else []

def Draws.ipLen (draws : Draws) : U16 :=
  BitVec.ofNat 16 (payloadStart draws.hasPorts + draws.payload.length - ETH_HDR)

def Draws.ipHeader (draws : Draws) : Bytes :=
  [0x45#8, 0#8, highByte draws.ipLen, lowByte draws.ipLen, 0#8, 0#8, 0#8, 0#8, draws.ttl,
    draws.protoByte, 0#8, 0#8, draws.src.a, draws.src.b, draws.src.c, draws.src.d, draws.dst.a,
    draws.dst.b, draws.dst.c, draws.dst.d]

/-- The packet in the frame. -/
def Draws.packet (draws : Draws) : Bytes := draws.ipHeader ++ draws.portBytes ++ draws.payload

variable (draws : Draws)

theorem unwrap_proto : Checked.unwrap [1#8, 6#8, 17#8][draws.proto.val]? = .ok draws.protoByte := by
  unfold Draws.protoByte
  match draws.proto with
  | ⟨0, _⟩ | ⟨1, _⟩ | ⟨2, _⟩ => rfl

theorem fill_macs (n : Nat) : fill (List.replicate (34 + n) 0#8) 0 12 draws.macs.1
    = .ok (draws.macs.1 ++ (List.replicate 22 0#8 ++ List.replicate n 0#8)) := by
  have hlen : 0 ≤ 12 ∧ 12 ≤ (List.replicate (34 + n) 0#8).length := by
    rw [List.length_replicate]
    omega
  unfold fill
  rw [if_pos hlen, List.take_zero, List.nil_append, List.drop_replicate,
    show 34 + n - 12 = 22 + n by omega, List.replicate_add]

theorem writeHeaders_eq (rest : Bytes) :
    writeHeaders draws draws.protoByte (payloadStart draws.hasPorts + draws.payload.length)
        (draws.macs.1 ++ (List.replicate 22 0#8 ++ rest))
      = .ok (draws.macs.1 ++ [0x08#8, 0x00#8] ++ draws.ipHeader ++ rest) := by
  match draws.macs with
  | ⟨[_, _, _, _, _, _, _, _, _, _, _, _], _⟩ => rfl

theorem writePorts_eq (rest : Bytes) :
    writePorts draws (draws.macs.1 ++ [0x08#8, 0x00#8] ++ draws.ipHeader ++
        ([0#8, 0#8, 0#8, 0#8] ++ rest))
      = .ok (draws.macs.1 ++ [0x08#8, 0x00#8] ++ draws.ipHeader ++
        [highByte draws.srcPort, lowByte draws.srcPort, highByte draws.dstPort,
          lowByte draws.dstPort] ++ rest) := by
  match draws.macs with
  | ⟨[_, _, _, _, _, _, _, _, _, _, _, _], _⟩ => rfl

/-- The end of a buffer is filled. -/
theorem fill_end {pre : Bytes} {start : Nat} (hstart : pre.length = start) (rest bytes : Bytes) :
    fill (pre ++ rest) start (pre ++ rest).length bytes = .ok (pre ++ bytes) := by
  subst hstart
  unfold fill
  rw [if_pos ⟨by rw [List.length_append]; omega, Nat.le_refl _⟩, List.take_left, List.drop_length,
    List.append_nil]

theorem length_headers : (draws.macs.1 ++ [0x08#8, 0x00#8] ++ draws.ipHeader).length = 34 := by
  rw [List.length_append, List.length_append, draws.macs.2]
  rfl

/-- The frame is its headers, the ports if there are any, and the payload. -/
theorem buildFrame_eq :
    buildFrame draws = .ok (draws.macs.1 ++ [0x08#8, 0x00#8] ++ draws.packet) := by
  have hheaders := length_headers draws
  have hwrite := writeHeaders_eq draws
  have hproto : (draws.protoByte != 1#8) = draws.hasPorts := rfl
  unfold buildFrame Draws.packet Draws.portBytes
  rw [unwrap_proto]
  simp only [Checked.ok_bind, hproto]
  cases hports : draws.hasPorts with
  | false =>
    have htotal : payloadStart false + draws.payload.length = 34 + draws.payload.length := rfl
    rw [htotal, fill_macs]
    rw [hports, htotal] at hwrite
    simp only [Checked.ok_bind, hwrite, Bool.false_eq_true, false_and, if_false]
    rw [fill_end (show _ = payloadStart false from hheaders)]
    simp
  | true =>
    have htotal : payloadStart true + draws.payload.length = 34 + (4 + draws.payload.length) := by
      rw [← Nat.add_assoc]
      rfl
    rw [htotal, fill_macs]
    rw [hports, htotal] at hwrite
    have hroom : ETH_HDR + IPV4_HDR + 3 < 34 + (4 + draws.payload.length) := by
      rw [ETH_HDR, IPV4_HDR]
      omega
    simp only [Checked.ok_bind, hwrite, true_and, if_pos hroom]
    have hports : (draws.macs.1 ++ [0x08#8, 0x00#8] ++ draws.ipHeader ++ [highByte draws.srcPort,
        lowByte draws.srcPort, highByte draws.dstPort, lowByte draws.dstPort]).length
          = payloadStart true := by
      rw [List.length_append, hheaders]
      rfl
    rw [List.replicate_add, show List.replicate 4 0#8 = [0#8, 0#8, 0#8, 0#8] from rfl, writePorts_eq,
      Checked.ok_bind, fill_end hports]
    simp

/-! ## What is read off them -/

theorem length_packet_le : 20 ≤ draws.packet.length := by
  unfold Draws.packet
  rw [List.length_append, List.length_append, show draws.ipHeader.length = 20 from rfl]
  omega

theorem highByte_eq (x : U16) : highByte x = x.extractLsb' 8 8 := by
  refine BitVec.eq_of_getLsbD_eq fun i hi => ?_
  simp [highByte, hi]

theorem lowByte_eq (x : U16) : lowByte x = x.extractLsb' 0 8 := by
  refine BitVec.eq_of_getLsbD_eq fun i hi => ?_
  have hmask : ∀ i < 8, (0xFF#16).getLsbD i = true := by decide
  rw [lowByte, BitVec.getLsbD_setWidth, BitVec.getLsbD_and, hmask i hi]
  simp [hi]

theorem fromBeBytes_bytes (x : U16) : fromBeBytes (highByte x) (lowByte x) = x := by
  rw [highByte_eq, lowByte_eq, fromBeBytes_toBeBytes]

/-- What `frame_to_raw` says of the frame. -/
def Draws.transport : TransportMeta where
  srcIp := .ofOctets draws.src.a draws.src.b draws.src.c draws.src.d
  dstIp := .ofOctets draws.dst.a draws.dst.b draws.dst.c draws.dst.d
  srcPort := if draws.hasPorts then some draws.srcPort else none
  dstPort := if draws.hasPorts then some draws.dstPort else none
  protocol := draws.protoByte
  tcpFlags := if draws.protoByte = 6#8 then some 0x02#8 else none
  ttl := draws.ttl
  ipFlags := 0#8
  ipFragOffset := 0#16
  icmpType := if draws.protoByte = 1#8 then some 8#8 else none
  icmpCode := if draws.protoByte = 1#8 then some 0#8 else none
  ethSrcMac := some (draws.macs.1.drop 6)
  vlanId := none
  payloadOffset := payloadStart draws.hasPorts

theorem readPorts_eq (hports : draws.hasPorts = true) :
    readPorts (draws.macs.1 ++ [0x08#8, 0x00#8] ++ draws.packet)
      = .ok (draws.srcPort, draws.dstPort) := by
  have hread : readPorts (draws.macs.1 ++ [0x08#8, 0x00#8] ++ draws.packet)
      = .ok (fromBeBytes (highByte draws.srcPort) (lowByte draws.srcPort),
          fromBeBytes (highByte draws.dstPort) (lowByte draws.dstPort)) := by
    unfold Draws.packet Draws.portBytes
    rw [if_pos hports]
    match draws.macs with
    | ⟨[_, _, _, _, _, _, _, _, _, _, _, _], _⟩ => rfl
  rw [hread, fromBeBytes_bytes, fromBeBytes_bytes]

theorem length_frame_le (hports : draws.hasPorts = true) :
    37 < (draws.macs.1 ++ [0x08#8, 0x00#8] ++ draws.packet).length := by
  unfold Draws.packet Draws.portBytes
  rw [if_pos hports, ← List.append_assoc, ← List.append_assoc, List.length_append,
    List.length_append, length_headers]
  simp only [List.length_cons, List.length_nil]
  omega

/-- A byte of the IPv4 header. -/
theorem getD_ipHeader {i : Nat} (hi : i < 20) :
    draws.packet.getD i 0#8 = draws.ipHeader.getD i 0#8 := by
  rw [Draws.packet, List.append_assoc]
  exact getD_append_of_lt (show i < draws.ipHeader.length from hi)

theorem index_ipHeader {i : Nat} (hi : i < 20) :
    Checked.index (draws.macs.1 ++ [0x08#8, 0x00#8] ++ draws.packet) (14 + i)
      = .ok (draws.ipHeader.getD i 0#8) := by
  have hmacs : (draws.macs.1 ++ [0x08#8, 0x00#8]).length = 14 := by
    rw [List.length_append, draws.macs.2]
    rfl
  have hpacket := length_packet_le draws
  rw [Checked.index_eq_getD (by rw [List.length_append, hmacs]; omega) 0#8,
    List.getD_eq_getElem?_getD, List.getElem?_append_right (by omega), hmacs,
    Nat.add_sub_cancel_left, ← List.getD_eq_getElem?_getD, getD_ipHeader draws hi]

theorem readTransport_eq :
    readTransport (draws.macs.1 ++ [0x08#8, 0x00#8] ++ draws.packet) = .ok draws.transport := by
  have hlong := length_frame_le draws
  have hread := readPorts_eq draws
  have hproto : draws.ipHeader.getD 9 0#8 = draws.protoByte := rfl
  have hslice : Checked.slice (draws.macs.1 ++ [0x08#8, 0x00#8] ++ draws.packet) 6 12
      = .ok (draws.macs.1.drop 6) := by
    have hmacs := draws.macs.2
    rw [Checked.slice_of_le (by decide) (by simp; omega), List.append_assoc,
      List.drop_append_of_le_length (by omega),
      List.take_append_of_le_length (by simp; omega), List.take_of_length_le (by simp; omega)]
  have hindex : ∀ i < 20, Checked.index _ (14 + i) = .ok _ := fun i hi => index_ipHeader draws hi
  have hports : (draws.protoByte != 1#8 && decide (ETH_HDR + IPV4_HDR + 3 <
      (draws.macs.1 ++ [0x08#8, 0x00#8] ++ draws.packet).length)) = draws.hasPorts := by
    exact Bool.and_eq_left_iff_imp.mpr fun h => decide_eq_true (hlong h)
  unfold readTransport Draws.transport
  rw [hindex 8 (by decide), hindex 9 (by decide), hindex 12 (by decide), hindex 13 (by decide),
    hindex 14 (by decide), hindex 15 (by decide), hindex 16 (by decide), hindex 17 (by decide),
    hindex 18 (by decide), hindex 19 (by decide), hslice]
  simp only [Checked.ok_bind, hproto, hports]
  cases h : draws.hasPorts with
  | false => rfl
  | true =>
    rw [if_pos rfl, hread h]
    rfl

/-! ## What the parser finds -/

/-- The addresses, the protocol and the time to live are those that were drawn, and there
are no fragments. -/
theorem ipv4Meta_packet (l2 : Layer2) (l4 : Layer4) :
    ipv4Meta draws.packet l2 l4 = { draws.transport with
      srcPort := l4.srcPort, dstPort := l4.dstPort, tcpFlags := l4.tcpFlags
      icmpType := l4.icmpType, icmpCode := l4.icmpCode, ethSrcMac := l2.ethSrcMac
      vlanId := l2.vlanId, payloadOffset := l4.appPayloadOffset } := by
  have hget : ∀ i < 20, draws.packet.getD i 0#8 = draws.ipHeader.getD i 0#8 :=
    fun i hi => getD_ipHeader draws hi
  have h6 : draws.packet.getD 6 0#8 = 0#8 := hget 6 (by decide)
  have h7 : draws.packet.getD 7 0#8 = 0#8 := hget 7 (by decide)
  have hfrag : fragmentOffset draws.packet = 0#16 := by
    rw [fragmentOffset, h6, h7]
    decide
  have hoffset : BitVec.ofNat 16 ((0#16).toNat * 8) = 0#16 := by decide
  have hflags : ((fromBeBytes 0#8 0#8 >>> 13) &&& 0x07#16).setWidth 8 = 0#8 := by decide
  unfold ipv4Meta addrAt
  rw [hfrag, hoffset, h6, h7, hflags, hget 8 (by decide), hget 9 (by decide)]
  simp only [Nat.reduceAdd, hget 12 (by decide), hget 13 (by decide), hget 14 (by decide),
    hget 15 (by decide), hget 16 (by decide), hget 17 (by decide), hget 18 (by decide),
    hget 19 (by decide)]
  rfl

/-- What is behind the IP header. -/
def Draws.segment (draws : Draws) : Bytes := draws.portBytes ++ draws.payload

/-- The length of the transport header, as the parser takes it: in a TCP segment, bytes of
the random payload announce it. -/
def Draws.headerLen (draws : Draws) : Nat :=
  if draws.protoByte = 6#8 then tcpHeaderLen draws.segment else 8

/-- What the parser finds of the transport header: if there are enough bytes, the ports,
and a payload behind the header; and otherwise nothing. -/
theorem parseLayer4_packet {offset : Nat} {l4 : Layer4}
    (h : parseLayer4 1#8 draws.protoByte draws.segment offset = .ok l4) :
    if HasTransport 1#8 draws.protoByte draws.segment then
      l4.srcPort = draws.transport.srcPort ∧ l4.dstPort = draws.transport.dstPort ∧
        l4.appPayloadOffset = offset + draws.headerLen
    else l4.NoFields ∧ l4.appPayloadOffset = offset := by
  have hports : draws.hasPorts = true → portAt draws.segment 0 = draws.srcPort ∧
      portAt draws.segment 2 = draws.dstPort := by
    intro hports
    rw [Draws.segment, Draws.portBytes, if_pos hports]
    exact ⟨fromBeBytes_bytes _, fromBeBytes_bytes _⟩
  unfold Draws.transport
  rcases parseLayer4_eq_ok h with ⟨hp, hlen, rfl⟩ | ⟨hp, hlen, rfl⟩ | ⟨hp, hlen, rfl⟩ | ⟨hno, rfl⟩
  · have hhas : draws.hasPorts = true := by rw [Draws.hasPorts, hp]; rfl
    have hheader : draws.headerLen = tcpHeaderLen draws.segment := if_pos hp
    rw [if_pos (.inl ⟨hp, hlen⟩), (hports hhas).1, (hports hhas).2, if_pos hhas, if_pos hhas,
      hheader]
    exact ⟨rfl, rfl, rfl⟩
  · have hhas : draws.hasPorts = true := by rw [Draws.hasPorts, hp]; rfl
    have hheader : draws.headerLen = 8 := if_neg (by rw [hp]; decide)
    rw [if_pos (.inr (.inl ⟨hp, hlen⟩)), (hports hhas).1, (hports hhas).2, if_pos hhas,
      if_pos hhas, hheader]
    exact ⟨rfl, rfl, rfl⟩
  · have hhas : draws.hasPorts = false := by rw [Draws.hasPorts, hp]; rfl
    have hheader : draws.headerLen = 8 := if_neg (by rw [hp]; decide)
    rw [if_pos (.inr (.inr ⟨hp, hlen⟩)), hhas, hheader]
    exact ⟨rfl, rfl, rfl⟩
  · rw [if_neg hno]
    exact ⟨⟨rfl, rfl, rfl, rfl, rfl⟩, rfl⟩

/-- The parser finds metadata in every frame. -/
theorem parseTransport_frame :
    ∃ l4, parseLayer4 1#8 draws.protoByte draws.segment 34 = .ok l4 ∧
      parseTransport (draws.macs.1 ++ [0x08#8, 0x00#8] ++ draws.packet) .ethernet
        = .ok (some (ipv4Meta draws.packet ⟨14, some (draws.macs.1.drop 6), none⟩ l4)) := by
  have hmacs := draws.macs.2
  let link : Encapsulation := .ethernet ⟨draws.macs.1.take 6, by simp [hmacs]⟩
    ⟨draws.macs.1.drop 6, by simp [hmacs]⟩ none
  have hframe : link.encode 0x0800#16 = draws.macs.1 ++ [0x08#8, 0x00#8] := by
    show draws.macs.1.take 6 ++ draws.macs.1.drop 6 ++ _ = _
    rw [List.take_append_drop]
    rfl
  have hne : draws.packet ≠ [] := by
    rw [← List.length_pos_iff]
    exact lt_of_lt_of_le (by decide) (length_packet_le draws)
  have hlen := length_packet_le draws
  have hfirst : draws.packet.getD 0 0#8 = 0x45#8 := getD_ipHeader draws (by decide)
  have hv4 : IsVersion4 draws.packet := by
    rw [IsVersion4, hfirst]
    rfl
  have hihl : ipv4HeaderLen draws.packet = 20 := by
    rw [ipv4HeaderLen, hfirst]
    rfl
  have hheader : HasHeader draws.packet := by
    unfold HasHeader
    rw [if_pos hv4, hihl]
    exact ⟨hlen, le_refl 20, hlen⟩
  have hparse := link.parseTransport_append (.inl rfl) hne
  rw [hframe] at hparse
  obtain ⟨l4, hl4, hip⟩ := (parseIp_spec draws.packet link.ipOffset_le).2 hheader
  unfold ipIcmp ipProtocol ipHeaderLen at hl4
  unfold ipMeta at hip
  rw [if_pos hv4, if_pos hv4, if_pos hv4, hihl, getD_ipHeader draws (by decide)] at hl4
  rw [if_pos hv4] at hip
  exact ⟨l4, hl4, hparse.trans hip⟩

theorem length_frame : (draws.macs.1 ++ [0x08#8, 0x00#8] ++ draws.packet).length ≤ 294 := by
  have hports : draws.portBytes.length ≤ 4 := by
    unfold Draws.portBytes
    split
    · exact le_refl 4
    · exact Nat.zero_le 4
  have hpayload := draws.payload_le
  unfold Draws.packet
  rw [← List.append_assoc, ← List.append_assoc, List.length_append, List.length_append,
    length_headers]
  omega

/-- The frame, as a `Vec<u8>`. -/
def Draws.frame : ByteVec where
  bytes := draws.macs.1 ++ [0x08#8, 0x00#8] ++ draws.packet
  length_le := (length_frame draws).trans (by decide)

/-- The packet that is made of the frame. -/
def Draws.raw (timestamp : Int) : RawPacket where
  timestamp
  data := draws.frame
  origLen := BitVec.ofNat 32 draws.frame.bytes.length
  capLen := BitVec.ofNat 32 draws.frame.bytes.length
  interface := "test".toList
  linkType := .ethernet
  transport := some draws.transport
  isTruncated := false
  packetId := 0
  idsScore := .fin 0
  idsFlag := .unspecified

theorem frameToRaw_eq (timestamp : Int) :
    frameToRaw timestamp draws.frame = .ok (draws.raw timestamp) := by
  have hlong : ETH_HDR + IPV4_HDR ≤ draws.frame.bytes.length := by
    have hpacket := length_packet_le draws
    show 34 ≤ (_ ++ draws.packet).length
    rw [List.length_append, List.length_append, draws.macs.2]
    show 34 ≤ 12 + 2 + _
    omega
  unfold frameToRaw
  rw [if_pos hlong, show readTransport draws.frame.bytes = _ from readTransport_eq draws]
  rfl

/-- **Synthetic packets are what they say**: whatever is drawn, a frame is built and made
a packet of, and the parser finds the same in that frame, but for the fields of the
transport header and the start of the payload. If there are enough bytes for the header of
the protocol, it finds the same ports and starts the payload behind the header; otherwise
it finds none of its fields, and starts the payload at byte 34. `frame_to_raw` starts it
behind the ports. -/
theorem testPacket_agrees (draws : Draws) (timestamp : Int) :
    ∃ frame pkt tm tm', buildFrame draws = .ok frame.bytes ∧
      frameToRaw timestamp frame = .ok pkt ∧ pkt.data = frame ∧ pkt.transport = some tm ∧
      parseTransport frame.bytes pkt.linkType = .ok (some tm') ∧
      tm' = { tm with
        srcPort := tm'.srcPort, dstPort := tm'.dstPort, tcpFlags := tm'.tcpFlags
        icmpType := tm'.icmpType, icmpCode := tm'.icmpCode
        payloadOffset := tm'.payloadOffset } ∧
      tm.payloadOffset = (if draws.hasPorts then 38 else 34) ∧
      if HasTransport 1#8 draws.protoByte draws.segment then
        tm'.srcPort = tm.srcPort ∧ tm'.dstPort = tm.dstPort ∧
          tm'.payloadOffset = 34 + draws.headerLen
      else tm'.layer4.NoFields ∧ tm'.payloadOffset = 34 := by
  obtain ⟨l4, hl4, hparse⟩ := parseTransport_frame draws
  refine ⟨draws.frame, draws.raw timestamp, draws.transport, _, buildFrame_eq draws,
    frameToRaw_eq draws timestamp, rfl, rfl, hparse, ?_, ?_, parseLayer4_packet draws hl4⟩
  · rw [ipv4Meta_packet]
    rfl
  · show payloadStart draws.hasPorts = _
    cases draws.hasPorts <;> rfl

end TestSender

end Ocellus
