import Ocellus.Capture.ParseSafety
import Ocellus.Capture.TransportFields

/-!
# What metadata depends on

The metadata of a packet in closed form (`parseIp_spec`). From it, two things that the
parser owes its callers:

- bytes that were not captured hide the transport header, or nothing: what is found of a
  truncated packet is what is found of the whole one, or the same without this header, as
  if the payload started where it does (`parse_truncated`);
- the encapsulation says nothing about the packet: the metadata under two of them are
  the same, and the payloads start at the same byte of the packet (`parseIp_reframe`).
-/

namespace Ocellus

/-- The address of 16 bytes at `i`. -/
def addr6At (ip : Bytes) (i : Nat) : IpAddr :=
  (ipv6FromSlice ((ip.drop i).take 16)).getD (.v6 0#128)

/-- The packet has a header of one of the two versions. -/
def HasHeader (ip : Bytes) : Prop :=
  if IsVersion4 ip then 20 ≤ ip.length ∧ 20 ≤ ipv4HeaderLen ip ∧ ipv4HeaderLen ip ≤ ip.length
  else (ip.getD 0 0#8 >>> 4) &&& 0xF#8 = 6#8 ∧ 40 ≤ ip.length

/-- The metadata of a packet with an IPv4 header. -/
def ipv4Meta (ip : Bytes) (l2 : Layer2) (l4 : Layer4) : TransportMeta where
  srcIp := .v4 (addrAt ip 12)
  dstIp := .v4 (addrAt ip 16)
  srcPort := l4.srcPort
  dstPort := l4.dstPort
  protocol := ip.getD 9 0#8
  tcpFlags := l4.tcpFlags
  ttl := ip.getD 8 0#8
  ipFlags := ((fromBeBytes (ip.getD 6 0#8) (ip.getD 7 0#8) >>> 13) &&& 0x07#16).setWidth 8
  ipFragOffset := BitVec.ofNat 16 ((fragmentOffset ip).toNat * 8)
  icmpType := l4.icmpType
  icmpCode := l4.icmpCode
  ethSrcMac := l2.ethSrcMac
  vlanId := l2.vlanId
  payloadOffset := l4.appPayloadOffset

/-- The metadata of a packet with an IPv6 header. -/
def ipv6Meta (ip : Bytes) (l2 : Layer2) (l4 : Layer4) : TransportMeta where
  srcIp := addr6At ip 8
  dstIp := addr6At ip 24
  srcPort := l4.srcPort
  dstPort := l4.dstPort
  protocol := ip.getD 6 0#8
  tcpFlags := l4.tcpFlags
  ttl := ip.getD 7 0#8
  ipFlags := 0#8
  ipFragOffset := 0#16
  icmpType := l4.icmpType
  icmpCode := l4.icmpCode
  ethSrcMac := l2.ethSrcMac
  vlanId := l2.vlanId
  payloadOffset := l4.appPayloadOffset

def ipMeta (ip : Bytes) (l2 : Layer2) (l4 : Layer4) : TransportMeta :=
  if IsVersion4 ip then ipv4Meta ip l2 l4 else ipv6Meta ip l2 l4

/-! ## The parser in closed form -/

theorem parseIpv4_meta {ip : Bytes} {l2 : Layer2} {l4 : Layer4} (hoff : l2.ipOffset ≤ 18)
    (hlen : 20 ≤ ip.length) (hheader : 20 ≤ ipv4HeaderLen ip)
    (hfits : ipv4HeaderLen ip ≤ ip.length)
    (hl4 : parseLayer4 1#8 (ip.getD 9 0#8) (ip.drop (ipv4HeaderLen ip))
      (l2.ipOffset + ipv4HeaderLen ip) = .ok l4) :
    parseIpv4 ip l2 = .ok (some (ipv4Meta ip l2 l4)) := by
  have hindex : ∀ i < 20, Checked.index ip i = .ok (ip.getD i 0#8) :=
    fun i hi => Checked.index_eq_getD (by omega) _
  have hnibble : (ip.getD 0 0#8 &&& 0x0F#8).toNat ≤ 15 := Nat.and_le_right
  have hihl : Checked.mul 64 (ip.getD 0 0#8 &&& 0x0F#8).toNat 4 = .ok (ipv4HeaderLen ip) :=
    Checked.mul_of_lt (by omega)
  have hfrag : (fragmentOffset ip).toNat ≤ 0x1FFF := Nat.and_le_right
  have hoffset : Checked.mul 16 (fragmentOffset ip).toNat 8 = .ok ((fragmentOffset ip).toNat * 8) :=
    Checked.mul_of_lt (by omega)
  have hshort : ¬ (ipv4HeaderLen ip < 20 ∨ ip.length < ipv4HeaderLen ip) := by omega
  have hget : getFrom ip (ipv4HeaderLen ip) = some (ip.drop (ipv4HeaderLen ip)) := if_pos hfits
  have hle : ipv4HeaderLen ip ≤ 60 := by
    unfold ipv4HeaderLen
    omega
  have hstart : Checked.add 64 l2.ipOffset (ipv4HeaderLen ip)
      = .ok (l2.ipOffset + ipv4HeaderLen ip) := Checked.add_of_lt (by omega)
  unfold fragmentOffset at hoffset
  rw [parseIpv4, if_neg (by omega)]
  simp only [hindex 0 (by decide), hindex 6 (by decide), hindex 7 (by decide),
    hindex 8 (by decide), hindex 9 (by decide), hindex 12 (by decide), hindex 13 (by decide),
    hindex 14 (by decide), hindex 15 (by decide), hindex 16 (by decide), hindex 17 (by decide),
    hindex 18 (by decide), hindex 19 (by decide), Checked.ok_bind, hihl, if_neg hshort, hoffset,
    hget, hstart, hl4, Checked.pure_eq_ok]
  rfl

/-- Sixteen bytes are an address. -/
theorem ipv6FromSlice_isSome {s : Bytes} (h : s.length = 16) : (ipv6FromSlice s).isSome = true := by
  match s, h with
  | [_, _, _, _, _, _, _, _, _, _, _, _, _, _, _, _], _ => rfl

theorem ipv6FromSlice_eq {ip : Bytes} {i : Nat} (h : i + 16 ≤ ip.length) :
    ipv6FromSlice ((ip.drop i).take 16) = some (addr6At ip i) := by
  have hlen : ((ip.drop i).take 16).length = 16 := by
    rw [List.length_take, List.length_drop]
    omega
  obtain ⟨a, ha⟩ := Option.isSome_iff_exists.mp (ipv6FromSlice_isSome hlen)
  rw [addr6At, ha]
  rfl

theorem parseIpv6_meta {ip : Bytes} {l2 : Layer2} {l4 : Layer4} (hoff : l2.ipOffset ≤ 18)
    (hlen : 40 ≤ ip.length)
    (hl4 : parseLayer4 58#8 (ip.getD 6 0#8) (ip.drop 40) (l2.ipOffset + 40) = .ok l4) :
    parseIpv6 ip l2 = .ok (some (ipv6Meta ip l2 l4)) := by
  have hindex : ∀ i < 40, Checked.index ip i = .ok (ip.getD i 0#8) :=
    fun i hi => Checked.index_eq_getD (by omega) _
  have hsrc : Checked.slice ip 8 24 = .ok ((ip.drop 8).take 16) :=
    Checked.slice_of_le (by decide) (by omega)
  have hdst : Checked.slice ip 24 40 = .ok ((ip.drop 24).take 16) :=
    Checked.slice_of_le (by decide) (by omega)
  have hget : getFrom ip 40 = some (ip.drop 40) := if_pos hlen
  have hstart : Checked.add 64 l2.ipOffset 40 = .ok (l2.ipOffset + 40) :=
    Checked.add_of_lt (by omega)
  rw [parseIpv6, if_neg (by omega)]
  simp only [hindex 6 (by decide), hindex 7 (by decide), Checked.ok_bind, hsrc, hdst,
    ipv6FromSlice_eq (show 8 + 16 ≤ ip.length by omega),
    ipv6FromSlice_eq (show 24 + 16 ≤ ip.length by omega), hget, hstart, hl4, Checked.pure_eq_ok]
  rfl

/-- **The parser in closed form**: a packet without a header has no metadata, and any
other has those that can be read at fixed places, and those of its transport header. -/
theorem parseIp_spec (ip : Bytes) {l2 : Layer2} (hoff : l2.ipOffset ≤ 18) :
    (¬ HasHeader ip → parseIp ip l2 = .ok none) ∧
    (HasHeader ip → ∃ l4, parseLayer4 (ipIcmp ip) (ipProtocol ip) (ip.drop (ipHeaderLen ip))
      (l2.ipOffset + ipHeaderLen ip) = .ok l4 ∧ parseIp ip l2 = .ok (some (ipMeta ip l2 l4))) := by
  cases ip with
  | nil => exact ⟨fun _ => rfl, fun h => absurd h (by simp [HasHeader, IsVersion4])⟩
  | cons b rest =>
    generalize hip : b :: rest = ip
    have hfirst : ip.getD 0 0#8 = b := hip ▸ rfl
    have hparse : parseIp ip l2 = if IsVersion4 ip then parseIpv4 ip l2
        else if (ip.getD 0 0#8 >>> 4) &&& 0xF#8 = 6#8 then parseIpv6 ip l2 else .ok none := by
      simp only [IsVersion4, hfirst]
      rw [← hip]
      rfl
    rw [hparse]
    unfold HasHeader ipMeta ipProtocol ipIcmp ipHeaderLen
    by_cases hv4 : IsVersion4 ip
    · simp only [if_pos hv4]
      refine ⟨fun hshort => ?_, fun hlong => ?_⟩
      · obtain ⟨o, ho, -⟩ := parseIpv4_returns ip hoff
        rcases parseIpv4_cases ho with ⟨rfl, -⟩ | ⟨tm, rfl, hfits, -⟩
        · exact ho
        · exact absurd ⟨by omega, hfits.1, hfits.2⟩ hshort
      · obtain ⟨hlen, hheader, hfits⟩ := hlong
        have hle : ipv4HeaderLen ip ≤ 60 := by
          have hnibble : (ip.getD 0 0#8 &&& 0x0F#8).toNat ≤ 15 := Nat.and_le_right
          unfold ipv4HeaderLen
          omega
        obtain ⟨l4, hl4, -⟩ := parseLayer4_returns 1#8 (ip.getD 9 0#8) (ip.drop (ipv4HeaderLen ip))
          (show l2.ipOffset + ipv4HeaderLen ip ≤ 78 by omega)
        exact ⟨l4, hl4, parseIpv4_meta hoff hlen hheader hfits hl4⟩
    · simp only [if_neg hv4]
      by_cases hv6 : (ip.getD 0 0#8 >>> 4) &&& 0xF#8 = 6#8
      · rw [if_pos hv6]
        refine ⟨fun hshort => ?_, fun hlong => ?_⟩
        · have hlen : ¬ 40 ≤ ip.length := fun hlen => hshort ⟨hv6, hlen⟩
          rw [parseIpv6, if_pos (by omega)]
        · obtain ⟨l4, hl4, -⟩ := parseLayer4_returns 58#8 (ip.getD 6 0#8) (ip.drop 40)
            (show l2.ipOffset + 40 ≤ 78 by omega)
          exact ⟨l4, hl4, parseIpv6_meta hoff hlong.2 hl4⟩
      · rw [if_neg hv6]
        exact ⟨fun _ => rfl, fun h => absurd h.1 hv6⟩

theorem ipIcmp_eq (ip : Bytes) : ipIcmp ip = 1#8 ∨ ipIcmp ip = 58#8 := by
  unfold ipIcmp
  split
  · exact .inl rfl
  · exact .inr rfl

/-! ## Bytes that were not captured -/

/-- The metadata when the transport header, which starts at byte `start`, was not captured:
none of its fields is known, and its start is taken for that of the payload. -/
def TransportMeta.headless (start : Nat) (tm : TransportMeta) : TransportMeta := { tm with
  srcPort := none, dstPort := none, tcpFlags := none, icmpType := none, icmpCode := none
  payloadOffset := start }

section Truncation

variable {ip rest tl : Bytes} {l2 : Layer2} {icmp proto : U8} {offset : Nat} {l4 l4' : Layer4}

theorem getD_append_of_lt {i : Nat} (h : i < ip.length) :
    (ip ++ rest).getD i 0#8 = ip.getD i 0#8 := by
  rw [List.getD_eq_getElem?_getD, List.getElem?_append_left h, List.getD_eq_getElem?_getD]

theorem addr6At_append {i : Nat} (h : i + 16 ≤ ip.length) : addr6At (ip ++ rest) i = addr6At ip i := by
  have hdrop : (ip ++ rest).drop i = ip.drop i ++ rest := List.drop_append_of_le_length (by omega)
  have htake : (ip.drop i ++ rest).take 16 = (ip.drop i).take 16 :=
    List.take_append_of_le_length (by rw [List.length_drop]; omega)
  rw [addr6At, hdrop, htake, addr6At]

theorem portAt_append {i : Nat} (h : i + 1 < ip.length) : portAt (ip ++ rest) i = portAt ip i := by
  rw [portAt, getD_append_of_lt (by omega), getD_append_of_lt h, portAt]

theorem tcpHeaderLen_append (h : 12 < ip.length) : tcpHeaderLen (ip ++ rest) = tcpHeaderLen ip := by
  rw [tcpHeaderLen, getD_append_of_lt h, tcpHeaderLen]

theorem HasTransport.append (h : HasTransport icmp proto tl) :
    HasTransport icmp proto (tl ++ rest) := by
  have hlen : tl.length ≤ (tl ++ rest).length := by
    rw [List.length_append]
    omega
  rcases h with ⟨hp, h⟩ | ⟨hp, h⟩ | ⟨hp, h⟩
  · exact .inl ⟨hp, h.trans hlen⟩
  · exact .inr (.inl ⟨hp, h.trans hlen⟩)
  · exact .inr (.inr ⟨hp, h.trans hlen⟩)

/-- A transport header that was captured is read as it is. -/
theorem parseLayer4_append (hicmp : icmp = 1#8 ∨ icmp = 58#8) (htl : HasTransport icmp proto tl)
    (h : parseLayer4 icmp proto tl offset = .ok l4)
    (h' : parseLayer4 icmp proto (tl ++ rest) offset = .ok l4') : l4 = l4' := by
  have htcp : icmp ≠ 6#8 := by rcases hicmp with rfl | rfl <;> decide
  have hudp : icmp ≠ 17#8 := by rcases hicmp with rfl | rfl <;> decide
  -- the protocol decides the branch, whatever follows the header
  rcases parseLayer4_eq_ok h with ⟨rfl, hlen, rfl⟩ | ⟨rfl, hlen, rfl⟩ | ⟨rfl, hlen, rfl⟩ | ⟨hno, -⟩
  · rcases parseLayer4_eq_ok h' with ⟨-, -, rfl⟩ | ⟨hp, -⟩ | ⟨hp, -⟩ | ⟨hno, -⟩
    · rw [portAt_append (by omega), portAt_append (by omega), getD_append_of_lt (by omega),
        tcpHeaderLen_append (by omega)]
    · exact absurd hp (by decide)
    · exact absurd hp.symm htcp
    · exact absurd htl.append hno
  · rcases parseLayer4_eq_ok h' with ⟨hp, -⟩ | ⟨-, -, rfl⟩ | ⟨hp, -⟩ | ⟨hno, -⟩
    · exact absurd hp (by decide)
    · rw [portAt_append (by omega), portAt_append (by omega)]
    · exact absurd hp.symm hudp
    · exact absurd htl.append hno
  · rcases parseLayer4_eq_ok h' with ⟨hp, -⟩ | ⟨hp, -⟩ | ⟨-, -, rfl⟩ | ⟨hno, -⟩
    · exact absurd hp htcp
    · exact absurd hp hudp
    · rw [getD_append_of_lt (by omega), getD_append_of_lt (by omega)]
    · exact absurd htl.append hno
  · exact absurd htl hno

/-- No other is read. -/
theorem parseLayer4_headless (htl : ¬ HasTransport icmp proto tl)
    (h : parseLayer4 icmp proto tl offset = .ok l4) :
    l4 = ⟨none, none, none, none, none, offset⟩ := by
  rcases parseLayer4_eq_ok h with ⟨hp, hlen, -⟩ | ⟨hp, hlen, -⟩ | ⟨hp, hlen, -⟩ | ⟨-, hl4⟩
  · exact absurd (.inl ⟨hp, hlen⟩) htl
  · exact absurd (.inr (.inl ⟨hp, hlen⟩)) htl
  · exact absurd (.inr (.inr ⟨hp, hlen⟩)) htl
  · exact hl4

theorem isVersion4_append (h : ip ≠ []) : IsVersion4 (ip ++ rest) ↔ IsVersion4 ip := by
  rw [IsVersion4, getD_append_of_lt (List.length_pos_iff.mpr h), IsVersion4]

theorem HasHeader.length_le (h : HasHeader ip) : 20 ≤ ip.length := by
  unfold HasHeader at h
  split at h
  · exact h.1
  · exact le_trans (by decide) h.2

theorem HasHeader.ne_nil (h : HasHeader ip) : ip ≠ [] := by
  have hlen := h.length_le
  rintro rfl
  exact absurd hlen (by decide)

theorem HasHeader.append (h : HasHeader ip) :
    HasHeader (ip ++ rest) ∧ ipHeaderLen (ip ++ rest) = ipHeaderLen ip ∧
      ipHeaderLen ip ≤ ip.length ∧ ipProtocol (ip ++ rest) = ipProtocol ip ∧
      ipIcmp (ip ++ rest) = ipIcmp ip := by
  have hlen : (ip ++ rest).length = ip.length + rest.length := List.length_append
  have h20 := h.length_le
  have hget : ∀ i < 20, (ip ++ rest).getD i 0#8 = ip.getD i 0#8 :=
    fun i hi => getD_append_of_lt (by omega)
  have hihl : ipv4HeaderLen (ip ++ rest) = ipv4HeaderLen ip := by
    rw [ipv4HeaderLen, hget 0 (by decide), ipv4HeaderLen]
  have hv : IsVersion4 (ip ++ rest) ↔ IsVersion4 ip := isVersion4_append h.ne_nil
  unfold HasHeader at h ⊢
  unfold ipHeaderLen ipProtocol ipIcmp
  by_cases hv4 : IsVersion4 ip
  · simp only [if_pos hv4] at h
    simp only [if_pos hv4, if_pos (hv.mpr hv4), hihl, hlen, hget 9 (by decide)]
    exact ⟨⟨by omega, h.2.1, by omega⟩, trivial, h.2.2, trivial, trivial⟩
  · simp only [if_neg hv4] at h
    simp only [if_neg hv4, if_neg (mt hv.mp hv4), hlen, hget 0 (by decide), hget 6 (by decide)]
    exact ⟨⟨h.1, by omega⟩, trivial, h.2, trivial, trivial⟩

theorem ipMeta_append (h : HasHeader ip) : ipMeta (ip ++ rest) l2 l4 = ipMeta ip l2 l4 := by
  have h20 := h.length_le
  have hget : ∀ i < 20, (ip ++ rest).getD i 0#8 = ip.getD i 0#8 :=
    fun i hi => getD_append_of_lt (by omega)
  have haddr : ∀ i, i + 4 ≤ 20 → addrAt (ip ++ rest) i = addrAt ip i := by
    intro i hi
    rw [addrAt, hget i (by omega), hget (i + 1) (by omega), hget (i + 2) (by omega),
      hget (i + 3) (by omega), addrAt]
  have hfrag : fragmentOffset (ip ++ rest) = fragmentOffset ip := by
    rw [fragmentOffset, hget 6 (by decide), hget 7 (by decide), fragmentOffset]
  have hv : IsVersion4 (ip ++ rest) ↔ IsVersion4 ip := isVersion4_append h.ne_nil
  unfold HasHeader at h
  unfold ipMeta
  by_cases hv4 : IsVersion4 ip
  · rw [if_pos hv4, if_pos (hv.mpr hv4)]
    unfold ipv4Meta
    rw [haddr 12 (by decide), haddr 16 (by decide), hget 6 (by decide), hget 7 (by decide),
      hget 8 (by decide), hget 9 (by decide), hfrag]
  · rw [if_neg hv4] at h
    rw [if_neg hv4, if_neg (mt hv.mp hv4)]
    unfold ipv6Meta
    rw [addr6At_append (by omega), addr6At_append (by omega), hget 6 (by decide),
      hget 7 (by decide)]

/-- Without the transport header, layer 4 is what it is when there is nothing. -/
theorem ipMeta_headless (start : Nat) :
    ipMeta ip l2 ⟨none, none, none, none, none, start⟩ = (ipMeta ip l2 l4).headless start := by
  unfold ipMeta
  split <;> rfl

end Truncation

/-- **What truncation does**: if the start of some data has metadata, then so do the data;
and those of the start are the same if it has the whole transport header, and otherwise
they lack this header, and have its start for that of the payload. -/
theorem parse_truncated {data : Bytes} {linkType : LinkType} {tm : TransportMeta}
    (h : parseTransport data linkType = .ok (some tm)) (rest : Bytes) :
    ∃ tm' link ip, parseTransport (data ++ rest) linkType = .ok (some tm') ∧
      Carries data linkType link ip ∧
      tm = if HasTransport (ipIcmp ip) (ipProtocol ip) (ip.drop (ipHeaderLen ip)) then tm'
        else tm'.headless (link.layer2.ipOffset + ipHeaderLen ip) := by
  obtain ⟨link, ip, hcarries⟩ := exists_carries h
  have hwhole : Carries (data ++ rest) linkType link (ip ++ rest) := by
    obtain ⟨rfl, ⟨etype, hetype, rfl⟩, hne⟩ := hcarries
    exact ⟨rfl, ⟨etype, hetype, List.append_assoc _ _ _⟩, by simp [hne]⟩
  rw [hcarries.parseTransport_eq] at h
  rw [hwhole.parseTransport_eq]
  have hheader : HasHeader ip := by
    by_contra hno
    rw [(parseIp_spec ip link.ipOffset_le).1 hno] at h
    cases h
  obtain ⟨hheader', hlen, hle, hproto, hicmp⟩ : HasHeader (ip ++ rest) ∧ _ := hheader.append
  obtain ⟨l4, hl4, hip⟩ := (parseIp_spec ip link.ipOffset_le).2 hheader
  obtain ⟨l4', hl4', hip'⟩ := (parseIp_spec (ip ++ rest) link.ipOffset_le).2 hheader'
  rw [hip] at h
  cases h
  refine ⟨_, link, ip, hip', hcarries, ?_⟩
  rw [hlen, hproto, hicmp, List.drop_append_of_le_length hle] at hl4'
  rw [ipMeta_append hheader]
  split
  · rename_i htl
    rw [parseLayer4_append (ipIcmp_eq ip) htl hl4 hl4']
  · rename_i htl
    rw [parseLayer4_headless htl hl4, ipMeta_headless]

/-- Of a segment that is cut off behind its IP header, the addresses are found, and not
the ports; its payload is said to start at byte 20, and not at byte 40. -/
theorem parse_truncated_headerOnly :
    let data := [0x45#8, 0#8, 0#8, 40#8, 0#8, 0#8, 0#8, 0#8, 64#8, 6#8, 0#8, 0#8,
      10#8, 0#8, 0#8, 1#8, 10#8, 0#8, 0#8, 2#8]
    let rest := [0x12#8, 0x34#8, 0#8, 80#8] ++ List.replicate 8 0#8 ++ [0x50#8, 0x02#8] ++
      List.replicate 6 0#8
    ∃ tm tm', parseTransport data .rawIp = .ok (some tm) ∧
      parseTransport (data ++ rest) .rawIp = .ok (some tm') ∧
      tm = tm'.headless 20 ∧ tm'.dstPort = some 80#16 ∧ tm'.payloadOffset = 40 := by
  intro data rest
  have hparse : parseTransport data .rawIp = .ok (some ⟨.v4 0x0A000001#32, .v4 0x0A000002#32,
      none, none, 6#8, none, 64#8, 0#8, 0#16, none, none, none, none, 20⟩) := by decide +kernel
  obtain ⟨tm', link, ip, htm', -, hcut⟩ := parse_truncated hparse rest
  have hwhole : ∃ tm', parseTransport (data ++ rest) .rawIp = .ok (some tm') ∧
      tm'.dstPort = some 80#16 ∧ tm'.payloadOffset = 40 :=
    ⟨_, rfl, by decide +kernel, by decide +kernel⟩
  obtain ⟨tm'', htm'', hport, hoffset⟩ := hwhole
  obtain rfl : tm' = tm'' := Option.some.inj (Except.ok.inj (htm'.symm.trans htm''))
  refine ⟨_, tm', hparse, htm', ?_, hport, hoffset⟩
  split at hcut
  · rw [← hcut] at hport
    exact absurd hport nofun
  · have hstart : link.layer2.ipOffset + ipHeaderLen ip = 20 :=
      (congrArg TransportMeta.payloadOffset hcut).symm
    rwa [hstart] at hcut

/-! ## Another encapsulation -/

/-- `tm` and `tm'` are of one packet that starts at byte `start` and `start'`. -/
structure TransportMeta.Reframes (start start' : Nat) (tm tm' : TransportMeta) : Prop where
  srcIp : tm.srcIp = tm'.srcIp
  dstIp : tm.dstIp = tm'.dstIp
  srcPort : tm.srcPort = tm'.srcPort
  dstPort : tm.dstPort = tm'.dstPort
  protocol : tm.protocol = tm'.protocol
  tcpFlags : tm.tcpFlags = tm'.tcpFlags
  ttl : tm.ttl = tm'.ttl
  ipFlags : tm.ipFlags = tm'.ipFlags
  ipFragOffset : tm.ipFragOffset = tm'.ipFragOffset
  icmpType : tm.icmpType = tm'.icmpType
  icmpCode : tm.icmpCode = tm'.icmpCode
  payloadOffset : ∃ n, 0 < n ∧ tm.payloadOffset = start + n ∧ tm'.payloadOffset = start' + n

/-- The transport parser passes the offset of its header on. -/
theorem parseLayer4_shift {icmp proto : U8} {tl : Bytes} {offset offset' : Nat} {l4 l4' : Layer4}
    (hicmp : icmp = 1#8 ∨ icmp = 58#8)
    (h : parseLayer4 icmp proto tl offset = .ok l4)
    (h' : parseLayer4 icmp proto tl offset' = .ok l4') :
    ∃ n, l4.appPayloadOffset = offset + n ∧
      l4' = { l4 with appPayloadOffset := offset' + n } := by
  have htcp : icmp ≠ 6#8 := by rcases hicmp with rfl | rfl <;> decide
  have hudp : icmp ≠ 17#8 := by rcases hicmp with rfl | rfl <;> decide
  rcases parseLayer4_eq_ok h with ⟨rfl, hlen, rfl⟩ | ⟨rfl, hlen, rfl⟩ | ⟨rfl, hlen, rfl⟩ | ⟨hno, rfl⟩
  · rcases parseLayer4_eq_ok h' with ⟨-, -, rfl⟩ | ⟨hp, -⟩ | ⟨hp, -⟩ | ⟨hno, -⟩
    · exact ⟨_, rfl, rfl⟩
    · exact absurd hp (by decide)
    · exact absurd hp.symm htcp
    · exact absurd (.inl ⟨rfl, hlen⟩) hno
  · rcases parseLayer4_eq_ok h' with ⟨hp, -⟩ | ⟨-, -, rfl⟩ | ⟨hp, -⟩ | ⟨hno, -⟩
    · exact absurd hp (by decide)
    · exact ⟨8, rfl, rfl⟩
    · exact absurd hp.symm hudp
    · exact absurd (.inr (.inl ⟨rfl, hlen⟩)) hno
  · rcases parseLayer4_eq_ok h' with ⟨hp, -⟩ | ⟨hp, -⟩ | ⟨-, -, rfl⟩ | ⟨hno, -⟩
    · exact absurd hp htcp
    · exact absurd hp hudp
    · exact ⟨8, rfl, rfl⟩
    · exact absurd (.inr (.inr ⟨rfl, hlen⟩)) hno
  · rcases parseLayer4_eq_ok h' with ⟨hp, hlen, -⟩ | ⟨hp, hlen, -⟩ | ⟨hp, hlen, -⟩ | ⟨-, rfl⟩
    · exact absurd (.inl ⟨hp, hlen⟩) hno
    · exact absurd (.inr (.inl ⟨hp, hlen⟩)) hno
    · exact absurd (.inr (.inr ⟨hp, hlen⟩)) hno
    · exact ⟨0, rfl, rfl⟩

theorem HasHeader.ipHeaderLen_pos {ip : Bytes} (h : HasHeader ip) : 0 < ipHeaderLen ip := by
  unfold HasHeader at h
  unfold ipHeaderLen
  split at h
  · rename_i hv4
    rw [if_pos hv4]
    omega
  · rename_i hv4
    rw [if_neg hv4]
    decide

theorem ipMeta_reframe {ip : Bytes} {l2 l2' : Layer2} {l4 : Layer4} {n start' : Nat} (hn : 0 < n)
    (hoff : l4.appPayloadOffset = l2.ipOffset + n) :
    (ipMeta ip l2 l4).Reframes l2.ipOffset start'
      (ipMeta ip l2' { l4 with appPayloadOffset := start' + n }) := by
  unfold ipMeta
  split
  · exact ⟨rfl, rfl, rfl, rfl, rfl, rfl, rfl, rfl, rfl, rfl, rfl, n, hn, hoff, rfl⟩
  · exact ⟨rfl, rfl, rfl, rfl, rfl, rfl, rfl, rfl, rfl, rfl, rfl, n, hn, hoff, rfl⟩

/-- **The encapsulation says nothing about the packet**: under two of them the same
packets have metadata, and these are the same but for what layer 2 says; the payloads
start at the same byte of the packet. -/
theorem parseIp_reframe (ip : Bytes) {l2 l2' : Layer2} (hoff : l2.ipOffset ≤ 18)
    (hoff' : l2'.ipOffset ≤ 18) :
    (parseIp ip l2 = .ok none ∧ parseIp ip l2' = .ok none) ∨
      ∃ tm tm', parseIp ip l2 = .ok (some tm) ∧ parseIp ip l2' = .ok (some tm') ∧
        tm.Reframes l2.ipOffset l2'.ipOffset tm' ∧ tm.vlanId = l2.vlanId ∧
        tm'.vlanId = l2'.vlanId := by
  by_cases hheader : HasHeader ip
  · right
    obtain ⟨l4, hl4, hip⟩ := (parseIp_spec ip hoff).2 hheader
    obtain ⟨l4', hl4', hip'⟩ := (parseIp_spec ip hoff').2 hheader
    obtain ⟨n, hn, rfl⟩ := parseLayer4_shift (ipIcmp_eq ip) hl4 hl4'
    have hpos := hheader.ipHeaderLen_pos
    have hvlan : ∀ l2 l4, (ipMeta ip l2 l4).vlanId = l2.vlanId := by
      intro l2 l4
      unfold ipMeta
      split <;> rfl
    rw [Nat.add_assoc] at hn hip'
    exact ⟨_, _, hip, hip', ipMeta_reframe (by omega) hn, hvlan _ _, hvlan _ _⟩
  · exact .inl ⟨(parseIp_spec ip hoff).1 hheader, (parseIp_spec ip hoff').1 hheader⟩

end Ocellus
