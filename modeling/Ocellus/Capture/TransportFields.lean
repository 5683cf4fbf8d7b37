import Ocellus.Capture.Ipv4Frames

/-!
# Where the transport fields come from

What the parser reports as ports, flags and ICMP type are the bytes at fixed
offsets behind the IP header, if there are as many as the header of the protocol
has (`parseLayer4_eq_ok`, `parseIp_fields`). Two fields of the headers are not
looked at: the fragment offset of an IPv4 packet (`fragmentOffset`), and whether the
data offset of a TCP header is that of a whole header (`tcpHeaderLen`).
-/

namespace Ocellus

open Checked (index)

/-! ## Header fields -/

/-- The length of the header that a TCP segment announces. -/
def tcpHeaderLen (tl : Bytes) : Nat := (tl.getD 12 0#8 >>> 4).toNat * 4

/-- The fragment offset of an IPv4 packet, in units of 8 bytes. -/
def fragmentOffset (ip : Bytes) : U16 := fromBeBytes (ip.getD 6 0#8) (ip.getD 7 0#8) &&& 0x1FFF#16

/-- The port at byte `i` of a header. -/
def portAt (tl : Bytes) (i : Nat) : U16 := fromBeBytes (tl.getD i 0#8) (tl.getD (i + 1) 0#8)

/-- Behind the IP header are at least as many bytes as the parser reads. -/
def HasTransport (icmp proto : U8) (tl : Bytes) : Prop :=
  proto = 6#8 ∧ 20 ≤ tl.length ∨ proto = 17#8 ∧ 8 ≤ tl.length ∨ proto = icmp ∧ 4 ≤ tl.length

instance (icmp proto : U8) (tl : Bytes) : Decidable (HasTransport icmp proto tl) :=
  inferInstanceAs (Decidable (_ ∨ _))

section Layer4

variable {icmp proto : U8} {tl : Bytes} {offset : Nat} {l4 : Layer4}

/-- Inversion of the transport parser. -/
theorem parseLayer4_eq_ok (h : parseLayer4 icmp proto tl offset = .ok l4) :
    (proto = 6#8 ∧ 20 ≤ tl.length ∧
      l4 = ⟨some (portAt tl 0), some (portAt tl 2), some (tl.getD 13 0#8), none, none,
        offset + tcpHeaderLen tl⟩) ∨
    (proto = 17#8 ∧ 8 ≤ tl.length ∧
      l4 = ⟨some (portAt tl 0), some (portAt tl 2), none, none, none, offset + 8⟩) ∨
    (proto = icmp ∧ 4 ≤ tl.length ∧
      l4 = ⟨none, none, none, some (tl.getD 0 0#8), some (tl.getD 1 0#8), offset + 8⟩) ∨
    (¬ HasTransport icmp proto tl ∧ l4 = ⟨none, none, none, none, none, offset⟩) := by
  have hport : ∀ {i a b}, index tl i = .ok a → index tl (i + 1) = .ok b →
      fromBeBytes a b = portAt tl i := by
    intro i a b ha hb
    rw [portAt, getD_eq_of_index ha, getD_eq_of_index hb]
  unfold parseLayer4 at h
  split at h
  · rename_i htcp
    obtain ⟨b12, h12, h⟩ := Checked.bind_eq_ok.mp h
    obtain ⟨dataOff, hdataOff, h⟩ := Checked.bind_eq_ok.mp h
    obtain ⟨b0, h0, h⟩ := Checked.bind_eq_ok.mp h
    obtain ⟨b1, h1, h⟩ := Checked.bind_eq_ok.mp h
    obtain ⟨b2, h2, h⟩ := Checked.bind_eq_ok.mp h
    obtain ⟨b3, h3, h⟩ := Checked.bind_eq_ok.mp h
    obtain ⟨b13, h13, h⟩ := Checked.bind_eq_ok.mp h
    obtain ⟨start, hstart, h⟩ := Checked.bind_eq_ok.mp h
    cases h
    refine .inl ⟨htcp.1, htcp.2, ?_⟩
    rw [hport h0 h1, hport h2 h3, getD_eq_of_index h13, Checked.add_eq_ok hstart,
      Checked.mul_eq_ok hdataOff, tcpHeaderLen, getD_eq_of_index h12]
  · rename_i htcp
    split at h
    · rename_i hudp
      obtain ⟨b0, h0, h⟩ := Checked.bind_eq_ok.mp h
      obtain ⟨b1, h1, h⟩ := Checked.bind_eq_ok.mp h
      obtain ⟨b2, h2, h⟩ := Checked.bind_eq_ok.mp h
      obtain ⟨b3, h3, h⟩ := Checked.bind_eq_ok.mp h
      obtain ⟨start, hstart, h⟩ := Checked.bind_eq_ok.mp h
      cases h
      refine .inr (.inl ⟨hudp.1, hudp.2, ?_⟩)
      rw [hport h0 h1, hport h2 h3, Checked.add_eq_ok hstart]
    · rename_i hudp
      split at h
      · rename_i hicmp
        obtain ⟨b0, h0, h⟩ := Checked.bind_eq_ok.mp h
        obtain ⟨b1, h1, h⟩ := Checked.bind_eq_ok.mp h
        obtain ⟨start, hstart, h⟩ := Checked.bind_eq_ok.mp h
        cases h
        refine .inr (.inr (.inl ⟨hicmp.1, hicmp.2, ?_⟩))
        rw [getD_eq_of_index h0, getD_eq_of_index h1, Checked.add_eq_ok hstart]
      · rename_i hicmp
        cases h
        refine .inr (.inr (.inr ⟨?_, rfl⟩))
        rintro (h | h | h)
        · exact htcp h
        · exact hudp h
        · exact hicmp h

/-- No ports, no flags, no type and no code. -/
def Layer4.NoFields (l4 : Layer4) : Prop :=
  l4.srcPort = none ∧ l4.dstPort = none ∧ l4.tcpFlags = none ∧ l4.icmpType = none ∧
    l4.icmpCode = none

/-- Something is reported exactly if there are enough bytes. -/
theorem noFields_iff (h : parseLayer4 icmp proto tl offset = .ok l4) :
    l4.NoFields ↔ ¬ HasTransport icmp proto tl := by
  rcases parseLayer4_eq_ok h with ⟨hp, hlen, rfl⟩ | ⟨hp, hlen, rfl⟩ | ⟨hp, hlen, rfl⟩ | ⟨hno, rfl⟩
  · exact iff_of_false nofun (not_not_intro (.inl ⟨hp, hlen⟩))
  · exact iff_of_false nofun (not_not_intro (.inr (.inl ⟨hp, hlen⟩)))
  · exact iff_of_false nofun (not_not_intro (.inr (.inr ⟨hp, hlen⟩)))
  · exact iff_of_true ⟨rfl, rfl, rfl, rfl, rfl⟩ hno

end Layer4

/-! ## IP packets of either version -/

/-- A packet whose first nibble is 4. -/
def IsVersion4 (ip : Bytes) : Prop := (ip.getD 0 0#8 >>> 4) &&& 0xF#8 = 4#8

instance (ip : Bytes) : Decidable (IsVersion4 ip) := inferInstanceAs (Decidable (_ = _))

/-- The length of the IP header: as announced in version 4, fixed in version 6. -/
def ipHeaderLen (ip : Bytes) : Nat := if IsVersion4 ip then ipv4HeaderLen ip else 40

/-- The protocol, or the next header. -/
def ipProtocol (ip : Bytes) : U8 := if IsVersion4 ip then ip.getD 9 0#8 else ip.getD 6 0#8

/-- The protocol number of the version's ICMP. -/
def ipIcmp (ip : Bytes) : U8 := if IsVersion4 ip then 1#8 else 58#8

/-- What is found of a packet: its protocol, and what is read behind its header. -/
theorem parseIp_fields {ip : Bytes} {l2 : Layer2} {tm : TransportMeta}
    (h : parseIp ip l2 = .ok (some tm)) :
    tm.protocol = ipProtocol ip ∧
      parseLayer4 (ipIcmp ip) (ipProtocol ip) (ip.drop (ipHeaderLen ip))
        (l2.ipOffset + ipHeaderLen ip) = .ok tm.layer4 := by
  unfold parseIp at h
  cases hb : ip.head? with
  | none =>
    rw [hb] at h
    cases h
  | some b =>
    have hfirst : ip.getD 0 0#8 = b := getD_of_head? hb
    rw [hb] at h
    dsimp only at h
    unfold ipProtocol ipIcmp ipHeaderLen
    split at h
    · rename_i hversion
      have hv4 : IsVersion4 ip := by rwa [IsVersion4, hfirst]
      rw [if_pos hv4, if_pos hv4, if_pos hv4]
      rcases parseIpv4_cases h with ⟨hnone, -⟩ | ⟨tm', htm', -, -, hproto, hfields⟩
      · cases hnone
      · cases htm'
        rw [← hproto]
        exact ⟨rfl, hfields⟩
    · rename_i hversion
      have hv4 : ¬ IsVersion4 ip := by rwa [IsVersion4, hfirst]
      rw [if_neg hv4, if_neg hv4, if_neg hv4]
      split at h
      · obtain ⟨-, hproto, hfields⟩ := parseIpv6_eq_some h
        rw [← hproto]
        exact ⟨rfl, hfields⟩
      · cases h

end Ocellus
