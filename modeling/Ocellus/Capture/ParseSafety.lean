import Ocellus.Capture.Parse

/-!
# Parsing never faults

`parse_transport` indexes, slices, adds and multiplies behind length checks that
stand elsewhere. Here each parser gets its total-correctness triple: whatever the
bytes, it returns, and the offsets it passes on are small.
-/

namespace Ocellus

open Checked (Returns index index_returns)

/-! ## Layer 2 -/

theorem parseVlan_returns (data : Bytes) (offset : Nat) (etype : U16) :
    (parseVlan data offset etype).Returns fun r => r.2.1 ≤ offset + 4 := by
  unfold parseVlan
  split
  · rename_i htag
    refine (index_returns (by omega)).bind fun _ _ => ?_
    refine (index_returns (by omega)).bind fun _ _ => ?_
    refine (index_returns (by omega)).bind fun _ _ => ?_
    refine (index_returns (by omega)).bind fun _ _ => ?_
    exact .ok (Nat.le_refl _)
  · exact .ok (Nat.le_add_right _ _)

theorem parseEthernet_returns (data : Bytes) :
    (parseEthernet data).Returns fun o => ∀ l2, o = some l2 → l2.ipOffset ≤ 18 := by
  unfold parseEthernet
  split
  · exact .ok fun _ h => nomatch h
  · refine (Checked.slice_returns (by omega) (by omega)).bind fun mac _ => ?_
    refine (index_returns (by omega)).bind fun _ _ => ?_
    refine (index_returns (by omega)).bind fun _ _ => ?_
    refine (parseVlan_returns data 14 _).bind fun ⟨etype, offset, vlanId⟩ hoffset => ?_
    by_cases hip : etype ≠ 0x0800#16 ∧ etype ≠ 0x86DD#16
    · exact ⟨none, if_pos hip, fun _ h => nomatch h⟩
    · refine ⟨_, if_neg hip, fun l2 h => ?_⟩
      obtain rfl := Option.some.inj h
      exact hoffset

theorem parseLink_returns (data : Bytes) (linkType : LinkType) :
    (parseLink data linkType).Returns fun o => ∀ l2, o = some l2 → l2.ipOffset ≤ 18 := by
  cases linkType with
  | ethernet => exact parseEthernet_returns data
  | rawIp =>
    refine .ok fun l2 h => ?_
    obtain rfl := Option.some.inj h
    exact Nat.zero_le _
  | loopback =>
    refine .ok fun l2 h => ?_
    obtain rfl := Option.some.inj h
    decide
  | unknown code => exact .ok fun _ h => nomatch h

/-! ## Layers 3 and 4 -/

/-- The transport header, behind at most 78 bytes. -/
theorem parseLayer4_returns (icmp proto : U8) (tl : Bytes) {payloadOffset : Nat}
    (h : payloadOffset ≤ 78) :
    (parseLayer4 icmp proto tl payloadOffset).Returns fun _ => True := by
  unfold parseLayer4
  split
  · refine (index_returns (by omega)).bind fun b _ => ?_
    have hnibble : (b >>> 4).toNat < 2 ^ 8 := (b >>> 4).isLt
    refine (Checked.mul_returns (by omega)).bind fun dataOff hoff => ?_
    refine (index_returns (by omega)).bind fun _ _ => ?_
    refine (index_returns (by omega)).bind fun _ _ => ?_
    refine (index_returns (by omega)).bind fun _ _ => ?_
    refine (index_returns (by omega)).bind fun _ _ => ?_
    refine (index_returns (by omega)).bind fun _ _ => ?_
    refine (Checked.add_returns (by omega)).bind fun _ _ => ?_
    exact .ok trivial
  · split
    · refine (index_returns (by omega)).bind fun _ _ => ?_
      refine (index_returns (by omega)).bind fun _ _ => ?_
      refine (index_returns (by omega)).bind fun _ _ => ?_
      refine (index_returns (by omega)).bind fun _ _ => ?_
      refine (Checked.add_returns (by omega)).bind fun _ _ => ?_
      exact .ok trivial
    · split
      · refine (index_returns (by omega)).bind fun _ _ => ?_
        refine (index_returns (by omega)).bind fun _ _ => ?_
        refine (Checked.add_returns (by omega)).bind fun _ _ => ?_
        exact .ok trivial
      · exact .ok trivial

theorem parseIpv4_returns (ip : Bytes) {l2 : Layer2} (h : l2.ipOffset ≤ 18) :
    (parseIpv4 ip l2).Returns fun _ => True := by
  unfold parseIpv4
  split
  · exact .ok trivial
  · refine (index_returns (by omega)).bind fun b _ => ?_
    have hnibble : (b &&& 0x0F#8).toNat ≤ 15 := Nat.and_le_right
    refine (Checked.mul_returns (by omega)).bind fun ihl hihl => ?_
    by_cases hshort : ihl < 20 ∨ ip.length < ihl
    · rw [if_pos hshort]
      exact .ok trivial
    · rw [if_neg hshort]
      refine (index_returns (by omega)).bind fun ttl _ => ?_
      refine (index_returns (by omega)).bind fun proto _ => ?_
      refine (index_returns (by omega)).bind fun hi _ => ?_
      refine (index_returns (by omega)).bind fun lo _ => ?_
      -- 13 bits of offset, times 8, are 16 bits
      have hfrag : (fromBeBytes hi lo &&& 0x1FFF#16).toNat ≤ 0x1FFF := Nat.and_le_right
      refine (Checked.mul_returns (by omega)).bind fun frag _ => ?_
      refine (index_returns (by omega)).bind fun _ _ => ?_
      refine (index_returns (by omega)).bind fun _ _ => ?_
      refine (index_returns (by omega)).bind fun _ _ => ?_
      refine (index_returns (by omega)).bind fun _ _ => ?_
      refine (index_returns (by omega)).bind fun _ _ => ?_
      refine (index_returns (by omega)).bind fun _ _ => ?_
      refine (index_returns (by omega)).bind fun _ _ => ?_
      refine (index_returns (by omega)).bind fun _ _ => ?_
      cases getFrom ip ihl with
      | none => exact .ok trivial
      | some tl =>
        refine (Checked.add_returns (by omega)).bind fun offset hoffset => ?_
        refine (parseLayer4_returns 1#8 proto tl (by omega)).bind fun _ _ => ?_
        exact .ok trivial

theorem parseIpv6_returns (ip : Bytes) {l2 : Layer2} (h : l2.ipOffset ≤ 18) :
    (parseIpv6 ip l2).Returns fun _ => True := by
  unfold parseIpv6
  split
  · exact .ok trivial
  · refine (index_returns (by omega)).bind fun proto _ => ?_
    refine (index_returns (by omega)).bind fun ttl _ => ?_
    refine (Checked.slice_returns (by omega) (by omega)).bind fun src _ => ?_
    cases ipv6FromSlice src with
    | none => exact .ok trivial
    | some srcIp =>
      refine (Checked.slice_returns (by omega) (by omega)).bind fun dst _ => ?_
      cases ipv6FromSlice dst with
      | none => exact .ok trivial
      | some dstIp =>
        cases getFrom ip 40 with
        | none => exact .ok trivial
        | some tl =>
          refine (Checked.add_returns (by omega)).bind fun offset hoffset => ?_
          refine (parseLayer4_returns 58#8 proto tl (by omega)).bind fun _ _ => ?_
          exact .ok trivial

/-- **`parse_transport` never faults**. -/
theorem parseTransport_returns (data : Bytes) (linkType : LinkType) :
    (parseTransport data linkType).Returns fun _ => True := by
  refine (parseLink_returns data linkType).bind fun o ho => ?_
  cases o with
  | none => exact .ok trivial
  | some l2 =>
    have hoffset := ho l2 rfl
    dsimp only
    cases getFrom data l2.ipOffset with
    | none => exact .ok trivial
    | some ip =>
      dsimp only
      unfold parseIp
      cases ip.head? with
      | none => exact .ok trivial
      | some b =>
        dsimp only
        split
        · exact parseIpv4_returns ip hoffset
        · split
          · exact parseIpv6_returns ip hoffset
          · exact .ok trivial

end Ocellus
