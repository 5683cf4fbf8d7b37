import Ocellus.Ids.PortScanWindow
import Mathlib.Combinatorics.Pigeonhole

/-!
# Completeness of scan detection

`HorizontalComplete` and `VerticalComplete` say of a history that the detector
misses no scan: whenever enough distinct ports (sources) were *observed* within
the last 60 s, the call reports one. `horizontalComplete_iff` gives the exact
condition under which a run has the first property, in terms of the openings of
its ports; `scan_of_hashes` is what the 16-bit source hashes support of the
second.
-/

namespace Ocellus

namespace PortScanDetector

open TtlSet (opened seen openings)

/-! ## Histories of one source and of one port -/

/-- The port that `src` contacts in an event. -/
def contactBy (src : IpAddr) : Event (IpAddr × U16) → Option (U16 × Nat)
  | .inspect t a => if a.1 = src then some (a.2, t) else none
  | .sweep _ => none

/-- The source that contacts `port` in an event. -/
def contactOf (port : U16) : Event (IpAddr × U16) → Option (IpAddr × Nat)
  | .inspect t a => if a.2 = port then some (a.1, t) else none
  | .sweep _ => none

/-- The ports that `src` contacted, with times. -/
def portsContacted (src : IpAddr) (tr : Trace) : List (U16 × Nat) :=
  (tr.map Entry.event).filterMap (contactBy src)

/-- The sources that contacted `port`, with times. -/
def sourcesContacting (port : U16) (tr : Trace) : List (IpAddr × Nat) :=
  (tr.map Entry.event).filterMap (contactOf port)

/-- The source hashes that reached the record of `port`: those of its calls that
reported no horizontal scan. -/
def hashesRecorded (hasher : IpAddr → BitVec 64) (port : U16) (tr : Trace) :
    List (U16 × Nat) :=
  tr.filterMap fun
    | .inspect t a o =>
      if a.2 = port ∧ isHorizontal o = false then some (ipHash hasher a.1, t) else none
    | .sweep _ => none

theorem observations_selectSrc (src : IpAddr) (tr : Trace) :
    TtlSet.observations (tr.filterMap (Entry.project (selectSrc src)))
      = portsContacted src tr := by
  unfold TtlSet.observations portsContacted
  rw [List.filterMap_filterMap, List.filterMap_map]
  refine List.filterMap_congr fun e _ => ?_
  cases e with
  | inspect t a o =>
    by_cases h : a.1 = src <;> simp [Entry.project, Entry.event, selectSrc, contactBy, h]
  | sweep t => rfl

theorem observations_selectPort (hasher : IpAddr → BitVec 64) (port : U16) (tr : Trace) :
    TtlSet.observations (tr.filterMap (Entry.project (selectPort hasher port)))
      = hashesRecorded hasher port tr := by
  unfold TtlSet.observations hashesRecorded
  rw [List.filterMap_filterMap]
  refine List.filterMap_congr fun e _ => ?_
  cases e with
  | inspect t a o =>
    by_cases h : a.2 = port ∧ isHorizontal o = false
    · simp [Entry.project, selectPort, h]
    · simp [Entry.project, selectPort, h]
  | sweep t => rfl

/-! ## When a call reports a scan -/

variable {hasher : IpAddr → BitVec 64} {tr : Trace} {c : Nat} {d : PortScanDetector}

/-- The last call of a run reports a horizontal scan exactly when 20 ports of
its source were opened in the last 60 s. -/
theorem horizontal_iff {t : Nat} {src : IpAddr} {port : U16} {o : Option Signal}
    (h : (component hasher).Run new (tr ++ [.inspect t (src, port) o]) c d) :
    isHorizontal o = true ↔
      20 ≤ (opened (secs 60) t (portsContacted src (tr ++ [.inspect t (src, port) o]))).card := by
  obtain ⟨c', hc', hrun⟩ := run_ports src h
  have hlast : (tr ++ [Entry.inspect t (src, port) o]).filterMap (Entry.project (selectSrc src))
      = tr.filterMap (Entry.project (selectSrc src)) ++ [.inspect t port (isHorizontal o)] := by
    simp [Entry.project, selectSrc]
  rw [hlast] at hrun
  obtain ⟨c₀, s₀, hrun₀, hc₀, hstep⟩ := Component.Run.inspect_inv hrun
  rw [TtlSet.answer_iff (by decide) hrun₀ hc₀ hstep, observations_selectSrc]
  simp [portsContacted, contactBy, Entry.event, window]

/-- The last call of a run, if it reports no horizontal scan, reports a vertical
one exactly when 50 hashes were opened for its port in the last 60 s. -/
theorem vertical_iff {t : Nat} {src : IpAddr} {port : U16} {o : Option Signal}
    (h : (component hasher).Run new (tr ++ [.inspect t (src, port) o]) c d)
    (ho : isHorizontal o = false) :
    o.isSome = true ↔
      50 ≤ (opened (secs 60) t
        (hashesRecorded hasher port (tr ++ [.inspect t (src, port) o]))).card := by
  obtain ⟨c', hc', hrun⟩ := run_srcs port h
  have hlast : (tr ++ [Entry.inspect t (src, port) o]).filterMap
        (Entry.project (selectPort hasher port))
      = tr.filterMap (Entry.project (selectPort hasher port))
        ++ [.inspect t (ipHash hasher src) o.isSome] := by
    simp [Entry.project, selectPort, ho]
  rw [hlast] at hrun
  obtain ⟨c₀, s₀, hrun₀, hc₀, hstep⟩ := Component.Run.inspect_inv hrun
  rw [TtlSet.answer_iff (by decide) hrun₀ hc₀ hstep, observations_selectPort]
  simp [hashesRecorded, window, ho]

/-- No call of a detector can fail. -/
theorem component_total (hasher : IpAddr → BitVec 64) (t : Nat) (a : IpAddr × U16)
    (s : PortScanDetector) : ∃ p, (component hasher).inspect t a s = .ok p := ⟨_, rfl⟩

/-! ## Horizontal scans -/

/-- At every call, if 20 distinct ports of its source were observed in the last
60 s, the call reports a horizontal scan. -/
def HorizontalComplete (tr : Trace) : Prop :=
  ∀ (pre post : Trace) (t : Nat) (src : IpAddr) (port : U16) (o : Option Signal),
    tr = pre ++ .inspect t (src, port) o :: post →
    20 ≤ (seen (secs 60) t (portsContacted src (pre ++ [.inspect t (src, port) o]))).card →
    isHorizontal o = true

/-- At every call, if 20 distinct ports of its source were observed in the last
60 s, then 20 were opened in that time: observed when the port's previous
opening, if any, was at least 60 s old. -/
def PortsOpened (tr : Trace) : Prop :=
  ∀ (pre post : Trace) (t : Nat) (src : IpAddr) (port : U16) (o : Option Signal),
    tr = pre ++ .inspect t (src, port) o :: post →
    20 ≤ (seen (secs 60) t (portsContacted src (pre ++ [.inspect t (src, port) o]))).card →
    20 ≤ (opened (secs 60) t (portsContacted src (pre ++ [.inspect t (src, port) o]))).card

/-- **Horizontal completeness, exactly**: a run misses no horizontal scan if and
only if re-sightings never make the difference between 20 ports and fewer. -/
theorem horizontalComplete_iff (h : (component hasher).Run new tr c d) :
    HorizontalComplete tr ↔ PortsOpened tr := by
  have hcall : ∀ {pre post : Trace} {t src port o},
      tr = pre ++ .inspect t (src, port) o :: post →
      (isHorizontal o = true ↔ 20 ≤ (opened (secs 60) t
        (portsContacted src (pre ++ [.inspect t (src, port) o]))).card) := by
    intro pre post t src port o htr
    obtain ⟨c', s', hrun⟩ := h.upto htr
    exact horizontal_iff hrun
  constructor
  · intro hcomplete pre post t src port o htr hseen
    exact (hcall htr).mp (hcomplete pre post t src port o htr hseen)
  · intro hopened pre post t src port o htr hseen
    exact (hcall htr).mpr (hopened pre post t src port o htr hseen)

/-- A source contacts a port every second, ports 1 to 19, then port 1 again, and port 20. -/
def twentySeconds : List (Event (IpAddr × U16)) :=
  ((List.range 19).map fun i => .inspect (secs i) (.v4 1#32, BitVec.ofNat 16 (i + 1)))
    ++ [.inspect (secs 19) (.v4 1#32, 1#16)] ++ [.inspect (secs 20) (.v4 1#32, 20#16)]

theorem horizontalComplete_iff_twentySeconds :
    ∃ tr c d o, (component fun _ => 0#64).Run new tr c d ∧ tr.map Entry.event = twentySeconds ∧
      tr.getLast? = some (.inspect (secs 20) (.v4 1#32, 20#16) o) ∧ isHorizontal o = true ∧
      (HorizontalComplete tr ↔ PortsOpened tr) := by
  obtain ⟨tr, c, d, hrun, hmap⟩ := Component.Run.exists_of_total new
    (component_total fun _ => 0#64) (show twentySeconds.Pairwise _ by decide)
  obtain ⟨pre, o, rfl, -⟩ := Entry.exists_of_map_event hmap
  have hreported : isHorizontal o = true := by
    rw [horizontal_iff hrun]
    unfold portsContacted
    rw [hmap]
    decide
  exact ⟨_, c, d, o, hrun, hmap, by simp, hreported, horizontalComplete_iff hrun⟩

/-- A source contacts port 1, again 59 s later, and 19 other ports a second
after that. -/
def resighted : List (Event (IpAddr × U16)) :=
  .inspect 0 (.v4 1#32, 1#16) :: .inspect (secs 59) (.v4 1#32, 1#16) ::
    ((List.range 18).map fun i => .inspect (secs 60) (.v4 1#32, BitVec.ofNat 16 (i + 2)))
      ++ [.inspect (secs 60) (.v4 1#32, 20#16)]

/-- **Not every horizontal scan is reported**: at the last call of `resighted`
20 ports were observed in 60 s, but port 1 was opened 60 s ago, and its
re-sighting 1 s ago did not renew it. -/
theorem horizontal_incomplete :
    ∃ tr c d, (component fun _ => 0#64).Run new tr c d ∧ tr.map Entry.event = resighted ∧
      ¬ HorizontalComplete tr := by
  obtain ⟨tr, c, d, hrun, hmap⟩ := Component.Run.exists_of_total new
    (component_total fun _ => 0#64) (show resighted.Pairwise _ by decide)
  refine ⟨tr, c, d, hrun, hmap, fun hcomplete => ?_⟩
  obtain ⟨pre, o, rfl, -⟩ := Entry.exists_of_map_event hmap
  have hlist : portsContacted (.v4 1#32) (pre ++ [.inspect (secs 60) (.v4 1#32, 20#16) o])
      = resighted.filterMap (contactBy (.v4 1#32)) := by
    unfold portsContacted
    rw [hmap]
  have hreported := hcomplete pre [] _ _ _ o rfl (by rw [hlist]; decide)
  have hopened := (horizontal_iff hrun).mp hreported
  rw [hlist] at hopened
  revert hopened
  decide

/-! ## Vertical scans -/

/-- At every call, if 50 distinct sources of its port were observed in the last
60 s, the call reports a scan. -/
def VerticalComplete (tr : Trace) : Prop :=
  ∀ (pre post : Trace) (t : Nat) (src : IpAddr) (port : U16) (o : Option Signal),
    tr = pre ++ .inspect t (src, port) o :: post →
    50 ≤ (seen (secs 60) t (sourcesContacting port (pre ++ [.inspect t (src, port) o]))).card →
    IsScan o

/-- **Vertical scans, as far as 16-bit hashes go**: a call reports a scan when,
among the calls on its port that reported no horizontal scan, 50 distinct source
hashes were opened in the last 60 s. -/
theorem scan_of_hashes (h : (component hasher).Run new tr c d)
    {pre post : Trace} {t : Nat} {src : IpAddr} {port : U16} {o : Option Signal}
    (htr : tr = pre ++ .inspect t (src, port) o :: post)
    (hcount : 50 ≤ (opened (secs 60) t
      (hashesRecorded hasher port (pre ++ [.inspect t (src, port) o]))).card) :
    IsScan o := by
  obtain ⟨c', s', hrun⟩ := h.upto htr
  obtain ⟨c₀, s₀, -, -, hstep⟩ := Component.Run.inspect_inv hrun
  have hsome : o.isSome = true := by
    cases ho : isHorizontal o with
    | true =>
      cases o with
      | none => cases ho
      | some s => rfl
    | false => exact (vertical_iff hrun ho).mpr hcount
  obtain ⟨rfl, -⟩ := step_eq hstep
  exact isScan_of_isSome hsome

/-! ### Many sources, one port, one instant -/

/-- One call on port 80 from each of the addresses, all at one instant. -/
def contactAll (l : List U32) : List (Event (IpAddr × U16)) :=
  l.map fun a => .inspect 0 (.v4 a, 80#16)

theorem contactAll_sorted (l : List U32) :
    (contactAll l).Pairwise fun e e' => e.time ≤ e'.time :=
  List.pairwise_map.mpr (List.pairwise_of_forall fun _ _ => Nat.le_refl 0)

theorem contactAll_ports (src : IpAddr) (l : List U32) :
    ∀ e ∈ (contactAll l).filterMap (contactBy src), e.1 = 80#16 := by
  intro e he
  obtain ⟨x, hx, hxe⟩ := List.mem_filterMap.mp he
  obtain ⟨a, -, rfl⟩ := List.mem_map.mp hx
  simp only [contactBy] at hxe
  split at hxe
  · cases hxe
    rfl
  · cases hxe

theorem contactAll_sources (l : List U32) :
    (contactAll l).filterMap (contactOf 80#16) = l.map fun a => (.v4 a, 0) := by
  unfold contactAll
  rw [List.filterMap_map]
  exact List.filterMap_eq_map_iff_forall_eq_some.mpr fun a _ => by simp [contactOf]

/-- Values all equal to one are at most one in number. -/
theorem opened_card_le_one {α : Type} [DecidableEq α] {w now : Nat} {h : List (α × Nat)} {v : α}
    (hv : ∀ e ∈ h, e.1 = v) : (opened w now h).card ≤ 1 := by
  refine Finset.card_le_one.mpr fun a ha b hb => ?_
  have heq : ∀ x ∈ opened w now h, x = v := by
    intro x hx
    obtain ⟨t, hmem, -⟩ := TtlSet.mem_seen.mp (TtlSet.opened_subset_seen now h hx)
    exact hv _ hmem
  rw [heq a ha, heq b hb]

variable {l : List U32}

/-- No source is reported as a horizontal scanner: each contacted one port. -/
theorem contactAll_not_horizontal (h : (component hasher).Run new tr c d)
    (hmap : tr.map Entry.event = contactAll l) {t : Nat} {a : IpAddr × U16}
    {o : Option Signal} (hmem : Entry.inspect t a o ∈ tr) : isHorizontal o = false := by
  obtain ⟨src, port⟩ := a
  obtain ⟨pre, post, rfl⟩ := List.append_of_mem hmem
  obtain ⟨c', s', hrun⟩ := h.upto rfl
  have hsub : ∀ e ∈ portsContacted src (pre ++ [.inspect t (src, port) o]), e.1 = 80#16 := by
    intro e he
    refine contactAll_ports src l e ?_
    rw [← hmap]
    obtain ⟨x, hx, hxe⟩ := List.mem_filterMap.mp he
    refine List.mem_filterMap.mpr ⟨x, ?_, hxe⟩
    rw [List.map_append] at hx ⊢
    rcases List.mem_append.mp hx with hx | hx
    · exact List.mem_append_left _ hx
    · rw [List.mem_singleton.mp hx]
      exact List.mem_append_right _ (List.mem_cons_self ..)
  refine Bool.eq_false_iff.mpr fun ho => ?_
  have hcard := (horizontal_iff hrun).mp ho
  have hone := Nat.le_trans hcard (opened_card_le_one hsub)
  omega

/-- So every source's hash reaches the record of the port. -/
theorem contactAll_hashes (h : (component hasher).Run new tr c d)
    (hmap : tr.map Entry.event = contactAll l) :
    hashesRecorded hasher 80#16 tr = l.map fun a => (ipHash hasher (.v4 a), 0) := by
  have hevents : hashesRecorded hasher 80#16 tr
      = ((tr.map Entry.event).filterMap (contactOf 80#16)).map fun e => (ipHash hasher e.1, e.2) := by
    unfold hashesRecorded
    rw [List.filterMap_map, List.map_filterMap]
    refine List.filterMap_congr fun e he => ?_
    cases e with
    | inspect t a o =>
      have ho := contactAll_not_horizontal h hmap he
      by_cases hport : a.2 = 80#16 <;> simp [contactOf, Entry.event, ho, hport]
    | sweep t => rfl
  rw [hevents, hmap, contactAll_sources, List.map_map]
  rfl

/-- Distinct values observed now are all in the window. -/
theorem seen_now_card {α β : Type} [DecidableEq β] {l : List α} {f : α → β} {w : Nat}
    (hw : 0 < w) (hnodup : (l.map f).Nodup) :
    (seen w 0 (l.map fun a => (f a, 0))).card = l.length := by
  have hlive : TtlSet.liveAt w 0 (l.map fun a => (f a, 0)) = l.map fun a => (f a, 0) := by
    refine List.filter_eq_self.mpr fun e he => ?_
    obtain ⟨a, -, rfl⟩ := List.mem_map.mp he
    simpa [durationSince] using hw
  unfold seen
  rw [hlive, List.map_map]
  show (l.map f).toFinset.card = l.length
  rw [List.toFinset_card_of_nodup hnodup, List.length_map]

/-- 50 sources with 50 hashes are reported. -/
theorem scan_of_hashes_contactAll :
    let hasher : IpAddr → BitVec 64 := fun
      | .v4 a => a.setWidth 64
      | .v6 _ => 0#64
    ∃ tr c d o, (component hasher).Run new tr c d ∧
      tr.getLast? = some (.inspect 0 (.v4 49#32, 80#16) o) ∧ IsScan o := by
  intro hasher
  let l : List U32 := (List.range 50).map (BitVec.ofNat 32)
  obtain ⟨tr, c, d, hrun, hmap⟩ := Component.Run.exists_of_total new
    (component_total hasher) (contactAll_sorted l)
  have hlast : contactAll l
      = contactAll ((List.range 49).map (BitVec.ofNat 32)) ++ [.inspect 0 (.v4 49#32, 80#16)] := by
    decide
  obtain ⟨pre, o, rfl, -⟩ := Entry.exists_of_map_event (hmap.trans hlast)
  refine ⟨_, c, d, o, hrun, by simp, scan_of_hashes hrun rfl ?_⟩
  rw [contactAll_hashes hrun hmap]
  decide +kernel

/-! ### Hash collisions -/

/-- Whatever the hash, 50 IPv4 addresses share one value of it. -/
theorem exists_colliding (hasher : IpAddr → BitVec 64) :
    ∃ (l : List U32) (y : U16), l.Nodup ∧ l.length = 50 ∧
      ∀ a ∈ l, ipHash hasher (.v4 a) = y := by
  let f : Fin (2 ^ 32) → Fin (2 ^ 16) := fun x => (ipHash hasher (.v4 ⟨x⟩)).toFin
  obtain ⟨y, hy⟩ := Fintype.exists_lt_card_fiber_of_mul_lt_card (n := 49) f (by simp)
  obtain ⟨S, hS, hcard⟩ := Finset.exists_subset_card_eq (Nat.succ_le_of_lt hy)
  refine ⟨S.toList.map fun x => ⟨x⟩, ⟨y⟩, ?_, by simp [hcard], ?_⟩
  · exact S.nodup_toList.map fun x x' h => by simpa using h
  · intro a ha
    obtain ⟨x, hx, rfl⟩ := List.mem_map.mp ha
    have := (Finset.mem_filter.mp (hS (Finset.mem_toList.mp hx))).2
    exact BitVec.eq_of_toFin_eq this

/-- **No 16-bit hash sees every vertical scan**: 50 sources that share a hash
contact port 80 at one instant, and no scan is reported. -/
theorem vertical_incomplete :
    ¬ ∃ hasher : IpAddr → BitVec 64, ∀ tr c d,
      (component hasher).Run new tr c d → VerticalComplete tr := by
  rintro ⟨hasher, hall⟩
  obtain ⟨l, y, hnodup, hlen, hhash⟩ := exists_colliding hasher
  obtain ⟨l', a, rfl⟩ : ∃ l' a, l = l' ++ [a] := by
    rcases List.eq_nil_or_concat l with rfl | ⟨l', a, rfl⟩
    · simp at hlen
    · exact ⟨l', a, List.concat_eq_append⟩
  obtain ⟨tr, c, d, hrun, hmap⟩ := Component.Run.exists_of_total new
    (component_total hasher) (contactAll_sorted (l' ++ [a]))
  obtain ⟨pre, o, rfl, -⟩ := Entry.exists_of_map_event
    (hmap.trans (List.map_append ..))
  -- 50 sources were observed, so a complete detector reports a scan
  have hseen : 50 ≤ (seen (secs 60) 0 (sourcesContacting 80#16
      (pre ++ [.inspect 0 (.v4 a, 80#16) o]))).card := by
    unfold sourcesContacting
    rw [hmap, contactAll_sources, seen_now_card (by decide), hlen]
    exact hnodup.map fun x x' h => by simpa using h
  obtain ⟨s, rfl, -⟩ := hall _ _ _ hrun pre [] 0 (.v4 a) 80#16 o rfl hseen
  -- but they opened one hash only
  have ho := contactAll_not_horizontal hrun hmap (List.mem_append_right _ (List.mem_cons_self ..))
  have hopened := (vertical_iff hrun ho).mp rfl
  have hone : ∀ e ∈ hashesRecorded hasher 80#16
      (pre ++ [.inspect 0 (.v4 a, 80#16) (some s)]), e.1 = y := by
    rw [contactAll_hashes hrun hmap]
    intro e he
    obtain ⟨x, hx, rfl⟩ := List.mem_map.mp he
    exact hhash x hx
  have := Nat.le_trans hopened (opened_card_le_one hone)
  omega

end PortScanDetector

end Ocellus
