import Ocellus.Ids.ScanCompleteness

/-!
# Soundness of scan detection

The converse of completeness: an alarm is never false. What a sliding set holds
was opened within the window, so it was observed in it, and the values in a set
are distinct. For a vertical scan the set holds 16-bit hashes of sources, but a
function cannot have more values than arguments: 50 hashes come from at least 50
addresses, however badly they collide. `alarms_backed` says so of every alarm of
every run.
-/

namespace Ocellus

namespace PortScanDetector

open TtlSet (opened seen)

/-- `src` contacted `port` in the 60 s that end at `t`. -/
def Observed (tr : Trace) (t : Nat) (src : IpAddr) (port : U16) : Prop :=
  ∃ t' o, Entry.inspect t' (src, port) o ∈ tr ∧ t' ≤ t ∧ t < t' + secs 60

/-- A call reports the given scan. -/
def Reports (name : SignalName) (o : Option Signal) : Prop := ∃ s, o = some s ∧ s.name = name

variable {hasher : IpAddr → BitVec 64} {tr : Trace} {c t : Nat} {d : PortScanDetector}

theorem isHorizontal_iff {o : Option Signal} :
    isHorizontal o = true ↔ Reports .portScanHorizontal o := by
  cases o with
  | none => simp [isHorizontal, Reports]
  | some s => simp [isHorizontal, Reports]

/-- A vertical report is not a horizontal one. -/
theorem Reports.not_isHorizontal {o : Option Signal} (h : Reports .portScanVertical o) :
    isHorizontal o = false := by
  obtain ⟨s, rfl, hname⟩ := h
  simp [isHorizontal, hname]

theorem mem_portsContacted {src : IpAddr} {port : U16} :
    (port, t) ∈ portsContacted src tr ↔ ∃ o, Entry.inspect t (src, port) o ∈ tr := by
  unfold portsContacted
  rw [List.filterMap_map, List.mem_filterMap]
  constructor
  · rintro ⟨e, he, hcontact⟩
    cases e with
    | inspect t' a o =>
      obtain ⟨src', port'⟩ := a
      simp only [Function.comp_apply, Entry.event, contactBy] at hcontact
      split at hcontact
      · rename_i hsrc
        cases hcontact
        exact ⟨o, hsrc ▸ he⟩
      · cases hcontact
    | sweep t' => cases hcontact
  · rintro ⟨o, he⟩
    exact ⟨_, he, by simp [Entry.event, contactBy]⟩

/-- Every hash that reached the record of a port is the hash of a source that
contacted it then. -/
theorem exists_of_mem_hashesRecorded {port : U16} {e : U16 × Nat}
    (h : e ∈ hashesRecorded hasher port tr) :
    ∃ src, ipHash hasher src = e.1 ∧ (src, e.2) ∈ sourcesContacting port tr := by
  obtain ⟨x, hx, hxe⟩ := List.mem_filterMap.mp h
  cases x with
  | inspect t' a o =>
    obtain ⟨src, port'⟩ := a
    simp only at hxe
    split at hxe
    · rename_i hport
      cases hxe
      refine ⟨src, rfl, List.mem_filterMap.mpr ⟨_, List.mem_map_of_mem hx, ?_⟩⟩
      simp [Entry.event, contactOf, hport.1]
    · cases hxe
  | sweep t' => cases hxe

/-- Distinct hashes come from distinct sources. -/
theorem card_hashes_le_sources {w : Nat} (now : Nat) (port : U16) (tr : Trace) :
    (opened w now (hashesRecorded hasher port tr)).card
      ≤ (seen w now (sourcesContacting port tr)).card :=
  TtlSet.card_seen_le_of_map fun _ he =>
    exists_of_mem_hashesRecorded (TtlSet.openings_subset _ he)

theorem mem_sourcesContacting {src : IpAddr} {port : U16}
    (h : (src, t) ∈ sourcesContacting port tr) : ∃ o, Entry.inspect t (src, port) o ∈ tr := by
  unfold sourcesContacting at h
  rw [List.filterMap_map] at h
  obtain ⟨e, he, hcontact⟩ := List.mem_filterMap.mp h
  cases e with
  | inspect t' a o =>
    obtain ⟨src', port'⟩ := a
    simp only [Function.comp_apply, Entry.event, contactOf] at hcontact
    split at hcontact
    · rename_i hport
      cases hcontact
      exact ⟨o, hport ▸ he⟩
    · cases hcontact
  | sweep t' => cases hcontact

/-- What a run has in its window at its last time was observed in the minute
before it. -/
theorem observed_of_live (h : (component hasher).Run new tr t d) {t' : Nat} {src : IpAddr}
    {port : U16} {o : Option Signal} (hmem : Entry.inspect t' (src, port) o ∈ tr)
    (hlive : durationSince t t' < secs 60) : Observed tr t src port := by
  have hle : t' ≤ t := h.time_le _ hmem
  refine ⟨t', o, hmem, hle, ?_⟩
  unfold durationSince at hlive
  omega

/-- **Scan alarms are never false**: in every run, a call at `t` that reports a
horizontal scan has 20 ports of its source behind it, and one that reports a
vertical scan 50 sources of its port, each observed in the 60 s before `t`. -/
theorem alarms_backed (h : (component hasher).Run new tr c d) {pre post : Trace}
    {src : IpAddr} {port : U16} {o : Option Signal}
    (htr : tr = pre ++ .inspect t (src, port) o :: post) :
    let upTo := pre ++ [.inspect t (src, port) o]
    (Reports .portScanHorizontal o →
      ∃ ports : Finset U16, 20 ≤ ports.card ∧ ∀ p ∈ ports, Observed upTo t src p) ∧
    (Reports .portScanVertical o →
      ∃ sources : Finset IpAddr, 50 ≤ sources.card ∧ ∀ a ∈ sources, Observed upTo t a port) := by
  obtain ⟨t', s', hrun⟩ := h.upto htr
  obtain rfl : t' = t := hrun.clock_eq
  constructor
  · intro hreport
    have hopened := (horizontal_iff hrun).mp (isHorizontal_iff.mpr hreport)
    refine ⟨seen (secs 60) t' (portsContacted src _),
      hopened.trans (Finset.card_le_card (TtlSet.opened_subset_seen t' _)), ?_⟩
    intro p hp
    obtain ⟨t₁, hmem, hlive⟩ := TtlSet.mem_seen.mp hp
    obtain ⟨o₁, he⟩ := mem_portsContacted.mp hmem
    exact observed_of_live hrun he hlive
  · intro hreport
    have hsome : o.isSome = true := by
      obtain ⟨s, rfl, -⟩ := hreport
      rfl
    have hopened := (vertical_iff hrun hreport.not_isHorizontal).mp hsome
    refine ⟨seen (secs 60) t' (sourcesContacting port _),
      hopened.trans (card_hashes_le_sources t' port _), ?_⟩
    intro a ha
    obtain ⟨t₁, hmem, hlive⟩ := TtlSet.mem_seen.mp ha
    obtain ⟨o₁, he⟩ := mem_sourcesContacting hmem
    exact observed_of_live hrun he hlive

/-- One source contacts ports 0 to 19 at one instant. -/
def twentyPorts : List (Event (IpAddr × U16)) :=
  (List.range 19).map (fun i => .inspect 0 (.v4 1#32, BitVec.ofNat 16 i))
    ++ [.inspect 0 (.v4 1#32, 19#16)]

theorem alarms_backed_twentyPorts :
    ∃ tr c d o, (component fun _ => 0#64).Run new tr c d ∧ tr.map Entry.event = twentyPorts ∧
      tr.getLast? = some (.inspect 0 (.v4 1#32, 19#16) o) ∧ Reports .portScanHorizontal o ∧
      ∃ ports : Finset U16, 20 ≤ ports.card ∧ ∀ p ∈ ports, Observed tr 0 (.v4 1#32) p := by
  obtain ⟨tr, c, d, hrun, hmap⟩ := Component.Run.exists_of_total new
    (component_total fun _ => 0#64) (show twentyPorts.Pairwise _ by decide)
  obtain ⟨pre, o, rfl, -⟩ := Entry.exists_of_map_event hmap
  have hreport : Reports .portScanHorizontal o := by
    rw [← isHorizontal_iff, horizontal_iff hrun]
    unfold portsContacted
    rw [hmap]
    decide
  exact ⟨_, c, d, o, hrun, hmap, by simp, hreport, (alarms_backed hrun rfl).1 hreport⟩

end PortScanDetector

end Ocellus
