import Ocellus.Base.PatternOverlap
import Ocellus.Ids.Payload

/-!
# Which signatures a scan misses

`scan_all` is to report all matching signatures, and it reports those of the
successive matches of the automaton, which do not overlap. Among the fifteen
patterns three can be masked by a match that reaches into them (`masks`): the
Metasploit marker behind `lsadump::sa`, the metadata address behind `' OR '1'='`,
and the beacon behind `cmd.exe /`. A scan is complete exactly if each of the three
that occurs also occurs unmasked (`scansCompletely_iff`).
-/

namespace Ocellus

namespace PayloadScanner

/-! ## The table of overlaps -/

theorem separate_patterns : Separate patterns := ⟨patterns_ne_nil, by decide +kernel⟩

/-- Which pattern can reach into which, by how many bytes. -/
theorem overlaps_patterns : overlaps patterns = [(0, 0, 1), (0, 0, 2), (0, 0, 3), (0, 0, 4),
    (0, 0, 5), (0, 0, 6), (0, 0, 7), (4, 4, 1), (6, 6, 1), (6, 8, 1), (9, 9, 1), (10, 2, 1),
    (11, 14, 1), (14, 14, 7)] := by
  decide +kernel

/-- The patterns that a match of another one can mask. -/
theorem masks {i j k : Nat} (h : (i, j, k) ∈ overlaps patterns) :
    i = j ∨ i = 10 ∧ j = 2 ∧ k = 1 ∨ i = 11 ∧ j = 14 ∧ k = 1 ∨ i = 6 ∧ j = 8 ∧ k = 1 := by
  have htable : ∀ o ∈ overlaps patterns, o.1 = o.2.1 ∨ o.1 = 10 ∧ o.2.1 = 2 ∧ o.2.2 = 1 ∨
      o.1 = 11 ∧ o.2.1 = 14 ∧ o.2.2 = 1 ∨ o.1 = 6 ∧ o.2.1 = 8 ∧ o.2.2 = 1 := by
    rw [overlaps_patterns]
    decide
  exact htable _ h

/-! ## The names reported -/

/-- The names of the signals so far are the names seen, each once. -/
theorem scanMatch_names {acc acc' : List SignalName × List Signal} {m : Match}
    (h : acc.2.map Signal.name = acc.1 ∧ acc.1.Nodup) (hstep : scanMatch acc m = .ok acc') :
    acc'.2.map Signal.name = acc'.1 ∧ acc'.1.Nodup := by
  obtain ⟨rule, -, hstep⟩ := Checked.bind_eq_ok.mp hstep
  cases hstep
  split
  · exact h
  · rename_i hnew
    refine ⟨by rw [List.map_append, h.1]; rfl, ?_⟩
    exact List.nodup_append.mpr ⟨h.2, List.nodup_singleton _, fun a ha b hb heq =>
      hnew (List.mem_singleton.mp hb ▸ heq ▸ ha)⟩

theorem foldlM_scanMatch_names (ms : List Match) {acc acc' : List SignalName × List Signal}
    (h : acc.2.map Signal.name = acc.1 ∧ acc.1.Nodup) (hrun : ms.foldlM scanMatch acc = .ok acc') :
    acc'.2.map Signal.name = acc'.1 ∧ acc'.1.Nodup := by
  induction ms generalizing acc with
  | nil =>
    cases hrun
    exact h
  | cons m ms ih =>
    rw [List.foldlM_cons] at hrun
    obtain ⟨acc₁, hstep, hrun⟩ := Checked.bind_eq_ok.mp hrun
    exact ih (scanMatch_names h hstep) hrun

/-- `scan_all` reports the names of the patterns matched, each once. -/
theorem scanAll_names (ac : AhoCorasick patterns) (payload : Bytes) :
    (scanAll ac payload).Returns fun signals => (signals.map Signal.name).Nodup ∧
      ∀ n, n ∈ signals.map Signal.name ↔
        ∃ m ∈ ac.findIter payload, ∃ rule, rules[m.pattern]? = some rule ∧ rule.name = n := by
  obtain ⟨signals, hscan, hsound, hcomplete⟩ := scanAll_returns ac payload
  refine ⟨signals, hscan, ?_, fun n => ?_⟩
  · obtain ⟨acc, hrun, h⟩ := Checked.bind_eq_ok.mp hscan
    obtain ⟨hnames, hnodup⟩ := foldlM_scanMatch_names _ ⟨rfl, List.nodup_nil⟩ hrun
    cases h
    rw [hnames]
    exact hnodup
  · have hmatched : ∀ rule, rule ∈ matched ac payload ↔
        ∃ m ∈ ac.findIter payload, rules[m.pattern]? = some rule :=
      fun rule => List.mem_filterMap
    constructor
    · intro hn
      obtain ⟨s, hs, rfl⟩ := List.mem_map.mp hn
      obtain ⟨rule, hrule, hname, -⟩ := hsound s hs
      obtain ⟨m, hm, hget⟩ := (hmatched rule).mp hrule
      exact ⟨m, hm, rule, hget, hname⟩
    · rintro ⟨m, hm, rule, hget, rfl⟩
      obtain ⟨s, hs, hname, -⟩ := hcomplete rule ((hmatched rule).mpr ⟨m, hm, hget⟩)
      exact List.mem_map.mpr ⟨s, hs, hname.symm⟩

/-! ## Completeness -/

/-- The pattern of the signature named `n` occurs in the payload, up to case. -/
def Contains (payload : Bytes) (n : SignalName) : Prop :=
  ∃ sig ∈ SIGNATURES, sig.2.1 = n ∧ lowered sig.1 <:+: lowered payload

/-- A scan reports the names of the signatures that occur, each once. -/
def ScansCompletely (ac : AhoCorasick patterns) (payload : Bytes) : Prop :=
  (scanAll ac payload).Returns fun signals =>
    (signals.map Signal.name).Nodup ∧ ∀ n, n ∈ signals.map Signal.name ↔ Contains payload n

/-- What occurs of the three patterns that can be masked also occurs unmasked. -/
structure Unmasked (payload : Bytes) : Prop where
  /-- Not directly behind the beginning of `lsadump::sam`. -/
  marker : lowered (ascii "MSFV") <:+: lowered payload →
    ∃ x, OccursAt (ascii "MSFV") payload x ∧ ¬ Precedes (ascii "lsadump::sa") payload x
  /-- Not directly behind the beginning of `' OR '1'='1`. -/
  metadata : lowered (ascii "169.254.169.254") <:+: lowered payload →
    ∃ x, OccursAt (ascii "169.254.169.254") payload x ∧ ¬ Precedes (ascii "' OR '1'='") payload x
  /-- Behind an even number of the beginning of `cmd.exe /c`. -/
  beacon : lowered (ascii "Content-Type: application/octet-stream\r\n\r\nMZ") <:+: lowered payload →
    ∃ x n, OccursAt (ascii "Content-Type: application/octet-stream\r\n\r\nMZ") payload x ∧
      PrecededTimes (ascii "cmd.exe /") n payload x ∧ Even n

variable {ac : AhoCorasick patterns} {payload : Bytes}

theorem patterns_eq_some_iff {i : Nat} {p : Bytes} :
    patterns[i]? = some p ↔ ∃ sig, SIGNATURES[i]? = some sig ∧ sig.1 = p := by
  rw [patterns, List.getElem?_map, Option.map_eq_some_iff]

theorem rules_eq_some_iff {i : Nat} {rule : PayloadRule} :
    rules[i]? = some rule ↔ ∃ sig, SIGNATURES[i]? = some sig ∧ ⟨sig.2.1, sig.2.2⟩ = rule := by
  rw [rules, List.getElem?_map, Option.map_eq_some_iff]

/-- A name belongs to one signature. -/
theorem index_eq_of_name {i j : Nat} {sig sig' : Bytes × SignalName × F32}
    (h : SIGNATURES[i]? = some sig) (h' : SIGNATURES[j]? = some sig')
    (hname : sig.2.1 = sig'.2.1) : i = j := by
  have hnodup : (SIGNATURES.map fun sig => sig.2.1).Nodup := by decide +kernel
  refine (List.getElem?_inj ?_ hnodup).mp ?_
  · rw [List.length_map]
    exact (List.getElem?_eq_some_iff.mp h).1
  · rw [List.getElem?_map, List.getElem?_map, h, h']
    exact congrArg some hname

/-- A scan is complete if every pattern that occurs is matched. -/
theorem scansCompletely_iff_matched :
    ScansCompletely ac payload ↔ ∀ i p, patterns[i]? = some p →
      lowered p <:+: lowered payload → ∃ m ∈ ac.findIter payload, m.pattern = i := by
  obtain ⟨signals, hscan, hnodup, hnames⟩ := scanAll_names ac payload
  -- the names reported are those of the signatures matched
  have hreported : ∀ n, n ∈ signals.map Signal.name ↔ ∃ m ∈ ac.findIter payload, ∃ sig,
      SIGNATURES[m.pattern]? = some sig ∧ sig.2.1 = n := by
    intro n
    rw [hnames]
    refine exists_congr fun m => and_congr_right fun _ => ?_
    constructor
    · rintro ⟨rule, hrule, rfl⟩
      obtain ⟨sig, hsig, rfl⟩ := rules_eq_some_iff.mp hrule
      exact ⟨sig, hsig, rfl⟩
    · rintro ⟨sig, hsig, rfl⟩
      exact ⟨_, rules_eq_some_iff.mpr ⟨sig, hsig, rfl⟩, rfl⟩
  constructor
  · rintro ⟨signals', hscan', -, hall⟩ i p hp hoccurs
    obtain rfl := Except.ok.inj (hscan.symm.trans hscan')
    obtain ⟨sig, hsig, rfl⟩ := patterns_eq_some_iff.mp hp
    obtain ⟨m, hm, sig', hsig', hname⟩ := (hreported sig.2.1).mp
      ((hall sig.2.1).mpr ⟨sig, List.mem_of_getElem? hsig, rfl, hoccurs⟩)
    exact ⟨m, hm, index_eq_of_name hsig' hsig hname⟩
  · intro hall
    refine ⟨signals, hscan, hnodup, fun n => (hreported n).trans ?_⟩
    constructor
    · rintro ⟨m, hm, sig, hsig, rfl⟩
      obtain ⟨-, hocc⟩ := ((ac.search payload).occurs m hm).occursAt separate_patterns
        (patterns_eq_some_iff.mpr ⟨sig, hsig, rfl⟩)
      exact ⟨sig, List.mem_of_getElem? hsig, rfl, (exists_occursAt_iff _ _).mp ⟨m.start, hocc⟩⟩
    · rintro ⟨sig, hmem, rfl, hoccurs⟩
      obtain ⟨i, hsig⟩ := List.mem_iff_getElem?.mp hmem
      obtain ⟨m, hm, rfl⟩ := hall i sig.1 (patterns_eq_some_iff.mpr ⟨sig, hsig, rfl⟩) hoccurs
      exact ⟨m, hm, sig, hsig, rfl⟩

/-! ## The three patterns that can be masked -/

/-- Nothing reaches into the two patterns that mask wherever they occur. -/
theorem not_masked {i j k : Nat} (hj : j = 10 ∨ j = 11) : (i, j, k) ∉ overlaps patterns := by
  rw [overlaps_patterns]
  simp only [List.mem_cons, Prod.mk.injEq, List.not_mem_nil, or_false]
  omega

theorem marker_matched_iff : (∃ m ∈ ac.findIter payload, m.pattern = 2) ↔
    ∃ x, OccursAt (ascii "MSFV") payload x ∧ ¬ Precedes (ascii "lsadump::sa") payload x := by
  have hlen : (ascii "m").length = 1 := rfl
  refine (ac.search payload).exists_iff_not_precedes separate_patterns (i := 10) (t := ascii "m")
    rfl rfl (by decide) (by decide) (by decide) (fun _ _ => not_masked (.inl rfl)) fun a k h => ?_
  have := masks h
  omega

theorem metadata_matched_iff : (∃ m ∈ ac.findIter payload, m.pattern = 14) ↔
    ∃ x, OccursAt (ascii "169.254.169.254") payload x ∧
      ¬ Precedes (ascii "' OR '1'='") payload x := by
  have hlen : (ascii "1").length = 1 := rfl
  refine (ac.search payload).exists_iff_not_precedes separate_patterns (i := 11) (t := ascii "1")
    rfl rfl (by decide) (by decide) (by decide) (fun _ _ => not_masked (.inr rfl)) fun a k h => ?_
  have := masks h
  omega

theorem beacon_matched_iff : (∃ m ∈ ac.findIter payload, m.pattern = 8) ↔
    ∃ x n, OccursAt (ascii "Content-Type: application/octet-stream\r\n\r\nMZ") payload x ∧
      PrecededTimes (ascii "cmd.exe /") n payload x ∧ Even n := by
  have hlen : (ascii "c").length = 1 := rfl
  -- what reaches into `cmd.exe /c`, and into the beacon, is `cmd.exe /c`
  have hmask : ∀ a j k, j = 6 ∨ j = 8 → (a, j, k) ∈ overlaps patterns → a = 6 ∧ k = 1 := by
    intro a j k hj h
    rw [overlaps_patterns] at h
    simp only [List.mem_cons, Prod.mk.injEq, List.not_mem_nil, or_false] at h
    omega
  exact (ac.search payload).exists_iff_even separate_patterns (i := 6) (t := ascii "c")
    rfl rfl (by decide) (by decide) (by decide) (fun a k => hmask a 6 k (.inl rfl)) (by decide)
    (fun a k => hmask a 8 k (.inr rfl))

/-- The other patterns are matched if they occur. -/
theorem matched_of_infix {i : Nat} {p : Bytes} (hp : patterns[i]? = some p)
    (hoccurs : lowered p <:+: lowered payload) (hi : i ≠ 2 ∧ i ≠ 8 ∧ i ≠ 14) :
    ∃ m ∈ ac.findIter payload, m.pattern = i := by
  obtain ⟨x, hocc⟩ := (exists_occursAt_iff p payload).mpr hoccurs
  have ho := hocc.occurs separate_patterns hp
  refine (ac.search payload).exists_of_occurs separate_patterns ho fun a k h => ?_
  have := masks h
  dsimp only at this ⊢
  omega

/-- **When a scan is complete**: for every payload, and whatever the automaton
makes of ties, exactly if each of the three patterns that can be masked also occurs
unmasked, if it occurs. -/
theorem scansCompletely_iff (ac : AhoCorasick patterns) (payload : Bytes) :
    ScansCompletely ac payload ↔ Unmasked payload := by
  rw [scansCompletely_iff_matched]
  constructor
  · intro hall
    exact ⟨fun h => marker_matched_iff.mp (hall 2 _ rfl h),
      fun h => metadata_matched_iff.mp (hall 14 _ rfl h),
      fun h => beacon_matched_iff.mp (hall 8 _ rfl h)⟩
  · rintro ⟨hmarker, hmetadata, hbeacon⟩ i p hp hoccurs
    by_cases hi : i ≠ 2 ∧ i ≠ 8 ∧ i ≠ 14
    · exact matched_of_infix hp hoccurs hi
    · have hcases : i = 2 ∨ i = 8 ∨ i = 14 := by omega
      rcases hcases with rfl | rfl | rfl
      · obtain rfl := Option.some.inj hp
        exact marker_matched_iff.mpr (hmarker hoccurs)
      · obtain rfl := Option.some.inj hp
        exact beacon_matched_iff.mpr (hbeacon hoccurs)
      · obtain rfl := Option.some.inj hp
        exact metadata_matched_iff.mpr (hmetadata hoccurs)

/-- **A masked marker**: in `lsadump::samsfv` the Metasploit marker occurs, and a
scan reports the Mimikatz module only. -/
theorem marker_missed :
    let ac := AhoCorasick.naive patterns patterns_ne_nil
    let payload := ascii "lsadump::samsfv"
    Contains payload .metasploitPayloadMarker ∧
      (scanAll ac payload).Returns
        (fun signals => signals.map Signal.name = [.mimikatzLsadump]) ∧
      ¬ ScansCompletely ac payload := by
  intro ac payload
  have hscan : (scanAll ac payload).Returns
      fun signals => signals.map Signal.name = [.mimikatzLsadump] := by
    decide +kernel
  have hmarker : Contains payload .metasploitPayloadMarker :=
    ⟨SIGNATURES[2], List.getElem_mem _, rfl, by decide +kernel⟩
  refine ⟨hmarker, hscan, ?_⟩
  rintro ⟨signals, hret, -, hall⟩
  obtain ⟨signals', hret', hnames⟩ := hscan
  obtain rfl := Except.ok.inj (hret.symm.trans hret')
  have hmem := (hall _).mpr hmarker
  rw [hnames] at hmem
  simp at hmem

end PayloadScanner

end Ocellus
