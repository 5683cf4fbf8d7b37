import Ocellus.Pipeline.PacketEvent

/-!
# Addresses are told apart by their text

Events name addresses by their text, and the baseline keeps destinations as text. No two
addresses have the same one (`IpAddr.text_injective`): an IPv4 address has no colon, an
IPv4-mapped one has a dot, and of any other IPv6 address the eight segments can be read
back, the compressed ones included (`expand_v6Text`).
-/

namespace Ocellus

namespace IpAddr

/-! ## Hexadecimal digits -/

theorem digitChar_injective : ∀ i j : Fin 16, Nat.digitChar i = Nat.digitChar j → i = j := by
  decide

theorem toDigits_injective : Function.Injective (Nat.toDigits 16) := by
  intro n m h
  induction n using Nat.strong_induction_on generalizing m with
  | _ n ih =>
    have hbase : 1 < 16 := by decide
    have hpos : ∀ k : Nat, 0 < (Nat.toDigits 16 k).length := fun _ => Nat.length_toDigits_pos
    rw [Nat.toDigits_eq_if hbase, Nat.toDigits_eq_if (n := m) hbase] at h
    split at h <;> split at h
    · rename_i hn hm
      exact congrArg Fin.val (digitChar_injective ⟨n, hn⟩ ⟨m, hm⟩ (List.cons.inj h).1)
    · have hlen := congrArg List.length h
      have := hpos (m / 16)
      simp only [List.length_append, List.length_singleton] at hlen
      omega
    · have hlen := congrArg List.length h
      have := hpos (n / 16)
      simp only [List.length_append, List.length_singleton] at hlen
      omega
    · rename_i hn hm
      obtain ⟨hinit, hlast⟩ := List.append_inj' h rfl
      have hquot := ih (n / 16) (by omega) hinit
      have hrem := congrArg Fin.val (digitChar_injective ⟨n % 16, Nat.mod_lt _ (by decide)⟩
        ⟨m % 16, Nat.mod_lt _ (by decide)⟩ (List.cons.inj hlast).1)
      simp only at hrem
      omega

theorem mem_toDigits {n : Nat} {c : Char} (hc : c ∈ Nat.toDigits 16 n) :
    ∃ d : Fin 16, c = Nat.digitChar d := by
  induction n using Nat.strong_induction_on with
  | _ n ih =>
    rw [Nat.toDigits_eq_if (by decide)] at hc
    split at hc
    · rename_i hn
      exact ⟨⟨n, hn⟩, List.mem_singleton.mp hc⟩
    · rcases List.mem_append.mp hc with hc | hc
      · exact ih (n / 16) (by omega) hc
      · exact ⟨⟨n % 16, Nat.mod_lt _ (by decide)⟩, List.mem_singleton.mp hc⟩

/-- A segment. -/
def hexText (s : U16) : Str := Nat.toDigits 16 s.toNat

theorem hexText_injective : Function.Injective hexText :=
  fun _ _ h => BitVec.eq_of_toNat_eq (toDigits_injective h)

theorem hexText_ne_nil (s : U16) : hexText s ≠ [] := Nat.toDigits_ne_nil

/-- A segment has no separator in it. -/
theorem hexText_plain {s : U16} {c : Char} (hc : c ∈ hexText s) : c ≠ ':' ∧ c ≠ '.' := by
  obtain ⟨d, rfl⟩ := mem_toDigits hc
  clear hc
  revert d
  decide

/-! ## The longest run of zeros -/

/-- There are zeros from `run.1` on, `run.2` of them. -/
def ZerosAt (segments : List U16) (run : Nat × Nat) : Prop :=
  ∀ i < run.2, segments[run.1 + i]? = some 0#16

/-- The current run goes on with segment `n`, or begins there. -/
def growRun (run : Nat × Nat) (n : Nat) : Nat × Nat :=
  if run.2 = 0 then (n, 1) else (run.1, run.2 + 1)

/-- One round of `zeroRun`. -/
def zeroStep (runs : (Nat × Nat) × (Nat × Nat)) (item : U16 × Nat) : (Nat × Nat) × (Nat × Nat) :=
  if item.1 = 0#16 then
    let current := growRun runs.2 item.2
    (if runs.1.2 < current.2 then current else runs.1, current)
  else (runs.1, (0, 0))

/-- A run of zeros which, if there is one, ends before segment `n`. -/
structure EndsAt (segments : List U16) (n : Nat) (run : Nat × Nat) : Prop where
  zeros : ZerosAt segments run
  ends : 0 < run.2 → run.1 + run.2 = n

theorem EndsAt.grow {segments : List U16} {n : Nat} {run : Nat × Nat} (h : EndsAt segments n run)
    (hs : segments[n]? = some 0#16) : EndsAt segments (n + 1) (growRun run n) := by
  unfold growRun
  split
  · refine ⟨fun i hi => ?_, fun _ => rfl⟩
    obtain rfl : i = 0 := Nat.lt_one_iff.mp hi
    exact hs
  · rename_i hne
    have hends := h.ends (Nat.pos_of_ne_zero hne)
    refine ⟨fun i hi => ?_, fun _ => ?_⟩
    · rcases Nat.lt_succ_iff_lt_or_eq.mp hi with hi | rfl
      · exact h.zeros i hi
      · exact hends.symm ▸ hs
    · show run.1 + (run.2 + 1) = n + 1
      omega

/-- The two runs that `zeroRun` keeps, before segment `n`. -/
structure Runs (segments : List U16) (n : Nat) (runs : (Nat × Nat) × (Nat × Nat)) : Prop where
  longest : ZerosAt segments runs.1
  current : EndsAt segments n runs.2

theorem no_zeros (segments : List U16) : ZerosAt segments (0, 0) :=
  fun i hi => absurd hi (Nat.not_lt_zero i)

theorem endsAt_none (segments : List U16) (n : Nat) : EndsAt segments n (0, 0) :=
  ⟨no_zeros segments, fun h => absurd h (lt_irrefl 0)⟩

theorem Runs.step {segments : List U16} {n : Nat} {runs : (Nat × Nat) × (Nat × Nat)} {s : U16}
    (h : Runs segments n runs) (hs : segments[n]? = some s) :
    Runs segments (n + 1) (zeroStep runs (s, n)) := by
  unfold zeroStep
  split
  · rename_i hzero
    obtain rfl : s = 0#16 := hzero
    have hcurrent := h.current.grow hs
    refine ⟨?_, hcurrent⟩
    show ZerosAt segments (if _ then _ else _)
    split
    · exact hcurrent.zeros
    · exact h.longest
  · exact ⟨h.longest, endsAt_none segments _⟩

theorem Runs.foldl {segments before rest : List U16} {n : Nat} {runs : (Nat × Nat) × (Nat × Nat)}
    (hsplit : segments = before ++ rest) (hn : before.length = n) (h : Runs segments n runs) :
    Runs segments segments.length ((rest.zipIdx n).foldl zeroStep runs) := by
  induction rest generalizing before n runs with
  | nil =>
    rw [hsplit, List.append_nil, hn]
    rwa [hsplit, List.append_nil] at h
  | cons s rest ih =>
    have hs : segments[n]? = some s := by
      rw [hsplit, ← hn, List.getElem?_append_right le_rfl, Nat.sub_self]
      rfl
    rw [List.zipIdx_cons, List.foldl_cons]
    have hnext : segments = (before ++ [s]) ++ rest := by
      rw [hsplit, List.append_assoc, List.singleton_append]
    exact ih hnext (by rw [List.length_append, hn, List.length_singleton]) (h.step hs)

theorem zeroRun_zeros (segments : List U16) : ZerosAt segments (zeroRun segments) :=
  (@Runs.foldl segments [] segments 0 _ rfl rfl ⟨no_zeros segments, endsAt_none segments 0⟩).longest

/-- The segments around the run, and the zeros. -/
theorem segments_eq {segments : List U16} {start len : Nat}
    (h : ZerosAt segments (start, len)) (hlen : 0 < len) :
    start + len ≤ segments.length ∧
    segments = segments.take start ++ (List.replicate len 0#16 ++ segments.drop (start + len)) := by
  have hle : start + len ≤ segments.length := by
    have hlast := h (len - 1) (Nat.sub_lt hlen Nat.one_pos)
    have hlt := (List.getElem?_eq_some_iff.mp hlast).1
    omega
  have hzeros : (segments.drop start).take len = List.replicate len 0#16 := by
    refine List.ext_getElem? fun i => ?_
    rw [List.getElem?_take, List.getElem?_drop, List.getElem?_replicate]
    split
    · rename_i hi
      exact h i hi
    · rfl
  refine ⟨hle, ?_⟩
  rw [← hzeros, ← List.drop_drop, List.take_append_drop, List.take_append_drop]

/-! ## Reading the segments back -/

/-- The groups of digits of a text, with the zeros that an empty group stands for. -/
def expand (text : Str) : List Str :=
  let groups := text.splitOn ':'
  let given := groups.filter (· ≠ [])
  let before := groups.findIdx (· = [])
  given.take before ++ (List.replicate (8 - given.length) ['0'] ++ given.drop before)

/-- The groups of some segments. -/
def groupsOf (segments : List U16) : List Str :=
  if segments = [] then [[]] else segments.map hexText

theorem splitOn_segmentsText (segments : List U16) :
    (segmentsText segments).splitOn ':' = groupsOf segments := by
  unfold groupsOf
  split
  · rename_i hnil
    rw [hnil]
    rfl
  · rename_i hne
    refine List.splitOn_intercalate ':' (fun l hl hcolon => ?_) (by simpa using hne)
    obtain ⟨s, -, rfl⟩ := List.mem_map.mp hl
    exact (hexText_plain hcolon).1 rfl

theorem filter_groupsOf (segments : List U16) :
    (groupsOf segments).filter (· ≠ []) = segments.map hexText := by
  unfold groupsOf
  split
  · rename_i hnil
    rw [hnil]
    rfl
  · refine List.filter_eq_self.mpr fun l hl => ?_
    obtain ⟨s, -, rfl⟩ := List.mem_map.mp hl
    exact decide_eq_true (hexText_ne_nil s)

theorem findIdx_groupsOf (segments : List U16) (rest : List Str) :
    (groupsOf segments ++ [] :: rest).findIdx (· = []) = segments.length := by
  have hgiven : ∀ segments : List U16,
      (segments.map hexText ++ [] :: rest).findIdx (· = []) = segments.length := by
    intro segments
    induction segments with
    | nil => rfl
    | cons s segments ih =>
      rw [List.map_cons, List.cons_append, List.findIdx_cons, ih,
        decide_eq_false (hexText_ne_nil s)]
      rfl
  unfold groupsOf
  split
  · rename_i hnil
    rw [hnil]
    rfl
  · exact hgiven segments

theorem length_segments (a : BitVec 128) : (segments a).length = 8 := by
  rw [segments, List.length_map, List.length_range]

theorem expand_segmentsText {segments : List U16} (h : segments.length = 8) :
    expand (segmentsText segments) = segments.map hexText := by
  have hne : segments ≠ [] := List.ne_nil_of_length_pos (h ▸ by decide)
  have hfind : (segments.map hexText).findIdx (· = []) = 8 := by
    rw [← h, ← List.length_map (f := hexText), List.findIdx_eq_length]
    intro l hl
    obtain ⟨s, -, rfl⟩ := List.mem_map.mp hl
    exact decide_eq_false (hexText_ne_nil s)
  have hgroups : groupsOf segments = segments.map hexText := if_neg hne
  rw [expand, splitOn_segmentsText, filter_groupsOf, hgroups, hfind, List.length_map, h,
    List.take_of_length_le (by rw [List.length_map, h]),
    List.drop_of_length_le (by rw [List.length_map, h])]
  exact List.append_nil _

/-- An empty group stands for the zeros that are missing. -/
theorem expand_compressed (before after : List U16) :
    expand (segmentsText before ++ (':' :: ':' :: segmentsText after)) =
      (before ++ (List.replicate (8 - (before.length + after.length)) 0#16 ++ after)).map hexText := by
  have hsplit : (segmentsText before ++ (':' :: ':' :: segmentsText after)).splitOn ':'
      = groupsOf before ++ [] :: groupsOf after := by
    rw [List.splitOn_append_cons_self, splitOn_segmentsText]
    rw [List.splitOn_cons_eq_if_modifyHead, if_pos (beq_self_eq_true _), splitOn_segmentsText]
  have hgiven : (groupsOf before ++ [] :: groupsOf after).filter (· ≠ [])
      = before.map hexText ++ after.map hexText := by
    rw [List.filter_append, filter_groupsOf, List.filter_cons, filter_groupsOf]
    rfl
  have hlen : (before.map hexText).length = before.length := List.length_map ..
  rw [expand, hsplit, hgiven, findIdx_groupsOf, ← hlen, List.take_left, List.drop_left, hlen,
    List.length_append, List.length_map, List.length_map, List.map_append, List.map_append,
    List.map_replicate]
  rfl

/-- **The segments of an address can be read back**, also if zeros are compressed. -/
theorem expand_v6Text {a : BitVec 128} (h : a.extractLsb' 32 96 ≠ 0xFFFF#96) :
    expand (v6Text a) = (segments a).map hexText := by
  rw [v6Text, if_neg h]
  have hzeros := zeroRun_zeros (segments a)
  generalize zeroRun (segments a) = run at hzeros ⊢
  obtain ⟨start, len⟩ := run
  show expand (if 1 < len then _ else _) = _
  split
  · rename_i hlen
    obtain ⟨hle, hsegments⟩ := segments_eq hzeros (Nat.zero_lt_of_lt hlen)
    have hlength := length_segments a
    have hbefore : ((segments a).take start).length = start := by
      rw [List.length_take]
      omega
    have hafter : ((segments a).drop (start + len)).length = 8 - (start + len) := by
      rw [List.length_drop, hlength]
    have hmissing : 8 - (start + (8 - (start + len))) = len := by omega
    rw [List.append_assoc]
    refine (expand_compressed _ _).trans ?_
    rw [hbefore, hafter, hmissing, ← hsegments]
  · exact expand_segmentsText (length_segments a)

theorem segments_injective : Function.Injective segments := by
  intro a b h
  have hsegment : ∀ i < 8, a.extractLsb' (112 - 16 * i) 16 = b.extractLsb' (112 - 16 * i) 16 := by
    intro i hi
    exact List.map_inj_left.mp h i (List.mem_range.mpr hi)
  refine BitVec.eq_of_getLsbD_eq fun i hi => ?_
  have hbit := congrArg (·.getLsbD (i % 16)) (hsegment (7 - i / 16) (by omega))
  have hmod : i % 16 < 16 := Nat.mod_lt _ (by decide)
  have hpos : 112 - 16 * (7 - i / 16) + i % 16 = i := by omega
  simpa only [BitVec.getLsbD_extractLsb', hmod, decide_true, Bool.true_and, hpos] using hbit

/-! ## Telling addresses apart -/

theorem colon_notMem_addrText (a : U32) : ':' ∉ Blacklist.addrText a := by
  intro h
  rcases Blacklist.mem_addrText h with h | h
  · exact absurd h (by decide)
  · exact absurd h (by decide)

theorem dot_mem_addrText (a : U32) : '.' ∈ Blacklist.addrText a := by
  simp [Blacklist.addrText, List.intercalate, List.intersperse]

theorem addrText_injective : Function.Injective Blacklist.addrText := by
  intro a b h
  have hparse := Blacklist.parseIpv4Addr_addrText a
  rw [h, Blacklist.parseIpv4Addr_addrText] at hparse
  exact (Option.some.inj hparse).symm

/-- A list of segments is written without dots. -/
theorem dot_notMem_segmentsText (segments : List U16) : '.' ∉ segmentsText segments := by
  intro h
  have hplain : ∀ c ∈ segmentsText segments, c ≠ '.' := by
    refine Str.forall_mem_intercalate (by decide) fun l hl c hc => ?_
    obtain ⟨s, -, rfl⟩ := List.mem_map.mp hl
    exact (hexText_plain hc).2
  exact hplain '.' h rfl

theorem v6Text_chars (a : BitVec 128) :
    ':' ∈ v6Text a ∧ ('.' ∈ v6Text a ↔ a.extractLsb' 32 96 = 0xFFFF#96) := by
  by_cases hmapped : a.extractLsb' 32 96 = 0xFFFF#96
  · rw [v6Text, if_pos hmapped]
    exact ⟨List.mem_append_left _ (by decide),
      iff_of_true (List.mem_append_right _ (dot_mem_addrText _)) hmapped⟩
  · rw [v6Text, if_neg hmapped]
    generalize zeroRun (segments a) = run
    obtain ⟨start, len⟩ := run
    show ':' ∈ (if 1 < len then _ else _) ∧ ('.' ∈ (if 1 < len then _ else _) ↔ _)
    split
    · refine ⟨List.mem_append_left _ (List.mem_append_right _ (by decide)),
        iff_of_false (fun h => ?_) hmapped⟩
      rcases List.mem_append.mp h with h | h
      · rcases List.mem_append.mp h with h | h
        · exact dot_notMem_segmentsText _ h
        · exact absurd h (by decide)
      · exact dot_notMem_segmentsText _ h
    · refine ⟨?_, iff_of_false (dot_notMem_segmentsText _) hmapped⟩
      simp [segmentsText, segments, List.range_succ, List.intercalate, List.intersperse]

/-- Only an IPv4 address is written as one. -/
theorem eq_v4_of_text {ip : IpAddr} {a : U32} (h : ip.text = Blacklist.addrText a) :
    ip = .v4 a := by
  cases ip with
  | v4 b => exact congrArg _ (addrText_injective h)
  | v6 b =>
    have hcolon := (v6Text_chars b).1
    rw [show v6Text b = Blacklist.addrText a from h] at hcolon
    exact absurd hcolon (colon_notMem_addrText a)

/-- **Different addresses have different texts.** -/
theorem text_injective : Function.Injective text := by
  intro a b h
  cases a with
  | v4 a => exact (eq_v4_of_text h.symm).symm
  | v6 a =>
    cases b with
    | v4 b => exact eq_v4_of_text h
    | v6 b =>
      have htext : v6Text a = v6Text b := h
      have hmapped : a.extractLsb' 32 96 = 0xFFFF#96 ↔ b.extractLsb' 32 96 = 0xFFFF#96 := by
        rw [← (v6Text_chars a).2, ← (v6Text_chars b).2, htext]
      refine congrArg _ ?_
      by_cases ha : a.extractLsb' 32 96 = 0xFFFF#96
      · -- mapped addresses differ in the IPv4 address
        have hb := hmapped.mp ha
        rw [v6Text, if_pos ha, v6Text, if_pos hb] at htext
        have hlow := addrText_injective (List.append_cancel_left htext)
        have hwhole : ∀ x : BitVec 128, x.extractLsb' 32 96 ++ x.extractLsb' 0 32 = x := by
          intro x
          rw [BitVec.extractLsb'_append_extractLsb'_eq_extractLsb' (by decide)]
          exact BitVec.extractLsb'_eq_self
        rw [← hwhole a, ← hwhole b, ha, hb, hlow]
      · have hb := fun hb => ha (hmapped.mpr hb)
        have hexpand := expand_v6Text ha
        rw [htext, expand_v6Text hb] at hexpand
        exact segments_injective (List.map_injective_iff.mpr hexText_injective hexpand).symm

end IpAddr

end Ocellus
