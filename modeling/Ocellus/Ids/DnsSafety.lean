import Ocellus.Ids.DnsWire

/-!
# The DNS code never faults

`inspect_payload` reads bytes 2, 3, 6 and 7 behind a test for more than 6 bytes;
what makes that safe is the 12-byte test of `extract_dns_query_name`. The `u32`
counters of `shannon_entropy` are safe because a label of an extracted name has
at most 191 bytes, and at most four for each after decoding.

Each function gets one equation: under its precondition it returns the value of
its fault-free counterpart (`byteCounts`, `queryName`, `nameSignals`, `sizeSignals`).
-/

namespace Ocellus

open Checked (index)

/-! ## Entropy -/

/-- How often each byte value occurs. -/
def byteCounts (data : Bytes) : List Nat :=
  (List.range 256).map fun v => data.count (BitVec.ofNat 8 v)

@[simp] theorem byteCounts_length (data : Bytes) : (byteCounts data).length = 256 := by
  simp [byteCounts]

theorem byteCounts_nil : byteCounts [] = List.replicate 256 0 := by
  simp only [byteCounts, List.count_nil, List.map_const', List.length_range]

theorem byteCounts_getElem (data : Bytes) (i : Nat) (h : i < (byteCounts data).length) :
    (byteCounts data)[i] = data.count (BitVec.ofNat 8 i) := by
  simp [byteCounts]

theorem index_byteCounts (data : Bytes) (b : U8) :
    index (byteCounts data) b.toNat = .ok (data.count b) := by
  have hb : b.toNat < (byteCounts data).length := by
    rw [byteCounts_length]
    exact b.isLt
  rw [Checked.index_of_lt hb, byteCounts_getElem, BitVec.ofNat_toNat, BitVec.setWidth_eq]

/-- Counting one more byte. -/
theorem byteCounts_concat (data : Bytes) (b : U8) :
    byteCounts (data ++ [b]) = (byteCounts data).set b.toNat (data.count b + 1) := by
  refine List.ext_getElem (by simp) fun i hi hi' => ?_
  have hlt : i < 2 ^ 8 := by simpa using hi
  rw [List.getElem_set, byteCounts_getElem, byteCounts_getElem, List.count_append,
    List.count_singleton]
  by_cases h : b.toNat = i
  · subst h
    simp
  · have hne : b ≠ BitVec.ofNat 8 i := by
      rintro rfl
      exact h (Nat.mod_eq_of_lt hlt)
    simp [h, hne]

/-- The counts add up to the length. -/
theorem byteCounts_sum (data : Bytes) : (byteCounts data).sum = data.length := by
  induction data using List.reverseRecOn with
  | nil => rw [byteCounts_nil, List.sum_replicate, smul_zero, List.length_nil]
  | append_singleton data b ih =>
    have hb : b.toNat < (byteCounts data).length := by
      rw [byteCounts_length]
      exact b.isLt
    have hset := List.sum_set (byteCounts data) b.toNat (data.count b + 1)
    have hsplit := List.sum_set (byteCounts data) b.toNat (byteCounts data)[b.toNat]
    rw [List.set_getElem_self, ih, byteCounts_getElem, BitVec.ofNat_toNat,
      BitVec.setWidth_eq] at hsplit
    rw [byteCounts_concat, hset, List.length_append, List.length_singleton]
    rw [if_pos hb] at hsplit ⊢
    omega

/-- No byte occurs more often than there are bytes, so a `u32` counts them. -/
theorem countBytes_eq {data : Bytes} (h : data.length < 2 ^ 32) :
    countBytes data = .ok (byteCounts data) := by
  have hrun : ∀ rest pre : Bytes, (pre ++ rest).length < 2 ^ 32 →
      rest.foldlM (fun counts b => do
        let c ← Checked.add 32 (← index counts b.toNat) 1
        return counts.set b.toNat c) (byteCounts pre) = .ok (byteCounts (pre ++ rest)) := by
    intro rest
    induction rest with
    | nil =>
      intro pre _
      rw [List.append_nil]
      rfl
    | cons b rest ih =>
      intro pre hlen
      have hcount : pre.count b ≤ pre.length := List.count_le_length
      have hadd : pre.count b + 1 < 2 ^ 32 := by
        rw [List.length_append, List.length_cons] at hlen
        omega
      have hnext := ih (pre ++ [b]) (by simpa using hlen)
      rw [List.foldlM_cons, index_byteCounts, Checked.ok_bind, Checked.add_of_lt hadd,
        Checked.ok_bind, Checked.pure_eq_ok, Checked.ok_bind, ← byteCounts_concat, hnext,
        List.append_assoc, List.singleton_append]
  unfold countBytes
  rw [← byteCounts_nil]
  exact hrun data [] h

/-- The entropy of a label exceeds the threshold. -/
def HighEntropy (data : Bytes) : Prop :=
  Entropy.Exceeds ENTROPY_THRESHOLD.1 ENTROPY_THRESHOLD.2 (byteCounts data)

instance (data : Bytes) : Decidable (HighEntropy data) :=
  inferInstanceAs (Decidable (Entropy.Exceeds ..))

theorem highEntropy_eq {data : Bytes} (h : data.length < 2 ^ 32) :
    highEntropy data = .ok (decide (HighEntropy data)) := by
  unfold highEntropy
  split
  · rename_i hnil
    subst hnil
    have hnot : ¬ HighEntropy [] := Entropy.not_exceeds_of_sum_eq_zero _ _ (byteCounts_sum [])
    rw [decide_eq_false hnot]
  · rw [countBytes_eq h]
    rfl

/-- **The entropy test** compares the real entropy of the bytes with 3.5. -/
theorem highEntropy_iff {data : Bytes} (h : data.length < 2 ^ 32) :
    highEntropy data = .ok true ↔ (7 : ℝ) / 2 < Entropy.bits (byteCounts data) := by
  have hexceeds := Entropy.exceeds_iff (a := 7) two_pos (byteCounts data)
  rw [highEntropy_eq h]
  constructor
  · intro h
    simpa using hexceeds.mp (of_decide_eq_true (Except.ok.inj h))
  · intro h
    exact congrArg _ (decide_eq_true (hexceeds.mpr (by simpa using h)))

/-! ## The query name -/

/-- A name none of whose pieces, trailing dots aside, is longer than 191
characters. -/
def Str.IsShort (name : Str) : Prop :=
  ∀ piece ∈ (Str.trimEndDots name).splitOn '.', piece.length ≤ 191

/-- **The name is extracted without a fault**, from a header of 12 bytes, and its
pieces are short. -/
theorem extractDnsQueryName_returns {payload : Bytes} (hvec : payload.length ≤ isizeMax) :
    (extractDnsQueryName payload).Returns fun o =>
      ∀ name, o = some name → 12 ≤ payload.length ∧ Str.IsShort name := by
  rw [extractDnsQueryName_eq hvec]
  refine .ok fun name hname => ?_
  obtain ⟨hheader, -, blocks, hne, hread, rfl⟩ := queryName_eq_some_iff.mp hname
  refine ⟨hheader, fun piece hpiece => ?_⟩
  obtain ⟨label, hlabel, hpiece⟩ := Str.mem_splitOn_intercalate
    (fun hnil => hne (List.map_eq_nil_iff.mp hnil)) (Str.mem_splitOn_trimEndDots hpiece)
  obtain ⟨block, hblock, rfl⟩ := List.mem_map.mp hlabel
  have hshort := ((readName_eq_some_iff.mp hread).1 block hblock).2
  calc piece.length
      ≤ (Utf8.fromUtf8Lossy block).length := Str.length_le_of_mem_splitOn hpiece
    _ ≤ block.length := Utf8.length_fromUtf8Lossy_le block
    _ ≤ 191 := Nat.le_of_lt_succ hshort

/-! ## The detector -/

namespace DnsDetector

/-- The signals of a label. -/
def labelSignals (label : Str) : List Signal :=
  (if MAX_LABEL_LEN < label.len then [longLabelSignal label] else [])
    ++ (if HighEntropy label.asBytes then [highEntropySignal label] else [])

/-- The signals of a name. -/
def nameSignals (lower : Str → Str) (name : Str) : List Signal :=
  let fqdn := Str.trimEndDots name
  let labels := fqdn.splitOn '.'
  (if MAX_FQDN_LEN < fqdn.len then [longFqdnSignal fqdn] else [])
    ++ tldSignals lower labels
    ++ labels.dropLast.flatMap labelSignals

/-- The payload is a large response with answers. -/
def IsTunnel (payload : Bytes) : Prop :=
  fromBeBytes (payload.getD 2 0#8) (payload.getD 3 0#8) &&& 0x8000#16 ≠ 0#16 ∧
    0#16 < fromBeBytes (payload.getD 6 0#8) (payload.getD 7 0#8) ∧
    DNS_TUNNEL_BYTES ≤ payload.length

instance (payload : Bytes) : Decidable (IsTunnel payload) :=
  inferInstanceAs (Decidable (_ ∧ _))

def sizeSignals (payload : Bytes) : List Signal :=
  if IsTunnel payload then [tunnelSignal payload] else []

theorem inspectLabel_eq {label : Str} (h : label.len < 2 ^ 32) :
    inspectLabel label = .ok (labelSignals label) := by
  unfold inspectLabel
  rw [highEntropy_eq h]
  simp [labelSignals]

/-- Short pieces cannot overflow a counter. -/
theorem inspectName_eq (lower : Str → Str) {name : Str} (h : Str.IsShort name) :
    inspectName lower name = .ok (nameSignals lower name) := by
  have hlabels : ((Str.trimEndDots name).splitOn '.').dropLast.mapM inspectLabel
      = .ok (((Str.trimEndDots name).splitOn '.').dropLast.map labelSignals) := by
    refine Checked.mapM_eq_ok fun label hlabel => inspectLabel_eq ?_
    have hchars := h label (List.mem_of_mem_dropLast hlabel)
    have hbytes := Str.len_le label
    omega
  simp only [inspectName, hlabels, Checked.ok_bind]
  rw [nameSignals, List.flatMap_def]
  rfl

/-- Twelve bytes are enough for every read of the tunnel heuristic. -/
theorem inspectSize_eq {payload : Bytes} (h : 12 ≤ payload.length) :
    inspectSize payload = .ok (sizeSignals payload) := by
  have hread : ∀ i < 12, index payload i = .ok (payload.getD i 0#8) :=
    fun i hi => Checked.index_eq_getD (hi.trans_le h) 0#8
  unfold inspectSize
  rw [if_pos (by omega), hread 2 (by decide), hread 3 (by decide), hread 6 (by decide),
    hread 7 (by decide)]
  simp [sizeSignals, IsTunnel]

/-- The test for more than 6 bytes alone does not protect the read of byte 7. -/
example : inspectSize (List.replicate 7 0#8) = .error .index := rfl

/-- **`inspect_payload` never faults**. -/
theorem inspectPayload_returns (lower : Str → Str) {payload : Bytes}
    (hvec : payload.length ≤ isizeMax) :
    (inspectPayload lower payload).Returns fun signals =>
      ∀ name, extractDnsQueryName payload = .ok (some name) →
        signals = nameSignals lower name ++ sizeSignals payload := by
  obtain ⟨o, ho, hname⟩ := extractDnsQueryName_returns hvec
  unfold inspectPayload
  rw [ho]
  cases o with
  | none => exact .ok fun _ h => nomatch h
  | some name =>
    obtain ⟨hheader, hshort⟩ := hname name rfl
    rw [Checked.ok_bind]
    simp only [inspectName_eq lower hshort, inspectSize_eq hheader, Checked.ok_bind]
    refine .ok fun name' h => ?_
    cases h
    rfl

end DnsDetector

end Ocellus
