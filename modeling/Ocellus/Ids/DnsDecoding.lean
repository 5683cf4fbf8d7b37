import Ocellus.Ids.DnsWire
import Mathlib.Data.List.GetD

/-!
# Names that decode to what was encoded

The wire form of a query name is a length byte and the bytes of each label, and a
zero byte. `extractDnsQueryName_encode` says that `extract_dns_query_name` finds the
labels of any name in this form behind a 12-byte header, whatever follows it, and
`extractDnsQueryName_wireText` that it finds the text that was encoded, and nothing in
a message that breaks off.
-/

namespace Ocellus

/-- A label of 1 to 63 bytes. -/
structure DnsLabel where
  bytes : Bytes
  ne_nil : bytes ≠ []
  length_le : bytes.length ≤ 63

namespace DnsLabel

variable (l : DnsLabel)

/-- The length byte, and the bytes. -/
def encode : Bytes := BitVec.ofNat 8 l.bytes.length :: l.bytes

/-- What the label is decoded to. -/
def text : Str := Utf8.fromUtf8Lossy l.bytes

theorem isBlock : IsBlock l.bytes :=
  ⟨List.length_pos_iff.mpr l.ne_nil, Nat.lt_of_le_of_lt l.length_le (by decide)⟩

end DnsLabel

/-- The wire form of a name. -/
def encodeName (labels : List DnsLabel) : Bytes := labels.flatMap DnsLabel.encode ++ [0#8]

theorem flatMap_encode (labels : List DnsLabel) :
    labels.flatMap DnsLabel.encode = wireBlocks (labels.map DnsLabel.bytes) := by
  rw [wireBlocks, List.flatMap_map]
  rfl

theorem forall_isBlock (labels : List DnsLabel) :
    ∀ block ∈ labels.map DnsLabel.bytes, IsBlock block := by
  intro block hblock
  obtain ⟨l, -, rfl⟩ := List.mem_map.mp hblock
  exact l.isBlock

/-- The name behind a header. -/
theorem queryName_append {header tail : Bytes} (hheader : header.length = 12) {name : Str} :
    queryName (header ++ tail) = some name ↔ questionCount header ≠ 0#16 ∧
      ∃ blocks ≠ [], readName tail = some blocks ∧
        name = ['.'].intercalate (blocks.map Utf8.fromUtf8Lossy) := by
  have hquestions : questionCount (header ++ tail) = questionCount header := by
    rw [questionCount, List.getD_append _ _ _ _ (by omega), List.getD_append _ _ _ _ (by omega),
      questionCount]
  have hlen : 12 ≤ (header ++ tail).length := by
    rw [List.length_append]
    omega
  rw [queryName_eq_some_iff, hquestions, ← hheader, List.drop_left, hheader, and_iff_right hlen]

/-- **Decoding undoes encoding**: behind a header of 12 bytes that announces a
question, the name is that of the labels. -/
theorem extractDnsQueryName_encode {header : Bytes} (hheader : header.length = 12)
    (hquestions : fromBeBytes (header.getD 4 0#8) (header.getD 5 0#8) ≠ 0#16)
    {labels : List DnsLabel} (hne : labels ≠ []) (rest : Bytes)
    (hvec : (header ++ (encodeName labels ++ rest)).length ≤ isizeMax) :
    extractDnsQueryName (header ++ (encodeName labels ++ rest))
      = .ok (some (['.'].intercalate (labels.map DnsLabel.text))) := by
  have hread : readName (encodeName labels ++ rest) = some (labels.map DnsLabel.bytes) := by
    refine readName_eq_some_iff.mpr ⟨forall_isBlock labels, 0#8, rest, .inl rfl, ?_⟩
    rw [encodeName, flatMap_encode, List.append_assoc, List.singleton_append]
  rw [extractDnsQueryName_eq hvec]
  refine congrArg _ ((queryName_append hheader).mpr ⟨hquestions, _, ?_, hread, ?_⟩)
  · exact fun hnil => hne (List.map_eq_nil_iff.mp hnil)
  · rw [List.map_map]
    rfl

/-! ## Labels of text -/

/-- The wire form of a name given as text. -/
def wireText (labels : List Str) : Bytes := wireBlocks (labels.map Str.asBytes) ++ [0#8]

theorem map_fromUtf8Lossy_asBytes (labels : List Str) :
    (labels.map Str.asBytes).map Utf8.fromUtf8Lossy = labels := by
  rw [List.map_map]
  exact List.map_id'' Utf8.fromUtf8Lossy_asBytes labels

/-- **Decoding undoes encoding, and needs all of it**: labels of 1 to 63 bytes of text
behind a header that announces a question are found, whatever follows them; and if
anything is missing at the end, nothing is. The message is a slice, so that its length
is at most `isize::MAX`. -/
theorem extractDnsQueryName_wireText {header : Bytes} (hheader : header.length = 12)
    (hquestions : questionCount header ≠ 0#16) {labels : List Str} (hne : labels ≠ [])
    (hlabels : ∀ s ∈ labels, 1 ≤ Str.len s ∧ Str.len s ≤ 63) (trailing : Bytes)
    (hvec : (header ++ (wireText labels ++ trailing)).length ≤ isizeMax) :
    extractDnsQueryName (header ++ (wireText labels ++ trailing))
        = .ok (some (['.'].intercalate labels)) ∧
      ∀ p, p <+: header ++ wireText labels → p ≠ header ++ wireText labels →
        extractDnsQueryName p = .ok none := by
  have hblocks : ∀ block ∈ labels.map Str.asBytes, IsBlock block := by
    intro block hblock
    obtain ⟨s, hs, rfl⟩ := List.mem_map.mp hblock
    exact ⟨(hlabels s hs).1, Nat.lt_of_le_of_lt (hlabels s hs).2 (by decide)⟩
  constructor
  · have hread : readName (wireText labels ++ trailing) = some (labels.map Str.asBytes) := by
      refine readName_eq_some_iff.mpr ⟨hblocks, 0#8, trailing, .inl rfl, ?_⟩
      rw [wireText, List.append_assoc, List.singleton_append]
    rw [extractDnsQueryName_eq hvec]
    refine congrArg _ ((queryName_append hheader).mpr ⟨hquestions, _, ?_, hread, ?_⟩)
    · exact fun hnil => hne (List.map_eq_nil_iff.mp hnil)
    · rw [map_fromUtf8Lossy_asBytes]
  · intro p hp hp'
    have hpart : header ++ wireText labels <+: header ++ (wireText labels ++ trailing) := by
      rw [← List.append_assoc]
      exact List.prefix_append _ _
    have hshorter : p.length ≤ isizeMax := (hp.trans hpart).length_le.trans hvec
    rw [extractDnsQueryName_eq hshorter]
    refine congrArg _ (Option.eq_none_iff_forall_ne_some.mpr fun name hname => ?_)
    -- the header is all there, so that the name breaks off
    have hlen := (queryName_eq_some_iff.mp hname).1
    obtain ⟨q, rfl⟩ : header <+: p :=
      List.prefix_of_prefix_length_le (List.prefix_append ..) hp (by omega)
    obtain ⟨-, blocks, -, hread, -⟩ := (queryName_append hheader).mp hname
    rw [readName_broken_off hblocks (.inl rfl) ((List.prefix_append_right_inj header).mp hp)
      fun hq => hp' (by rw [hq]; rfl)] at hread
    cases hread

/-- The header of a query with one question. -/
def oneQuestion : Bytes := [0#8, 7#8, 1#8, 0#8, 0#8, 1#8, 0#8, 0#8, 0#8, 0#8, 0#8, 0#8]

/-- The query for `é.org`, and that query without its final zero. -/
theorem extractDnsQueryName_wireText_org :
    extractDnsQueryName (oneQuestion ++
        (wireText ["é".toList, "org".toList] ++ [0#8, 1#8, 0#8, 1#8]))
      = .ok (some "é.org".toList) ∧
    extractDnsQueryName (oneQuestion ++ [2#8, 0xC3#8, 0xA9#8, 3#8, 0x6F#8, 0x72#8, 0x67#8])
      = .ok none := by
  obtain ⟨hwhole, hparts⟩ := @extractDnsQueryName_wireText oneQuestion rfl (by decide)
    ["é".toList, "org".toList] (by decide) (by decide) [0#8, 1#8, 0#8, 1#8] (by decide)
  exact ⟨hwhole, hparts _ (by decide) (by decide)⟩

end Ocellus
