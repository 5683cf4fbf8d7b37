import Ocellus.Ids.DnsDecoding

/-!
# Names outside the grammar

A length byte of a name is at most 63; one with exactly one of its two top bits set is
reserved. The loop of `extract_dns_query_name` tests for both bits at once, and reads
a reserved byte as a length. `rejects_reserved_iff` says which payloads bring it to
accept what is not a name: those whose bytes are all there when reserved bytes count
as lengths.
-/

namespace Ocellus

/-- A length byte with exactly one of the two top bits set. -/
def IsReserved (b : U8) : Prop := b &&& 0xC0#8 = 0x40#8 ∨ b &&& 0xC0#8 = 0x80#8

instance (b : U8) : Decidable (IsReserved b) := inferInstanceAs (Decidable (_ ∨ _))

theorem isReserved_iff (b : U8) : IsReserved b ↔ 64 ≤ b.toNat ∧ b.toNat < 192 := by
  have hall : ∀ n < 256, IsReserved (BitVec.ofNat 8 n) ↔ 64 ≤ n ∧ n < 192 := by decide +kernel
  have hb := hall b.toNat b.isLt
  rwa [BitVec.ofNat_toNat, BitVec.setWidth_eq] at hb

/-- From byte 12, the payload is one or more labels and an end, and `name` is the
labels joined. -/
def SpellsName (payload : Bytes) (name : Str) : Prop :=
  ∃ (header : Bytes) (labels : List DnsLabel) (stop : U8) (rest : Bytes),
    header.length = 12 ∧ payload = header ++ (labels.flatMap DnsLabel.encode ++ stop :: rest) ∧
      labels ≠ [] ∧ EndsName stop ∧ name = ['.'].intercalate (labels.map DnsLabel.text)

/-- Behind zero or more labels from byte 12 on, the payload has a reserved byte. -/
def MeetsReserved (payload : Bytes) : Prop :=
  ∃ (header : Bytes) (labels : List DnsLabel) (b : U8) (rest : Bytes),
    header.length = 12 ∧ payload = header ++ (labels.flatMap DnsLabel.encode ++ b :: rest) ∧
      IsReserved b

/-- Whatever is extracted is spelled by the payload, and where a reserved byte is met
nothing is. -/
structure Rejects (payload : Bytes) : Prop where
  accepted : ∀ name, extractDnsQueryName payload = .ok (some name) → SpellsName payload name
  reserved : MeetsReserved payload → extractDnsQueryName payload = .ok none

/-- Blocks of up to 191 bytes and an end, one of the blocks longer than a label, behind
a header that announces a question. -/
def ReadsReserved (payload : Bytes) : Prop :=
  12 ≤ payload.length ∧ questionCount payload ≠ 0#16 ∧
    ∃ (blocks : List Bytes) (stop : U8) (rest : Bytes),
      payload.drop 12 = wireBlocks blocks ++ stop :: rest ∧ EndsName stop ∧
        (∀ block ∈ blocks, 0 < block.length ∧ block.length < 192) ∧
        ∃ block ∈ blocks, 64 ≤ block.length

variable {payload : Bytes}

/-- Blocks that are no longer than labels are labels. -/
theorem exists_labels {blocks : List Bytes} (hblocks : ∀ block ∈ blocks, IsBlock block)
    (hshort : ∀ block ∈ blocks, block.length < 64) :
    ∃ labels : List DnsLabel, labels.map DnsLabel.bytes = blocks := by
  induction blocks with
  | nil => exact ⟨[], rfl⟩
  | cons block blocks ih =>
    obtain ⟨hblock, hblocks⟩ := List.forall_mem_cons.mp hblocks
    obtain ⟨hlen, hshort⟩ := List.forall_mem_cons.mp hshort
    obtain ⟨labels, rfl⟩ := ih hblocks hshort
    exact ⟨⟨block, List.ne_nil_of_length_pos hblock.1, Nat.le_of_lt_succ hlen⟩ :: labels, rfl⟩

/-- The first block that is longer than a label stands behind labels. -/
theorem exists_labels_append {blocks : List Bytes} (hblocks : ∀ block ∈ blocks, IsBlock block)
    (hlong : ∃ block ∈ blocks, 64 ≤ block.length) :
    ∃ (labels : List DnsLabel) (block : Bytes) (blocks' : List Bytes),
      blocks = labels.map DnsLabel.bytes ++ block :: blocks' ∧ 64 ≤ block.length ∧
        block.length < 192 := by
  induction blocks with
  | nil =>
    obtain ⟨block, hmem, -⟩ := hlong
    cases hmem
  | cons block blocks ih =>
    obtain ⟨hblock, hblocks⟩ := List.forall_mem_cons.mp hblocks
    by_cases hlen : 64 ≤ block.length
    · exact ⟨[], block, blocks, rfl, hlen, hblock.2⟩
    · obtain ⟨long, hmem, hlong⟩ := hlong
      have hrest : long ∈ blocks := by
        refine (List.mem_cons.mp hmem).resolve_left ?_
        rintro rfl
        exact hlen hlong
      obtain ⟨labels, block', blocks', rfl, hlong', hblock'⟩ := ih hblocks ⟨long, hrest, hlong⟩
      exact ⟨⟨block, List.ne_nil_of_length_pos hblock.1, by omega⟩ :: labels, block', blocks', rfl,
        hlong', hblock'⟩

theorem wireBlocks_append (blocks blocks' : List Bytes) :
    wireBlocks (blocks ++ blocks') = wireBlocks blocks ++ wireBlocks blocks' := List.flatMap_append

/-- Behind labels, what is read on is what is read behind them. -/
theorem readName_labels (labels : List DnsLabel) (tail : Bytes) :
    readName (labels.flatMap DnsLabel.encode ++ tail)
      = (readName tail).map (labels.map DnsLabel.bytes ++ ·) := by
  induction labels with
  | nil => simp
  | cons l labels ih =>
    have hread := readName_block l.isBlock (labels.flatMap DnsLabel.encode ++ tail)
    rw [ih] at hread
    rw [List.flatMap_cons, DnsLabel.encode, List.cons_append, List.cons_append, List.append_assoc,
      hread, Option.map_map]
    rfl

/-- A reserved byte is read as the length of a block. -/
theorem readName_reserved {b : U8} (hb : IsReserved b) {rest : Bytes} {blocks : List Bytes}
    (h : readName (b :: rest) = some blocks) : ∃ block ∈ blocks, 64 ≤ block.length := by
  obtain ⟨hge, hlt⟩ := (isReserved_iff b).mp hb
  have hends : ¬ EndsName b := by
    rw [endsName_iff]
    omega
  rw [readName, if_neg hends] at h
  split at h
  · cases h
  · obtain ⟨blocks', -, rfl⟩ := Option.map_eq_some_iff.mp h
    refine ⟨_, List.mem_cons_self .., ?_⟩
    rw [List.length_take_of_le (by omega)]
    exact hge

theorem readsReserved_iff : ReadsReserved payload ↔
    12 ≤ payload.length ∧ questionCount payload ≠ 0#16 ∧
      ∃ blocks, readName (payload.drop 12) = some blocks ∧
        ∃ block ∈ blocks, 64 ≤ block.length := by
  unfold ReadsReserved
  refine and_congr_right fun _ => and_congr_right fun _ => exists_congr fun blocks => ?_
  rw [readName_eq_some_iff]
  constructor
  · rintro ⟨stop, rest, htail, hstop, hblocks, hlong⟩
    exact ⟨⟨hblocks, stop, rest, hstop, htail⟩, hlong⟩
  · rintro ⟨⟨hblocks, stop, rest, hstop, htail⟩, hlong⟩
    exact ⟨stop, rest, htail, hstop, hblocks, hlong⟩

/-- A name of short blocks is spelled by the payload. -/
theorem spellsName_of_queryName {name : Str} (h : queryName payload = some name)
    (hno : ¬ ReadsReserved payload) : SpellsName payload name := by
  obtain ⟨hlen, hquestions, blocks, hne, hread, rfl⟩ := queryName_eq_some_iff.mp h
  obtain ⟨hblocks, stop, rest, hstop, htail⟩ := readName_eq_some_iff.mp hread
  have hshort : ∀ block ∈ blocks, block.length < 64 := by
    intro block hblock
    by_contra hlong
    exact hno (readsReserved_iff.mpr
      ⟨hlen, hquestions, blocks, hread, block, hblock, Nat.le_of_not_lt hlong⟩)
  obtain ⟨labels, rfl⟩ := exists_labels hblocks hshort
  refine ⟨payload.take 12, labels, stop, rest, List.length_take_of_le hlen, ?_, ?_, hstop, ?_⟩
  · rw [flatMap_encode, ← htail, List.take_append_drop]
  · exact fun hnil => hne (List.map_eq_nil_iff.mpr hnil)
  · rw [List.map_map]
    rfl

/-- A name that is read where a reserved byte is met has a block that is too long. -/
theorem readsReserved_of_meets (hmeets : MeetsReserved payload) {name : Str}
    (h : queryName payload = some name) : ReadsReserved payload := by
  obtain ⟨header, labels, b, rest, hheader, rfl, hb⟩ := hmeets
  obtain ⟨hlen, hquestions, blocks, -, hread, -⟩ := queryName_eq_some_iff.mp h
  refine readsReserved_iff.mpr ⟨hlen, hquestions, blocks, hread, ?_⟩
  rw [← hheader, List.drop_left, readName_labels] at hread
  obtain ⟨blocks', hread', rfl⟩ := Option.map_eq_some_iff.mp hread
  obtain ⟨block, hmem, hlong⟩ := readName_reserved hb hread'
  exact ⟨block, List.mem_append_right _ hmem, hlong⟩

/-- Where a block is too long, its length is a reserved byte, and the payload is
accepted all the same. -/
theorem accepted_of_readsReserved (h : ReadsReserved payload) :
    MeetsReserved payload ∧ ∃ name, queryName payload = some name := by
  obtain ⟨hlen, hquestions, blocks, stop, rest, htail, hstop, hblocks, hlong⟩ := h
  have hread := readName_eq_some_iff.mpr ⟨hblocks, stop, rest, hstop, htail⟩
  constructor
  · obtain ⟨labels, block, blocks', rfl, hge, hlt⟩ := exists_labels_append hblocks hlong
    refine ⟨payload.take 12, labels, BitVec.ofNat 8 block.length,
      block ++ wireBlocks blocks' ++ stop :: rest, List.length_take_of_le hlen, ?_, ?_⟩
    · rw [wireBlocks_append, wireBlocks_cons, List.append_assoc, List.cons_append] at htail
      rw [flatMap_encode, ← htail, List.take_append_drop]
    · rw [isReserved_iff, BitVec.toNat_ofNat, Nat.mod_eq_of_lt (by omega)]
      exact ⟨hge, hlt⟩
  · obtain ⟨block, hmem, -⟩ := hlong
    exact ⟨_, queryName_eq_some_iff.mpr
      ⟨hlen, hquestions, blocks, List.ne_nil_of_mem hmem, hread, rfl⟩⟩

/-- **Which payloads are judged by the grammar**: what is extracted of a slice is
spelled by it, and a reserved byte makes it malformed, exactly if the slice is not
complete with a reserved byte read as a length. -/
theorem rejects_reserved_iff (hvec : payload.length ≤ isizeMax) :
    Rejects payload ↔ ¬ ReadsReserved payload := by
  have hextract := extractDnsQueryName_eq hvec
  constructor
  · rintro ⟨-, hreserved⟩ hreads
    obtain ⟨hmeets, name, hname⟩ := accepted_of_readsReserved hreads
    have hnone := hreserved hmeets
    rw [hextract, hname] at hnone
    cases hnone
  · intro hno
    constructor
    · intro name hname
      exact spellsName_of_queryName (Except.ok.inj (hextract.symm.trans hname)) hno
    · intro hmeets
      rw [hextract]
      refine congrArg _ (Option.eq_none_iff_forall_ne_some.mpr fun name hname => ?_)
      exact hno (readsReserved_of_meets hmeets hname)

/-- A query for one block of bytes. -/
def blockQuery (block : Bytes) : Bytes := oneQuestion ++ (wireBlocks [block] ++ [0#8])

/-- Three bytes are a label. -/
theorem rejects_reserved_iff_org : Rejects (blockQuery [0x6F#8, 0x72#8, 0x67#8]) := by
  refine (rejects_reserved_iff (by decide)).mpr fun hreads => ?_
  obtain ⟨-, -, blocks, hread, hlong⟩ := readsReserved_iff.mp hreads
  have horg : readName ((blockQuery [0x6F#8, 0x72#8, 0x67#8]).drop 12)
      = some [[0x6F#8, 0x72#8, 0x67#8]] :=
    readName_eq_some_iff.mpr ⟨by decide, 0#8, [], .inl rfl, rfl⟩
  obtain rfl := Option.some.inj (hread.symm.trans horg)
  exact absurd hlong (by decide)

/-- **A name that is no name**: 64 bytes behind a reserved byte. -/
theorem reserved_accepted :
    MeetsReserved (blockQuery (List.replicate 64 0x61#8)) ∧
    extractDnsQueryName (blockQuery (List.replicate 64 0x61#8))
      = .ok (some (List.replicate 64 'a')) ∧
    ¬ Rejects (blockQuery (List.replicate 64 0x61#8)) := by
  have hmeets : MeetsReserved (blockQuery (List.replicate 64 0x61#8)) :=
    ⟨oneQuestion, [], 64#8, List.replicate 64 0x61#8 ++ [0#8], rfl, rfl, by decide⟩
  have haccepted : extractDnsQueryName (blockQuery (List.replicate 64 0x61#8))
      = .ok (some (List.replicate 64 'a')) := by
    decide +kernel
  refine ⟨hmeets, haccepted, fun hrejects => ?_⟩
  cases (hrejects.reserved hmeets).symm.trans haccepted

end Ocellus
