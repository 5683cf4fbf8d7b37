import Ocellus.Ids.Dns

/-!
# Names on the wire

`readName` is what `extract_dns_query_name` reads behind the header, as a function of
the bytes there: blocks of bytes, each behind its length, up to a byte that ends the
name. The loop, with its position and its bound checks, computes exactly that, on any
slice (`extractDnsQueryName_eq`); and `readName_eq_some_iff` says which byte strings it
accepts.
-/

namespace Ocellus

open Checked (index)

/-! ## Reading a name -/

/-- A zero byte or a compression pointer. -/
def EndsName (b : U8) : Prop := b = 0#8 ∨ b &&& 0xC0#8 = 0xC0#8

instance (b : U8) : Decidable (EndsName b) := inferInstanceAs (Decidable (_ ∨ _))

/-- The blocks of a name at the head of a byte string. -/
def readName : Bytes → Option (List Bytes)
  | [] => none
  | b :: t =>
    if EndsName b then some []
    else if t.length < b.toNat then none
    else (readName (t.drop b.toNat)).map (t.take b.toNat :: ·)
termination_by bs => bs.length
decreasing_by
  rw [List.length_drop, List.length_cons]
  omega

/-- Each block behind its length. -/
def wireBlocks (blocks : List Bytes) : Bytes :=
  blocks.flatMap fun block => BitVec.ofNat 8 block.length :: block

theorem wireBlocks_cons (block : Bytes) (blocks : List Bytes) :
    wireBlocks (block :: blocks) = BitVec.ofNat 8 block.length :: (block ++ wireBlocks blocks) :=
  rfl

/-- A block that the loop can read: its length is not that of an end. -/
def IsBlock (block : Bytes) : Prop := 0 < block.length ∧ block.length < 192

instance (block : Bytes) : Decidable (IsBlock block) := inferInstanceAs (Decidable (_ ∧ _))

theorem endsName_iff (b : U8) : EndsName b ↔ b.toNat = 0 ∨ 192 ≤ b.toNat := by
  have hall : ∀ n < 256, EndsName (BitVec.ofNat 8 n) ↔ n = 0 ∨ 192 ≤ n := by decide +kernel
  have hb := hall b.toNat b.isLt
  rwa [BitVec.ofNat_toNat, BitVec.setWidth_eq] at hb

theorem IsBlock.toNat_length {block : Bytes} (h : IsBlock block) :
    (BitVec.ofNat 8 block.length).toNat = block.length := by
  rw [BitVec.toNat_ofNat, Nat.mod_eq_of_lt (h.2.trans (by decide))]

theorem IsBlock.not_endsName {block : Bytes} (h : IsBlock block) :
    ¬ EndsName (BitVec.ofNat 8 block.length) := by
  rw [endsName_iff, h.toNat_length]
  have := h.1
  have := h.2
  omega

theorem readName_of_ends {b : U8} (h : EndsName b) (t : Bytes) : readName (b :: t) = some [] := by
  rw [readName, if_pos h]

/-- A block is read off. -/
theorem readName_block {block : Bytes} (h : IsBlock block) (t : Bytes) :
    readName (BitVec.ofNat 8 block.length :: (block ++ t)) = (readName t).map (block :: ·) := by
  rw [readName, if_neg h.not_endsName, h.toNat_length, if_neg (by simp), List.drop_left,
    List.take_left]

/-- **What is accepted**: blocks that can be read, and an end, with anything behind it. -/
theorem readName_eq_some_iff {tail : Bytes} {blocks : List Bytes} :
    readName tail = some blocks ↔ (∀ block ∈ blocks, IsBlock block) ∧
      ∃ stop rest, EndsName stop ∧ tail = wireBlocks blocks ++ stop :: rest := by
  constructor
  · intro h
    fun_induction readName tail generalizing blocks with
    | case1 => cases h
    | case2 b t hb =>
      cases h
      exact ⟨nofun, b, t, hb, rfl⟩
    | case3 => cases h
    | case4 b t hb hlong ih =>
      obtain ⟨blocks, hblocks, rfl⟩ := Option.map_eq_some_iff.mp h
      obtain ⟨hall, stop, rest, hstop, htail⟩ := ih hblocks
      have hlen : (t.take b.toNat).length = b.toNat := List.length_take_of_le (by omega)
      rw [endsName_iff] at hb
      refine ⟨List.forall_mem_cons.mpr ⟨⟨by omega, by omega⟩, hall⟩, stop, rest, hstop, ?_⟩
      rw [wireBlocks_cons, hlen, BitVec.ofNat_toNat, BitVec.setWidth_eq, List.cons_append,
        List.append_assoc, ← htail, List.take_append_drop]
  · rintro ⟨hall, stop, rest, hstop, rfl⟩
    induction blocks with
    | nil => exact readName_of_ends hstop rest
    | cons block blocks ih =>
      obtain ⟨hblock, hall⟩ := List.forall_mem_cons.mp hall
      rw [wireBlocks_cons, List.cons_append, List.append_assoc, readName_block hblock, ih hall]
      rfl

/-- A name that breaks off is not accepted. -/
theorem readName_broken_off {blocks : List Bytes} (hall : ∀ block ∈ blocks, IsBlock block)
    {stop : U8} (hstop : EndsName stop) {p : Bytes} (hp : p <+: wireBlocks blocks ++ [stop])
    (hne : p ≠ wireBlocks blocks ++ [stop]) : readName p = none := by
  by_contra hsome
  obtain ⟨blocks', hread⟩ := Option.ne_none_iff_exists'.mp hsome
  obtain ⟨hall', stop', rest, hstop', rfl⟩ := readName_eq_some_iff.mp hread
  obtain ⟨more, hmore⟩ := hp
  rw [List.append_assoc, List.cons_append] at hmore
  -- the whole is read to the same blocks, so that nothing is missing
  have hwhole := readName_eq_some_iff.mpr ⟨hall, stop, [], hstop, rfl⟩
  rw [← hmore, readName_eq_some_iff.mpr ⟨hall', stop', rest ++ more, hstop', rfl⟩] at hwhole
  obtain rfl := Option.some.inj hwhole
  obtain ⟨rfl, hnil⟩ := List.cons.inj (List.append_cancel_left hmore)
  exact hne (by rw [(List.append_eq_nil_iff.mp hnil).1])

/-! ## The loop reads the name -/

section Loop

variable {payload pre t : Bytes} {pos : Nat} {b : U8}

/-- The loop goes on as its next turn says. -/
theorem dnsLabels_of_turn {turn : DnsTurn} (h : dnsTurn payload pos = .ok turn) :
    dnsLabels payload pos = match turn with
      | .malformed => .ok none
      | .done => .ok (some [])
      | .label label next => (dnsLabels payload next).map (Option.map (label :: ·)) := by
  rw [dnsLabels]
  split
  · rename_i hturn
    cases h.symm.trans hturn
  · rename_i hturn
    cases h.symm.trans hturn
    rfl
  · rename_i hturn
    cases h.symm.trans hturn
    rfl
  · rename_i hturn
    cases h.symm.trans hturn
    rfl

/-- The two tests for an end. -/
theorem endsName_iff_len : EndsName b ↔ b.toNat = 0 ∨ b.toNat &&& 0xC0 = 0xC0 := by
  have hand : b &&& 0xC0#8 = 0xC0#8 ↔ b.toNat &&& 0xC0 = 0xC0 := by
    rw [← BitVec.toNat_inj, BitVec.toNat_and]
    rfl
  have hzero : b = 0#8 ↔ b.toNat = 0 := by
    rw [← BitVec.toNat_inj]
    rfl
  rw [EndsName, hand, hzero]

theorem dnsTurn_nil (pre : Bytes) : dnsTurn pre pre.length = .ok .malformed := by
  rw [dnsTurn, if_pos le_rfl]

theorem dnsTurn_ends (h : EndsName b) (pre t : Bytes) :
    dnsTurn (pre ++ b :: t) pre.length = .ok .done := by
  unfold dnsTurn
  rw [if_neg (by simp), Checked.index_append_cons, Checked.ok_bind]
  rcases endsName_iff_len.mp h with hzero | hpointer
  · exact if_pos hzero
  · dsimp only
    rw [if_pos hpointer, ite_self]

/-- A length byte: the block behind it, if it is all there. -/
theorem dnsTurn_length (h : ¬ EndsName b) (hvec : (pre ++ b :: t).length ≤ isizeMax) :
    dnsTurn (pre ++ b :: t) pre.length
      = .ok (if t.length < b.toNat then .malformed
          else .label (Utf8.fromUtf8Lossy (t.take b.toNat)) (pre.length + 1 + b.toNat)) := by
  have hmax : isizeMax + 256 < 2 ^ 64 := by decide
  have hbyte := b.isLt
  rw [endsName_iff_len] at h
  have hlen : (pre ++ b :: t).length = pre.length + 1 + t.length := by
    rw [List.length_append, List.length_cons]
    omega
  unfold dnsTurn
  rw [if_neg (by omega), Checked.index_append_cons, Checked.ok_bind]
  dsimp only
  rw [if_neg fun hzero => h (.inl hzero), if_neg fun hpointer => h (.inr hpointer),
    Checked.add_of_lt (by omega), Checked.ok_bind, Checked.add_of_lt (by omega), Checked.ok_bind]
  by_cases hshort : t.length < b.toNat
  · rw [if_pos (by omega), if_pos hshort]
  · have hdrop : (pre ++ b :: t).drop (pre.length + 1) = t := by
      rw [← List.drop_drop, List.drop_left, List.drop_one, List.tail_cons]
    rw [if_neg (by omega), if_neg hshort, Checked.slice_of_le (by omega) (by omega), hdrop,
      Nat.add_sub_cancel_left]
    rfl

/-- The loop computes `readName` of the bytes from its position on. -/
theorem dnsLabels_eq (pre tail : Bytes) (hvec : (pre ++ tail).length ≤ isizeMax) :
    dnsLabels (pre ++ tail) pre.length
      = .ok ((readName tail).map (List.map Utf8.fromUtf8Lossy)) := by
  induction tail using readName.induct generalizing pre with
  | case1 =>
    rw [List.append_nil, dnsLabels_of_turn (dnsTurn_nil pre), readName]
    rfl
  | case2 b t hb =>
    rw [dnsLabels_of_turn (dnsTurn_ends hb pre t), readName_of_ends hb]
    rfl
  | case3 b t hb hshort =>
    have hturn := dnsTurn_length hb hvec
    rw [if_pos hshort] at hturn
    rw [dnsLabels_of_turn hturn, readName, if_neg hb, if_pos hshort]
    rfl
  | case4 b t hb hlong ih =>
    have hturn := dnsTurn_length hb hvec
    rw [if_neg hlong] at hturn
    have hsplit : pre ++ b :: t = (pre ++ b :: t.take b.toNat) ++ t.drop b.toNat := by
      rw [List.append_assoc, List.cons_append, List.take_append_drop]
    have hnext : (pre ++ b :: t.take b.toNat).length = pre.length + 1 + b.toNat := by
      rw [List.length_append, List.length_cons, List.length_take_of_le (by omega)]
      omega
    have hrest := ih (pre ++ b :: t.take b.toNat) (by rwa [← hsplit])
    rw [← hsplit, hnext] at hrest
    rw [dnsLabels_of_turn hturn, readName, if_neg hb, if_neg hlong]
    dsimp only
    rw [hrest]
    cases readName (t.drop b.toNat) <;> rfl

end Loop

/-! ## The query name -/

/-- The number of questions that a header announces. -/
def questionCount (payload : Bytes) : U16 := fromBeBytes (payload.getD 4 0#8) (payload.getD 5 0#8)

/-- The name of a query: its blocks, decoded and joined. -/
def queryName (payload : Bytes) : Option Str :=
  if payload.length < 12 ∨ questionCount payload = 0#16 then none
  else match readName (payload.drop 12) with
    | none => none
    | some [] => none
    | some blocks => some (['.'].intercalate (blocks.map Utf8.fromUtf8Lossy))

/-- **What is extracted from a slice**: the name of the query. -/
theorem extractDnsQueryName_eq {payload : Bytes} (hvec : payload.length ≤ isizeMax) :
    extractDnsQueryName payload = .ok (queryName payload) := by
  unfold extractDnsQueryName queryName
  by_cases hshort : payload.length < 12
  · rw [if_pos hshort, if_pos (.inl hshort)]
  · rw [if_neg hshort, Checked.index_eq_getD (i := 4) (by omega) 0#8, Checked.ok_bind,
      Checked.index_eq_getD (i := 5) (by omega) 0#8, Checked.ok_bind]
    dsimp only
    rw [← questionCount]
    by_cases hnone : questionCount payload = 0#16
    · rw [if_pos hnone, if_pos (.inr hnone)]
    · have hheader : (payload.take 12).length = 12 := List.length_take_of_le (by omega)
      have hlabels := dnsLabels_eq (payload.take 12) (payload.drop 12)
        (by rwa [List.take_append_drop])
      rw [List.take_append_drop, hheader] at hlabels
      rw [if_neg hnone, if_neg (not_or.mpr ⟨hshort, hnone⟩), hlabels, Checked.ok_bind]
      rcases readName (payload.drop 12) with _ | _ | ⟨block, blocks⟩ <;> rfl

theorem queryName_eq_some_iff {payload : Bytes} {name : Str} :
    queryName payload = some name ↔ 12 ≤ payload.length ∧ questionCount payload ≠ 0#16 ∧
      ∃ blocks ≠ [], readName (payload.drop 12) = some blocks ∧
        name = ['.'].intercalate (blocks.map Utf8.fromUtf8Lossy) := by
  unfold queryName
  by_cases hbad : payload.length < 12 ∨ questionCount payload = 0#16
  · rw [if_pos hbad]
    refine iff_of_false nofun ?_
    rintro ⟨hlen, hquestions, -⟩
    rcases hbad with hshort | hnone
    · omega
    · exact hquestions hnone
  · obtain ⟨hlen, hquestions⟩ := not_or.mp hbad
    rw [if_neg hbad]
    rcases readName (payload.drop 12) with _ | _ | ⟨block, blocks⟩
    · simp
    · simp
    · constructor
      · intro h
        exact ⟨Nat.le_of_not_lt hlen, hquestions, _, List.cons_ne_nil _ _, rfl,
          (Option.some.inj h).symm⟩
      · rintro ⟨-, -, blocks', -, hblocks, rfl⟩
        cases hblocks
        rfl

end Ocellus
