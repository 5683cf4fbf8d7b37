import Ocellus.Ids.Blacklist

/-!
# Loading address feeds

`load_ip_list` is documented to load a newline-delimited list of addresses and
ranges such as Spamhaus DROP. `FeedLine` is the grammar of such a list: blank
lines, comment lines, and entries with blanks around them and possibly a comment
behind them. `loadIpList_eq` says what loading a feed does, line by line: a line
with a comment behind its entry is skipped like a comment line.
`losesNothing_iff` is the exact condition under which no entry is lost for it.
-/

namespace Ocellus

namespace Blacklist

variable {bloom : BloomFilter U32}

/-! ## The format -/

/-- Blanks within a line. -/
abbrev Blanks := { s : Str // ∀ c ∈ s, Str.isWhitespace c = true ∧ c ≠ '\n' }

/-- Any text within a line. -/
abbrev LineText := { s : Str // '\n' ∉ s }

def octetText (x : U8) : Str := Nat.toDigits 10 x.toNat

/-- An address in dotted decimal. -/
def addrText (a : U32) : Str :=
  ['.'].intercalate [octetText (a.extractLsb' 24 8), octetText (a.extractLsb' 16 8),
    octetText (a.extractLsb' 8 8), octetText (a.extractLsb' 0 8)]

/-- An entry of a feed. -/
inductive FeedEntry where
  | addr (a : U32)
  /-- The addresses that share their first `prefixLen` bits with `a`. -/
  | cidr (a : U32) (prefixLen : Fin 33)

namespace FeedEntry

def text : FeedEntry → Str
  | .addr a => addrText a
  | .cidr a p => addrText a ++ '/' :: Nat.toDigits 10 p.val

/-- The addresses an entry stands for. -/
def Covers (x : U32) : FeedEntry → Prop
  | .addr a => x = a
  | .cidr a p => x >>> (32 - p.val) = a >>> (32 - p.val)

end FeedEntry

/-- A line of a feed. -/
inductive FeedLine where
  | blank (s : Blanks)
  | comment (lead : Blanks) (mark : { c : Char // c = ';' ∨ c = '#' }) (text : LineText)
  /-- An entry, possibly with a `;` comment behind it. -/
  | entry (lead : Blanks) (e : FeedEntry) (trail : Blanks) (comment : Option LineText)

namespace FeedLine

def text : FeedLine → Str
  | .blank s => s.1
  | .comment lead mark text => lead.1 ++ mark.1 :: text.1
  | .entry lead e trail none => lead.1 ++ (e.text ++ trail.1)
  | .entry lead e trail (some text) => lead.1 ++ (e.text ++ (trail.1 ++ ';' :: text.1))

/-- The addresses a line lists. -/
def Lists (x : U32) : FeedLine → Prop
  | .entry _ e _ _ => e.Covers x
  | _ => False

/-- An entry with a comment behind it. -/
def IsCommented : FeedLine → Prop
  | .entry _ _ _ (some _) => True
  | _ => False

end FeedLine

/-- The text of a feed. -/
def feedText (feed : List FeedLine) : Str := ['\n'].intercalate (feed.map FeedLine.text)

/-! ## The characters of entries -/

/-- The digits of a number below 256, and what the parsers read back. -/
theorem toDigits_facts (n : Fin 256) :
    (∀ c ∈ Nat.toDigits 10 n.val, (Str.digit c).isSome = true) ∧
    Str.parseOctet (Nat.toDigits 10 n.val) = some (BitVec.ofNat 8 n.val) ∧
    Str.parseU32 (Nat.toDigits 10 n.val) = some n.val ∧
    (Nat.toDigits 10 n.val) ≠ [] := by
  -- as a `List.all`, the quantifier over the digits is evaluated over the list alone
  rw [← List.all_eq_true]
  revert n
  decide +kernel

/-- A digit is no separator, mark or blank. -/
theorem of_isSome_digit {c : Char} (h : (Str.digit c).isSome = true) :
    Str.isWhitespace c = false ∧ c ≠ '.' ∧ c ≠ '/' ∧ c ≠ ';' ∧ c ≠ '#' ∧ c ≠ '\n' := by
  unfold Str.digit at h
  split at h
  · rename_i hc
    have hlo : 48 ≤ c.toNat := hc.1
    have hhi : c.toNat ≤ 57 := hc.2
    refine ⟨?_, ?_, ?_, ?_, ?_, ?_⟩
    · simp [Str.isWhitespace]
      omega
    all_goals
      rintro rfl
      revert hlo hhi
      decide
  · cases h

/-- An octet of an address. -/
theorem octetText_facts (x : U8) :
    (∀ c ∈ octetText x, (Str.digit c).isSome = true) ∧ Str.parseOctet (octetText x) = some x ∧
      octetText x ≠ [] := by
  obtain ⟨hdigits, hparse, -, hne⟩ := toDigits_facts x.toFin
  refine ⟨hdigits, hparse.trans ?_, hne⟩
  rw [show x.toFin.val = x.toNat from rfl, BitVec.ofNat_toNat, BitVec.setWidth_eq]

theorem mem_addrText {a : U32} {c : Char} (hc : c ∈ addrText a) :
    c = '.' ∨ (Str.digit c).isSome = true := by
  simp only [addrText, List.intercalate, List.intersperse, List.flatten_cons, List.flatten_nil,
    List.mem_append, List.mem_singleton, List.append_nil] at hc
  rcases hc with hc | rfl | hc | rfl | hc | rfl | hc
  · exact .inr ((octetText_facts _).1 c hc)
  · exact .inl rfl
  · exact .inr ((octetText_facts _).1 c hc)
  · exact .inl rfl
  · exact .inr ((octetText_facts _).1 c hc)
  · exact .inl rfl
  · exact .inr ((octetText_facts _).1 c hc)

theorem slash_notMem_addrText (a : U32) : '/' ∉ addrText a := by
  intro h
  rcases mem_addrText h with h | h
  · cases h
  · exact (of_isSome_digit h).2.2.1 rfl

/-- Parsing an address undoes writing it. -/
theorem parseIpv4Addr_addrText (a : U32) : Str.parseIpv4Addr (addrText a) = some a := by
  have hdot : ∀ x : U8, '.' ∉ octetText x :=
    fun x hx => (of_isSome_digit ((octetText_facts x).1 '.' hx)).2.1 rfl
  have hsplit : (addrText a).splitOn '.' = [octetText (a.extractLsb' 24 8),
      octetText (a.extractLsb' 16 8), octetText (a.extractLsb' 8 8),
      octetText (a.extractLsb' 0 8)] := by
    refine List.splitOn_intercalate '.' ?_ (List.cons_ne_nil _ _)
    intro l hl
    simp only [List.mem_cons, List.not_mem_nil, or_false] at hl
    rcases hl with rfl | rfl | rfl | rfl <;> exact hdot _
  unfold Str.parseIpv4Addr
  rw [hsplit]
  simp only [(octetText_facts _).2.1, Option.bind_eq_bind, Option.bind_some]
  refine congrArg some ?_
  rw [BitVec.extractLsb'_append_extractLsb'_eq_extractLsb' (by decide),
    BitVec.extractLsb'_append_extractLsb'_eq_extractLsb' (by decide),
    BitVec.extractLsb'_append_extractLsb'_eq_extractLsb' (by decide)]
  exact BitVec.extractLsb'_eq_self

namespace FeedEntry

theorem mem_text {e : FeedEntry} {c : Char} (hc : c ∈ e.text) :
    c = '.' ∨ c = '/' ∨ (Str.digit c).isSome = true := by
  cases e with
  | addr a =>
    rcases mem_addrText hc with h | h
    · exact .inl h
    · exact .inr (.inr h)
  | cidr a p =>
    rcases List.mem_append.mp hc with hc | hc
    · rcases mem_addrText hc with h | h
      · exact .inl h
      · exact .inr (.inr h)
    · rcases List.mem_cons.mp hc with rfl | hc
      · exact .inr (.inl rfl)
      · exact .inr (.inr ((toDigits_facts (p.castLE (by decide))).1 c hc))

/-- The characters of an entry are no blanks, marks or newlines. -/
theorem text_plain {e : FeedEntry} {c : Char} (hc : c ∈ e.text) :
    Str.isWhitespace c = false ∧ c ≠ ';' ∧ c ≠ '#' ∧ c ≠ '\n' := by
  rcases mem_text hc with rfl | rfl | h
  · decide
  · decide
  · obtain ⟨hws, -, -, hsemi, hhash, hnl⟩ := of_isSome_digit h
    exact ⟨hws, hsemi, hhash, hnl⟩

theorem text_ne_nil (e : FeedEntry) : e.text ≠ [] := by
  have haddr : ∀ a, addrText a ≠ [] := by
    intro a h
    have hparse := parseIpv4Addr_addrText a
    rw [h] at hparse
    cases hparse
  cases e with
  | addr a => exact haddr a
  | cidr a p => exact List.append_ne_nil_of_left_ne_nil (haddr a) _

/-- Trimming strips the blanks around an entry. -/
theorem trim_text (lead trail : Blanks) (e : FeedEntry) :
    Str.trim (lead.1 ++ (e.text ++ trail.1)) = e.text := by
  rw [Str.trim_append_left fun c hc => (lead.2 c hc).1,
    Str.trim_append_right fun c hc => (trail.2 c hc).1,
    Str.trim_eq_self fun c hc => (text_plain hc).1]

end FeedEntry

/-! ## What loading a line does -/

/-- An address is blacklisted. -/
def Listed (b : Blacklist bloom) (a : U32) : Prop := (b.checkIp (.v4 a)).isSome = true

/-- The Bloom filter makes no difference. -/
theorem listed_iff (b : Blacklist bloom) (a : U32) :
    b.Listed a ↔ a ∈ b.ipExact ∨ ∃ e ∈ b.ipCidrs, e.contains a = true := by
  unfold Listed checkIp
  by_cases hexact : a ∈ b.ipExact
  · simp [b.check_of_mem a hexact, hexact]
  · by_cases hcidr : (b.ipCidrs.any fun e => e.contains a) = true
    · simp only [hexact, and_false, if_false, if_pos hcidr, Option.isSome_some, true_iff, false_or]
      exact List.any_eq_true.mp hcidr
    · simp only [hexact, and_false, if_false, if_neg hcidr, Option.isSome_none, false_or]
      simpa using hcidr

theorem fromCidr_of_semicolon {s : Str} (h : ';' ∈ s) : CidrEntry.fromCidr s = .ok none := by
  unfold CidrEntry.fromCidr
  split
  · rfl
  · rename_i ipStr prefixLenStr hsplit
    rw [Str.splitOnce_eq_some hsplit] at h
    -- the mark is in the address or in the length, and neither can hold it
    split
    · rfl
    · rename_i n hn
      split
      · rfl
      · rename_i ip hip
        exfalso
        rcases List.mem_append.mp h with h | h
        · rcases Str.parseIpv4Addr_chars hip ';' (Str.mem_trim h (by decide)) with h | h
          · cases h
          · cases h
        · rcases List.mem_cons.mp h with h | h
          · cases h
          · rcases Str.parseU32_chars hn ';' (Str.mem_trim h (by decide)) with h | h
            · cases h
            · cases h

/-- A line with a `;` anywhere is skipped. -/
theorem loadIpLine_of_semicolon {s : Str} (h : ';' ∈ s) (b : Blacklist bloom) :
    loadIpLine b s = .ok b := by
  have htrim : ';' ∈ Str.trim s := Str.mem_trim h (by decide)
  unfold loadIpLine
  simp only
  split
  · rfl
  · split
    · rw [addCidr, fromCidr_of_semicolon htrim]
      rfl
    · split
      · rename_i ip hip
        rcases Str.parseIpv4Addr_chars hip ';' htrim with h | h
        · cases h
        · cases h
      · rfl

theorem loadIpLine_of_skip {s : Str} (b : Blacklist bloom)
    (h : Str.trim s = [] ∨ (Str.trim s).head? = some ';' ∨ (Str.trim s).head? = some '#') :
    loadIpLine b s = .ok b := if_pos h

theorem loadIpLine_blank (s : Blanks) (b : Blacklist bloom) : loadIpLine b s.1 = .ok b := by
  refine loadIpLine_of_skip b (.inl ?_)
  have := Str.trim_append_left (fun c hc => (s.2 c hc).1) []
  rwa [List.append_nil] at this

theorem loadIpLine_comment (lead : Blanks) (mark : { c : Char // c = ';' ∨ c = '#' }) (text : Str)
    (b : Blacklist bloom) : loadIpLine b (lead.1 ++ mark.1 :: text) = .ok b := by
  obtain ⟨c, rfl | rfl⟩ := mark
  · exact loadIpLine_of_semicolon (by simp) b
  · refine loadIpLine_of_skip b (.inr (.inr ?_))
    rw [Str.trim_append_left fun c hc => (lead.2 c hc).1]
    -- the mark is no blank, so trimming cannot reach it from either end
    have hmem : '#' ∈ Str.trim ('#' :: text) := Str.mem_trim (List.mem_cons_self ..) (by decide)
    unfold Str.trim at hmem ⊢
    rw [List.dropWhile_cons_of_neg (by decide)] at hmem ⊢
    obtain ⟨rest, hrest⟩ := List.rdropWhile_prefix Str.isWhitespace (l := '#' :: text)
    cases htrim : List.rdropWhile Str.isWhitespace ('#' :: text) with
    | nil =>
      rw [htrim] at hmem
      cases hmem
    | cons c t =>
      rw [htrim] at hrest
      cases hrest
      rfl

/-- The mask of a prefix keeps its bits. -/
theorem maskOf_spec (p : Fin 33) :
    ∃ m, CidrEntry.maskOf p.val = .ok m ∧
      ∀ x a : U32, (CidrEntry.contains ⟨a &&& m, m⟩ x = true ↔
        x >>> (32 - p.val) = a >>> (32 - p.val)) := by
  have hp := p.isLt
  by_cases hzero : p.val = 0
  · refine ⟨0#32, if_pos hzero, fun x a => ?_⟩
    have hall : ∀ y : U32, y >>> 32 = 0#32 := fun y => BitVec.ushiftRight_eq_zero (Nat.le_refl 32)
    rw [hzero, hall, hall]
    simp [CidrEntry.contains]
  · have hshift : 32 - p.val < 32 := by omega
    refine ⟨~~~0#32 <<< (32 - p.val), ?_, fun x a => ?_⟩
    · rw [CidrEntry.maskOf, if_neg hzero, Checked.sub, if_pos (by omega)]
      exact Checked.shl_of_lt hshift
    · simpa [CidrEntry.contains] using and_allOnes_shl_eq_iff x a (32 - p.val)

/-- The parts of a range in the usual notation. -/
theorem cidr_parses (a : U32) (p : Fin 33) :
    ∃ ip len, Str.splitOnce '/' (FeedEntry.cidr a p).text = some (ip, len) ∧
      Str.parseU32 (Str.trim len) = some p.val ∧ Str.parseIpv4Addr (Str.trim ip) = some a := by
  have hdigits := toDigits_facts (p.castLE (by decide))
  have haddr : Str.trim (addrText a) = addrText a :=
    Str.trim_eq_self fun c hc => (FeedEntry.text_plain (e := .addr a) hc).1
  have hlen : Str.trim (Nat.toDigits 10 p.val) = Nat.toDigits 10 p.val :=
    Str.trim_eq_self fun c hc => (of_isSome_digit (hdigits.1 c hc)).1
  refine ⟨_, _, Str.splitOnce_append (slash_notMem_addrText a) _, ?_, ?_⟩
  · rw [hlen]
    exact hdigits.2.2.1
  · rw [haddr, parseIpv4Addr_addrText]

/-- A range with these parts becomes an entry that contains its addresses. -/
theorem fromCidr_of_parses {s ip len : Str} {a : U32} {p : Fin 33}
    (hsplit : Str.splitOnce '/' s = some (ip, len))
    (hlen : Str.parseU32 (Str.trim len) = some p.val)
    (hip : Str.parseIpv4Addr (Str.trim ip) = some a) :
    ∃ e, CidrEntry.fromCidr s = .ok (some e) ∧
      ∀ x, e.contains x = true ↔ x >>> (32 - p.val) = a >>> (32 - p.val) := by
  obtain ⟨m, hm, hcontains⟩ := maskOf_spec p
  refine ⟨⟨a &&& m, m⟩, ?_, fun x => hcontains x a⟩
  rw [CidrEntry.fromCidr]
  simp only [hsplit, hlen, hip, hm]
  rfl

/-- An uncommented entry is loaded. -/
theorem loadIpLine_entry (lead trail : Blanks) (e : FeedEntry) (b : Blacklist bloom) :
    ∃ b', loadIpLine b (lead.1 ++ (e.text ++ trail.1)) = .ok b' ∧
      ∀ x, b'.Listed x ↔ b.Listed x ∨ e.Covers x := by
  have hplain : ¬ (e.text = [] ∨ e.text.head? = some ';' ∨ e.text.head? = some '#') := by
    rintro (h | h | h)
    · exact e.text_ne_nil h
    · exact (FeedEntry.text_plain (List.mem_of_head? h)).2.1 rfl
    · exact (FeedEntry.text_plain (List.mem_of_head? h)).2.2.1 rfl
  unfold loadIpLine
  simp only [FeedEntry.trim_text]
  rw [if_neg hplain]
  cases e with
  | addr a =>
    have hline : (FeedEntry.addr a).text = addrText a := rfl
    rw [hline, if_neg (slash_notMem_addrText a), parseIpv4Addr_addrText]
    refine ⟨_, rfl, fun x => ?_⟩
    rw [listed_iff, listed_iff]
    show (x ∈ insert a b.ipExact ∨ ∃ e ∈ b.ipCidrs, e.contains x = true) ↔ _ ∨ x = a
    rw [Finset.mem_insert, or_assoc]
    exact or_comm
  | cidr a p =>
    obtain ⟨ip, len, hsplit, hlen, hip⟩ := cidr_parses a p
    obtain ⟨e, he, hcontains⟩ := fromCidr_of_parses hsplit hlen hip
    have hline : (FeedEntry.cidr a p).text = addrText a ++ '/' :: Nat.toDigits 10 p.val := rfl
    rw [if_pos (by rw [hline]; simp), addCidr, he]
    refine ⟨_, rfl, fun x => ?_⟩
    rw [listed_iff, listed_iff]
    simp only [List.mem_append, List.mem_singleton, or_and_right, exists_or, exists_eq_left,
      hcontains, FeedEntry.Covers, or_assoc]

/-! ## What loading a feed does -/

/-- A line lists an address without a comment behind it. -/
def FeedLine.Loads (x : U32) (l : FeedLine) : Prop := l.Lists x ∧ ¬ l.IsCommented

theorem loadIpLine_text (l : FeedLine) (b : Blacklist bloom) :
    ∃ b', loadIpLine b l.text = .ok b' ∧ ∀ x, b'.Listed x ↔ b.Listed x ∨ l.Loads x := by
  have hskip : (∀ x, ¬ l.Loads x) → loadIpLine b l.text = .ok b →
      ∃ b', loadIpLine b l.text = .ok b' ∧ ∀ x, b'.Listed x ↔ b.Listed x ∨ l.Loads x := by
    intro hnone hload
    refine ⟨b, hload, fun x => ?_⟩
    simp [hnone x]
  cases l with
  | blank s => exact hskip (fun x h => h.1) (loadIpLine_blank s b)
  | comment lead mark text => exact hskip (fun x h => h.1) (loadIpLine_comment lead mark text.1 b)
  | entry lead e trail comment =>
    cases comment with
    | none =>
      obtain ⟨b', hload, hlisted⟩ := loadIpLine_entry lead trail e b
      refine ⟨b', hload, fun x => (hlisted x).trans ?_⟩
      simp [FeedLine.Loads, FeedLine.Lists, FeedLine.IsCommented]
    | some text =>
      refine hskip (fun x h => h.2 trivial) (loadIpLine_of_semicolon ?_ b)
      simp [FeedLine.text]

/-- No line of a feed contains a newline. -/
theorem FeedLine.newline_notMem_text (l : FeedLine) : '\n' ∉ l.text := by
  have hblanks : ∀ s : Blanks, '\n' ∉ s.1 := fun s h => (s.2 _ h).2 rfl
  have hentry : ∀ e : FeedEntry, '\n' ∉ e.text := fun e h => (FeedEntry.text_plain h).2.2.2 rfl
  intro h
  cases l with
  | blank s => exact hblanks s h
  | comment lead mark text =>
    obtain ⟨c, rfl | rfl⟩ := mark <;>
      simp [FeedLine.text, hblanks lead, text.2] at h
  | entry lead e trail comment =>
    cases comment with
    | none => simp [FeedLine.text, hblanks lead, hblanks trail, hentry e] at h
    | some text => simp [FeedLine.text, hblanks lead, hblanks trail, hentry e, text.2] at h

/-- Loading a feed loads its lines in order. -/
theorem loadIpList_feedText (feed : List FeedLine) (b : Blacklist bloom) :
    b.loadIpList (feedText feed) = (feed.map FeedLine.text).foldlM loadIpLine b := by
  have hnil : ∀ b : Blacklist bloom, loadIpLine b [] = pure b :=
    fun b => loadIpLine_of_skip b (.inl rfl)
  have hcr : ∀ (b : Blacklist bloom) s, loadIpLine b (Str.stripCr s) = loadIpLine b s := by
    intro b s
    unfold loadIpLine
    rw [Str.trim_stripCr]
  unfold loadIpList
  rw [Str.foldlM_lines loadIpLine hnil hcr]
  cases feed with
  | nil => exact bind_pure_comp .. |>.trans (hnil b)
  | cons l feed =>
    have hsplit : (feedText (l :: feed)).splitOn '\n' = (l :: feed).map FeedLine.text := by
      refine List.splitOn_intercalate '\n' ?_ (List.cons_ne_nil _ _)
      intro s hs
      obtain ⟨l', -, rfl⟩ := List.mem_map.mp hs
      exact l'.newline_notMem_text
    rw [hsplit]

/-- **What a feed adds** to any blacklist: the addresses of its uncommented
entries. -/
theorem loadIpList_eq (feed : List FeedLine) (b : Blacklist bloom) :
    ∃ b', b.loadIpList (feedText feed) = .ok b' ∧
      ∀ x, b'.Listed x ↔ b.Listed x ∨ ∃ l ∈ feed, l.Loads x := by
  rw [loadIpList_feedText]
  induction feed generalizing b with
  | nil => exact ⟨b, rfl, fun x => by simp⟩
  | cons l feed ih =>
    obtain ⟨b₁, hload₁, hlisted₁⟩ := loadIpLine_text l b
    obtain ⟨b', hload, hlisted⟩ := ih b₁
    refine ⟨b', ?_, fun x => ?_⟩
    · rw [List.map_cons, List.foldlM_cons, hload₁]
      exact hload
    · rw [hlisted, hlisted₁]
      simp only [List.mem_cons, or_and_right, exists_or, exists_eq_left, or_assoc]

/-! ## When nothing is lost -/

/-- Loading a feed adds exactly the addresses it lists. -/
def LosesNothing (b : Blacklist bloom) (feed : List FeedLine) : Prop :=
  ∃ b', b.loadIpList (feedText feed) = .ok b' ∧
    ∀ x, b'.Listed x ↔ b.Listed x ∨ ∃ l ∈ feed, l.Lists x

/-- **Feed loading, exactly**: nothing is lost if and only if every address that
is listed with a comment behind it was blacklisted before or is also listed by
an entry without one. -/
theorem losesNothing_iff (b : Blacklist bloom) (feed : List FeedLine) :
    b.LosesNothing feed ↔ ∀ l ∈ feed, l.IsCommented → ∀ x, l.Lists x →
      b.Listed x ∨ ∃ l' ∈ feed, l'.Loads x := by
  obtain ⟨b', hload, hlisted⟩ := loadIpList_eq feed b
  constructor
  · rintro ⟨b'', hload', hall⟩ l hl - x hx
    rw [hload] at hload'
    cases hload'
    exact (hlisted x).mp ((hall x).mpr (.inr ⟨l, hl, hx⟩))
  · intro hcovered
    refine ⟨b', hload, fun x => (hlisted x).trans ⟨?_, ?_⟩⟩
    · rintro (h | ⟨l, hl, hx, -⟩)
      · exact .inl h
      · exact .inr ⟨l, hl, hx⟩
    · rintro (h | ⟨l, hl, hx⟩)
      · exact .inl h
      · by_cases hcomment : l.IsCommented
        · exact hcovered l hl hcomment x hx
        · exact .inr ⟨l, hl, hx, hcomment⟩

def noBlanks : Blanks := ⟨[], nofun⟩

def oneBlank : Blanks := ⟨[' '], List.forall_mem_singleton.mpr (by decide)⟩

/-- A bare entry is loaded. -/
theorem losesNothing_bare_entry :
    (new : Blacklist (.exact U32)).LosesNothing
      [.entry noBlanks (.addr 0x01020304#32) oneBlank none] :=
  (losesNothing_iff _ _).mpr fun l hl hcomment => by
    rw [List.mem_singleton.mp hl] at hcomment
    exact hcomment.elim

/-- An entry of the Spamhaus DROP list, as it is published:
`1.10.16.0/20 ; SBL256894`. -/
def dropEntry : FeedLine :=
  .entry noBlanks (.cidr 0x010A1000#32 20) oneBlank (some ⟨" SBL256894".toList, by decide⟩)

/-- **A commented entry is lost**, whatever the Bloom filter. -/
theorem not_losesNothing_dropEntry :
    feedText [dropEntry] = "1.10.16.0/20 ; SBL256894".toList ∧
      ¬ ∃ bloom : BloomFilter U32, (new : Blacklist bloom).LosesNothing [dropEntry] := by
  refine ⟨by decide +kernel, ?_⟩
  rintro ⟨bloom, b', hload, hall⟩
  obtain ⟨b'', hload', hlisted⟩ := loadIpList_eq [dropEntry] (new : Blacklist bloom)
  rw [hload] at hload'
  cases hload'
  have hnew : ¬ (new : Blacklist bloom).Listed 0x010A1000#32 := by
    rw [listed_iff]
    simp [new]
  have hlists : dropEntry.Lists 0x010A1000#32 := rfl
  rcases (hlisted _).mp ((hall _).mpr (.inr ⟨dropEntry, List.mem_cons_self .., hlists⟩)) with h | h
  · exact hnew h
  · obtain ⟨l, hl, -, hcomment⟩ := h
    rw [List.mem_singleton.mp hl] at hcomment
    exact hcomment trivial

end Blacklist

end Ocellus
