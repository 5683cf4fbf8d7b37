import Ocellus.Ids.FeedLoading

/-!
# The lists loaded at startup (`main.rs`)

An address feed and a domain feed may be configured, and are loaded before any packet is
looked at. Whatever their text is, what is listed afterwards is what some line of them
lists (`loadBlacklists_spec`); the order of the lines, repeated lines and blank ones make
no difference to any check (`feeds_are_sets`).
-/

namespace Ocellus

namespace Blacklist

variable {bloom : BloomFilter U32} {lower : Str → Str} {b b' : Blacklist bloom} {line : Str}
  {lines : List Str}

/-- The address list, if its path is configured and it can be read. -/
def loadConfiguredIps (ips : Option Str) (b : Blacklist bloom) : Checked (Blacklist bloom) :=
  match ips with
  | some content => b.loadIpList content
  | none => .ok b

/-- The domain list. -/
def loadConfiguredDomains (lower : Str → Str) (domains : Option Str) (b : Blacklist bloom) :
    Blacklist bloom :=
  match domains with
  | some content => b.loadDomainList lower content
  | none => b

/-- What `main` loads. -/
def loadBlacklists (lower : Str → Str) (ips domains : Option Str) : Checked (Blacklist bloom) := do
  let b ← loadConfiguredIps ips new
  return b.loadConfiguredDomains lower domains

/-! ## Lines of an address feed -/

/-- The line is skipped. -/
def Skipped (line : Str) : Prop := line = [] ∨ line.head? = some ';' ∨ line.head? = some '#'

instance (line : Str) : Decidable (Skipped line) := inferInstanceAs (Decidable (_ ∨ _))

/-- The address a line lists. -/
def lineAddr (line : Str) : Option U32 :=
  if Skipped (Str.trim line) ∨ '/' ∈ Str.trim line then none
  else Str.parseIpv4Addr (Str.trim line)

/-- The range a line lists. -/
def lineRange (line : Str) : Checked (Option CidrEntry) :=
  if Skipped (Str.trim line) ∨ '/' ∉ Str.trim line then .ok none
  else CidrEntry.fromCidr (Str.trim line)

/-- A blacklist with what some lines list added to it. -/
structure Adds (lines : List Str) (b b' : Blacklist bloom) : Prop where
  exact : ∀ a, a ∈ b'.ipExact ↔ a ∈ b.ipExact ∨ ∃ line ∈ lines, lineAddr line = some a
  ranges : ∀ e, e ∈ b'.ipCidrs ↔ e ∈ b.ipCidrs ∨ ∃ line ∈ lines, lineRange line = .ok (some e)
  domains : b'.domains = b.domains

theorem Adds.nil (b : Blacklist bloom) : Adds [] b b :=
  ⟨fun a => by simp, fun e => by simp, rfl⟩

theorem Adds.cons {b₁ : Blacklist bloom} (h : Adds [line] b b₁) (hrest : Adds lines b₁ b') :
    Adds (line :: lines) b b' where
  exact a := by rw [hrest.exact, h.exact]; simp [or_assoc]
  ranges e := by rw [hrest.ranges, h.ranges]; simp [or_assoc]
  domains := hrest.domains.trans h.domains

theorem loadIpLine_eq (b : Blacklist bloom) (line : Str) : loadIpLine b line =
    if Skipped (Str.trim line) then .ok b
    else if '/' ∈ Str.trim line then b.addCidr (Str.trim line)
    else match Str.parseIpv4Addr (Str.trim line) with
      | some ip => .ok (b.addIp ip)
      | none => .ok b := rfl

/-- **A line** panics if its range does, and adds what it lists otherwise. -/
theorem loadIpLine_spec (b : Blacklist bloom) (line : Str) :
    (∀ f, lineRange line = .error f → loadIpLine b line = .error f) ∧
    (∀ r, lineRange line = .ok r → ∃ b', loadIpLine b line = .ok b' ∧ Adds [line] b b') := by
  rw [loadIpLine_eq]
  by_cases hskip : Skipped (Str.trim line)
  · have hrange : lineRange line = .ok none := if_pos (.inl hskip)
    have haddr : lineAddr line = none := if_pos (.inl hskip)
    rw [if_pos hskip, hrange]
    exact ⟨nofun, fun r _ => ⟨b, rfl, by simp [haddr], by simp [hrange], rfl⟩⟩
  · rw [if_neg hskip]
    by_cases hslash : '/' ∈ Str.trim line
    · have hrange : lineRange line = CidrEntry.fromCidr (Str.trim line) :=
        if_neg (not_or.mpr ⟨hskip, not_not.mpr hslash⟩)
      have haddr : lineAddr line = none := if_pos (.inr hslash)
      rw [if_pos hslash, addCidr, hrange]
      refine ⟨fun f hf => by rw [hf]; rfl, fun r hr => ?_⟩
      rw [hr]
      rw [hr] at hrange
      cases r with
      | none => exact ⟨b, rfl, by simp [haddr], by simp [hrange], rfl⟩
      | some e => exact ⟨_, rfl, by simp [haddr], by simp [hrange, eq_comm], rfl⟩
    · have hrange : lineRange line = .ok none := if_pos (.inr hslash)
      have haddr : lineAddr line = Str.parseIpv4Addr (Str.trim line) :=
        if_neg (not_or.mpr ⟨hskip, hslash⟩)
      rw [if_neg hslash, hrange, ← haddr]
      refine ⟨nofun, fun r _ => ?_⟩
      cases hparse : lineAddr line with
      | none => exact ⟨b, rfl, by simp [hparse], by simp [hrange], rfl⟩
      | some ip =>
        exact ⟨b.addIp ip, rfl, by simp [hparse, addIp, eq_comm, or_comm], by simp [hrange, addIp], rfl⟩

/-- No line panics. -/
def Loads (lines : List Str) : Prop := ∀ line ∈ lines, ∃ r, lineRange line = .ok r

/-- **A list of lines** is loaded if and only if each of them is. -/
theorem loadLines_spec (b : Blacklist bloom) (lines : List Str) :
    (Loads lines → ∃ b', lines.foldlM loadIpLine b = .ok b' ∧ Adds lines b b') ∧
    ∀ b', lines.foldlM loadIpLine b = .ok b' → Loads lines := by
  induction lines generalizing b with
  | nil => exact ⟨fun _ => ⟨b, rfl, .nil b⟩, fun _ _ => nofun⟩
  | cons line lines ih =>
    obtain ⟨hpanics, hadds⟩ := loadIpLine_spec b line
    rw [List.foldlM_cons]
    constructor
    · intro hloads
      obtain ⟨hline, hrest⟩ := List.forall_mem_cons.mp hloads
      obtain ⟨r, hr⟩ := hline
      obtain ⟨b₁, hload, hb₁⟩ := hadds r hr
      obtain ⟨b', hload', hb'⟩ := (ih b₁).1 hrest
      exact ⟨b', by rw [hload]; exact hload', hb₁.cons hb'⟩
    · intro b' hload
      obtain ⟨b₁, hfirst, hrest⟩ := Checked.bind_eq_ok.mp hload
      refine List.forall_mem_cons.mpr ⟨?_, (ih b₁).2 b' hrest⟩
      cases hrange : lineRange line with
      | ok r => exact ⟨r, rfl⟩
      | error f =>
        rw [hpanics f hrange] at hfirst
        cases hfirst

/-- What a line of a feed lists: its address, or those in its range. -/
def LineLists (line : Str) (a : U32) : Prop :=
  lineAddr line = some a ∨ ∃ e, lineRange line = .ok (some e) ∧ e.contains a = true

theorem Adds.listed (h : Adds lines b b') (a : U32) :
    b'.Listed a ↔ b.Listed a ∨ ∃ line ∈ lines, LineLists line a := by
  rw [listed_iff, listed_iff, h.exact]
  simp only [h.ranges, LineLists]
  constructor
  · rintro ((hold | ⟨line, hline, haddr⟩) | ⟨e, hold | ⟨line, hline, hrange⟩, hcontains⟩)
    · exact .inl (.inl hold)
    · exact .inr ⟨line, hline, .inl haddr⟩
    · exact .inl (.inr ⟨e, hold, hcontains⟩)
    · exact .inr ⟨line, hline, .inr ⟨e, hrange, hcontains⟩⟩
  · rintro ((hold | ⟨e, hold, hcontains⟩) | ⟨line, hline, haddr | ⟨e, hrange, hcontains⟩⟩)
    · exact .inl (.inl hold)
    · exact .inr ⟨e, .inl hold, hcontains⟩
    · exact .inl (.inr ⟨line, hline, haddr⟩)
    · exact .inr ⟨e, .inr ⟨line, hline, hrange⟩, hcontains⟩

theorem not_listed_new (a : U32) : ¬ (new : Blacklist bloom).Listed a := by
  rw [listed_iff]
  rintro (h | ⟨e, h, -⟩)
  · exact Finset.notMem_empty a h
  · cases h

/-- An entry in the usual format lists what it covers. -/
theorem lineLists_entry (lead trail : Blanks) (e : FeedEntry) (a : U32) :
    LineLists (lead.1 ++ (e.text ++ trail.1)) a ↔ e.Covers a := by
  obtain ⟨b', hload, hlisted⟩ :=
    loadIpLine_entry lead trail e (new : Blacklist (BloomFilter.exact U32))
  have hnone : ¬ (new : Blacklist (BloomFilter.exact U32)).Listed a := not_listed_new a
  cases hrange : lineRange (lead.1 ++ (e.text ++ trail.1)) with
  | error f =>
    rw [(loadIpLine_spec _ _).1 f hrange] at hload
    cases hload
  | ok r =>
    obtain ⟨b'', hload', hadds⟩ := (loadIpLine_spec _ _).2 r hrange
    cases hload.symm.trans hload'
    have hboth := (hadds.listed a).symm.trans (hlisted a)
    simpa [hnone] using hboth

/-! ## Lines of a domain feed -/

/-- The domain a line lists. -/
def lineDomain (lower : Str → Str) (line : Str) : Option Str :=
  if Str.trim line ≠ [] ∧ (Str.trim line).head? ≠ some '#' then
    some (lower (Str.trimEndDots (Str.trim line)))
  else none

theorem loadDomainList_spec (b : Blacklist bloom) (content : Str) :
    (b.loadDomainList lower content).ipExact = b.ipExact ∧
    (b.loadDomainList lower content).ipCidrs = b.ipCidrs ∧
    ∀ d, d ∈ (b.loadDomainList lower content).domains ↔
      d ∈ b.domains ∨ ∃ line ∈ Str.lines content, lineDomain lower line = some d := by
  unfold loadDomainList
  generalize Str.lines content = lines
  induction lines generalizing b with
  | nil => exact ⟨rfl, rfl, fun d => by simp⟩
  | cons line lines ih =>
    rw [List.foldl_cons]
    obtain ⟨hexact, hcidrs, hdomains⟩ := ih (if Str.trim line ≠ [] ∧
      (Str.trim line).head? ≠ some '#' then b.addDomain lower (Str.trim line) else b)
    by_cases hentry : Str.trim line ≠ [] ∧ (Str.trim line).head? ≠ some '#'
    · rw [if_pos hentry] at hexact hcidrs hdomains ⊢
      have hline : lineDomain lower line = some (lower (Str.trimEndDots (Str.trim line))) :=
        if_pos hentry
      refine ⟨hexact, hcidrs, fun d => ?_⟩
      rw [hdomains]
      simp only [addDomain, Finset.mem_insert, List.mem_cons, exists_eq_or_imp, hline,
        Option.some.injEq]
      rw [or_assoc, or_left_comm, eq_comm]
    · rw [if_neg hentry] at hexact hcidrs hdomains ⊢
      have hline : lineDomain lower line = none := if_neg hentry
      refine ⟨hexact, hcidrs, fun d => ?_⟩
      rw [hdomains]
      simp [hline]

/-! ## Both lists -/

/-- The lines of a list, if there is one. -/
def linesOf (content : Option Str) : List Str := (content.map Str.lines).getD []

variable {ips ips' domains domains' : Option Str}

theorem loadConfiguredIps_eq (ips : Option Str) (b : Blacklist bloom) :
    loadConfiguredIps ips b = (linesOf ips).foldlM loadIpLine b := by
  cases ips <;> rfl

theorem loadConfiguredDomains_spec (domains : Option Str) (b : Blacklist bloom) :
    (b.loadConfiguredDomains lower domains).ipExact = b.ipExact ∧
    (b.loadConfiguredDomains lower domains).ipCidrs = b.ipCidrs ∧
    ∀ d, d ∈ (b.loadConfiguredDomains lower domains).domains ↔
      d ∈ b.domains ∨ ∃ line ∈ linesOf domains, lineDomain lower line = some d := by
  cases domains with
  | none => exact ⟨rfl, rfl, fun d => by simp [loadConfiguredDomains, linesOf]⟩
  | some content => exact loadDomainList_spec b content

theorem loadBlacklists_eq_ok : loadBlacklists lower ips domains = .ok b ↔
    ∃ b₁ : Blacklist bloom, (linesOf ips).foldlM loadIpLine new = .ok b₁ ∧
      b₁.loadConfiguredDomains lower domains = b := by
  rw [loadBlacklists, loadConfiguredIps_eq, Checked.bind_eq_ok]
  simp only [pure, Except.pure, Except.ok.injEq]

/-- **What is listed after startup** is what some line lists, and nothing else. -/
theorem loadBlacklists_spec (hload : loadBlacklists lower ips domains = .ok b) :
    Loads (linesOf ips) ∧
    (∀ a, a ∈ b.ipExact ↔ ∃ line ∈ linesOf ips, lineAddr line = some a) ∧
    (∀ e, e ∈ b.ipCidrs ↔ ∃ line ∈ linesOf ips, lineRange line = .ok (some e)) ∧
    ∀ d, d ∈ b.domains ↔ ∃ line ∈ linesOf domains, lineDomain lower line = some d := by
  obtain ⟨b₁, hlines, rfl⟩ := loadBlacklists_eq_ok.mp hload
  obtain ⟨hadds, hloads⟩ := loadLines_spec new (linesOf ips)
  have hloaded := hloads b₁ hlines
  obtain ⟨b₁', hlines', hexact, hranges, hdomains⟩ := hadds hloaded
  cases hlines.symm.trans hlines'
  have hnone : ∀ a, a ∉ (new : Blacklist bloom).ipExact := Finset.notMem_empty
  have hnoRange : ∀ e, e ∉ (new : Blacklist bloom).ipCidrs := fun _ => List.not_mem_nil
  have hnoDomain : ∀ d, d ∉ (new : Blacklist bloom).domains := Finset.notMem_empty
  simp only [hnone, hnoRange, false_or] at hexact hranges
  obtain ⟨hexact', hranges', hdomains'⟩ := @loadConfiguredDomains_spec _ lower domains b₁
  refine ⟨hloaded, fun a => ?_, fun e => ?_, fun d => ?_⟩
  · rw [hexact', hexact]
  · rw [hranges', hranges]
  · rw [hdomains', hdomains]
    simp only [hnoDomain, false_or]

/-- **An address or range that stands in the feed is listed.** -/
theorem listed_of_line {lead trail : Blanks} {e : FeedEntry} {a : U32}
    (hload : loadBlacklists lower ips domains = .ok b)
    (hline : lead.1 ++ (e.text ++ trail.1) ∈ linesOf ips) (hcovers : e.Covers a) : b.Listed a := by
  obtain ⟨-, hexact, hranges, -⟩ := loadBlacklists_spec hload
  rw [listed_iff]
  rcases (lineLists_entry lead trail e a).mpr hcovers with haddr | ⟨r, hr, hcontains⟩
  · exact .inl ((hexact a).mpr ⟨_, hline, haddr⟩)
  · exact .inr ⟨r, (hranges r).mpr ⟨_, hline, hr⟩, hcontains⟩

/-- Checks see no more of a blacklist than what is in it. -/
theorem checkIp_congr (hexact : ∀ a, a ∈ b.ipExact ↔ a ∈ b'.ipExact)
    (hcidrs : ∀ e, e ∈ b.ipCidrs ↔ e ∈ b'.ipCidrs) (ip : IpAddr) : b.checkIp ip = b'.checkIp ip := by
  cases ip with
  | v6 a => rfl
  | v4 a =>
    have hbloom : ∀ b : Blacklist bloom,
        (bloom.check b.ipBloom a = true ∧ a ∈ b.ipExact) ↔ a ∈ b.ipExact :=
      fun b => ⟨And.right, fun h => ⟨b.check_of_mem a h, h⟩⟩
    have hany : (b.ipCidrs.any fun e => e.contains a) = b'.ipCidrs.any fun e => e.contains a := by
      rw [Bool.eq_iff_iff, List.any_eq_true, List.any_eq_true]
      simp only [hcidrs]
    unfold checkIp
    simp only [hbloom, hany]
    simp only [hexact]

/-- **Feeds are sets of lines**: two pairs of lists with the same lines, in any order
and any number of times each, are both loaded or both panic, and then no check tells the
blacklists apart. -/
theorem feeds_are_sets (hips : ∀ line, line ∈ linesOf ips ↔ line ∈ linesOf ips')
    (hdomains : ∀ line, line ∈ linesOf domains ↔ line ∈ linesOf domains')
    (hload : loadBlacklists lower ips domains = .ok b) :
    ∃ b' : Blacklist bloom, loadBlacklists lower ips' domains' = .ok b' ∧
      (∀ ip, b'.checkIp ip = b.checkIp ip) ∧
      ∀ d, b'.checkDomain lower d = b.checkDomain lower d := by
  obtain ⟨hloads, hexact, hranges, hlisted⟩ := loadBlacklists_spec hload
  have hloads' : Loads (linesOf ips') := fun line hline => hloads line ((hips line).mpr hline)
  obtain ⟨b₁, hlines, -⟩ := (loadLines_spec new (linesOf ips')).1 hloads'
  have hload' : loadBlacklists lower ips' domains' = .ok _ :=
    loadBlacklists_eq_ok.mpr ⟨b₁, hlines, rfl⟩
  obtain ⟨-, hexact', hranges', hlisted'⟩ := loadBlacklists_spec hload'
  refine ⟨_, hload', fun ip => checkIp_congr (fun a => ?_) (fun e => ?_) ip, fun d => ?_⟩
  · rw [hexact', hexact]
    simp only [hips]
  · rw [hranges', hranges]
    simp only [hips]
  · unfold checkDomain
    simp only [hlisted', hlisted, hdomains]

def smallFeed : Str := "10.0.0.1\n10.1.0.0/16".toList

def smallFeedReordered : Str := "10.1.0.0/16\n10.0.0.1\n10.1.0.0/16\n".toList

/-- A feed, and its lines in another order, with one of them twice. -/
theorem feeds_are_sets_reordered :
    ∃ b b' : Blacklist (BloomFilter.exact U32),
      loadBlacklists (List.map Char.toLower) (some smallFeed) none = .ok b ∧
      loadBlacklists (List.map Char.toLower) (some smallFeedReordered) none = .ok b' ∧
      ∀ ip, b'.checkIp ip = b.checkIp ip := by
  have hloads : (loadBlacklists (List.map Char.toLower) (some smallFeed) none :
      Checked (Blacklist (BloomFilter.exact U32))).Returns fun _ => True := by
    decide +kernel
  obtain ⟨b, hload, -⟩ := hloads
  have hlines : ∀ line, line ∈ linesOf (some smallFeed) ↔
      line ∈ linesOf (some smallFeedReordered) := by
    have hfirst : linesOf (some smallFeed) = ["10.0.0.1".toList, "10.1.0.0/16".toList] := by
      decide +kernel
    have hsecond : linesOf (some smallFeedReordered) =
        ["10.1.0.0/16".toList, "10.0.0.1".toList, "10.1.0.0/16".toList] := by
      decide +kernel
    intro line
    simp only [hfirst, hsecond, List.mem_cons, List.not_mem_nil, or_false]
    tauto
  obtain ⟨b', hload', hcheck, -⟩ := feeds_are_sets hlines (fun _ => Iff.rfl) hload
  exact ⟨b, b', hload, hload', hcheck⟩

end Blacklist

end Ocellus
