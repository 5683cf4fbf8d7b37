import Ocellus.Base.AhoCorasick
import Ocellus.Base.Fault
import Ocellus.Ids.Score

/-!
# Payload signatures (`ids/payload.rs`)

`scan_all` runs the automaton over the payload and reports the rule of every
match once. The rules are found by the index of the matched pattern, which is
checked; the automaton is a parameter (`AhoCorasick`).
-/

namespace Ocellus

/-- Metadata for a single signature; index-aligned with the patterns. -/
structure PayloadRule where
  name : SignalName
  score : F32
  deriving DecidableEq

/-- A byte string literal. -/
def ascii (s : String) : Bytes := s.toList.map fun c => BitVec.ofNat 8 c.toNat

/-- Pattern, rule name and score. -/
def SIGNATURES : List (Bytes × SignalName × F32) := [
  -- shellcode / exploit indicators
  (List.replicate 8 0x90#8, .nopSled, SCORE_PAYLOAD_SIG),
  ([0xEB#8, 0xFE#8], .infiniteJmpLoop, SCORE_PAYLOAD_SIG),
  (ascii "MSFV", .metasploitPayloadMarker, SCORE_PAYLOAD_SIG),
  (ascii "$\x7bjndi:", .log4shellJndi, SCORE_PAYLOAD_SIG),
  -- webshells
  (ascii "eval(base64_decode", .phpWebshellEvalB64, SCORE_PAYLOAD_SIG),
  (ascii "passthru(", .phpPassthru, SCORE_PAYLOAD_SIG),
  (ascii "cmd.exe /c", .cmdExec, SCORE_PAYLOAD_SIG),
  (ascii "/bin/sh -i", .reverseShellSh, SCORE_PAYLOAD_SIG),
  (ascii "Content-Type: application/octet-stream\r\n\r\nMZ", .csBeaconMz, SCORE_PAYLOAD_SIG),
  (ascii "sekurlsa::logonpasswords", .mimikatzSekurlsa, SCORE_PAYLOAD_SIG),
  (ascii "lsadump::sam", .mimikatzLsadump, SCORE_PAYLOAD_SIG),
  -- probes
  (ascii "' OR '1'='1", .sqliOr1eq1, .fin 35),
  (ascii "UNION SELECT", .sqliUnionSelect, .fin 35),
  (ascii "../../etc/passwd", .pathTraversalPasswd, .fin 40),
  (ascii "169.254.169.254", .ssrfAwsMetadata, .fin 40)]

namespace PayloadScanner

/-- The patterns of the automaton. -/
def patterns : List Bytes := SIGNATURES.map fun s => s.1

/-- The rules, by pattern index. -/
def rules : List PayloadRule := SIGNATURES.map fun s => ⟨s.2.1, s.2.2⟩

def ruleSignal (rule : PayloadRule) (start : Nat) : Signal where
  name := rule.name
  score := rule.score
  detail := .payload rule.name start

/-- What `scan_all` does with a match: report its rule unless it was seen. -/
def scanMatch (acc : List SignalName × List Signal) (m : Match) :
    Checked (List SignalName × List Signal) := do
  let rule ← Checked.index rules m.pattern
  return if rule.name ∈ acc.1 then acc
    else (acc.1 ++ [rule.name], acc.2 ++ [ruleSignal rule m.start])

/-- `scan_all`: all matching rules, each once. -/
def scanAll (ac : AhoCorasick patterns) (payload : Bytes) : Checked (List Signal) := do
  let (_, signals) ← (ac.findIter payload).foldlM scanMatch ([], [])
  return signals

/-! ## What is reported -/

/-- The rules matched in a payload. -/
def matched (ac : AhoCorasick patterns) (payload : Bytes) : List PayloadRule :=
  (ac.findIter payload).filterMap fun m => rules[m.pattern]?

/-- No two rules have the same name. -/
theorem rules_name_inj : ∀ r ∈ rules, ∀ r' ∈ rules, r.name = r'.name → r = r' := by
  decide +kernel

theorem patterns_ne_nil : ∀ p ∈ patterns, p ≠ [] := by decide +kernel

theorem mem_rules {ac : AhoCorasick patterns} {payload : Bytes} {r : PayloadRule}
    (h : r ∈ matched ac payload) : r ∈ rules := by
  obtain ⟨m, -, hm⟩ := List.mem_filterMap.mp h
  exact List.mem_of_getElem? hm

/-- No rule is matched exactly when no pattern occurs. -/
theorem matched_eq_nil_iff (ac : AhoCorasick patterns) (payload : Bytes) :
    matched ac payload = [] ↔ ∀ m : Match, ¬ m.Occurs patterns payload 0 := by
  rw [← (ac.search payload).eq_nil_iff, matched, List.filterMap_eq_nil_iff]
  constructor
  · intro hnone
    refine List.eq_nil_iff_forall_not_mem.mpr fun m hm => ?_
    have hlt : m.pattern < rules.length := by
      simpa [patterns, rules] using (ac.search payload).pattern_lt m hm
    have := hnone m hm
    rw [List.getElem?_eq_getElem hlt] at this
    cases this
  · intro hnil m hm
    rw [hnil] at hm
    cases hm

/-- The signals so far report the rules `rs` matched so far, and `seen` has
their names. -/
structure Reported (rs : List PayloadRule) (seen : List SignalName) (signals : List Signal) :
    Prop where
  seen_iff : ∀ n, n ∈ seen ↔ ∃ r ∈ rs, r.name = n
  sound : ∀ s ∈ signals, ∃ r ∈ rs, r.name = s.name ∧ r.score = s.score
  complete : ∀ n ∈ seen, ∃ s ∈ signals, s.name = n

theorem scanMatch_returns {rs : List PayloadRule} {acc : List SignalName × List Signal}
    {m : Match} (hm : m.pattern < patterns.length) (h : Reported rs acc.1 acc.2) :
    (scanMatch acc m).Returns fun acc' =>
      Reported (rs ++ (rules[m.pattern]?).toList) acc'.1 acc'.2 := by
  have hlt : m.pattern < rules.length := by simpa [patterns, rules] using hm
  have hrule : rules[m.pattern]? = some rules[m.pattern] := List.getElem?_eq_getElem hlt
  unfold scanMatch
  rw [Checked.index_of_lt hlt, hrule, Option.toList_some]
  generalize rules[m.pattern] = r
  -- a rule whose name has been reported is left out, and its name stays covered
  by_cases hseen : r.name ∈ acc.1
  · refine .ok ?_
    rw [if_pos hseen]
    refine ⟨fun n => ?_, fun s hs => ?_, h.complete⟩
    · rw [h.seen_iff]
      obtain ⟨r', hr', hname⟩ := (h.seen_iff _).mp hseen
      constructor
      · rintro ⟨x, hx, rfl⟩
        exact ⟨x, List.mem_append_left _ hx, rfl⟩
      · rintro ⟨x, hx, rfl⟩
        rcases List.mem_append.mp hx with hx | hx
        · exact ⟨x, hx, rfl⟩
        · rw [List.mem_singleton.mp hx]
          exact ⟨r', hr', hname⟩
    · obtain ⟨r', hr', hs⟩ := h.sound s hs
      exact ⟨r', List.mem_append_left _ hr', hs⟩
  · refine .ok ?_
    rw [if_neg hseen]
    refine ⟨fun n => ?_, fun s hs => ?_, fun n hn => ?_⟩
    · simp only [List.mem_append, List.mem_singleton, h.seen_iff, or_and_right, exists_or,
        exists_eq_left, @eq_comm _ n]
    · rcases List.mem_append.mp hs with hs | hs
      · obtain ⟨r', hr', hs⟩ := h.sound s hs
        exact ⟨r', List.mem_append_left _ hr', hs⟩
      · rw [List.mem_singleton.mp hs]
        exact ⟨r, List.mem_append_right _ (List.mem_singleton_self r), rfl, rfl⟩
    · rcases List.mem_append.mp hn with hn | hn
      · obtain ⟨s, hs, rfl⟩ := h.complete n hn
        exact ⟨s, List.mem_append_left _ hs, rfl⟩
      · rw [List.mem_singleton.mp hn]
        exact ⟨ruleSignal r m.start, List.mem_append_right _ (List.mem_singleton_self _), rfl⟩

theorem Reported.nil : Reported [] [] [] := by
  constructor
  · intro n
    simp
  · intro s hs
    exact absurd hs List.not_mem_nil
  · intro n hn
    exact absurd hn List.not_mem_nil

/-- What one match preserves, all preserve. -/
theorem foldlM_scanMatch_returns (ms : List Match) {rs : List PayloadRule}
    {acc : List SignalName × List Signal} (hms : ∀ m ∈ ms, m.pattern < patterns.length)
    (h : Reported rs acc.1 acc.2) :
    (ms.foldlM scanMatch acc).Returns fun acc' =>
      Reported (rs ++ ms.filterMap fun m => rules[m.pattern]?) acc'.1 acc'.2 := by
  induction ms generalizing rs acc with
  | nil => exact .ok (by simpa using h)
  | cons m ms ih =>
    rw [List.foldlM_cons]
    refine (scanMatch_returns (hms m (List.mem_cons_self ..)) h).bind fun acc' h' => ?_
    refine (ih (fun x hx => hms x (List.mem_cons_of_mem m hx)) h').mono fun acc'' h'' => ?_
    rw [List.append_assoc] at h''
    cases hr : rules[m.pattern]? with
    | none => simpa [hr] using h''
    | some r => simpa [hr] using h''

/-- **`scan_all` never faults**, and reports, by name and score, exactly the
rules matched. -/
theorem scanAll_returns (ac : AhoCorasick patterns) (payload : Bytes) :
    (scanAll ac payload).Returns fun signals =>
      (∀ s ∈ signals, ∃ r ∈ matched ac payload, r.name = s.name ∧ r.score = s.score) ∧
      ∀ r ∈ matched ac payload, ∃ s ∈ signals, r.name = s.name ∧ r.score = s.score := by
  unfold scanAll
  have hrun : ((ac.findIter payload).foldlM scanMatch ([], [])).Returns _ :=
    foldlM_scanMatch_returns (ac.findIter payload) (ac.search payload).pattern_lt .nil
  refine hrun.bind fun acc h => .ok ⟨h.sound, fun r hr => ?_⟩
  obtain ⟨s, hs, hname⟩ := h.complete r.name ((h.seen_iff _).mpr ⟨r, hr, rfl⟩)
  obtain ⟨r', hr', hname', hscore⟩ := h.sound s hs
  have heq := rules_name_inj r (mem_rules hr) r' (mem_rules hr') (hname.symm.trans hname'.symm)
  rw [← heq] at hscore
  exact ⟨s, hs, hname.symm, hscore⟩

end PayloadScanner

end Ocellus
