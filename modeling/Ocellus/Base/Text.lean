import Ocellus.Base.Bytes
import Mathlib.Data.List.DropRight
import Mathlib.Data.List.TakeWhile

/-!
# Strings (`core::str`)

The string functions of the standard library that the program calls, on a string
as its list of characters, with the few facts about them that its parsers need:
what survives trimming, how joined lines come apart, and which characters a
parsed number or address can hold.
-/

namespace Ocellus

/-- A `str`, as its sequence of characters. -/
abbrev Str := List Char

namespace Str

/-! ## Trimming -/

/-- The Unicode property `White_Space`. -/
def isWhitespace (c : Char) : Bool :=
  let n := c.toNat
  (0x09 ≤ n && n ≤ 0x0D) || n == 0x20 || n == 0x85 || n == 0xA0 || n == 0x1680 ||
    (0x2000 ≤ n && n ≤ 0x200A) || n == 0x2028 || n == 0x2029 || n == 0x202F ||
    n == 0x205F || n == 0x3000

/-- `str::trim`. -/
def trim (s : Str) : Str := (s.dropWhile isWhitespace).rdropWhile isWhitespace

/-- Leading whitespace is trimmed. -/
theorem trim_append_left {lead : Str} (h : ∀ c ∈ lead, isWhitespace c = true) (s : Str) :
    trim (lead ++ s) = trim s := by
  unfold trim
  rw [List.dropWhile_append_of_pos h]

/-- Trailing whitespace is trimmed. -/
theorem trim_append_right {trail : Str} (h : ∀ c ∈ trail, isWhitespace c = true) (s : Str) :
    trim (s ++ trail) = trim s := by
  have hrev : ∀ c ∈ trail.reverse, isWhitespace c = true :=
    fun c hc => h c (List.mem_reverse.mp hc)
  unfold trim List.rdropWhile
  rw [List.dropWhile_append]
  split
  · rename_i hall
    have hs : s.dropWhile isWhitespace = [] := by simpa using hall
    have ht : trail.dropWhile isWhitespace = [] := List.dropWhile_eq_nil_iff.mpr h
    rw [hs, ht]
  · rw [List.reverse_append, List.dropWhile_append_of_pos hrev]

/-- A string without whitespace is left alone. -/
theorem trim_eq_self {s : Str} (h : ∀ c ∈ s, isWhitespace c = false) : trim s = s := by
  have hnone : ∀ l : Str, (∀ c ∈ l, isWhitespace c = false) → l.dropWhile isWhitespace = l := by
    intro l hl
    cases l with
    | nil => rfl
    | cons c l => simp [hl c (List.mem_cons_self ..)]
  unfold trim List.rdropWhile
  rw [hnone s h, hnone _ fun c hc => h c (List.mem_reverse.mp hc), List.reverse_reverse]

/-- What is not whitespace survives. -/
theorem mem_trim {s : Str} {c : Char} (hc : c ∈ s) (h : isWhitespace c = false) :
    c ∈ trim s := by
  have hkept : ∀ l : Str, c ∈ l → c ∈ l.dropWhile isWhitespace := by
    intro l hl
    rw [← List.takeWhile_append_dropWhile (p := isWhitespace) (l := l)] at hl
    rcases List.mem_append.mp hl with hl | hl
    · rw [List.mem_takeWhile_imp hl] at h
      cases h
    · exact hl
  unfold trim List.rdropWhile
  rw [List.mem_reverse]
  exact hkept _ (List.mem_reverse.mpr (hkept _ hc))

/-- `s.trim_end_matches('.')`. -/
def trimEndDots (s : Str) : Str := s.rdropWhile (· == '.')

/-- `s.split_once(c)`. -/
def splitOnce (c : Char) (s : Str) : Option (Str × Str) :=
  if c ∈ s then some (s.takeWhile (· != c), (s.dropWhile (· != c)).tail) else none

theorem splitOnce_eq_some {c : Char} {s a b : Str} (h : splitOnce c s = some (a, b)) :
    s = a ++ c :: b := by
  unfold splitOnce at h
  split at h
  · rename_i hc
    cases h
    have hsplit : s = s.takeWhile (· != c) ++ s.dropWhile (· != c) :=
      (List.takeWhile_append_dropWhile).symm
    cases hdrop : s.dropWhile (· != c) with
    | nil =>
      have hall := List.dropWhile_eq_nil_iff.mp hdrop c hc
      simp at hall
    | cons x t =>
      have hx : x = c := by
        have hnot := List.head_dropWhile_not (· != c) (by rw [hdrop]; exact List.cons_ne_nil x t)
        simpa [hdrop] using hnot
      rw [hdrop, hx] at hsplit
      exact hsplit
  · cases h

/-- The first separator splits. -/
theorem splitOnce_append {c : Char} {a : Str} (h : c ∉ a) (b : Str) :
    splitOnce c (a ++ c :: b) = some (a, b) := by
  have hne : ∀ x ∈ a, (x != c) = true := by
    intro x hx
    have : x ≠ c := by
      rintro rfl
      exact h hx
    simpa using this
  unfold splitOnce
  rw [if_pos (by simp), List.takeWhile_append_of_pos hne, List.dropWhile_append_of_pos hne]
  simp

/-! ## Splitting -/

/-- No piece is longer than the whole. -/
theorem length_le_of_mem_splitOn {c : Char} {s piece : Str} (h : piece ∈ s.splitOn c) :
    piece.length ≤ s.length := by
  induction s generalizing piece with
  | nil =>
    have hnil : piece = [] := by simpa using h
    rw [hnil]
  | cons x s ih =>
    rw [List.splitOn_cons_eq_if_modifyHead] at h
    split at h
    · rcases List.mem_cons.mp h with rfl | h
      · exact Nat.zero_le _
      · exact Nat.le_succ_of_le (ih h)
    · cases hs : s.splitOn c with
      | nil => exact absurd hs (List.splitOn_ne_nil c s)
      | cons first rest =>
        rw [hs] at h
        rcases List.mem_cons.mp h with rfl | h
        · exact Nat.succ_le_succ (ih (hs ▸ List.mem_cons_self ..))
        · exact Nat.le_succ_of_le (ih (hs ▸ List.mem_cons_of_mem first h))

/-- What holds of the separator and of all characters of the pieces holds of those
of the whole. -/
theorem forall_mem_intercalate {P : Char → Prop} {x : Char} {strs : List Str} (hx : P x)
    (h : ∀ s ∈ strs, ∀ c ∈ s, P c) : ∀ c ∈ [x].intercalate strs, P c := by
  induction strs with
  | nil => exact fun _ hc => absurd hc List.not_mem_nil
  | cons s strs ih =>
    obtain ⟨hs, hrest⟩ := List.forall_mem_cons.mp h
    cases strs with
    | nil => simpa using hs
    | cons s' strs =>
      rw [List.intercalate_cons_cons]
      exact List.forall_mem_append.mpr
        ⟨List.forall_mem_append.mpr ⟨hs, List.forall_mem_singleton.mpr hx⟩, ih hrest⟩

theorem map_intercalate (g : Char → Char) (x : Char) (strs : List Str) :
    ([x].intercalate strs).map g = [g x].intercalate (strs.map (List.map g)) := by
  induction strs with
  | nil => rfl
  | cons s strs ih =>
    cases strs with
    | nil => simp
    | cons s' strs =>
      rw [List.intercalate_cons_cons, List.map_append, List.map_append, ih]
      simp [List.intercalate_cons_cons]

/-- The pieces of joined strings are pieces of one of them. -/
theorem mem_splitOn_intercalate {c : Char} {strs : List Str} {piece : Str} (hne : strs ≠ [])
    (h : piece ∈ ([c].intercalate strs).splitOn c) : ∃ s ∈ strs, piece ∈ s.splitOn c := by
  induction strs with
  | nil => exact absurd rfl hne
  | cons s strs ih =>
    cases strs with
    | nil => exact ⟨s, List.mem_cons_self .., by simpa using h⟩
    | cons s' strs =>
      rw [List.intercalate_cons_cons, List.append_assoc, List.singleton_append,
        List.splitOn_append_cons_self] at h
      rcases List.mem_append.mp h with h | h
      · exact ⟨s, List.mem_cons_self .., h⟩
      · obtain ⟨t, ht, hpiece⟩ := ih (List.cons_ne_nil _ _) h
        exact ⟨t, List.mem_cons_of_mem s ht, hpiece⟩

/-- Trimming final dots only loses empty pieces. -/
theorem mem_splitOn_trimEndDots {s piece : Str} (h : piece ∈ (trimEndDots s).splitOn '.') :
    piece ∈ s.splitOn '.' := by
  induction s using List.reverseRecOn with
  | nil => exact h
  | append_singleton s x ih =>
    unfold trimEndDots at h ih
    rw [List.rdropWhile_concat] at h
    split at h
    · rename_i hx
      rw [eq_of_beq hx, List.splitOn_append_cons_self]
      exact List.mem_append_left _ (ih h)
    · exact h

/-! ## Lines -/

/-- A line without the `\r` before its `\n`. -/
def stripCr (s : Str) : Str := if s.getLast? = some '\r' then s.dropLast else s

/-- `str::lines`. -/
def lines (s : Str) : List Str :=
  let pieces := s.splitOn '\n'
  let last := pieces.getLastD []
  pieces.dropLast.map stripCr ++ if last = [] then [] else [last]

theorem trim_stripCr (s : Str) : trim (stripCr s) = trim s := by
  unfold stripCr
  split
  · rename_i h
    obtain ⟨pre, rfl⟩ := List.getLast?_eq_some_iff.mp h
    rw [List.dropLast_concat]
    exact (trim_append_right (List.forall_mem_singleton.mpr (by decide)) pre).symm
  · rfl

/-- Doing something for each line, when empty lines and a final `\r` make no
difference, is doing it for each piece between newlines. -/
theorem foldlM_lines {m : Type → Type} [Monad m] [LawfulMonad m] {σ : Type} (f : σ → Str → m σ)
    (hnil : ∀ x, f x [] = pure x) (hcr : ∀ x s, f x (stripCr s) = f x s) (x : σ) (s : Str) :
    (lines s).foldlM f x = (s.splitOn '\n').foldlM f x := by
  have hne : s.splitOn '\n' ≠ [] := List.splitOn_ne_nil _ _
  obtain ⟨init, last, hsplit⟩ : ∃ init last, s.splitOn '\n' = init ++ [last] :=
    ⟨_, _, (List.dropLast_append_getLast hne).symm⟩
  have hinit : ∀ (l : List Str) (x : σ), (l.map stripCr).foldlM f x = l.foldlM f x := by
    intro l
    induction l with
    | nil => exact fun _ => rfl
    | cons p l ih =>
      intro x
      simp only [List.map_cons, List.foldlM_cons, hcr, ih]
  unfold lines
  simp only [hsplit, List.dropLast_concat, List.getLastD_concat, List.foldlM_append, hinit]
  refine congrArg (List.foldlM f x init >>= ·) (funext fun y => ?_)
  split
  · rename_i hlast
    rw [hlast, List.foldlM_nil, List.foldlM_cons, hnil, pure_bind, List.foldlM_nil]
  · rfl

/-! ## Numbers and addresses -/

/-- The value of an ASCII decimal digit. -/
def digit (c : Char) : Option Nat :=
  if '0' ≤ c ∧ c ≤ '9' then some (c.toNat - '0'.toNat) else none

/-- The value of a non-empty string of digits. -/
def digits : Str → Option Nat
  | [] => none
  | c :: s => (c :: s).foldlM (fun n c => (digit c).map fun d => 10 * n + d) 0

/-- `s.parse::<u32>()`: decimal digits, with an optional `+` in front. -/
def parseU32 (s : Str) : Option Nat := do
  let n ← digits (if s.head? = some '+' then s.tail else s)
  if n < 2 ^ 32 then some n else none

/-- One octet of a dotted address: at most three digits, no leading zero. -/
def parseOctet (s : Str) : Option U8 := do
  let n ← digits s
  if s.length ≤ 3 ∧ (s.head? = some '0' → s.length = 1) ∧ n ≤ 255 then
    some (BitVec.ofNat 8 n)
  else none

/-- `s.parse::<Ipv4Addr>()`, as the `u32` of the address. -/
def parseIpv4Addr (s : Str) : Option U32 :=
  match s.splitOn '.' with
  | [a, b, c, d] => do
    return (← parseOctet a) ++ (← parseOctet b) ++ (← parseOctet c) ++ (← parseOctet d)
  | _ => none

theorem digits_isDigit {s : Str} {n : Nat} (h : digits s = some n) :
    ∀ c ∈ s, (digit c).isSome = true := by
  have hfold : ∀ (s : Str) (m n : Nat),
      s.foldlM (fun n c => (digit c).map fun d => 10 * n + d) m = some n →
      ∀ c ∈ s, (digit c).isSome = true := by
    intro s
    induction s with
    | nil => exact fun _ _ _ c hc => nomatch hc
    | cons a s ih =>
      intro m n h c hc
      rw [List.foldlM_cons] at h
      obtain ⟨m', hm', h⟩ := Option.bind_eq_some_iff.mp h
      rcases List.mem_cons.mp hc with rfl | hc
      · obtain ⟨d, hd, -⟩ := Option.map_eq_some_iff.mp hm'
        rw [hd]
        rfl
      · exact ih m' n h c hc
  cases s with
  | nil => cases h
  | cons a s => exact hfold (a :: s) 0 n h

theorem parseU32_chars {s : Str} {n : Nat} (h : parseU32 s = some n) :
    ∀ c ∈ s, c = '+' ∨ (digit c).isSome = true := by
  intro c hc
  obtain ⟨m, hm, -⟩ := Option.bind_eq_some_iff.mp h
  by_cases hplus : s.head? = some '+'
  · rw [if_pos hplus] at hm
    obtain ⟨t, rfl⟩ := List.head?_eq_some_iff.mp hplus
    rcases List.mem_cons.mp hc with rfl | hc
    · exact .inl rfl
    · exact .inr (digits_isDigit hm c hc)
  · rw [if_neg hplus] at hm
    exact .inr (digits_isDigit hm c hc)

theorem parseOctet_chars {s : Str} {x : U8} (h : parseOctet s = some x) :
    ∀ c ∈ s, (digit c).isSome = true := by
  obtain ⟨n, hn, -⟩ := Option.bind_eq_some_iff.mp h
  exact digits_isDigit hn

theorem parseIpv4Addr_chars {s : Str} {x : U32} (h : parseIpv4Addr s = some x) :
    ∀ c ∈ s, c = '.' ∨ (digit c).isSome = true := by
  unfold parseIpv4Addr at h
  split at h
  · rename_i a b c d hsplit
    obtain ⟨xa, ha, h⟩ := Option.bind_eq_some_iff.mp h
    obtain ⟨xb, hb, h⟩ := Option.bind_eq_some_iff.mp h
    obtain ⟨xc, hc, h⟩ := Option.bind_eq_some_iff.mp h
    obtain ⟨xd, hd, -⟩ := Option.bind_eq_some_iff.mp h
    intro x hx
    have hjoin : ['.'].intercalate (s.splitOn '.') = s := List.intercalate_splitOn '.'
    rw [← hjoin, hsplit] at hx
    simp only [List.intercalate, List.intersperse, List.flatten_cons, List.flatten_nil,
      List.mem_append, List.mem_singleton, List.append_nil] at hx
    rcases hx with hx | rfl | hx | rfl | hx | rfl | hx
    · exact .inr (parseOctet_chars ha x hx)
    · exact .inl rfl
    · exact .inr (parseOctet_chars hb x hx)
    · exact .inl rfl
    · exact .inr (parseOctet_chars hc x hx)
    · exact .inl rfl
    · exact .inr (parseOctet_chars hd x hx)
  · cases h

end Str

end Ocellus
