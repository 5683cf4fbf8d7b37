import Ocellus.Base.Text
import Mathlib.Data.Nat.Digits.Defs

/-!
# Decimal numbers, from both sides

What the number parser accepts: `IsDecimal` is the grammar of decimal numbers,
and `decimal_eq_some_iff` says that the parser, without the bound of its integer
type, finds exactly the value of a number in this grammar. `exists_trim` gives
back the blanks that trimming strips.
-/

namespace Ocellus

namespace Str

/-- A digit character, and its value. -/
theorem digit_eq_some_iff {c : Char} {d : Nat} :
    digit c = some d ↔ d < 10 ∧ c = Nat.digitChar d := by
  have hchar : ∀ n < 10, digit (Nat.digitChar n) = some n := by decide
  constructor
  · intro h
    unfold digit at h
    split at h
    · rename_i hc
      have hlo : 48 ≤ c.toNat := hc.1
      have hhi : c.toNat ≤ 57 := hc.2
      have hd : c.toNat - 48 = d := Option.some.inj h
      have htoNat : ∀ n < 10, (Nat.digitChar n).toNat = 48 + n := by decide
      have hlt : d < 10 := by omega
      refine ⟨hlt, ?_⟩
      rw [← Char.ofNat_toNat c, ← Char.ofNat_toNat (Nat.digitChar d), htoNat d hlt]
      exact congrArg Char.ofNat (by omega)
    · cases h
  · rintro ⟨hd, rfl⟩
    exact hchar d hd

/-- The characters of a sequence of digits. -/
def numeral (ds : List (Fin 10)) : Str := ds.map fun d => Nat.digitChar d.val

/-- The number that a sequence of digits stands for, the highest digit first. -/
def value (ds : List (Fin 10)) : Nat := Nat.ofDigits 10 (ds.reverse.map Fin.val)

theorem value_concat (ds : List (Fin 10)) (d : Fin 10) :
    value (ds ++ [d]) = 10 * value ds + d.val := by
  unfold value
  rw [List.reverse_concat, List.map_cons, Nat.ofDigits_cons, Nat.add_comm]

/-- The accumulator of `digits`. -/
theorem foldlM_numeral (ds : List (Fin 10)) :
    (numeral ds).foldlM (fun n c => (digit c).map fun d => 10 * n + d) 0 = some (value ds) := by
  induction ds using List.reverseRecOn with
  | nil => rfl
  | append_singleton ds d ih =>
    have hd : digit (Nat.digitChar d.val) = some d.val := digit_eq_some_iff.mpr ⟨d.isLt, rfl⟩
    unfold numeral at ih ⊢
    rw [List.map_append, List.foldlM_append, ih, value_concat]
    simp [hd]

theorem digits_numeral {ds : List (Fin 10)} (hne : ds ≠ []) :
    digits (numeral ds) = some (value ds) := by
  cases ds with
  | nil => exact absurd rfl hne
  | cons d ds => exact foldlM_numeral (d :: ds)

/-- Digits are all that the parser reads. -/
theorem exists_numeral {s : Str} (h : ∀ c ∈ s, (digit c).isSome = true) :
    ∃ ds, s = numeral ds := by
  induction s with
  | nil => exact ⟨[], rfl⟩
  | cons c s ih =>
    obtain ⟨d, hd⟩ := Option.isSome_iff_exists.mp (h c (List.mem_cons_self ..))
    obtain ⟨hlt, rfl⟩ := digit_eq_some_iff.mp hd
    obtain ⟨ds, rfl⟩ := ih fun c' hc' => h c' (List.mem_cons_of_mem _ hc')
    exact ⟨⟨d, hlt⟩ :: ds, rfl⟩

theorem digits_eq_some_iff {s : Str} {n : Nat} :
    digits s = some n ↔ ∃ ds, ds ≠ [] ∧ value ds = n ∧ s = numeral ds := by
  constructor
  · intro h
    obtain ⟨ds, rfl⟩ := exists_numeral (digits_isDigit h)
    have hne : ds ≠ [] := by
      rintro rfl
      cases h
    rw [digits_numeral hne] at h
    exact ⟨ds, hne, Option.some.inj h, rfl⟩
  · rintro ⟨ds, hne, rfl, rfl⟩
    exact digits_numeral hne

/-- A decimal number: digits, possibly with a plus sign in front. -/
def IsDecimal (s : Str) (n : Nat) : Prop :=
  ∃ ds, ds ≠ [] ∧ value ds = n ∧ (s = numeral ds ∨ s = '+' :: numeral ds)

/-- What `parse` reads of a number, before it looks at its size. -/
def decimal (s : Str) : Option Nat := digits (if s.head? = some '+' then s.tail else s)

theorem parseU32_eq (s : Str) :
    parseU32 s = (decimal s).bind fun n => if n < 2 ^ 32 then some n else none := rfl

/-- A number does not begin with a plus sign by itself. -/
theorem head?_numeral_ne (ds : List (Fin 10)) : (numeral ds).head? ≠ some '+' := by
  have hplus : ∀ d : Fin 10, Nat.digitChar d.val ≠ '+' := by decide
  cases ds with
  | nil => exact nofun
  | cons d ds => exact fun h => hplus d (Option.some.inj h)

theorem decimal_eq_some_iff {s : Str} {n : Nat} : decimal s = some n ↔ IsDecimal s n := by
  unfold decimal
  constructor
  · intro h
    by_cases hplus : s.head? = some '+'
    · obtain ⟨t, rfl⟩ := List.head?_eq_some_iff.mp hplus
      obtain ⟨ds, hne, hvalue, ht⟩ := digits_eq_some_iff.mp h
      have ht : t = numeral ds := ht
      exact ⟨ds, hne, hvalue, .inr (ht ▸ rfl)⟩
    · rw [if_neg hplus] at h
      obtain ⟨ds, hne, hvalue, hs⟩ := digits_eq_some_iff.mp h
      exact ⟨ds, hne, hvalue, .inl hs⟩
  · rintro ⟨ds, hne, rfl, rfl | rfl⟩
    · rw [if_neg (head?_numeral_ne ds)]
      exact digits_numeral hne
    · exact digits_numeral hne

/-- The characters of a number. -/
theorem IsDecimal.chars {s : Str} {n : Nat} (h : IsDecimal s n) :
    ∀ c ∈ s, c = '+' ∨ (digit c).isSome = true := by
  have hdigits : ∀ ds, ∀ c ∈ numeral ds, (digit c).isSome = true := by
    intro ds c hc
    obtain ⟨d, -, rfl⟩ := List.mem_map.mp hc
    rw [digit_eq_some_iff.mpr ⟨d.isLt, rfl⟩]
    rfl
  obtain ⟨ds, -, -, rfl | rfl⟩ := h
  · exact fun c hc => .inr (hdigits ds c hc)
  · intro c hc
    rcases List.mem_cons.mp hc with rfl | hc
    · exact .inl rfl
    · exact .inr (hdigits ds c hc)

/-! ## Trimming -/

/-- A string is its trimmed part with whitespace around it. -/
theorem exists_trim (s : Str) :
    ∃ lead trail : Str, (∀ c ∈ lead, isWhitespace c = true) ∧
      (∀ c ∈ trail, isWhitespace c = true) ∧ s = lead ++ (trim s ++ trail) := by
  have hback : s.dropWhile isWhitespace
      = trim s ++ ((s.dropWhile isWhitespace).reverse.takeWhile isWhitespace).reverse := by
    unfold trim List.rdropWhile
    rw [← List.reverse_append, List.takeWhile_append_dropWhile, List.reverse_reverse]
  refine ⟨s.takeWhile isWhitespace,
    ((s.dropWhile isWhitespace).reverse.takeWhile isWhitespace).reverse, ?_, ?_, ?_⟩
  · exact fun c hc => List.mem_takeWhile_imp hc
  · exact fun c hc => List.mem_takeWhile_imp (List.mem_reverse.mp hc)
  · rw [← hback, List.takeWhile_append_dropWhile]

/-- Whitespace around a string without any is all that is stripped. -/
theorem trim_surrounded {lead s trail : Str} (hlead : ∀ c ∈ lead, isWhitespace c = true)
    (hs : ∀ c ∈ s, isWhitespace c = false) (htrail : ∀ c ∈ trail, isWhitespace c = true) :
    trim (lead ++ (s ++ trail)) = s := by
  rw [trim_append_left hlead, trim_append_right htrail, trim_eq_self hs]

end Str

end Ocellus
