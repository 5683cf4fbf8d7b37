import Mathlib.Data.List.Induction

/-!
# The last opening of a history

In a history some events *open* something, with a value (a time, say), and others
may *end* it. `Since opens ends tr v` says that something is open, with the value
`v`: the last opening in `tr` gave it, and nothing ended it since. `since_concat`
is the equation for one more event, which is what a program that keeps such a
thing in a variable computes.
-/

namespace Ocellus

universe u v

variable {ε : Type u} {β : Type v} {opens : ε → Option β} {ends : β → ε → Prop}

/-- The last opening of `tr` has the value `v`, and no later event ends it. -/
def Since (opens : ε → Option β) (ends : β → ε → Prop) (tr : List ε) (v : β) : Prop :=
  ∃ pre e post, tr = pre ++ e :: post ∧ opens e = some v ∧
    ∀ e' ∈ post, opens e' = none ∧ ¬ ends v e'

theorem not_since_nil (v : β) : ¬ Since opens ends [] v := by
  rintro ⟨pre, e, post, htr, -⟩
  cases pre <;> cases htr

/-- An event of `tr ++ [e]` is the last one, or an event of `tr`. -/
theorem concat_eq_append_cons {tr pre post : List ε} {e e' : ε}
    (h : tr ++ [e] = pre ++ e' :: post) :
    (pre = tr ∧ e' = e ∧ post = []) ∨ ∃ post', post = post' ++ [e] ∧ tr = pre ++ e' :: post' := by
  rcases List.eq_nil_or_concat post with rfl | ⟨post, last, rfl⟩
  · obtain ⟨htr, he⟩ := List.append_inj' h rfl
    cases he
    exact .inl ⟨htr.symm, rfl, rfl⟩
  · rw [List.concat_eq_append, ← List.cons_append, ← List.append_assoc] at h
    obtain ⟨htr, he⟩ := List.append_inj' h rfl
    cases he
    exact .inr ⟨post, List.concat_eq_append, htr⟩

theorem since_concat_of_some {e : ε} {w : β} (h : opens e = some w) (tr : List ε) (v : β) :
    Since opens ends (tr ++ [e]) v ↔ v = w := by
  constructor
  · rintro ⟨pre, e', post, htr, hopen, hrest⟩
    rcases concat_eq_append_cons htr with ⟨-, rfl, -⟩ | ⟨post, rfl, -⟩
    · exact Option.some.inj (hopen.symm.trans h)
    · -- the opening `e` would have come later
      have hnone := (hrest e (by simp)).1
      rw [h] at hnone
      cases hnone
  · rintro rfl
    exact ⟨tr, e, [], rfl, h, nofun⟩

theorem since_concat_of_none {e : ε} (h : opens e = none) (tr : List ε) (v : β) :
    Since opens ends (tr ++ [e]) v ↔ Since opens ends tr v ∧ ¬ ends v e := by
  constructor
  · rintro ⟨pre, e', post, htr, hopen, hrest⟩
    rcases concat_eq_append_cons htr with ⟨-, rfl, -⟩ | ⟨post, rfl, rfl⟩
    · rw [h] at hopen
      cases hopen
    · constructor
      · exact ⟨pre, e', post, rfl, hopen, fun x hx => hrest x (by simp [hx])⟩
      · exact (hrest e (by simp)).2
  · rintro ⟨⟨pre, e', post, rfl, hopen, hrest⟩, hend⟩
    refine ⟨pre, e', post ++ [e], by simp, hopen, fun x hx => ?_⟩
    rcases List.mem_append.mp hx with hx | hx
    · exact hrest x hx
    · rw [List.mem_singleton.mp hx]
      exact ⟨h, hend⟩

/-- An opening replaces what was open; any other event keeps it, or ends it. -/
theorem since_concat (tr : List ε) (e : ε) (v : β) :
    Since opens ends (tr ++ [e]) v ↔
      opens e = some v ∨ opens e = none ∧ Since opens ends tr v ∧ ¬ ends v e := by
  cases h : opens e with
  | some w =>
    rw [since_concat_of_some h, Option.some.injEq]
    simp [eq_comm]
  | none =>
    rw [since_concat_of_none h]
    simp

end Ocellus
