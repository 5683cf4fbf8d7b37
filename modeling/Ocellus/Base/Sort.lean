import Ocellus.Base.Fault
import Mathlib.Data.List.Sort

/-!
# Sorting with a comparison that may panic

`sort_by` is a stable sort. Which pairs it compares is not specified, but with
two or more elements every element is compared with some other, and a stable
sort has one result; `sortBy` is the stable insertion sort. When no comparison
fails it is Mathlib's `insertionSort` (`sortBy_eq_insertionSort`), from which
its permutation and order properties come.
-/

namespace Ocellus

universe u

variable {α : Type u}

/-- Put `x`, which stood before the elements of the sorted list, in its place. -/
def insertBy (cmp : α → α → Checked Ordering) (x : α) : List α → Checked (List α)
  | [] => .ok [x]
  | y :: ys =>
    match cmp x y with
    | .error f => .error f
    | .ok .gt => (insertBy cmp x ys).map (y :: ·)
    | .ok _ => .ok (x :: y :: ys)

/-- `v.sort_by(cmp)`. -/
def sortBy (cmp : α → α → Checked Ordering) : List α → Checked (List α)
  | [] => .ok []
  | x :: xs => do
    let ys ← sortBy cmp xs
    insertBy cmp x ys

/-- A sort that returns loses nothing, whatever the comparison. -/
theorem insertBy_perm {cmp : α → α → Checked Ordering} {x : α} {ys zs : List α}
    (h : insertBy cmp x ys = .ok zs) : zs.Perm (x :: ys) := by
  induction ys generalizing zs with
  | nil =>
    cases h
    exact .refl _
  | cons y ys ih =>
    rw [insertBy] at h
    split at h
    · cases h
    · cases hrest : insertBy cmp x ys with
      | error f =>
        rw [hrest] at h
        cases h
      | ok zs' =>
        rw [hrest] at h
        cases h
        exact ((ih hrest).cons y).trans (.swap x y ys)
    · cases h
      exact .refl _

theorem sortBy_perm {cmp : α → α → Checked Ordering} {xs ys : List α}
    (h : sortBy cmp xs = .ok ys) : ys.Perm xs := by
  induction xs generalizing ys with
  | nil =>
    cases h
    exact .refl _
  | cons x xs ih =>
    obtain ⟨zs, hzs, h⟩ := Checked.bind_eq_ok.mp h
    exact (insertBy_perm h).trans ((ih hzs).cons x)

section Total

variable {cmp : α → α → Checked Ordering} {r : α → α → Prop} [DecidableRel r]

theorem insertBy_eq_orderedInsert {x : α} :
    ∀ {ys : List α}, (∀ y ∈ ys, ∃ o, cmp x y = .ok o ∧ (r x y ↔ o ≠ .gt)) →
      insertBy cmp x ys = .ok (ys.orderedInsert r x)
  | [], _ => rfl
  | y :: ys, h => by
    obtain ⟨o, ho, hr⟩ := h y (List.mem_cons_self ..)
    have ih := insertBy_eq_orderedInsert fun z hz => h z (List.mem_cons_of_mem _ hz)
    cases o with
    | gt =>
      have hxy : ¬ r x y := fun hxy => hr.mp hxy rfl
      simp [insertBy, ho, ih, hxy, Except.map]
    | lt => simp [insertBy, ho, hr.mpr (by simp)]
    | eq => simp [insertBy, ho, hr.mpr (by simp)]

/-- A sort none of whose comparisons can fail is the insertion sort by "does not
come after". -/
theorem sortBy_eq_insertionSort :
    ∀ {l : List α}, (∀ x ∈ l, ∀ y ∈ l, ∃ o, cmp x y = .ok o ∧ (r x y ↔ o ≠ .gt)) →
      sortBy cmp l = .ok (l.insertionSort r)
  | [], _ => rfl
  | x :: xs, h => by
    have ih : sortBy cmp xs = .ok (xs.insertionSort r) :=
      sortBy_eq_insertionSort fun y hy z hz =>
        h y (List.mem_cons_of_mem _ hy) z (List.mem_cons_of_mem _ hz)
    rw [sortBy, ih, Checked.ok_bind, List.insertionSort_cons]
    refine insertBy_eq_orderedInsert fun y hy => h x (List.mem_cons_self ..) y ?_
    exact List.mem_cons_of_mem _ ((List.mem_insertionSort r).mp hy)

end Total

end Ocellus
