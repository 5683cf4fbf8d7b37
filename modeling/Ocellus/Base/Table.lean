import Mathlib.Algebra.BigOperators.Group.Finset.Basic
import Mathlib.Data.List.AList
import Mathlib.Data.Set.Card

/-!
# Keyed tables

`Table κ ν` is a finite map with one value per key, Mathlib's `AList` at a
constant value type. `AList` has no bulk eviction; `retain` adds it: every
entry is passed to a function that may rewrite the value or drop the entry.
`lookup_retain` says that eviction acts on each key separately, which is all
that any proof about a table needs to know of it, and `sum_values` that the
values may be added up key by key.
-/

namespace Ocellus

universe u v

/-- A finite map from `κ` to `ν`. -/
abbrev Table (κ : Type u) (ν : Type v) := AList fun _ : κ => ν

namespace Table

variable {κ : Type u} {ν : Type v}

/-- The entries that survive `f`, with their rewritten values. -/
def retainEntries (f : κ → ν → Option ν) (l : List (Sigma fun _ : κ => ν)) :
    List (Sigma fun _ : κ => ν) :=
  l.filterMap fun e => (f e.1 e.2).map (Sigma.mk e.1)

theorem retainEntries_keys_sublist (f : κ → ν → Option ν)
    (l : List (Sigma fun _ : κ => ν)) :
    (retainEntries f l).keys.Sublist l.keys := by
  induction l with
  | nil => exact List.Sublist.slnil
  | cons e l ih =>
    cases h : f e.1 e.2 with
    | none =>
      have : retainEntries f (e :: l) = retainEntries f l := by simp [retainEntries, h]
      rw [this, List.keys_cons]
      exact ih.cons _
    | some w =>
      have : retainEntries f (e :: l) = ⟨e.1, w⟩ :: retainEntries f l := by
        simp [retainEntries, h]
      rw [this, List.keys_cons, List.keys_cons]
      exact ih.cons_cons _

/-- Visit every entry; keep it with the value `f` gives, or drop it on `none`. -/
def retain (f : κ → ν → Option ν) (m : Table κ ν) : Table κ ν where
  entries := retainEntries f m.entries
  nodupKeys := List.Nodup.sublist (retainEntries_keys_sublist f m.entries) m.nodupKeys

/-- The number of entries. -/
def len (m : Table κ ν) : Nat := m.entries.length

variable [DecidableEq κ]

theorem dlookup_retainEntries (f : κ → ν → Option ν) (k : κ) :
    ∀ {l : List (Sigma fun _ : κ => ν)}, l.NodupKeys →
      (retainEntries f l).dlookup k = (l.dlookup k).bind (f k)
  | [], _ => rfl
  | ⟨k', v⟩ :: l, hnd => by
    have hk' : k' ∉ l.keys := (List.nodupKeys_cons.mp hnd).1
    have ih := dlookup_retainEntries f k (List.nodupKeys_cons.mp hnd).2
    by_cases hk : k = k'
    · subst hk
      rw [List.dlookup_cons_eq]
      cases h : f k v with
      | some w => simp [retainEntries, h]
      | none =>
        have hnone : l.dlookup k = none := List.dlookup_eq_none.mpr hk'
        have hskip : retainEntries f (⟨k, v⟩ :: l) = retainEntries f l := by
          simp [retainEntries, h]
        rw [hskip, ih, hnone]
        simp [h]
    · rw [List.dlookup_cons_ne l ⟨k', v⟩ hk]
      cases h : f k' v with
      | none =>
        have : retainEntries f (⟨k', v⟩ :: l) = retainEntries f l := by
          simp [retainEntries, h]
        rw [this, ih]
      | some w =>
        have : retainEntries f (⟨k', v⟩ :: l) = ⟨k', w⟩ :: retainEntries f l := by
          simp [retainEntries, h]
        rw [this, List.dlookup_cons_ne (β := fun _ => ν) _ ⟨k', w⟩ hk, ih]

/-- Eviction acts on each key separately. -/
@[simp] theorem lookup_retain (f : κ → ν → Option ν) (k : κ) (m : Table κ ν) :
    (m.retain f).lookup k = (m.lookup k).bind (f k) :=
  dlookup_retainEntries f k m.nodupKeys

/-- Looking a key up after an insertion, in one equation. -/
theorem lookup_insert_eq (k k' : κ) (v : ν) (m : Table κ ν) :
    (m.insert k' v).lookup k = if k = k' then some v else m.lookup k := by
  by_cases h : k = k'
  · subst h
    rw [if_pos rfl]
    exact AList.lookup_insert m
  · rw [if_neg h]
    exact AList.lookup_insert_ne h

/-- As many entries as keys that are there. -/
theorem encard_lookup_isSome (m : Table κ ν) :
    {k | (m.lookup k).isSome = true}.encard = m.len := by
  have hkeys : {k | (m.lookup k).isSome = true} = (m.keys.toFinset : Set κ) := by
    ext k
    rw [Set.mem_ofPred_eq, AList.lookup_isSome, Finset.mem_coe, List.mem_toFinset]
    exact AList.mem_keys.symm
  have hcard : m.keys.toFinset.card = m.len := by
    rw [List.toFinset_card_of_nodup m.keys_nodup]
    exact List.length_map _
  rw [hkeys, Set.encard_coe_eq_coe_finsetCard, hcard]

/-- The values of a table, one for each key. -/
def values (m : Table κ ν) : List ν := m.entries.map Sigma.snd

/-- The values add up to the sum over the keys. -/
theorem sum_values [AddCommMonoid ν] (m : Table κ ν) :
    m.values.sum = ∑ k ∈ m.keys.toFinset, (m.lookup k).getD 0 := by
  rw [List.sum_toFinset _ m.keys_nodup]
  show _ = ((m.entries.map Sigma.fst).map fun k => (m.lookup k).getD 0).sum
  rw [List.map_map]
  refine congrArg List.sum (List.map_congr_left fun e he => ?_)
  have hlookup : m.lookup e.1 = some e.2 := List.mem_dlookup m.nodupKeys he
  rw [Function.comp_apply, hlookup, Option.getD_some]

end Table

end Ocellus
