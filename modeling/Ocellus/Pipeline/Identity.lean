import Ocellus.Base.Text
import Mathlib.Data.Finset.Card
import Mathlib.Data.Finset.Option

/-!
# The agent's identity (`agent_identity.rs`)

Without `--agent-id` the agent's identity is what it finds in a file in the home
directory; if it finds nothing there, it generates an identity and writes it to the file.
Errors on the way do not keep the agent from starting, and some of them change its
identity: so the backend sees one agent as several.

It does not see more of them than there were errors (`identities_le`): over all starts of
an agent, the number of its identities, next to those given on the command line, is at
most one more than the number of errors it met. In particular, starts that meet no error
and are given none all have the same identity.
-/

namespace Ocellus

/-- The text of a generated UUID: nothing of it is trimmed. -/
structure UuidText where
  text : Str
  ne_nil : text ≠ []
  plain : ∀ c ∈ text, Str.isWhitespace c = false

namespace AgentIdentity

/-- How `std::fs::write` can end. -/
inductive Write where
  | complete
  /-- The file could not be opened. -/
  | untouched
  /-- The file was truncated, and so many characters were written to it. -/
  | partway (n : Nat)
  deriving DecidableEq

/-- A start of the agent: the option of the command line, how the calls to the system
end, and the UUID that is generated if need be. -/
structure Startup where
  cliOverride : Option Str
  /-- `dirs::home_dir()` finds a directory. -/
  homeDir : Bool
  /-- A file that is there can be read. -/
  readToString : Bool
  createDirAll : Bool
  write : Write
  uuid : UuidText

namespace Startup

variable (u : Startup) (file : Option Str)

/-- The identity in the file, which may be missing or hold nothing but whitespace. -/
def existing : Option Str :=
  if u.readToString then (file.map Str.trim).filter (· ≠ []) else none

/-- What the file holds after the call of `write`. -/
def written : Option Str :=
  match u.write with
  | .complete => some u.uuid.text
  | .untouched => file
  | .partway n => some (u.uuid.text.take n)

/-- `resolve`: the identity, and what the file holds then. -/
def resolve : Str × Option Str :=
  match u.cliOverride with
  | some id => (id, file)
  | none =>
    if u.homeDir = false then (u.uuid.text, file)
    else
      match u.existing file with
      | some id => (id, file)
      | none => if u.createDirAll then (u.uuid.text, u.written file) else (u.uuid.text, file)

/-- The number of errors that `resolve` meets. -/
def errors : Nat :=
  match u.cliOverride with
  | some _ => 0
  | none =>
    if u.homeDir = false then 1
    else (if file.isSome ∧ u.readToString = false then 1 else 0) +
      match u.existing file with
      | some _ => 0
      | none => if u.createDirAll ∧ u.write = .complete then 0 else 1

end Startup

/-- The identities in a sequence of starts; between them the file is left alone. -/
def identities : List Startup → Option Str → List Str
  | [], _ => []
  | u :: us, file => (u.resolve file).1 :: identities us (u.resolve file).2

/-- Those that were given on the command line. -/
def overrides (us : List Startup) : List Str := us.filterMap fun u => u.cliOverride

/-- Those of the other starts. -/
def ownIdentities : List Startup → Option Str → List Str
  | [], _ => []
  | u :: us, file =>
    (if u.cliOverride.isNone then [(u.resolve file).1] else []) ++
      ownIdentities us (u.resolve file).2

/-- The number of errors in a sequence of starts. -/
def totalErrors : List Startup → Option Str → Nat
  | [], _ => 0
  | u :: us, file => u.errors file + totalErrors us (u.resolve file).2

/-! ## One start -/

/-- The identity that is on file. -/
def onFile (file : Option Str) : Finset Str := ((file.map Str.trim).filter (· ≠ [])).toFinset

theorem onFile_card_le (file : Option Str) : (onFile file).card ≤ 1 := by
  unfold onFile
  cases (file.map Str.trim).filter (· ≠ []) with
  | none => exact Nat.zero_le _
  | some id => exact Nat.le_refl _

/-- A UUID that was written is on file. -/
theorem onFile_uuid (uuid : UuidText) : onFile (some uuid.text) = {uuid.text} := by
  unfold onFile
  rw [Option.map_some, Str.trim_eq_self uuid.plain, Option.filter_some_pos (by simp [uuid.ne_nil])]
  rfl

variable {u : Startup} {file : Option Str}

theorem existing_eq_some {id : Str} (h : u.existing file = some id) : id ∈ onFile file := by
  unfold Startup.existing at h
  split at h
  · exact Option.mem_toFinset.mpr h
  · cases h

/-- What is on file and not found was not read. -/
theorem onFile_card_of_existing (h : u.existing file = none) :
    (onFile file).card ≤ if file.isSome ∧ u.readToString = false then 1 else 0 := by
  unfold Startup.existing at h
  split at h
  · unfold onFile
    rw [h]
    exact Nat.zero_le _
  · rename_i hread
    cases file with
    | none => exact Nat.zero_le _
    | some text =>
      rw [if_pos ⟨rfl, by simpa using hread⟩]
      exact onFile_card_le _

/-- One more identity, and those that are on file now. -/
theorem card_insert_union_le (id : Str) (ids A B : Finset Str) :
    (insert id (ids ∪ A)).card ≤ (ids ∪ B).card + A.card + 1 := by
  have hsub : insert id (ids ∪ A) ⊆ insert id ((ids ∪ B) ∪ A) := by
    refine Finset.insert_subset_insert _ (Finset.union_subset_union_left ?_)
    exact Finset.subset_union_left
  calc (insert id (ids ∪ A)).card
      ≤ (insert id ((ids ∪ B) ∪ A)).card := Finset.card_le_card hsub
    _ ≤ ((ids ∪ B) ∪ A).card + 1 := Finset.card_insert_le _ _
    _ ≤ (ids ∪ B).card + A.card + 1 := Nat.add_le_add_right (Finset.card_union_le _ _) 1

/-- What a start adds to the identities is on file before or after it, or it met an
error. -/
theorem card_start_le (h : u.cliOverride = none) (ids : Finset Str) :
    (insert (u.resolve file).1 (ids ∪ onFile file)).card
      ≤ (ids ∪ onFile (u.resolve file).2).card + u.errors file := by
  unfold Startup.resolve Startup.errors
  rw [h]
  dsimp only
  by_cases hhome : u.homeDir = false
  · rw [if_pos hhome, if_pos hhome]
    exact Finset.card_insert_le _ _
  · rw [if_neg hhome, if_neg hhome]
    cases hexisting : u.existing file with
    | some id =>
      have hmem : id ∈ ids ∪ onFile file := Finset.mem_union_right _ (existing_eq_some hexisting)
      rw [Finset.insert_eq_of_mem hmem]
      exact Nat.le_add_right _ _
    | none =>
      have hread := onFile_card_of_existing hexisting
      dsimp only
      by_cases hwritten : u.createDirAll = true ∧ u.write = .complete
      · -- the new identity is on file
        have hfile : u.written file = some u.uuid.text := by
          rw [Startup.written, hwritten.2]
        rw [if_pos hwritten.1, if_pos hwritten]
        dsimp only
        rw [hfile, onFile_uuid]
        have hsub : insert u.uuid.text (ids ∪ onFile file)
            ⊆ (ids ∪ {u.uuid.text}) ∪ onFile file := by
          intro id hid
          simp only [Finset.mem_insert, Finset.mem_union, Finset.mem_singleton] at hid ⊢
          tauto
        have hcard := (Finset.card_le_card hsub).trans (Finset.card_union_le _ _)
        omega
      · rw [if_neg hwritten]
        split
        · have hcard := card_insert_union_le u.uuid.text ids (onFile file)
            (onFile (u.written file))
          dsimp only
          omega
        · have hcard := Finset.card_insert_le u.uuid.text (ids ∪ onFile file)
          dsimp only
          omega

theorem ownIdentities_union_le (us : List Startup) (file : Option Str) :
    ((ownIdentities us file).toFinset ∪ onFile file).card ≤ 1 + totalErrors us file := by
  induction us generalizing file with
  | nil => simpa [ownIdentities, totalErrors] using onFile_card_le file
  | cons u us ih =>
    have hrest := ih (u.resolve file).2
    cases h : u.cliOverride with
    | some id =>
      have hsame : (u.resolve file).2 = file := by
        simp only [Startup.resolve, h]
      rw [hsame] at hrest
      simp only [ownIdentities, totalErrors, h, hsame]
      exact hrest.trans (by omega)
    | none =>
      simp only [ownIdentities, totalErrors, h]
      have hstart : _ ≤ _ + u.errors file :=
        card_start_le h (ownIdentities us (u.resolve file).2).toFinset
      simp only [Option.isNone_none, if_true, List.singleton_append, List.toFinset_cons,
        Finset.insert_union]
      omega

/-- A start with an identity on the command line has this one. -/
theorem identities_subset (us : List Startup) (file : Option Str) :
    (identities us file).toFinset ⊆ (ownIdentities us file).toFinset ∪ (overrides us).toFinset := by
  induction us generalizing file with
  | nil => exact Finset.empty_subset _
  | cons u us ih =>
    rw [identities, List.toFinset_cons]
    refine Finset.insert_subset ?_ ((ih (u.resolve file).2).trans ?_)
    · rw [Finset.mem_union, List.mem_toFinset, List.mem_toFinset]
      cases h : u.cliOverride with
      | some id =>
        have hid : (u.resolve file).1 = id := by
          simp only [Startup.resolve, h]
        rw [hid]
        exact .inr (List.mem_filterMap.mpr ⟨u, List.mem_cons_self .., h⟩)
      | none =>
        refine .inl (List.mem_append_left _ ?_)
        rw [h]
        exact List.mem_singleton_self _
    · intro id hid
      simp only [Finset.mem_union, List.mem_toFinset, overrides, List.mem_filterMap] at hid ⊢
      rcases hid with hown | ⟨v, hv, hid⟩
      · exact .inl (List.mem_append_right _ hown)
      · exact .inr ⟨v, List.mem_cons_of_mem _ hv, hid⟩

/-- **An identity for every error, and one more**: over any sequence of starts, whatever the
file holds at first and however the calls to the system end, the number of identities that
were not given on the command line is at most one more than the number of errors; and so
the number of all is at most that and the number of those given. -/
theorem identities_le (us : List Startup) (file : Option Str) :
    (ownIdentities us file).toFinset.card ≤ 1 + totalErrors us file ∧
      (identities us file).toFinset.card
        ≤ 1 + totalErrors us file + (overrides us).toFinset.card := by
  have hown : (ownIdentities us file).toFinset.card ≤ 1 + totalErrors us file :=
    (Finset.card_le_card Finset.subset_union_left).trans (ownIdentities_union_le us file)
  refine ⟨hown, ?_⟩
  calc (identities us file).toFinset.card
      ≤ ((ownIdentities us file).toFinset ∪ (overrides us).toFinset).card :=
        Finset.card_le_card (identities_subset us file)
    _ ≤ (ownIdentities us file).toFinset.card + (overrides us).toFinset.card :=
        Finset.card_union_le _ _
    _ ≤ 1 + totalErrors us file + (overrides us).toFinset.card := Nat.add_le_add_right hown _

/-- As many as there can be: one is given, one is not written to the file, and one is. -/
example :
    let a : UuidText := ⟨['a'], by decide, List.forall_mem_singleton.mpr (by decide)⟩
    let b : UuidText := ⟨['b'], by decide, List.forall_mem_singleton.mpr (by decide)⟩
    let us : List Startup := [⟨some ['x'], true, true, true, .complete, a⟩,
      ⟨none, true, true, true, .untouched, a⟩, ⟨none, true, true, true, .complete, b⟩]
    (identities us none).toFinset.card = 3 ∧ totalErrors us none = 1 := by
  decide +kernel

end AgentIdentity

end Ocellus
