import Ocellus.Ids.Persistence

/-!
# What a failed `persist` leaves

`std::fs::write` truncates the file and then writes the new text into it, and
`persist` only warns when that fails. `WriteStops` is the ways in which it can
end, by an error or with the process: before the file is touched, or with some of
the text written, possibly in the middle of a character.

The next process finds the old baseline, the new one, or an empty one, and which of
them depends on how far the write came (`after_failed_persist`).
-/

namespace Ocellus

namespace Host

variable {json : SerdeJson}

/-- How writing `text` over a file may end, successfully or not. -/
inductive WriteStops (old : Option Str) (text : Str) : Option Str → Prop where
  /-- The file could not be opened, or the process ended before that. -/
  | untouched : WriteStops old text old
  /-- The file was truncated, and a part of the text written. -/
  | partway {p : Str} : p <+: text → WriteStops old text (some p)
  /-- The same, within a character: the file is not text. -/
  | torn {p rest : Str} {c : Char} : text = p ++ c :: rest → 1 < c.utf8Size →
      WriteStops old text none

/-- The baseline that the next process finds is that of a state. -/
def Finds (json : SerdeJson) (file : Option Str) (s : BaselineState) : Prop :=
  ∀ now, (start json file now).baseline = .new (some s) now

/-- The next process finds nothing, and starts in the learning phase with an empty
state. -/
def FindsNothing (json : SerdeJson) (file : Option Str) : Prop :=
  ∀ now, (start json file now).baseline.state = .empty ∧
    (start json file now).baseline.phase = .learning

theorem findsNothing_of_load {file : Option Str} (h : file.bind json.fromStr = none) :
    FindsNothing json file := by
  intro now
  rw [start, h]
  exact ⟨rfl, rfl⟩

theorem finds_of_load {file : Option Str} {s : BaselineState}
    (h : file.bind json.fromStr = some s) : Finds json file s := by
  intro now
  rw [start, h]

/-- **What survives a failed persist**: the old baseline if the file was not
touched, the new one if all of the text was written, and otherwise nothing. -/
theorem after_failed_persist (hjson : json.Restores) (hrejects : json.RejectsPrefixes)
    {s₀ s₁ : BaselineState} {text₀ text₁ : Str} (h₀ : json.ToStringPretty s₀ text₀)
    (h₁ : json.ToStringPretty s₁ text₁) {file : Option Str}
    (hstops : WriteStops (some text₀) text₁ file) :
    (file = some text₀ → Finds json file s₀) ∧ (file = some text₁ → Finds json file s₁) ∧
      (file ≠ some text₀ → file ≠ some text₁ → FindsNothing json file) := by
  refine ⟨?_, ?_, fun hne₀ hne₁ => ?_⟩
  · rintro rfl
    exact finds_of_load (hjson s₀ text₀ h₀)
  · rintro rfl
    exact finds_of_load (hjson s₁ text₁ h₁)
  · cases hstops with
    | untouched => exact absurd rfl hne₀
    | partway hp =>
      exact findsNothing_of_load (hrejects s₁ text₁ _ h₁ hp fun heq => hne₁ (congrArg some heq))
    | torn _ _ => exact findsNothing_of_load rfl

/-- What has been learned is written over the state before that: with nothing written yet,
untouched, and with all of the text written. -/
theorem after_failed_persist_learned :
    SerdeJson.sampleState 0 ≠ SerdeJson.sampleState 1 ∧ FindsNothing .sample (some []) ∧
      Finds .sample (some (SerdeJson.sampleText 0)) (SerdeJson.sampleState 0) ∧
      Finds .sample (some (SerdeJson.sampleText 1)) (SerdeJson.sampleState 1) := by
  have hpersist {file : Option Str} :=
    @after_failed_persist .sample SerdeJson.sample_restores SerdeJson.sample_rejectsPrefixes
      (SerdeJson.sampleState 0) (SerdeJson.sampleState 1) (SerdeJson.sampleText 0)
      (SerdeJson.sampleText 1) (.inl ⟨rfl, rfl⟩) (.inr ⟨rfl, rfl⟩) file
  refine ⟨fun h => ?_, ?_, ?_, ?_⟩
  · exact absurd (congrArg BaselineState.learnedAt h) (by decide)
  · have hempty (n : Nat) : some [] ≠ some (SerdeJson.sampleText n) := fun h =>
      SerdeJson.sampleText_ne_nil n (Option.some.inj h).symm
    exact (hpersist (.partway (List.nil_prefix ..))).2.2 (hempty 0) (hempty 1)
  · exact (hpersist .untouched).1 rfl
  · exact (hpersist (.partway (List.prefix_refl _))).2.1 rfl

/-- **A baseline is lost**: it has learned, and is being rewritten as it is; the
process ends when the file has been truncated. Neither the old state nor the new
one is found. -/
theorem truncated_file_loses_baseline :
    SerdeJson.sample.Restores ∧ SerdeJson.sample.RejectsPrefixes ∧
    ∃ file, WriteStops (some (SerdeJson.sampleText 1)) (SerdeJson.sampleText 1) file ∧
      ¬ Finds .sample file (SerdeJson.sampleState 1) ∧ FindsNothing .sample file := by
  have hrejected : SerdeJson.sample.fromStr [] = none :=
    SerdeJson.sample_rejectsPrefixes _ _ [] (.inr ⟨rfl, rfl⟩) (List.nil_prefix ..)
      (SerdeJson.sampleText_ne_nil 1).symm
  have hnothing : FindsNothing .sample (some []) := findsNothing_of_load hrejected
  refine ⟨SerdeJson.sample_restores, SerdeJson.sample_rejectsPrefixes, some [],
    .partway (List.nil_prefix ..), fun hfinds => ?_, hnothing⟩
  have hphase := (hnothing 0).2
  rw [hfinds 0] at hphase
  cases hphase

end Host

end Ocellus
