import Ocellus.Ids.Persistence

/-!
# A baseline across restarts

The phase is held twice: as an enum in memory, and in the file as a `learned_at`
that is not zero. The two agree (`Agrees`) as long as learning ends at a clock
reading that is a second or more past the Unix epoch; the code takes a reading
before the epoch for the epoch, and whole seconds of what is left.

`survives_restarts` is about the runs in which every call that ends the learning
phase reads such a clock. `early_finish_forgets` says that no other call will do:
after it the next process is back in the learning phase.
-/

namespace Ocellus

namespace Host

variable {json : SerdeJson} {lower : Str → Str} {h h' : Host} {c : Call}

/-- If a call ends the learning phase, it reads a clock at least one second past
the epoch. -/
def Call.Timely (h : Host) (c : Call) : Prop := ∀ now ∈ c.endsLearning h, (secs 1 : Int) ≤ now

/-- Processes on one file, from the start of the first one, at whatever clock. -/
def allRuns (json : SerdeJson) (lower : Str → Str) : TransitionSystem Host where
  init h := ∃ file now, h = start json file now
  step h h' := ∃ c, Exec json lower h h' c

/-- The runs whose calls are all timely. -/
def timelyRuns (json : SerdeJson) (lower : Str → Str) : TransitionSystem Host where
  init h := ∃ file now, h = start json file now
  step h h' := ∃ c : Call, c.Timely h ∧ Exec json lower h h' c

/-! ## The phase -/

/-- A baseline in refinement has its `learned_at`, in memory and in the file. -/
def Agrees (json : SerdeJson) (h : Host) : Prop :=
  h.baseline.phase = .refinement → 0 < h.baseline.state.learnedAt ∧
    ∃ s, h.file.bind json.fromStr = some s ∧ 0 < s.learnedAt

theorem start_phase (file : Option Str) (now : Int) :
    (start json file now).baseline.phase = .refinement ↔
      0 < ((file.bind json.fromStr).getD .empty).learnedAt := by
  show (if 0 < _ then Phase.refinement else .learning) = _ ↔ _
  split
  · exact iff_of_true rfl (by assumption)
  · exact iff_of_false nofun (by assumption)

theorem agrees_start (file : Option Str) (now : Int) : Agrees json (start json file now) := by
  intro hphase
  have hlearned := (start_phase file now).mp hphase
  refine ⟨hlearned, ?_⟩
  show ∃ s, file.bind json.fromStr = some s ∧ _
  cases hload : file.bind json.fromStr with
  | none =>
    rw [hload] at hlearned
    exact absurd hlearned (Nat.lt_irrefl 0)
  | some s =>
    rw [hload] at hlearned
    exact ⟨s, rfl, hlearned⟩

/-- What was persisted is in the file. -/
theorem Persists.load (hjson : json.Restores) (hsave : Persists json h h') :
    h'.baseline = h.baseline ∧ h'.file.bind json.fromStr = some h.baseline.state := by
  obtain ⟨text, htext, rfl⟩ := hsave
  exact ⟨rfl, hjson _ _ htext⟩

theorem learnedAt_pos_iff (now : Int) : 0 < asSecs (systemSince now 0) ↔ (secs 1 : Int) ≤ now := by
  rw [asSecs, systemSince, secs, Nat.div_pos_iff]
  omega

/-- The two copies of the phase keep agreeing. -/
theorem Agrees.exec (hjson : json.Restores) (h₀ : Agrees json h) (htimely : c.Timely h)
    (hexec : Exec json lower h h' c) : Agrees json h' := by
  rcases hexec.cases with ⟨now, hends, hphase, hsave⟩ | ⟨-, hsave⟩ | ⟨now, -, rfl⟩ |
    ⟨-, hfile, hphase, hlearned, -⟩
  · obtain ⟨hbaseline, hload⟩ := hsave.load hjson
    have hpos : 0 < (h.baseline.finishLearning now).state.learnedAt := by
      rw [Baseline.finishLearning, if_pos hphase]
      exact (learnedAt_pos_iff now).mpr (htimely now hends)
    intro _
    rw [hbaseline]
    exact ⟨hpos, _, hload, hpos⟩
  · obtain ⟨hbaseline, hload⟩ := hsave.load hjson
    intro hrefinement
    rw [hbaseline] at hrefinement ⊢
    have hpos := (h₀ hrefinement).1
    exact ⟨hpos, _, hload, hpos⟩
  · exact agrees_start h.file now
  · intro hrefinement
    rw [hphase] at hrefinement
    rw [hfile, hlearned]
    exact h₀ hrefinement

/-- No call leads from refinement back to learning. -/
theorem Agrees.phase_exec (h₀ : Agrees json h) (hjson : json.Restores)
    (hrefinement : h.baseline.phase = .refinement) (hexec : Exec json lower h h' c) :
    h'.baseline.phase = .refinement := by
  rcases hexec.cases with ⟨now, -, hphase, -⟩ | ⟨-, hsave⟩ | ⟨now, -, rfl⟩ | ⟨-, -, hphase, -, -⟩
  · rw [hrefinement] at hphase
    cases hphase
  · rw [(hsave.load hjson).1]
    exact hrefinement
  -- the next process reads the phase from the file, where it agrees
  · obtain ⟨-, s, hload, hpos⟩ := h₀ hrefinement
    rw [start_phase, hload]
    exact hpos
  · rw [hphase]
    exact hrefinement

/-! ## What is known -/

/-- The elements of `K` are known, in memory and in the file. -/
def Keeps (json : SerdeJson) (K : Element → Prop) (h : Host) : Prop :=
  (∀ x, K x → h.baseline.Knows x) ∧
    ∃ s, h.file.bind json.fromStr = some s ∧ ∀ x, K x → s.Knows x

theorem knows_finishLearning (now : Int) (b : Baseline) (x : Element) :
    (b.finishLearning now).Knows x ↔ b.Knows x := by
  rw [Baseline.finishLearning]
  split
  · cases x <;> exact Iff.rfl
  · exact Iff.rfl

/-- What is in the file stays known, whatever the clock. -/
theorem Keeps.exec {K : Element → Prop} (hjson : json.Restores) (hkeeps : Keeps json K h)
    (hexec : Exec json lower h h' c) : Keeps json K h' := by
  obtain ⟨hmemory, s, hload, hfileKnows⟩ := hkeeps
  rcases hexec.cases with ⟨now, -, -, hsave⟩ | ⟨-, hsave⟩ | ⟨now, -, rfl⟩ | ⟨-, hfile, -, -, hknows⟩
  · obtain ⟨hbaseline, hload'⟩ := hsave.load hjson
    have hfinished : ∀ x, K x → (h.baseline.finishLearning now).Knows x :=
      fun x hx => (knows_finishLearning now _ x).mpr (hmemory x hx)
    exact ⟨hbaseline ▸ hfinished, _, hload', hfinished⟩
  · obtain ⟨hbaseline, hload'⟩ := hsave.load hjson
    exact ⟨hbaseline ▸ hmemory, _, hload', hmemory⟩
  · refine ⟨fun x hx => ?_, s, hload, hfileKnows⟩
    show ((h.file.bind json.fromStr).getD .empty).Knows x
    rw [hload]
    exact hfileKnows x hx
  · exact ⟨fun x hx => hknows x (hmemory x hx), s, hfile ▸ hload, hfileKnows⟩

/-- After a call that wrote the file, all that is known is in it. -/
theorem keeps_of_saves (hjson : json.Restores) (hsaves : c.Saves h)
    (hexec : Exec json lower h h' c) : Keeps json h'.baseline.Knows h' := by
  have hsaved : ∀ {h₀ : Host}, Persists json h₀ h' → Keeps json h'.baseline.Knows h' := by
    intro h₀ hsave
    obtain ⟨hbaseline, hload⟩ := hsave.load hjson
    exact ⟨fun x hx => hx, _, hload, fun x hx => by rwa [hbaseline] at hx⟩
  rcases hexec.cases with ⟨now, -, -, hsave⟩ | ⟨-, hsave⟩ | ⟨now, rfl, -⟩ | ⟨hidle, -⟩
  · exact hsaved hsave
  · exact hsaved hsave
  · rcases hsaves with hpersist | hends <;> cases ‹_›
  · exact absurd hsaves hidle

/-! ## Runs -/

theorem agrees_of_reachable (hjson : json.Restores) (h₀ : (timelyRuns json lower).Reachable h) :
    Agrees json h := by
  refine h₀.invariant ?_ ?_
  · rintro _ ⟨file, now, rfl⟩
    exact agrees_start file now
  · rintro h h' hagrees ⟨c, htimely, hexec⟩
    exact hagrees.exec hjson htimely hexec

/-- **Knowledge and phase survive restarts** in every run whose calls are timely:
from refinement no later state is in the learning phase, and what was known when a
write of the file was completed is known in every later state. -/
theorem survives_restarts (hjson : json.Restores) (h₀ : (timelyRuns json lower).Reachable h)
    (hleads : (timelyRuns json lower).Leads h h') :
    (h.baseline.phase = .refinement → h'.baseline.phase = .refinement) ∧
      ∀ (c : Call) (hp : Host), c.Saves hp → Exec json lower hp h c →
        ∀ x, h.baseline.Knows x → h'.baseline.Knows x := by
  constructor
  · intro hrefinement
    have hboth : Agrees json h' ∧ h'.baseline.phase = .refinement := by
      refine hleads.invariant (P := fun h => Agrees json h ∧ h.baseline.phase = .refinement) ?_
        ⟨agrees_of_reachable hjson h₀, hrefinement⟩
      rintro h₁ h₂ ⟨hagrees, hphase⟩ ⟨c, htimely, hexec⟩
      exact ⟨hagrees.exec hjson htimely hexec, hagrees.phase_exec hjson hphase hexec⟩
    exact hboth.2
  · intro c hp hsaves hexec
    have hkeeps : Keeps json h.baseline.Knows h' := by
      refine hleads.invariant ?_ (keeps_of_saves hjson hsaves hexec)
      rintro h₁ h₂ hkeeps ⟨c', -, hexec'⟩
      exact hkeeps.exec hjson hexec'
    exact hkeeps.1

/-- A process that knows the port 443 and is learning. -/
def learning (now : Int) : Host :=
  ⟨.new (some (SerdeJson.sampleState 0)) now, some (SerdeJson.sampleText 0)⟩

/-- The same process once it has finished learning, a second past the epoch. -/
def learned : Host :=
  ⟨(learning 0).baseline.finishLearning (secs 1), some (SerdeJson.sampleText 1)⟩

theorem start_sampleText_zero (now : Int) :
    start .sample (some (SerdeJson.sampleText 0)) now = learning now := by
  rw [start, Option.bind_some, SerdeJson.sample_restores _ _ (.inl ⟨rfl, rfl⟩), learning]

/-- A process that learns, and its successor. -/
theorem survives_restarts_learned :
    (learned.baseline.phase = .refinement →
      (start .sample learned.file 7).baseline.phase = .refinement) ∧
    ∀ (c : Call) (hp : Host), c.Saves hp → Exec .sample id hp learned c →
      ∀ x, learned.baseline.Knows x → (start .sample learned.file 7).baseline.Knows x := by
  have hinit : (timelyRuns .sample id).Reachable (learning 0) :=
    .of_init ⟨some (SerdeJson.sampleText 0), 0, (start_sampleText_zero 0).symm⟩
  have hfinish : (timelyRuns .sample id).step (learning 0) learned :=
    ⟨.finishLearning (secs 1), fun now hnow => (Option.some.inj hnow).le,
      SerdeJson.sampleText 1, .inr ⟨rfl, rfl⟩, rfl⟩
  have hrestart : (timelyRuns .sample id).step learned (start .sample learned.file 7) :=
    ⟨.restart 7, nofun, rfl⟩
  exact survives_restarts SerdeJson.sample_restores (hinit.step hfinish) (.single hrestart)

/-! ## Too early on the clock -/

/-- After a call that ends learning too early on the clock the process is in
refinement, and its successor in the learning phase. -/
theorem early_finish_forgets (hjson : json.Restores) {now now' : Int}
    (hends : c.endsLearning h = some now) (hearly : now < secs 1)
    (hexec : Exec json lower h h' c) :
    h'.baseline.phase = .refinement ∧ (start json h'.file now').baseline.phase = .learning := by
  rcases hexec.cases with ⟨now₀, hends₀, hphase, hsave⟩ | ⟨rfl, -⟩ | ⟨now₀, rfl, -⟩ | ⟨hidle, -⟩
  · obtain rfl : now₀ = now := Option.some.inj (hends₀.symm.trans hends)
    obtain ⟨hbaseline, hload⟩ := hsave.load hjson
    constructor
    · rw [hbaseline]
      show (h.baseline.finishLearning now₀).phase = .refinement
      rw [Baseline.finishLearning, if_pos hphase]
    · -- the reading is rounded down to 0 seconds
      have hzero : ¬ 0 < (h.baseline.finishLearning now₀).state.learnedAt := by
        rw [Baseline.finishLearning, if_pos hphase]
        exact fun hpos => absurd ((learnedAt_pos_iff now₀).mp hpos) (not_le.mpr hearly)
      cases hstart : (start json h'.file now').baseline.phase with
      | learning => rfl
      | refinement =>
        rw [start_phase, hload] at hstart
        exact absurd hstart hzero
  · cases hends
  · cases hends
  · exact absurd (.inr (by rw [hends]; rfl)) hidle

/-- **Refinement is forgotten**: the process starts 31 minutes before the epoch, by
its clock, and finishes learning at the epoch; its successor learns again. -/
theorem restart_forgets_refinement :
    SerdeJson.sample.Restores ∧ ∃ h h', (allRuns .sample id).Reachable h ∧
      (allRuns .sample id).Leads h h' ∧
      h.baseline.phase = .refinement ∧ h'.baseline.phase = .learning := by
  let late : Int := -(secs (31 * 60))
  let finished : Host := ⟨(learning late).baseline.finishLearning 0, some (SerdeJson.sampleText 0)⟩
  have hinit : (allRuns .sample id).Reachable (learning late) :=
    .of_init ⟨some (SerdeJson.sampleText 0), late, (start_sampleText_zero late).symm⟩
  have hends : (Call.tickPhase 0 0).endsLearning (learning late) = some 0 := by decide
  have htick : Exec .sample id (learning late) finished (.tickPhase 0 0) :=
    ⟨SerdeJson.sampleText 0, .inl ⟨rfl, rfl⟩, rfl⟩
  have hforgets : finished.baseline.phase = .refinement ∧
      (start .sample finished.file 0).baseline.phase = .learning :=
    early_finish_forgets SerdeJson.sample_restores hends (by decide) htick
  exact ⟨SerdeJson.sample_restores, finished, _, hinit.step ⟨_, htick⟩, .single ⟨.restart 0, rfl⟩,
    hforgets⟩

end Host

end Ocellus
