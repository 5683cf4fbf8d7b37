import Ocellus.Base.Fault

/-!
# Clocked components with a background sweep

A component holds a state, answers calls that read the clock once, and is swept
from time to time by another thread, which may only drop what it holds. This
module has the two ways in which such a component is observed:

- `Run`: the histories of a component, as traces of calls with their answers
  and of sweeps, at times that never decrease. `Run.project` is the rule for
  looking at one part of a component (one key of a table, say) as a component
  of its own.
- `answers`: what a sequence of calls is answered, as a function.
  `answers_erase_sweeps` is the rule for proving that sweeps are unobservable:
  a simulation between the swept and the unswept state that time preserves.
-/

namespace Ocellus

universe u

/-- A component with states `σ`, call arguments `α` and answers `ο`. -/
structure Component (σ α ο : Type u) where
  inspect : Nat → α → σ → Checked (ο × σ)
  sweep : Nat → σ → σ

/-- What a component can be asked to do, and when. -/
inductive Event (α : Type u) : Type u where
  | inspect (t : Nat) (a : α)
  | sweep (t : Nat)
  deriving DecidableEq, Repr

namespace Event

variable {α : Type u}

def time : Event α → Nat
  | .inspect t _ => t
  | .sweep t => t

@[simp] theorem time_inspect (t : Nat) (a : α) : (inspect t a).time = t := rfl
@[simp] theorem time_sweep (t : Nat) : (sweep t : Event α).time = t := rfl

def isInspect : Event α → Bool
  | .inspect _ _ => true
  | .sweep _ => false

end Event

/-- What happened in a run: a call with its answer, or a sweep. -/
inductive Entry (α ο : Type u) : Type u where
  | inspect (t : Nat) (a : α) (o : ο)
  | sweep (t : Nat)
  deriving DecidableEq, Repr

namespace Entry

variable {α ο α' ο' : Type u}

def time : Entry α ο → Nat
  | .inspect t _ _ => t
  | .sweep t => t

/-- The event behind an entry. -/
def event : Entry α ο → Event α
  | .inspect t a _ => .inspect t a
  | .sweep t => .sweep t

@[simp] theorem event_time (e : Entry α ο) : e.event.time = e.time := by cases e <;> rfl

/-- A trace whose last event is a call ends in an answered call. -/
theorem exists_of_map_event {tr : List (Entry α ο)} {es : List (Event α)} {t : Nat} {a : α}
    (h : tr.map event = es ++ [.inspect t a]) :
    ∃ pre o, tr = pre ++ [.inspect t a o] ∧ pre.map event = es := by
  obtain ⟨pre, last, rfl, hpre, hlast⟩ := List.map_eq_append_iff.mp h
  obtain ⟨e, rfl, he⟩ := List.map_eq_singleton_iff.mp hlast
  cases e with
  | inspect t' a' o =>
    cases he
    exact ⟨pre, o, rfl, hpre⟩
  | sweep t' => cases he

/-- The part of an entry that `sel` selects; every part sees every sweep. -/
def project (sel : α → ο → Option (α' × ο')) : Entry α ο → Option (Entry α' ο')
  | .inspect t a o => (sel a o).map fun p => .inspect t p.1 p.2
  | .sweep t => some (.sweep t)

/-- Selecting a part of a part. -/
theorem filterMap_project {α'' ο'' : Type u} (sel : α → ο → Option (α' × ο'))
    (sel' : α' → ο' → Option (α'' × ο'')) (tr : List (Entry α ο)) :
    (tr.filterMap (project sel)).filterMap (project sel')
      = tr.filterMap (project fun a o => (sel a o).bind fun p => sel' p.1 p.2) := by
  rw [List.filterMap_filterMap]
  refine List.filterMap_congr fun e _ => ?_
  cases e with
  | inspect t a o => cases h : sel a o <;> simp [project, h]
  | sweep t => rfl

end Entry

namespace Component

variable {σ α ο σ' α' ο' : Type u}

/-- The runs of a component from `s₀`: the trace so far, the time of its last
entry, and the state reached. -/
inductive Run (C : Component σ α ο) (s₀ : σ) : List (Entry α ο) → Nat → σ → Prop where
  | nil : Run C s₀ [] 0 s₀
  | inspect {tr : List (Entry α ο)} {c t : Nat} {s s' : σ} {a : α} {o : ο} :
      Run C s₀ tr c s → c ≤ t → C.inspect t a s = .ok (o, s') →
      Run C s₀ (tr ++ [.inspect t a o]) t s'
  | sweep {tr : List (Entry α ο)} {c t : Nat} {s : σ} :
      Run C s₀ tr c s → c ≤ t → Run C s₀ (tr ++ [.sweep t]) t (C.sweep t s)

/-- What happens from `s` on, if it is asked for `es`, and the state it ends in, or the
first fault. -/
def perform (C : Component σ α ο) : σ → List (Event α) → Checked (List (Entry α ο) × σ)
  | s, [] => .ok ([], s)
  | s, .inspect t a :: es => do
    let (o, s) ← C.inspect t a s
    let (tr, s) ← perform C s es
    return (.inspect t a o :: tr, s)
  | s, .sweep t :: es => do
    let (tr, s) ← perform C (C.sweep t s) es
    return (.sweep t :: tr, s)

namespace Run

variable {C : Component σ α ο} {s₀ s : σ} {tr : List (Entry α ο)} {c : Nat}

/-- No entry of a run lies after its clock. -/
theorem time_le (h : C.Run s₀ tr c s) : ∀ e ∈ tr, e.time ≤ c := by
  induction h with
  | nil => intro e he; cases he
  | inspect _ hc _ ih =>
    intro e he
    rcases List.mem_append.mp he with he | he
    · exact Nat.le_trans (ih e he) hc
    · rw [List.mem_singleton.mp he]
      exact Nat.le_refl _
  | sweep _ hc ih =>
    intro e he
    rcases List.mem_append.mp he with he | he
    · exact Nat.le_trans (ih e he) hc
    · rw [List.mem_singleton.mp he]
      exact Nat.le_refl _

/-- The clock is the time of the last entry. -/
theorem clock_zero_or_mem (h : C.Run s₀ tr c s) : c = 0 ∨ ∃ e ∈ tr, e.time = c := by
  cases h with
  | nil => exact .inl rfl
  | inspect _ _ _ => exact .inr ⟨_, List.mem_append_right _ (List.mem_singleton_self _), rfl⟩
  | sweep _ _ => exact .inr ⟨_, List.mem_append_right _ (List.mem_singleton_self _), rfl⟩

/-- Every prefix of a trace is the trace of a run. -/
theorem of_prefix (h : C.Run s₀ tr c s) :
    ∀ {pre post : List (Entry α ο)}, tr = pre ++ post → ∃ c' s', C.Run s₀ pre c' s' := by
  induction h with
  | nil =>
    intro pre post heq
    obtain ⟨rfl, -⟩ := List.append_eq_nil_iff.mp heq.symm
    exact ⟨0, s₀, .nil⟩
  | inspect hrun hc hstep ih =>
    intro pre post heq
    rcases List.eq_nil_or_concat post with rfl | ⟨post, e, rfl⟩
    · rw [List.append_nil] at heq
      exact heq ▸ ⟨_, _, .inspect hrun hc hstep⟩
    · rw [List.concat_eq_append, ← List.append_assoc] at heq
      exact ih (List.append_inj_left' heq rfl)
  | sweep hrun hc ih =>
    intro pre post heq
    rcases List.eq_nil_or_concat post with rfl | ⟨post, e, rfl⟩
    · rw [List.append_nil] at heq
      exact heq ▸ ⟨_, _, .sweep hrun hc⟩
    · rw [List.concat_eq_append, ← List.append_assoc] at heq
      exact ih (List.append_inj_left' heq rfl)

/-- The last call of a trace, with the run that led to it. -/
theorem inspect_inv {t : Nat} {a : α} {o : ο}
    (h : C.Run s₀ (tr ++ [.inspect t a o]) c s) :
    ∃ c' s', C.Run s₀ tr c' s' ∧ c' ≤ t ∧ C.inspect t a s' = .ok (o, s) := by
  generalize htr : tr ++ [Entry.inspect t a o] = tr' at h
  cases h with
  | nil => simp at htr
  | inspect hrun hc hstep =>
    obtain ⟨rfl, he⟩ := List.append_inj' htr rfl
    cases he
    exact ⟨_, _, hrun, hc, hstep⟩
  | sweep hrun hc =>
    have he := (List.append_inj' htr rfl).2
    cases he

/-- The clock of a run that ends in a call is the time of the call. -/
theorem clock_eq {t : Nat} {a : α} {o : ο} (h : C.Run s₀ (tr ++ [.inspect t a o]) c s) :
    c = t := by
  generalize htr : tr ++ [Entry.inspect t a o] = tr' at h
  cases h with
  | nil => simp at htr
  | inspect _ _ _ =>
    cases (List.append_inj' htr rfl).2
    rfl
  | sweep _ _ => cases (List.append_inj' htr rfl).2

/-- The run up to and including any entry of a trace. -/
theorem upto {pre post : List (Entry α ο)} {e : Entry α ο} (h : C.Run s₀ tr c s)
    (htr : tr = pre ++ e :: post) : ∃ c' s', C.Run s₀ (pre ++ [e]) c' s' := by
  have hsplit : tr = (pre ++ [e]) ++ post := by
    rw [htr, List.append_assoc]
    rfl
  exact h.of_prefix hsplit

/-- A component none of whose calls can fail has a run for every sequence of
events in order. -/
theorem exists_of_total (s₀ : σ) (htotal : ∀ t a s, ∃ p, C.inspect t a s = .ok p) :
    ∀ {es : List (Event α)}, es.Pairwise (fun e e' => e.time ≤ e'.time) →
      ∃ tr c s, C.Run s₀ tr c s ∧ tr.map Entry.event = es := by
  intro es
  induction es using List.reverseRecOn with
  | nil => exact fun _ => ⟨[], 0, s₀, .nil, rfl⟩
  | append_singleton es e ih =>
    intro hmono
    obtain ⟨hmono, -, hlast⟩ := List.pairwise_append.mp hmono
    obtain ⟨tr, c, s, hrun, hmap⟩ := ih hmono
    have hc : c ≤ e.time := by
      rcases hrun.clock_zero_or_mem with rfl | ⟨e', he', rfl⟩
      · exact Nat.zero_le _
      · have : e'.event ∈ es := hmap ▸ List.mem_map_of_mem he'
        simpa using hlast _ this e (List.mem_singleton_self e)
    cases e with
    | inspect t a =>
      obtain ⟨⟨o, s'⟩, hstep⟩ := htotal t a s
      exact ⟨_, _, _, hrun.inspect hc hstep, by simp [hmap, Entry.event]⟩
    | sweep t => exact ⟨_, _, _, hrun.sweep hc, by simp [hmap, Entry.event]⟩

/-- The events of `es` continue a run, if none of its calls fails. -/
theorem perform (h : C.Run s₀ tr c s) {es : List (Event α)} {rest : List (Entry α ο)} {s' : σ}
    (hlater : ∀ e ∈ es, c ≤ e.time) (hmono : es.Pairwise fun e e' => e.time ≤ e'.time)
    (hperform : C.perform s es = .ok (rest, s')) : ∃ c', C.Run s₀ (tr ++ rest) c' s' := by
  induction es generalizing tr c s rest with
  | nil =>
    cases hperform
    exact ⟨c, by simpa using h⟩
  | cons e es ih =>
    obtain ⟨hhead, htail⟩ := List.pairwise_cons.mp hmono
    have hc : c ≤ e.time := hlater e (List.mem_cons_self ..)
    cases e with
    | inspect t a =>
      obtain ⟨⟨o, s₁⟩, hcall, hperform⟩ := Checked.bind_eq_ok.mp hperform
      obtain ⟨⟨rest, s₂⟩, hrest, hperform⟩ := Checked.bind_eq_ok.mp hperform
      cases hperform
      obtain ⟨c', hrun⟩ := ih (h.inspect hc hcall) hhead htail hrest
      exact ⟨c', by simpa using hrun⟩
    | sweep t =>
      obtain ⟨⟨rest, s₂⟩, hrest, hperform⟩ := Checked.bind_eq_ok.mp hperform
      cases hperform
      obtain ⟨c', hrun⟩ := ih (h.sweep hc) hhead htail hrest
      exact ⟨c', by simpa using hrun⟩

/-- **Projection**: if `view` follows the calls that `sel` selects as the
component `C'` does, and ignores the others, then every run of `C` is, seen
through `view`, a run of `C'`. -/
theorem project {C' : Component σ' α' ο'} (view : σ → σ')
    (sel : α → ο → Option (α' × ο'))
    (hskip : ∀ {t a s o s'}, C.inspect t a s = .ok (o, s') → sel a o = none →
      view s' = view s)
    (hcall : ∀ {t a s o s' a' o'}, C.inspect t a s = .ok (o, s') →
      sel a o = some (a', o') → C'.inspect t a' (view s) = .ok (o', view s'))
    (hsweep : ∀ t s, view (C.sweep t s) = C'.sweep t (view s))
    (h : C.Run s₀ tr c s) :
    ∃ c' ≤ c, C'.Run (view s₀) (tr.filterMap (Entry.project sel)) c' (view s) := by
  induction h with
  | nil => exact ⟨0, Nat.le_refl _, .nil⟩
  | @inspect tr c t s s' a o _ hc hstep ih =>
    obtain ⟨c', hc', hrun⟩ := ih
    -- the clock of the projection stands still while calls are skipped
    cases hsel : sel a o with
    | none =>
      refine ⟨c', Nat.le_trans hc' hc, ?_⟩
      rw [hskip hstep hsel]
      simpa [Entry.project, hsel] using hrun
    | some p =>
      refine ⟨t, Nat.le_refl _, ?_⟩
      have := Run.inspect hrun (Nat.le_trans hc' hc) (hcall hstep hsel)
      simpa [Entry.project, hsel] using this
  | @sweep tr c t s _ hc ih =>
    obtain ⟨c', hc', hrun⟩ := ih
    refine ⟨t, Nat.le_refl _, ?_⟩
    rw [hsweep]
    simpa [Entry.project] using Run.sweep hrun (Nat.le_trans hc' hc)

end Run

/-! ## Answers to a sequence of calls -/

/-- The answers to the calls of `es`, in order, or the first fault. -/
def answers (C : Component σ α ο) : σ → List (Event α) → Checked (List ο)
  | _, [] => .ok []
  | s, .inspect t a :: es => do
    let (o, s') ← C.inspect t a s
    let os ← answers C s' es
    return o :: os
  | s, .sweep t :: es => answers C (C.sweep t s) es

/-- Two calls agree up to `obs`: both fail the same way, or both return, with
answers that `obs` does not tell apart and states related by `R`. -/
def Agree {ρ : Type u} (obs : ο → ρ) (R : σ → σ → Prop) :
    Checked (ο × σ) → Checked (ο × σ) → Prop
  | .ok (o, s), .ok (o', s') => obs o = obs o' ∧ R s s'
  | .error f, .error f' => f = f'
  | _, _ => False

/-- Calls that agree fail together, or return together. -/
theorem Agree.cases {ρ : Type u} {obs : ο → ρ} {R : σ → σ → Prop} {x x' : Checked (ο × σ)}
    (h : Agree obs R x x') :
    (∃ f, x = .error f ∧ x' = .error f) ∨
      ∃ p p', x = .ok p ∧ x' = .ok p' ∧ obs p.1 = obs p'.1 ∧ R p.2 p'.2 := by
  cases x with
  | error f =>
    cases x' with
    | error f' =>
      obtain rfl : f = f' := h
      exact .inl ⟨f, rfl, rfl⟩
    | ok p' => exact h.elim
  | ok p =>
    cases x' with
    | error f' => exact h.elim
    | ok p' => exact .inr ⟨p, p', rfl, rfl, h⟩

/-- The observed answers to a call and the events after it. -/
theorem answers_inspect_map {ρ : Type u} (C : Component σ α ο) (obs : ο → ρ) (s : σ) (t : Nat)
    (a : α) (es : List (Event α)) :
    (C.answers s (.inspect t a :: es)).map (List.map obs)
      = (C.inspect t a s).bind fun p =>
          ((C.answers p.2 es).map (List.map obs)).map (obs p.1 :: ·) := by
  show Except.map _ ((C.inspect t a s).bind fun p => (C.answers p.2 es).bind fun os =>
    .ok (p.1 :: os)) = _
  cases C.inspect t a s with
  | error f => rfl
  | ok p =>
    show Except.map _ ((C.answers p.2 es).bind fun os => .ok (p.1 :: os))
      = ((C.answers p.2 es).map (List.map obs)).map (obs p.1 :: ·)
    cases C.answers p.2 es with
    | error f => rfl
    | ok os => rfl

/-- **Unobservable sweeps**: let `Sim c s s'` relate a swept state `s` and an
unswept state `s'` at time `c`. If it survives the passing of time and a sweep
of `s`, and calls on related states agree up to `obs`, then deleting every sweep
from a sequence of events changes no observed answer. -/
theorem answers_erase_sweeps {ρ : Type u} (C : Component σ α ο) (obs : ο → ρ)
    (Sim : Nat → σ → σ → Prop)
    (hsweep : ∀ {c t s s'}, Sim c s s' → c ≤ t → Sim t (C.sweep t s) s')
    (hcall : ∀ {c t s s'} (a : α), Sim c s s' → c ≤ t →
      Agree obs (Sim t) (C.inspect t a s) (C.inspect t a s')) :
    ∀ (es : List (Event α)) {c : Nat} {s s' : σ}, Sim c s s' →
      (∀ e ∈ es, c ≤ e.time) → es.Pairwise (fun e e' => e.time ≤ e'.time) →
      (C.answers s es).map (List.map obs)
        = (C.answers s' (es.filter Event.isInspect)).map (List.map obs) := by
  intro es
  induction es with
  | nil =>
    intro c s s' _ _ _
    rfl
  | cons e es ih =>
    intro c s s' hsim hc hmono
    obtain ⟨hhead, htail⟩ := List.pairwise_cons.mp hmono
    have hle : c ≤ e.time := hc e (List.mem_cons_self ..)
    cases e with
    | sweep t => exact ih (hsweep hsim hle) hhead htail
    | inspect t a =>
      show (C.answers s (.inspect t a :: es)).map _
        = (C.answers s' (.inspect t a :: es.filter Event.isInspect)).map _
      rw [answers_inspect_map, answers_inspect_map]
      rcases (hcall a hsim hle).cases with ⟨f, h, h'⟩ | ⟨p, p', h, h', hobs, hsim'⟩
      · rw [show C.inspect t a s = .error f from h, show C.inspect t a s' = .error f from h']
        rfl
      · rw [show C.inspect t a s = .ok p from h, show C.inspect t a s' = .ok p' from h']
        -- the rest of the calls agree by induction; put the heads back on
        show ((C.answers p.2 es).map _).map (obs p.1 :: ·)
          = ((C.answers p'.2 (es.filter Event.isInspect)).map _).map (obs p'.1 :: ·)
        rw [ih hsim' hhead htail, hobs]

end Component

end Ocellus
