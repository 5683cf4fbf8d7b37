import Ocellus.Base.Component

/-!
# Isolation

A component that many parties call keeps one of them *isolated* when the answers
to that party's calls depend on its own calls and on the sweeps alone, whatever
the others do in between: two runs that agree on the party's part agree on its
answers.

`Unwinding` reduces this to one step: a `view` of the state that the others'
calls leave alone, and that determines what the party's own calls and the sweeps
make of it. `Unwinding.isolates` is the rule.
-/

namespace Ocellus

universe u

variable {σ α ο ρ ν : Type u}

/-- The event is a sweep, or a call in `mine`. -/
def Event.concerns (mine : α → Bool) : Event α → Bool
  | .inspect _ a => mine a
  | .sweep _ => true

namespace Entry

/-- What an observer of `obs` sees of an entry. -/
def observe (obs : ο → ρ) : Entry α ο → Entry α ρ
  | .inspect t a o => .inspect t a (obs o)
  | .sweep t => .sweep t

/-- The entries of a trace that are sweeps or calls in `mine`. -/
def partOf (mine : α → Bool) (tr : List (Entry α ο)) : List (Entry α ο) :=
  tr.filter fun e => e.event.concerns mine

/-- The events behind a part are a part of the events. -/
theorem map_event_partOf (mine : α → Bool) (tr : List (Entry α ο)) :
    (partOf mine tr).map event = (tr.map event).filter (Event.concerns mine) := by
  unfold partOf
  rw [List.filter_map]
  rfl

theorem partOf_concat (mine : α → Bool) (tr : List (Entry α ο)) (e : Entry α ο) :
    partOf mine (tr ++ [e]) = partOf mine tr ++ if e.event.concerns mine then [e] else [] := by
  unfold partOf
  rw [List.filter_append]
  cases h : e.event.concerns mine <;> simp [h]

end Entry

namespace Component

open Entry (partOf observe)

/-- Two runs from `s₀` with the same calls in `mine`, at the same times and
between the same sweeps, answer these calls alike up to `obs`, and would answer
or fail the next such call alike. -/
def Isolates (C : Component σ α ο) (s₀ : σ) (mine : α → Bool) (obs : ο → ρ) : Prop :=
  ∀ ⦃tr tr' : List (Entry α ο)⦄ ⦃c c' : Nat⦄ ⦃s s' : σ⦄,
    C.Run s₀ tr c s → C.Run s₀ tr' c' s' →
    (tr.map Entry.event).filter (Event.concerns mine)
      = (tr'.map Entry.event).filter (Event.concerns mine) →
    (partOf mine tr).map (observe obs) = (partOf mine tr').map (observe obs) ∧
      ∀ t a, mine a = true →
        (C.inspect t a s).map (fun p => obs p.1) = (C.inspect t a s').map fun p => obs p.1

/-- The step conditions: calls outside `mine` keep the view, and the view is all
that the answers to calls in `mine`, and the next view, depend on. -/
structure Unwinding (C : Component σ α ο) (mine : α → Bool) (obs : ο → ρ) (view : σ → ν) :
    Prop where
  skip : ∀ {t a s o s'}, mine a = false → C.inspect t a s = .ok (o, s') → view s' = view s
  call : ∀ t {a s s'}, mine a = true → view s = view s' →
    (C.inspect t a s).map (fun p => (obs p.1, view p.2))
      = (C.inspect t a s').map fun p => (obs p.1, view p.2)
  sweep : ∀ t {s s'}, view s = view s' → view (C.sweep t s) = view (C.sweep t s')

/-- The part of a run that an observer of `view` and `obs` sees: its events,
what they look like, and the view reached. -/
inductive Seen (C : Component σ α ο) (s₀ : σ) (mine : α → Bool) (obs : ο → ρ) (view : σ → ν) :
    List (Event α) → List (Entry α ρ) → ν → Prop where
  | nil : Seen C s₀ mine obs view [] [] (view s₀)
  | inspect {es : List (Event α)} {tr : List (Entry α ρ)} {t : Nat} {a : α} {s s' : σ} {o : ο} :
      Seen C s₀ mine obs view es tr (view s) → mine a = true → C.inspect t a s = .ok (o, s') →
      Seen C s₀ mine obs view (es ++ [.inspect t a]) (tr ++ [.inspect t a (obs o)]) (view s')
  | sweep {es : List (Event α)} {tr : List (Entry α ρ)} {t : Nat} {s : σ} :
      Seen C s₀ mine obs view es tr (view s) →
      Seen C s₀ mine obs view (es ++ [.sweep t]) (tr ++ [.sweep t]) (view (C.sweep t s))

variable {C : Component σ α ο} {s₀ : σ} {mine : α → Bool} {obs : ο → ρ} {view : σ → ν}

/-- Equal observed answers, with equal views after them, of calls that return. -/
theorem Unwinding.call_ok (h : Unwinding C mine obs view) {t : Nat} {a : α} {s₁ s₁' s₂ s₂' : σ}
    {o₁ o₂ : ο} (ha : mine a = true) (hview : view s₁ = view s₂)
    (h₁ : C.inspect t a s₁ = .ok (o₁, s₁')) (h₂ : C.inspect t a s₂ = .ok (o₂, s₂')) :
    obs o₁ = obs o₂ ∧ view s₁' = view s₂' := by
  have hcall := h.call t ha hview
  rw [h₁, h₂] at hcall
  exact Prod.mk.inj (Except.ok.inj hcall)

/-- The observed events determine everything the observer sees. -/
theorem Unwinding.seen_deterministic (h : Unwinding C mine obs view) {es : List (Event α)}
    {tr tr' : List (Entry α ρ)} {v v' : ν} (hseen : Seen C s₀ mine obs view es tr v) :
    Seen C s₀ mine obs view es tr' v' → tr = tr' ∧ v = v' := by
  induction hseen generalizing tr' v' with
  | nil =>
    intro hseen'
    generalize hes : ([] : List (Event α)) = es' at hseen'
    cases hseen' with
    | nil => exact ⟨rfl, rfl⟩
    | inspect _ _ _ => simp at hes
    | sweep _ => simp at hes
  | @inspect es tr t a s s' o _ ha hstep ih =>
    intro hseen'
    generalize hes : es ++ [Event.inspect t a] = es' at hseen'
    cases hseen' with
    | nil => simp at hes
    | inspect hseen₂ _ hstep₂ =>
      obtain ⟨rfl, hlast⟩ := List.append_inj' hes rfl
      cases hlast
      obtain ⟨rfl, hview⟩ := ih hseen₂
      obtain ⟨hobs, hview'⟩ := h.call_ok ha hview hstep hstep₂
      exact ⟨by rw [hobs], hview'⟩
    | sweep _ => cases (List.append_inj' hes rfl).2
  | @sweep es tr t s _ ih =>
    intro hseen'
    generalize hes : es ++ [(Event.sweep t : Event α)] = es' at hseen'
    cases hseen' with
    | nil => simp at hes
    | inspect _ _ _ => cases (List.append_inj' hes rfl).2
    | sweep hseen₂ =>
      obtain ⟨rfl, hlast⟩ := List.append_inj' hes rfl
      cases hlast
      obtain ⟨rfl, hview⟩ := ih hseen₂
      exact ⟨rfl, h.sweep t hview⟩

/-- Every run shows the observer the part of it that concerns `mine`. -/
theorem Unwinding.seen_of_run (h : Unwinding C mine obs view) {tr : List (Entry α ο)} {c : Nat}
    {s : σ} (hrun : C.Run s₀ tr c s) :
    Seen C s₀ mine obs view ((partOf mine tr).map Entry.event)
      ((partOf mine tr).map (observe obs)) (view s) := by
  induction hrun with
  | nil => exact .nil
  | @inspect tr c t s s' a o _ _ hstep ih =>
    rw [Entry.partOf_concat]
    cases ha : mine a with
    | false =>
      rw [h.skip ha hstep]
      simpa [Entry.event, Event.concerns, ha] using ih
    | true =>
      have := ih.inspect ha hstep
      simpa [Entry.event, Event.concerns, observe, ha] using this
  | @sweep tr c t s _ _ ih =>
    rw [Entry.partOf_concat]
    have := ih.sweep (t := t)
    simpa [Entry.event, Event.concerns, observe] using this

/-- **Isolation by unwinding**: the step conditions keep `mine` isolated. -/
theorem Unwinding.isolates (h : Unwinding C mine obs view) (s₀ : σ) :
    C.Isolates s₀ mine obs := by
  intro tr tr' c c' s s' hrun hrun' hsame
  rw [← Entry.map_event_partOf, ← Entry.map_event_partOf] at hsame
  have hseen := h.seen_of_run hrun
  rw [hsame] at hseen
  obtain ⟨htr, hview⟩ := h.seen_deterministic hseen (h.seen_of_run hrun')
  refine ⟨htr, fun t a ha => ?_⟩
  have hcall := congrArg (Except.map Prod.fst) (h.call t ha hview)
  revert hcall
  cases C.inspect t a s <;> cases C.inspect t a s' <;> exact id

end Component

end Ocellus
