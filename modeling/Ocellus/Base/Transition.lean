import Mathlib.Logic.Relation

/-!
# Transition systems

States, initial states and steps; what holds in every reachable state
(`Reachable.invariant`), and what holds in a state and for ever after
(`forever_of_invariant`).
-/

namespace Ocellus

universe u

/-- A transition system on `σ`. -/
structure TransitionSystem (σ : Type u) where
  init : σ → Prop
  step : σ → σ → Prop

namespace TransitionSystem

variable {σ : Type u} {S : TransitionSystem σ}

/-- `s'` can be reached from `s`. -/
def Leads (S : TransitionSystem σ) : σ → σ → Prop := Relation.ReflTransGen S.step

/-- `s` can be reached from an initial state. -/
def Reachable (S : TransitionSystem σ) (s : σ) : Prop := ∃ s₀, S.init s₀ ∧ S.Leads s₀ s

theorem Reachable.of_init {s : σ} (h : S.init s) : S.Reachable s := ⟨s, h, .refl⟩

theorem Reachable.step {s s' : σ} (h : S.Reachable s) (hstep : S.step s s') : S.Reachable s' := by
  obtain ⟨s₀, h₀, hleads⟩ := h
  exact ⟨s₀, h₀, hleads.tail hstep⟩

/-- What a step preserves, a run preserves. -/
theorem Leads.invariant {P : σ → Prop} (hstep : ∀ s s', P s → S.step s s' → P s') {s s' : σ}
    (h : S.Leads s s') (hs : P s) : P s' := by
  induction h with
  | refl => exact hs
  | tail _ hlast ih => exact hstep _ _ ih hlast

/-- What holds initially and is preserved by every step holds in every reachable
state. -/
theorem Reachable.invariant {P : σ → Prop} (hinit : ∀ s, S.init s → P s)
    (hstep : ∀ s s', P s → S.step s s' → P s') {s : σ} (h : S.Reachable s) : P s := by
  obtain ⟨s₀, h₀, hleads⟩ := h
  exact hleads.invariant hstep (hinit s₀ h₀)

/-- `P` holds in `s` and in every state that can be reached from it. -/
def Forever (S : TransitionSystem σ) (P : σ → Prop) (s : σ) : Prop := ∀ s', S.Leads s s' → P s'

theorem forever_of_invariant {P Q : σ → Prop} (hstep : ∀ s s', P s → S.step s s' → P s')
    (himp : ∀ s, P s → Q s) {s : σ} (hs : P s) : S.Forever Q s :=
  fun s' h => himp s' (h.invariant hstep hs)

end TransitionSystem

end Ocellus
