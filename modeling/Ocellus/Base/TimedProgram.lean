import Ocellus.Base.AtomicProgram

/-!
# All accesses of a program, and the clock

Most of what a program does to the shared state can be said of its accesses one by one:
they are `Within` a relation. In a `timed` program every access happens some time after the
last one, of whichever job.
-/

namespace Ocellus

namespace Prog

variable {ι κ σ α β : Type}

/-! ## What all accesses do -/

/-- Every access, with its input, is in `guar`, and what is returned satisfies `post`. -/
def Within (guar : ι → σ → σ → Prop) (post : α → Prop) : Prog ι σ α → Prop
  | .ret a => post a
  | .fail _ => True
  | .act access k =>
    ∀ i s b s', access i s = .ok (b, s') → guar i s s' ∧ Within guar post (k b)

section Within

variable {guar : ι → σ → σ → Prop} {post : α → Prop} {post' : β → Prop} {p : Prog ι σ α}

theorem Within.bind {f : α → Prog ι σ β} (h : Within guar post p)
    (hf : ∀ a, post a → Within guar post' (f a)) : Within guar post' (p >>= f) := by
  show Within guar post' (Prog.bind p f)
  induction p with
  | ret a => exact hf a h
  | fail e => trivial
  | act access k ih =>
    intro i s b s' haccess
    obtain ⟨hguar, hrest⟩ := h i s b s' haccess
    exact ⟨hguar, ih b hrest⟩

theorem Within.mono {post' : α → Prop} (h : Within guar post p) (hpost : ∀ a, post a → post' a) :
    Within guar post' p := by
  induction p with
  | ret a => exact hpost a h
  | fail e => trivial
  | act access k ih =>
    intro i s b s' haccess
    obtain ⟨hguar, hrest⟩ := h i s b s' haccess
    exact ⟨hguar, ih b hrest⟩

theorem Within.pure {a : α} (h : post a) :
    Within guar post (Pure.pure a : Prog ι σ α) := h

theorem Within.access {f : ι → σ → Checked (α × σ)}
    (h : ∀ i s a s', f i s = .ok (a, s') → guar i s s' ∧ post a) :
    Within guar post (Prog.access f) := h

theorem Within.read {f : σ → α} (hguar : ∀ i s, guar i s s) (h : ∀ s, post (f s)) :
    Within guar post (Prog.read f : Prog ι σ α) := by
  refine .access fun i s a s' hf => ?_
  cases hf
  exact ⟨hguar i s, h s⟩

theorem Within.write {f : ι → σ → σ} (h : ∀ i s, guar i s (f i s)) :
    Within guar (fun _ => True) (Prog.write f) := by
  refine .access fun i s a s' hf => ?_
  cases hf
  exact ⟨h i s, trivial⟩

theorem Within.lift {x : Checked α} (h : ∀ a, x = .ok a → post a) :
    Within guar post (Prog.lift x : Prog ι σ α) := by
  cases x with
  | ok a => exact h a rfl
  | error e => trivial

/-- In rely-guarantee terms, such a program asks for nothing. -/
theorem Within.sat {rely guar' : σ → σ → Prop} (h : Within guar post p)
    (hguar : ∀ i s s', guar i s s' → guar' s s') :
    Sat rely guar' (fun a _ => post a) p fun _ => True := by
  induction p with
  | ret a => exact ⟨stable_const True, fun _ _ => h⟩
  | fail e => exact stable_const True
  | act access k ih =>
    refine ⟨stable_const True, fun i s b s' _ haccess => ?_⟩
    obtain ⟨hkeep, hrest⟩ := h i s b s' haccess
    exact ⟨hguar i s s' hkeep, _, trivial, ih b hrest⟩

end Within

/-! ## Time -/

/-- The program on a state with a clock: an access reads it some time after the last one,
and something else. -/
def timed (reading : Nat → κ → ι) : Prog ι σ α → Prog (Nat × κ) (Nat × σ) α
  | .ret a => .ret a
  | .fail f => .fail f
  | .act access k =>
    .act (fun i s => access (reading (s.1 + i.1) i.2) s.2 >>= fun r => .ok (r.1, s.1 + i.1, r.2))
      fun b => timed reading (k b)

variable {reading : Nat → κ → ι}

theorem timed_bind (p : Prog ι σ α) (f : α → Prog ι σ β) :
    (p >>= f).timed reading = p.timed reading >>= fun a => (f a).timed reading := by
  show (Prog.bind p f).timed reading = Prog.bind (p.timed reading) fun a => (f a).timed reading
  induction p with
  | ret a => rfl
  | fail e => rfl
  | act access k ih =>
    simp only [bind, timed, ih]

theorem Within.timed {guar : ι → σ → σ → Prop} {post : α → Prop} {p : Prog ι σ α}
    (h : Within guar post p) :
    Within (fun i s s' => s.1 ≤ s'.1 ∧ guar (reading s'.1 i.2) s.2 s'.2) post
      (p.timed reading) := by
  induction p with
  | ret a => exact h
  | fail e => trivial
  | act access k ih =>
    intro i s b s' haccess
    obtain ⟨⟨b', shared⟩, hb, haccess⟩ := Checked.bind_eq_ok.mp haccess
    cases haccess
    obtain ⟨hguar, hrest⟩ := h _ _ _ _ hb
    exact ⟨⟨Nat.le_add_right _ _, hguar⟩, ih b' hrest⟩

/-- A single access, at some time. -/
theorem Sat.timed_access {rely guar : Nat × σ → Nat × σ → Prop} {post : α → Nat × σ → Prop}
    {P : Nat × σ → Prop} {f : ι → σ → Checked (α × σ)} (hP : Stable rely P)
    (hpost : ∀ a, Stable rely (post a))
    (h : ∀ now k s a s', P s → s.1 ≤ now → f (reading now k) s.2 = .ok (a, s') →
      guar s (now, s') ∧ post a (now, s')) :
    Sat rely guar post ((Prog.access f).timed reading) P := by
  refine .access hP hpost fun i s a s' hs haccess => ?_
  obtain ⟨⟨a', shared⟩, hf, haccess⟩ := Checked.bind_eq_ok.mp haccess
  cases haccess
  exact h _ _ s a' shared hs (Nat.le_add_right _ _) hf

/-- Alone, all accesses can happen at one time. -/
theorem timed_run {p : Prog ι σ α} {c : Nat} {k : κ} {s s' : σ} {a : α}
    (h : p.run (reading c k) s = .ok (a, s')) :
    (p.timed reading).run (0, k) (c, s) = .ok (a, c, s') := by
  induction p generalizing s with
  | ret a' =>
    cases h
    rfl
  | fail e => cases h
  | act access k' ih =>
    rw [run] at h
    split at h
    · cases h
    · rename_i b shared haccess
      rw [timed, run]
      simp only [Nat.add_zero, haccess, Checked.ok_bind]
      exact ih b h

end Prog

end Ocellus
