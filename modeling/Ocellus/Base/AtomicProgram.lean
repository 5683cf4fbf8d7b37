import Ocellus.Base.Fault
import Ocellus.Base.Transition

/-!
# Programs of atomic accesses to a shared state

A `Prog ι σ α` computes an `α` by accesses to a shared state `σ`, each of them atomic
and given an input `ι` of its own (clock readings, say), with local computation between
them. It can be run in two ways:

- alone (`Prog.run`), which is the meaning of sequential code;
- as one job of a `Pool`, in which any number of jobs are begun at any time and take
  turns access by access.

`Prog.Sat` is a rely-guarantee judgment: an assertion that the accesses of other jobs
keep (`Stable`) goes in, every access is in the guarantee, and the result satisfies
the postcondition. Its rules follow the structure of a program; `Pool.placed_of_reachable`
says that in every interleaving each job is where its judgment puts it, and
`Pool.Placed.leads` gets from the guarantees what holds of the shared state.
-/

namespace Ocellus

/-- A program of atomic accesses to `σ` that computes an `α`, or panics. -/
inductive Prog (ι σ α : Type) : Type 1 where
  | ret (a : α)
  | fail (f : Fault)
  | act {β : Type} (access : ι → σ → Checked (β × σ)) (k : β → Prog ι σ α)

namespace Prog

variable {ι σ α β : Type}

def bind : Prog ι σ α → (α → Prog ι σ β) → Prog ι σ β
  | .ret a, f => f a
  | .fail e, _ => .fail e
  | .act access k, f => .act access fun b => bind (k b) f

instance : Monad (Prog ι σ) where
  pure := .ret
  bind := bind

/-- One access. -/
def access (f : ι → σ → Checked (α × σ)) : Prog ι σ α := .act f .ret

/-- An access that only reads. -/
def read (f : σ → α) : Prog ι σ α := access fun _ s => .ok (f s, s)

/-- An access that only writes. -/
def write (f : ι → σ → σ) : Prog ι σ Unit := access fun i s => .ok ((), f i s)

/-- Local computation that may panic. -/
def lift : Checked α → Prog ι σ α
  | .ok a => .ret a
  | .error e => .fail e

/-! ## Running alone -/

/-- The program with the shared state to itself, each access given the input `i`. -/
def run (i : ι) : Prog ι σ α → σ → Checked (α × σ)
  | .ret a, s => .ok (a, s)
  | .fail e, _ => .error e
  | .act f k, s =>
    match f i s with
    | .error e => .error e
    | .ok (b, s') => run i (k b) s'

variable {i : ι} {s : σ}

@[simp] theorem run_pure (a : α) : (pure a : Prog ι σ α).run i s = .ok (a, s) := rfl

@[simp] theorem run_ret (a : α) : (Prog.ret a : Prog ι σ α).run i s = .ok (a, s) := rfl

@[simp] theorem run_bind (p : Prog ι σ α) (f : α → Prog ι σ β) :
    (p >>= f).run i s = p.run i s >>= fun r => (f r.1).run i r.2 := by
  show (Prog.bind p f).run i s = _
  induction p generalizing s with
  | ret a => rfl
  | fail e => rfl
  | act access k ih =>
    rw [bind, run, run]
    cases access i s with
    | error e => rfl
    | ok r => exact ih r.1

@[simp] theorem run_access (f : ι → σ → Checked (α × σ)) : (access f).run i s = f i s := by
  rw [access, run]
  cases f i s <;> rfl

@[simp] theorem run_read (f : σ → α) : (read f : Prog ι σ α).run i s = .ok (f s, s) := rfl

@[simp] theorem run_write (f : ι → σ → σ) : (write f).run i s = .ok ((), f i s) := rfl

@[simp] theorem run_lift (x : Checked α) :
    (lift x : Prog ι σ α).run i s = x >>= fun a => .ok (a, s) := by
  cases x <;> rfl

/-- The first `n` accesses, each given the input `i`: what is left of the program, and
the shared state. -/
def advance (i : ι) : Nat → Prog ι σ α → σ → Option (Prog ι σ α × σ)
  | 0, p, s => some (p, s)
  | n + 1, .act f k, s =>
    match f i s with
    | .error _ => none
    | .ok (b, s') => advance i n (k b) s'
  | _ + 1, .ret _, _ => none
  | _ + 1, .fail _, _ => none

/-! ## Rely and guarantee -/

/-- What other jobs do keeps the assertion. -/
def Stable (rely : σ → σ → Prop) (P : σ → Prop) : Prop := ∀ s s', P s → rely s s' → P s'

theorem Stable.and {rely : σ → σ → Prop} {P Q : σ → Prop} (hP : Stable rely P)
    (hQ : Stable rely Q) : Stable rely fun s => P s ∧ Q s :=
  fun s s' hs hrely => ⟨hP s s' hs.1 hrely, hQ s s' hs.2 hrely⟩

theorem stable_const {rely : σ → σ → Prop} (p : Prop) : Stable rely fun _ => p :=
  fun _ _ hp _ => hp

/-- From a shared state in `P`, among others that do what `rely` says, the program does
what `guar` says, and what it returns satisfies `post` in the state at that time. A
program that panics has no obligations: the process is gone. -/
def Sat (rely guar : σ → σ → Prop) (post : α → σ → Prop) : Prog ι σ α → (σ → Prop) → Prop
  | .ret a, P => Stable rely P ∧ ∀ s, P s → post a s
  | .fail _, P => Stable rely P
  | .act access k, P => Stable rely P ∧ ∀ i s b s', P s → access i s = .ok (b, s') →
      guar s s' ∧ ∃ Q, Q s' ∧ Sat rely guar post (k b) Q

variable {rely guar : σ → σ → Prop} {post : α → σ → Prop} {P Q : σ → Prop} {p : Prog ι σ α}

theorem Sat.stable (h : Sat rely guar post p P) : Stable rely P := by
  cases p with
  | ret a => exact h.1
  | fail e => exact h
  | act access k => exact h.1

/-- An assertion each of whose states is in one that will do. -/
theorem Sat.of_cover (hP : Stable rely P)
    (h : ∀ s, P s → ∃ Q, Q s ∧ Sat rely guar post p Q) : Sat rely guar post p P := by
  cases p with
  | ret a =>
    refine ⟨hP, fun s hs => ?_⟩
    obtain ⟨Q, hQ, hsat⟩ := h s hs
    exact hsat.2 s hQ
  | fail e => exact hP
  | act access k =>
    refine ⟨hP, fun i s b s' hs haccess => ?_⟩
    obtain ⟨Q, hQ, hsat⟩ := h s hs
    exact hsat.2 i s b s' hQ haccess

theorem Sat.narrow (h : Sat rely guar post p P) (hQ : Stable rely Q) (hle : ∀ s, Q s → P s) :
    Sat rely guar post p Q := .of_cover hQ fun s hs => ⟨P, hle s hs, h⟩

/-- Consequence. -/
theorem Sat.weaken {post' : α → σ → Prop} (h : Sat rely guar post p P)
    (hpost : ∀ a s, post a s → post' a s) : Sat rely guar post' p P := by
  induction p generalizing P with
  | ret a => exact ⟨h.1, fun s hs => hpost a s (h.2 s hs)⟩
  | fail e => exact h
  | act access k ih =>
    refine ⟨h.1, fun i s b s' hs haccess => ?_⟩
    obtain ⟨hguar, Q, hQ, hsat⟩ := h.2 i s b s' hs haccess
    exact ⟨hguar, Q, hQ, ih b hsat⟩

/-- A program that does less does what is allowed. -/
theorem Sat.strengthen {guar' : σ → σ → Prop} (h : Sat rely guar post p P)
    (hguar : ∀ s s', guar s s' → guar' s s') : Sat rely guar' post p P := by
  induction p generalizing P with
  | ret a => exact h
  | fail e => exact h
  | act access k ih =>
    refine ⟨h.1, fun i s b s' hs haccess => ?_⟩
    obtain ⟨hg, Q, hQ, hsat⟩ := h.2 i s b s' hs haccess
    exact ⟨hguar s s' hg, Q, hQ, ih b hsat⟩

/-- Sequencing. -/
theorem Sat.bind {post' : β → σ → Prop} {f : α → Prog ι σ β} (h : Sat rely guar post p P)
    (hf : ∀ a s, post a s → ∃ Q, Q s ∧ Sat rely guar post' (f a) Q) :
    Sat rely guar post' (p >>= f) P := by
  show Sat rely guar post' (Prog.bind p f) P
  induction p generalizing P with
  | ret a => exact .of_cover h.1 fun s hs => hf a s (h.2 s hs)
  | fail e => exact h
  | act access k ih =>
    refine ⟨h.1, fun i s b s' hs haccess => ?_⟩
    obtain ⟨hguar, Q, hQ, hsat⟩ := h.2 i s b s' hs haccess
    exact ⟨hguar, Q, hQ, ih b hsat⟩

/-- Sequencing, when what comes next asks nothing of the shared state. -/
theorem Sat.seq {post' : β → σ → Prop} {f : α → Prog ι σ β} (h : Sat rely guar post p P)
    (hf : ∀ a s, post a s → Sat rely guar post' (f a) fun _ => True) :
    Sat rely guar post' (p >>= f) P := h.bind fun a s ha => ⟨_, trivial, hf a s ha⟩

theorem Sat.ret {a : α} (hP : Stable rely P) (h : ∀ s, P s → post a s) :
    Sat rely guar post (pure a : Prog ι σ α) P := ⟨hP, h⟩

/-- A single access, whose postcondition others keep. -/
theorem Sat.access {f : ι → σ → Checked (α × σ)} (hP : Stable rely P)
    (hpost : ∀ a, Stable rely (post a))
    (h : ∀ i s a s', P s → f i s = .ok (a, s') → guar s s' ∧ post a s') :
    Sat rely guar post (Prog.access f) P := by
  refine ⟨hP, fun i s a s' hs hf => ?_⟩
  obtain ⟨hguar, ha⟩ := h i s a s' hs hf
  exact ⟨hguar, post a, ha, hpost a, fun _ hs => hs⟩

theorem Sat.read {f : σ → α} (hguar : ∀ s, guar s s) (hP : Stable rely P)
    (hpost : ∀ a, Stable rely (post a)) (h : ∀ s, P s → post (f s) s) :
    Sat rely guar post (Prog.read f : Prog ι σ α) P := by
  refine .access hP hpost fun i s a s' hs hf => ?_
  cases hf
  exact ⟨hguar s, h s hs⟩

theorem Sat.lift {x : Checked α} (hP : Stable rely P)
    (h : ∀ a s, x = .ok a → P s → post a s) : Sat rely guar post (Prog.lift x : Prog ι σ α) P := by
  cases x with
  | ok a => exact ⟨hP, fun s hs => h a s rfl hs⟩
  | error e => exact hP

/-- What others and the program itself keep can be carried along. -/
theorem Sat.frame (h : Sat rely guar post p P) (hframe : Stable rely Q)
    (hown : ∀ s s', Q s → guar s s' → Q s') :
    Sat rely guar (fun a s => post a s ∧ Q s) p fun s => P s ∧ Q s := by
  induction p generalizing P with
  | ret a => exact ⟨h.1.and hframe, fun s hs => ⟨h.2 s hs.1, hs.2⟩⟩
  | fail e => exact h.and hframe
  | act access k ih =>
    refine ⟨h.1.and hframe, fun i s b s' hs haccess => ?_⟩
    obtain ⟨hguar, R, hR, hsat⟩ := h.2 i s b s' hs.1 haccess
    exact ⟨hguar, _, ⟨hR, hown s s' hs.2 hguar⟩, ih b hsat⟩

end Prog

/-! ## Jobs that take turns -/

/-- A task that was begun, with the shared state at that time. -/
structure Job (τ σ : Type) where
  task : τ
  since : σ

/-- The jobs at work with what is left of them, the results of those that are done, and
the shared state. `begun` is all jobs so far. -/
structure Pool (ι σ α τ : Type) : Type 1 where
  shared : σ
  running : List (Job τ σ × Prog ι σ α)
  done : List (Job τ σ × α)
  begun : List (Job τ σ)

namespace Pool

variable {ι σ α τ : Type}

inductive Step (prog : τ → Prog ι σ α) : Pool ι σ α τ → Pool ι σ α τ → Prop where
  /-- Any task is begun at any time. -/
  | start {s : Pool ι σ α τ} (task : τ) :
      Step prog s { s with
        running := (⟨task, s.shared⟩, prog task) :: s.running
        begun := ⟨task, s.shared⟩ :: s.begun }
  /-- A job makes its next access. -/
  | act {s : Pool ι σ α τ} {pre post : List (Job τ σ × Prog ι σ α)} {job : Job τ σ} {β : Type}
      {access : ι → σ → Checked (β × σ)} {k : β → Prog ι σ α} {i : ι} {b : β} {shared : σ} :
      s.running = pre ++ (job, .act access k) :: post → access i s.shared = .ok (b, shared) →
      Step prog s { s with running := pre ++ (job, k b) :: post, shared }
  /-- A job is done. -/
  | finish {s : Pool ι σ α τ} {pre post : List (Job τ σ × Prog ι σ α)} {job : Job τ σ} {a : α} :
      s.running = pre ++ (job, .ret a) :: post →
      Step prog s { s with running := pre ++ post, done := (job, a) :: s.done }

/-- Jobs take turns, on a shared state that is `s₀` at first. -/
def system (prog : τ → Prog ι σ α) (s₀ : σ) : TransitionSystem (Pool ι σ α τ) where
  init s := s = ⟨s₀, [], [], []⟩
  step := Step prog

/-- What has to be shown of a program, once for each job: all jobs rely on `rely`,
which the guarantee of each keeps to. -/
structure Judgment (prog : τ → Prog ι σ α) (inv : σ → Prop) (rely : σ → σ → Prop)
    (guar : Job τ σ → σ → σ → Prop) (post : Job τ σ → α → σ → Prop) : Prop where
  keeps : ∀ job s s', inv s → guar job s s' → rely s s' ∧ inv s'
  sat : ∀ job, inv job.since → ∃ P, P job.since ∧
    Prog.Sat (fun s s' => inv s ∧ rely s s') (guar job) (post job) (prog job.task) P
  stable : ∀ job a, Prog.Stable (fun s s' => inv s ∧ rely s s') (post job a)

variable {prog : τ → Prog ι σ α} {inv : σ → Prop} {rely : σ → σ → Prop}
  {guar : Job τ σ → σ → σ → Prop} {post : Job τ σ → α → σ → Prop} {s₀ : σ}

/-- Where the jobs of a pool are: each one at work has an assertion from which it does
the rest, and the result of each one that is done is as it should be. -/
structure Placed (inv : σ → Prop) (rely : σ → σ → Prop) (guar : Job τ σ → σ → σ → Prop)
    (post : Job τ σ → α → σ → Prop) (s : Pool ι σ α τ) : Prop where
  holds : inv s.shared
  begun : ∀ job ∈ s.begun, inv job.since
  running : ∀ r ∈ s.running, r.1 ∈ s.begun ∧ ∃ P, P s.shared ∧
    Prog.Sat (fun s s' => inv s ∧ rely s s') (guar r.1) (post r.1) r.2 P
  done : ∀ d ∈ s.done, d.1 ∈ s.begun ∧ post d.1 d.2 s.shared

/-- What a step does: nothing happens to the shared state but by the guarantee of a job
at work, and who is at work was so before or begins with the shared state as it is. -/
structure Moves (guar : Job τ σ → σ → σ → Prop) (s s' : Pool ι σ α τ) : Prop where
  begun : s.begun ⊆ s'.begun
  running : ∀ r ∈ s'.running, (∃ r' ∈ s.running, r'.1 = r.1) ∨ r.1.since = s.shared
  shared : s'.shared = s.shared ∨
    ∃ r ∈ s.running, r.1 ∈ s.begun ∧ guar r.1 s.shared s'.shared

variable {s s' : Pool ι σ α τ}

/-- A job that begins is where its judgment puts it. -/
theorem Placed.start (hj : Judgment prog inv rely guar post) (h : Placed inv rely guar post s)
    (task : τ) : Placed inv rely guar post { s with
      running := (⟨task, s.shared⟩, prog task) :: s.running
      begun := ⟨task, s.shared⟩ :: s.begun } := by
  refine ⟨h.holds, fun job hjob => ?_, fun r hr => ?_, fun d hd => ?_⟩
  · rcases List.mem_cons.mp hjob with rfl | hjob
    · exact h.holds
    · exact h.begun job hjob
  · rcases List.mem_cons.mp hr with rfl | hr
    · exact ⟨List.mem_cons_self .., hj.sat ⟨task, s.shared⟩ h.holds⟩
    · obtain ⟨hbegun, hsat⟩ := h.running r hr
      exact ⟨List.mem_cons_of_mem _ hbegun, hsat⟩
  · obtain ⟨hbegun, hpost⟩ := h.done d hd
    exact ⟨List.mem_cons_of_mem _ hbegun, hpost⟩

/-- The jobs at work after an access of one of them. -/
theorem mem_middle {β : Type*} {pre rest : List β} (x : β) {y r : β} (hr : r ∈ pre ++ y :: rest) :
    r = y ∨ r ∈ pre ++ x :: rest := by
  rcases List.mem_append.mp hr with hr | hr
  · exact .inr (List.mem_append_left _ hr)
  · rcases List.mem_cons.mp hr with rfl | hr
    · exact .inl rfl
    · exact .inr (List.mem_append_right _ (List.mem_cons_of_mem _ hr))

/-- A job moves on, and the others keep their assertions. -/
theorem Placed.act (hj : Judgment prog inv rely guar post) (h : Placed inv rely guar post s)
    {pre rest : List (Job τ σ × Prog ι σ α)} {job : Job τ σ} {β : Type}
    {access : ι → σ → Checked (β × σ)} {k : β → Prog ι σ α} {i : ι} {b : β} {shared : σ}
    (hat : s.running = pre ++ (job, .act access k) :: rest)
    (haccess : access i s.shared = .ok (b, shared)) :
    job ∈ s.begun ∧ guar job s.shared shared ∧ Placed inv rely guar post
      { s with running := pre ++ (job, k b) :: rest, shared } := by
  have hmem : (job, .act access k) ∈ s.running :=
    hat ▸ List.mem_append_right _ (List.mem_cons_self ..)
  obtain ⟨hbegun, P, hP, hsat⟩ := h.running _ hmem
  obtain ⟨hguar, Q, hQ, hrest⟩ := hsat.2 i s.shared b shared hP haccess
  obtain ⟨hrely, hinv⟩ := hj.keeps job _ _ h.holds hguar
  refine ⟨hbegun, hguar, hinv, h.begun, fun r hr => ?_, fun d hd => ?_⟩
  · rcases mem_middle (job, .act access k) hr with rfl | hr
    · exact ⟨hbegun, Q, hQ, hrest⟩
    · obtain ⟨hb, R, hR, hsat'⟩ := h.running r (hat ▸ hr)
      exact ⟨hb, R, hsat'.stable _ _ hR ⟨h.holds, hrely⟩, hsat'⟩
  · obtain ⟨hb, hpost⟩ := h.done d hd
    exact ⟨hb, hj.stable d.1 d.2 _ _ hpost ⟨h.holds, hrely⟩⟩

/-- A job that is done has a result as it should be. -/
theorem Placed.finish (h : Placed inv rely guar post s) {pre rest : List (Job τ σ × Prog ι σ α)}
    {job : Job τ σ} {a : α} (hat : s.running = pre ++ (job, .ret a) :: rest) :
    Placed inv rely guar post { s with running := pre ++ rest, done := (job, a) :: s.done } := by
  have hmem : (job, .ret a) ∈ s.running :=
    hat ▸ List.mem_append_right _ (List.mem_cons_self ..)
  obtain ⟨hbegun, P, hP, hsat⟩ := h.running _ hmem
  refine ⟨h.holds, h.begun, fun r hr => h.running r ?_, fun d hd => ?_⟩
  · rw [hat]
    exact (List.sublist_cons_self _ rest).append_left pre |>.subset hr
  · rcases List.mem_cons.mp hd with rfl | hd
    · exact ⟨hbegun, hsat.2 _ hP⟩
    · exact h.done d hd

theorem Placed.step (hj : Judgment prog inv rely guar post) (h : Placed inv rely guar post s)
    (hstep : Step prog s s') : Placed inv rely guar post s' ∧ Moves guar s s' := by
  cases hstep with
  | start task =>
    refine ⟨h.start hj task, List.subset_cons_self .., fun r hr => ?_, .inl rfl⟩
    rcases List.mem_cons.mp hr with rfl | hr
    · exact .inr rfl
    · exact .inl ⟨r, hr, rfl⟩
  | @act pre rest job β access k i b shared hat haccess =>
    have hmem : (job, .act access k) ∈ s.running :=
      hat ▸ List.mem_append_right _ (List.mem_cons_self ..)
    obtain ⟨hbegun, hguar, hplaced⟩ := h.act hj hat haccess
    refine ⟨hplaced, List.Subset.refl _, fun r hr => ?_, .inr ⟨_, hmem, hbegun, hguar⟩⟩
    rcases mem_middle (job, .act access k) hr with rfl | hr
    · exact .inl ⟨_, hmem, rfl⟩
    · exact .inl ⟨r, hat ▸ hr, rfl⟩
  | @finish pre rest job a hat =>
    refine ⟨h.finish hat, List.Subset.refl _, fun r hr => .inl ⟨r, ?_, rfl⟩, .inl rfl⟩
    rw [hat]
    exact (List.sublist_cons_self _ rest).append_left pre |>.subset hr

/-- **Soundness**: in every interleaving every job is where its judgment puts it. -/
theorem placed_of_reachable (hj : Judgment prog inv rely guar post) (hs₀ : inv s₀)
    (h : (system prog s₀).Reachable s) : Placed inv rely guar post s := by
  refine h.invariant ?_ fun s s' hs hstep => (hs.step hj hstep).1
  rintro s rfl
  exact ⟨hs₀, nofun, nofun, nofun⟩

/-- **What the guarantees preserve, every interleaving preserves.** -/
theorem Placed.leads (hj : Judgment prog inv rely guar post) {J : Pool ι σ α τ → Prop}
    (hJ : ∀ s s', Placed inv rely guar post s → J s → Moves guar s s' → J s')
    (hs : Placed inv rely guar post s) (hJs : J s) (h : (system prog s₀).Leads s s') :
    J s' := by
  refine (h.invariant (P := fun s => Placed inv rely guar post s ∧ J s) (fun t t' ht hstep => ?_)
    ⟨hs, hJs⟩).2
  obtain ⟨hplaced, hmoves⟩ := ht.1.step hj hstep
  exact ⟨hplaced, hJ t t' ht.1 ht.2 hmoves⟩

/-! ## Running alone is one schedule -/

/-- A job makes its next accesses. -/
theorem leads_of_advance {job : Job τ σ} {i : ι} {p p' : Prog ι σ α} {n : Nat} {shared : σ}
    (hrun : p.advance i n s.shared = some (p', shared)) {rest : List (Job τ σ × Prog ι σ α)}
    (hat : s.running = (job, p) :: rest) :
    (system prog s₀).Leads s { s with shared, running := (job, p') :: rest } := by
  induction n generalizing s p with
  | zero =>
    cases hrun
    rw [← hat]
    exact .refl
  | succ n ih =>
    cases p with
    | ret a => cases hrun
    | fail e => cases hrun
    | act access k =>
      rw [Prog.advance] at hrun
      split at hrun
      · cases hrun
      · rename_i b shared' haccess
        have hfirst : s.running = [] ++ (job, .act access k) :: rest := hat
        exact .head (.act hfirst haccess) (ih hrun rfl)

/-- A job that is left alone does what its program does alone. -/
theorem leads_of_run {job : Job τ σ} {i : ι} {p : Prog ι σ α} {a : α} {shared : σ}
    (hrun : p.run i s.shared = .ok (a, shared)) {rest : List (Job τ σ × Prog ι σ α)}
    (hat : s.running = (job, p) :: rest) :
    (system prog s₀).Leads s
      { s with shared, running := rest, done := (job, a) :: s.done } := by
  induction p generalizing s with
  | ret a' =>
    cases hrun
    exact .single (.finish (show s.running = [] ++ (job, .ret a) :: rest from hat))
  | fail e => cases hrun
  | @act β access k ih =>
    rw [Prog.run] at hrun
    split at hrun
    · cases hrun
    · rename_i b shared' haccess
      have hfirst : s.running = [] ++ (job, .act access k) :: rest := hat
      exact .head (.act hfirst haccess) (ih b hrun rfl)

/-- And so does one that is begun and left alone. -/
theorem leads_of_task {task : τ} {i : ι} {a : α} {shared : σ}
    (hrun : (prog task).run i s.shared = .ok (a, shared)) :
    (system prog s₀).Leads s { s with
      shared, done := (⟨task, s.shared⟩, a) :: s.done, begun := ⟨task, s.shared⟩ :: s.begun } := by
  have hstart : Step prog s { s with
      running := (⟨task, s.shared⟩, prog task) :: s.running
      begun := ⟨task, s.shared⟩ :: s.begun } := .start task
  exact .head hstart (leads_of_run (s := { s with
    running := (⟨task, s.shared⟩, prog task) :: s.running
    begun := ⟨task, s.shared⟩ :: s.begun }) hrun rfl)

end Pool

end Ocellus
