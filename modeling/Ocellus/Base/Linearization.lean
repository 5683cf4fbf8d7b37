import Ocellus.Base.Component
import Ocellus.Base.TimedProgram
import Mathlib.Algebra.Order.BigOperators.Group.List
import Mathlib.Algebra.Order.Ring.Nat

/-!
# Linearization of a component that jobs share

Somewhere in a shared state there is a component. A job asks it at most once, in one access;
its other accesses leave the component alone, or sweep it. Then, however the jobs are
interleaved, there is one history of the component alone in which every answer that a job
was given is given to it, at a time at which it was at work
(`Front.explained_of_reachable`). So what is true of the histories of the component is true
of jobs that take turns:

- the results of the jobs claim no more than the history is worth (`Explained.claimed_le`);
- from any moment on, the history goes on with calls of jobs that were at work at this
  moment or have begun since, at most one for each of them (`Explained.leads`).

How the component shows in the shared state is a relation (`Front.shows`), so it may be a
part of a larger state, or be known only up to what can be observed of it.
-/

namespace Ocellus

/-! ## Calls on behalf of someone -/

namespace Entry

variable {α ο : Type}

def isCall : Entry α ο → Bool
  | .inspect _ _ _ => true
  | .sweep _ => false

/-- What is asked in the calls of a history. -/
def args (tr : List (Entry α ο)) : List α :=
  tr.filterMap fun
    | .inspect _ a _ => some a
    | .sweep _ => none

@[simp] theorem args_nil : args ([] : List (Entry α ο)) = [] := rfl

@[simp] theorem args_append (tr ext : List (Entry α ο)) : args (tr ++ ext) = args tr ++ args ext :=
  List.filterMap_append ..

end Entry

namespace Component

variable {D A O L : Type} {C : Component D A O} {asks : L → Option A}

/-- The component, asked on behalf of someone. Who has no question is not answered. -/
def onBehalf (C : Component D A O) (asks : L → Option A) : Component D L O where
  inspect t l d :=
    match asks l with
    | some a => C.inspect t a d
    | none => .error .unwrap
  sweep := C.sweep

theorem onBehalf_inspect {l : L} {a : A} (h : asks l = some a) (t : Nat) (d : D) :
    (C.onBehalf asks).inspect t l d = C.inspect t a d := by
  simp only [onBehalf, h]

/-- What is asked and answered, on whomever's behalf. -/
def question (asks : L → Option A) (l : L) (o : O) : Option (A × O) := (asks l).map fun a => (a, o)

/-- A history without the names of those who ask is one of the component. -/
theorem Run.of_onBehalf {d₀ d : D} {tr : List (Entry L O)} {c : Nat}
    (h : (C.onBehalf asks).Run d₀ tr c d) :
    ∃ c' ≤ c, C.Run d₀ (tr.filterMap (Entry.project (question asks))) c' d := by
  refine h.project id (question asks) ?_ ?_ fun _ _ => rfl
  · intro t l d o d' hstep hnone
    rw [question, Option.map_eq_none_iff] at hnone
    simp only [onBehalf, hnone] at hstep
    cases hstep
  · intro t l d o d' a o' hstep hsome
    obtain ⟨a', ha, heq⟩ := Option.map_eq_some_iff.mp hsome
    obtain ⟨rfl, rfl⟩ := Prod.mk.inj heq
    rwa [onBehalf_inspect ha] at hstep

end Component

namespace Pool

variable {ι σ α τ : Type}

/-- What the jobs that are done claim together. -/
def claimed (claim : Job τ σ → α → Nat) (s : Pool ι σ α τ) : Nat :=
  (s.done.map fun d => claim d.1 d.2).sum

/-- The accounts before and behind a job. -/
theorem exists_account {ν : Type} {accounts : List ((Job τ σ × Prog ι σ α) × ν)}
    {pre post : List (Job τ σ × Prog ι σ α)} {r : Job τ σ × Prog ι σ α}
    (h : accounts.map Prod.fst = pre ++ r :: post) :
    ∃ apre n apost, accounts = apre ++ (r, n) :: apost ∧ apre.map Prod.fst = pre ∧
      apost.map Prod.fst = post := by
  obtain ⟨apre, rest, rfl, hpre, hrest⟩ := List.map_eq_append_iff.mp h
  obtain ⟨⟨r', n⟩, apost, rfl, hr, hpost⟩ := List.map_eq_cons_iff.mp hrest
  cases hr
  exact ⟨apre, n, apost, rfl, hpre, hpost⟩

end Pool

/-! ## Programs that ask -/

/-- How a component shows in a shared state with a clock, and what the tasks ask it. -/
structure Front (σ τ : Type) {D A O : Type} (C : Component D A O) where
  shows : D → Nat × σ → Prop
  asks : τ → Option A

namespace Front

variable {ι κ σ τ α β D A O : Type} {C : Component D A O} (F : Front σ τ C)

/-- An access that asks nothing. -/
def Spares (s s' : Nat × σ) : Prop :=
  s.1 ≤ s'.1 ∧ ∀ d, F.shows d s → F.shows d s' ∨ F.shows (C.sweep s'.1 d) s'

/-- An access that asks the question of the task, and is answered `o`. -/
def Gets (task : τ) (o : O) (s s' : Nat × σ) : Prop :=
  s.1 ≤ s'.1 ∧ ∃ a, F.asks task = some a ∧
    ∀ d, F.shows d s → ∃ d', C.inspect s'.1 a d = .ok (o, d') ∧ F.shows d' s'

/-- From the time `lo` on, the program asks the question of the task, at most once, and what
it returns fits the answer and its time; `c` is what it was answered so far. -/
def Asks (task : τ) (post : β → Option (Nat × O) → Prop) :
    Prog ι (Nat × σ) β → Nat → Option (Nat × O) → Prop
  | .ret b, _, c => post b c
  | .fail _, _, _ => True
  | .act access k, lo, c => ∀ i s b s', lo ≤ s.1 → access i s = .ok (b, s') →
      (F.Spares s s' ∧ Asks task post (k b) s'.1 c) ∨
      (c = none ∧ ∃ o, F.Gets task o s s' ∧ Asks task post (k b) s'.1 (some (s'.1, o)))

variable {F} {task : τ} {post : α → Option (Nat × O) → Prop} {post' : β → Option (Nat × O) → Prop}
  {p : Prog ι (Nat × σ) α} {lo : Nat} {c : Option (Nat × O)}

/-- Sequencing. -/
theorem Asks.bind {f : α → Prog ι (Nat × σ) β} (h : F.Asks task post p lo c)
    (hf : ∀ a lo c, post a c → F.Asks task post' (f a) lo c) :
    F.Asks task post' (p >>= f) lo c := by
  show F.Asks task post' (Prog.bind p f) lo c
  induction p generalizing lo c with
  | ret a => exact hf a lo c h
  | fail e => trivial
  | act access k ih =>
    intro i s b s' hlo haccess
    rcases h i s b s' hlo haccess with ⟨hspares, hrest⟩ | ⟨hnone, o, hgets, hrest⟩
    · exact .inl ⟨hspares, ih b hrest⟩
    · exact .inr ⟨hnone, o, hgets, ih b hrest⟩

/-- What is true of all that is returned can be added. -/
theorem Asks.and_within {guar : ι → Nat × σ → Nat × σ → Prop} {returns : α → Prop}
    (h : F.Asks task post p lo c) (hreturns : Prog.Within guar returns p) :
    F.Asks task (fun a c => post a c ∧ returns a) p lo c := by
  induction p generalizing lo c with
  | ret a => exact ⟨h, hreturns⟩
  | fail e => trivial
  | act access k ih =>
    intro i s b s' hlo haccess
    have hrest' := (hreturns i s b s' haccess).2
    rcases h i s b s' hlo haccess with ⟨hspares, hrest⟩ | ⟨hnone, o, hgets, hrest⟩
    · exact .inl ⟨hspares, ih b hrest hrest'⟩
    · exact .inr ⟨hnone, o, hgets, ih b hrest hrest'⟩

theorem Asks.ret {a : α} (h : post a c) : F.Asks task post (pure a : Prog ι (Nat × σ) α) lo c := h

/-- A program none of whose accesses asks anything. -/
theorem asks_of_within {guar : ι → Nat × σ → Nat × σ → Prop} {returns : α → Prop}
    (h : Prog.Within guar returns p) (hguar : ∀ i s s', guar i s s' → F.Spares s s')
    (hpost : ∀ a, returns a → post a c) : F.Asks task post p lo c := by
  induction p generalizing lo with
  | ret a => exact hpost a h
  | fail e => trivial
  | act access k ih =>
    intro i s b s' _ haccess
    obtain ⟨hkeep, hrest⟩ := h i s b s' haccess
    exact .inl ⟨hguar i s s' hkeep, ih b hrest⟩

/-- The access that asks. -/
theorem asks_access {reading : Nat → κ → ι} {f : ι → σ → Checked (α × σ)} {a : A}
    (ha : F.asks task = some a)
    (h : ∀ now k s b s', s.1 ≤ now → f (reading now k) s.2 = .ok (b, s') →
      ∃ o, post b (some (now, o)) ∧
        ∀ d, F.shows d s → ∃ d', C.inspect now a d = .ok (o, d') ∧ F.shows d' (now, s')) :
    F.Asks task post ((Prog.access f).timed reading) lo none := by
  intro i s b s' _ haccess
  obtain ⟨⟨b', shared⟩, hf, haccess⟩ := Checked.bind_eq_ok.mp haccess
  cases haccess
  obtain ⟨o, hpost, hcall⟩ := h _ _ s b' shared (Nat.le_add_right _ _) hf
  exact .inr ⟨rfl, o, ⟨Nat.le_add_right _ _, a, ha, hcall⟩, hpost⟩

/-! ## The history behind a pool -/

/-- The component as the jobs ask it. -/
def byJobs (F : Front σ τ C) : Component D (Job τ (Nat × σ)) O :=
  C.onBehalf fun job => F.asks job.task

theorem Gets.inspect {job : Job τ (Nat × σ)} {o : O} {s s' : Nat × σ} {d : D}
    (h : F.Gets job.task o s s') (hd : F.shows d s) :
    ∃ d', F.byJobs.inspect s'.1 job d = .ok (o, d') ∧ F.shows d' s' := by
  obtain ⟨-, a, ha, hcall⟩ := h
  obtain ⟨d', hinspect, hshows⟩ := hcall d hd
  exact ⟨d', (Component.onBehalf_inspect (l := job) ha s'.1 d).trans hinspect, hshows⟩

/-- A history of the jobs' calls, as the component sees it. -/
def history (F : Front σ τ C) (tr : List (Entry (Job τ (Nat × σ)) O)) : List (Entry A O) :=
  tr.filterMap (Entry.project (Component.question fun job => F.asks job.task))

/-- What the component sees of the call of a job. -/
def seen (F : Front σ τ C) (task : τ) (c : Option (Nat × O)) : Option (Entry A O) :=
  c.bind fun answer => (F.asks task).map fun a => .inspect answer.1 a answer.2

/-- The call of a job that was answered. -/
def callOf (job : Job τ (Nat × σ)) (c : Option (Nat × O)) : Option (Entry (Job τ (Nat × σ)) O) :=
  c.map fun c => .inspect c.1 job c.2

/-- The calls of jobs with what they were answered. -/
def callsOf {β : Type*} (accounts : List ((Job τ (Nat × σ) × β) × Option (Nat × O))) :
    List (Entry (Job τ (Nat × σ)) O) :=
  accounts.filterMap fun r => callOf r.1.1 r.2

/-- The jobs that have not been answered. -/
def waiting {β : Type*} (accounts : List ((Job τ (Nat × σ) × β) × Option (Nat × O))) :
    List (Job τ (Nat × σ)) :=
  accounts.filterMap fun r => if r.2.isNone then some r.1.1 else none

/-- The job was answered after it had begun. -/
def Timely (job : Job τ (Nat × σ)) (c : Option (Nat × O)) : Prop :=
  ∀ t o, c = some (t, o) → job.since.1 ≤ t

/-- The history `tr` of the component explains the pool: its calls are those of the jobs, the
`ongoing` and the `ended` ones, each with what it was answered. -/
structure Explained (F : Front σ τ C) (post : Job τ (Nat × σ) → α → Option (Nat × O) → Prop)
    (d₀ : D) (s : Pool ι (Nat × σ) α τ) (tr : List (Entry (Job τ (Nat × σ)) O))
    (ongoing : List ((Job τ (Nat × σ) × Prog ι (Nat × σ) α) × Option (Nat × O)))
    (ended : List ((Job τ (Nat × σ) × α) × Option (Nat × O))) : Prop where
  run : ∃ d, ∃ c ≤ s.shared.1, F.byJobs.Run d₀ tr c d ∧ F.shows d s.shared
  running : ongoing.map Prod.fst = s.running
  done : ended.map Prod.fst = s.done
  asks : ∀ r ∈ ongoing, Timely r.1.1 r.2 ∧ ∃ lo ≤ s.shared.1, r.1.1.since.1 ≤ lo ∧
    F.Asks r.1.1.task (post r.1.1) r.1.2 lo r.2
  fits : ∀ r ∈ ended, Timely r.1.1 r.2 ∧ post r.1.1 r.1.2 r.2
  calls : (tr.filter Entry.isCall).Perm (callsOf ongoing ++ callsOf ended)

/-- From `s` to `s'` the history goes on with `ext`: the calls are of jobs that had not been
answered in `s`, or have begun since. -/
structure GoesOn (s s' : Pool ι (Nat × σ) α τ)
    (ongoing ongoing' : List ((Job τ (Nat × σ) × Prog ι (Nat × σ) α) × Option (Nat × O)))
    (ext : List (Entry (Job τ (Nat × σ)) O)) : Prop where
  clock : s.shared.1 ≤ s'.shared.1
  later : ∀ e ∈ ext, s.shared.1 ≤ e.time
  askers : ∃ new, s'.begun = new ++ s.begun ∧
    (Entry.args ext ++ waiting ongoing').Subperm (waiting ongoing ++ new)

section Accounts

variable {β : Type*} {job : Job τ (Nat × σ)} {b : β} {answer : Nat × O}
  {pre rest : List ((Job τ (Nat × σ) × β) × Option (Nat × O))}

@[simp] theorem callsOf_nil :
    callsOf ([] : List ((Job τ (Nat × σ) × β) × Option (Nat × O))) = [] := rfl

@[simp] theorem callsOf_append : callsOf (pre ++ rest) = callsOf pre ++ callsOf rest :=
  List.filterMap_append ..

@[simp] theorem callsOf_cons (c : Option (Nat × O)) :
    callsOf (((job, b), c) :: rest) = (callOf job c).toList ++ callsOf rest := by
  cases c <;> rfl

@[simp] theorem waiting_nil :
    waiting ([] : List ((Job τ (Nat × σ) × β) × Option (Nat × O))) = [] := rfl

@[simp] theorem waiting_append : waiting (pre ++ rest) = waiting pre ++ waiting rest :=
  List.filterMap_append ..

@[simp] theorem waiting_cons_none : waiting (((job, b), none) :: rest) = job :: waiting rest := rfl

@[simp] theorem waiting_cons_some :
    waiting (((job, b), some answer) :: rest) = waiting rest := rfl

end Accounts

/-! ## One step -/

variable {prog : τ → Prog ι (Nat × σ) α} {post : Job τ (Nat × σ) → α → Option (Nat × O) → Prop}
  {d₀ : D} {s s' s'' : Pool ι (Nat × σ) α τ} {tr ext ext' : List (Entry (Job τ (Nat × σ)) O)}
  {ongoing ongoing' ongoing'' : List ((Job τ (Nat × σ) × Prog ι (Nat × σ) α) × Option (Nat × O))}
  {ended ended' : List ((Job τ (Nat × σ) × α) × Option (Nat × O))}

theorem GoesOn.refl : GoesOn s s ongoing ongoing [] where
  clock := Nat.le_refl _
  later := nofun
  askers := ⟨[], rfl, by rw [Entry.args_nil, List.nil_append, List.append_nil]⟩

theorem GoesOn.trans (h : GoesOn s s' ongoing ongoing' ext)
    (h' : GoesOn s' s'' ongoing' ongoing'' ext') :
    GoesOn s s'' ongoing ongoing'' (ext ++ ext') := by
  obtain ⟨new, hbegun, haskers⟩ := h.askers
  obtain ⟨new', hbegun', haskers'⟩ := h'.askers
  refine ⟨h.clock.trans h'.clock, fun e he => ?_, new' ++ new, ?_, ?_⟩
  · rcases List.mem_append.mp he with he | he
    · exact h.later e he
    · exact h.clock.trans (h'.later e he)
  · rw [hbegun', hbegun, List.append_assoc]
  · have hrest := (List.subperm_append_left (Entry.args ext)).mpr haskers'
    rw [← List.append_assoc (Entry.args ext) (waiting ongoing')] at hrest
    rw [Entry.args_append, List.append_assoc]
    refine (hrest.trans ((List.subperm_append_right new').mpr haskers)).trans ?_
    rw [List.append_assoc]
    exact (List.perm_append_comm.append_left (waiting ongoing)).subperm

/-- A job that begins has not been answered. -/
theorem Explained.start (hprog : ∀ (job : Job τ (Nat × σ)) lo, F.Asks job.task (post job) (prog job.task) lo none)
    (h : F.Explained post d₀ s tr ongoing ended) (task : τ) :
    ∃ ongoing', F.Explained post d₀ { s with
        running := (⟨task, s.shared⟩, prog task) :: s.running
        begun := ⟨task, s.shared⟩ :: s.begun } (tr ++ []) ongoing' ended ∧
      GoesOn s { s with
        running := (⟨task, s.shared⟩, prog task) :: s.running
        begun := ⟨task, s.shared⟩ :: s.begun } ongoing ongoing' [] := by
  refine ⟨((⟨task, s.shared⟩, prog task), none) :: ongoing, ⟨?_, ?_, h.done, ?_, h.fits, ?_⟩,
    Nat.le_refl _, nofun, [⟨task, s.shared⟩], rfl, ?_⟩
  · rw [List.append_nil]
    exact h.run
  · rw [List.map_cons, h.running]
  · intro r hr
    rcases List.mem_cons.mp hr with rfl | hr
    · exact ⟨nofun, _, Nat.le_refl _, Nat.le_refl _, hprog ⟨task, s.shared⟩ _⟩
    · exact h.asks r hr
  · rw [List.append_nil, callsOf_cons]
    exact h.calls
  · rw [waiting_cons_none, Entry.args_nil, List.nil_append]
    exact (List.perm_append_singleton _ _).symm.subperm

section Act

variable {apre apost : List ((Job τ (Nat × σ) × Prog ι (Nat × σ) α) × Option (Nat × O))}
  {job : Job τ (Nat × σ)} {p p' : Prog ι (Nat × σ) α} {c c' : Option (Nat × O)} {shared : Nat × σ}

/-- A job has made an access: for the others, only time has passed. -/
theorem Explained.resume (h : F.Explained post d₀ s tr (apre ++ ((job, p), c) :: apost) ended)
    (hclock : s.shared.1 ≤ shared.1)
    (hrun : ∃ d, ∃ c₀ ≤ shared.1, F.byJobs.Run d₀ (tr ++ ext) c₀ d ∧ F.shows d shared)
    (htimely : Timely job c') (hsince : job.since.1 ≤ shared.1)
    (hasks : F.Asks job.task (post job) p' shared.1 c')
    (hcalls : ((tr ++ ext).filter Entry.isCall).Perm
      (callsOf (apre ++ ((job, p'), c') :: apost) ++ callsOf ended)) :
    F.Explained post d₀
      { s with running := apre.map Prod.fst ++ (job, p') :: apost.map Prod.fst, shared }
      (tr ++ ext) (apre ++ ((job, p'), c') :: apost) ended := by
  refine ⟨hrun, ?_, h.done, fun r hr => ?_, h.fits, hcalls⟩
  · rw [List.map_append, List.map_cons]
  · rcases Pool.mem_middle ((job, p), c) hr with rfl | hr
    · exact ⟨htimely, _, Nat.le_refl _, hsince, hasks⟩
    · obtain ⟨htimely', lo, hlo, hrest⟩ := h.asks r hr
      exact ⟨htimely', lo, hlo.trans hclock, hrest⟩

/-- The access of a job is nothing to the component, a sweep, or the job's call. -/
theorem Explained.act (h : F.Explained post d₀ s tr ongoing ended)
    {pre rest : List (Job τ (Nat × σ) × Prog ι (Nat × σ) α)} {β : Type}
    {access : ι → Nat × σ → Checked (β × (Nat × σ))} {k : β → Prog ι (Nat × σ) α} {i : ι} {b : β}
    (hat : s.running = pre ++ (job, .act access k) :: rest)
    (haccess : access i s.shared = .ok (b, shared)) :
    ∃ ext ongoing', F.Explained post d₀
        { s with running := pre ++ (job, k b) :: rest, shared } (tr ++ ext) ongoing' ended ∧
      GoesOn s { s with running := pre ++ (job, k b) :: rest, shared } ongoing ongoing' ext := by
  obtain ⟨apre, c, apost, rfl, rfl, rfl⟩ := Pool.exists_account (h.running.trans hat)
  obtain ⟨htimely, lo, hlo, hsince, hjob⟩ :=
    h.asks _ (List.mem_append_right _ (List.mem_cons_self ..))
  obtain ⟨d, c₀, hc₀, hrun, hshows⟩ := h.run
  have hcalls := h.calls
  rcases hjob i s.shared b shared hlo haccess with ⟨⟨hclock, hspares⟩, hrest⟩ | ⟨rfl, o, hgets, hrest⟩
  · have hwaiting : waiting (apre ++ ((job, k b), c) :: apost)
        = waiting (apre ++ ((job, .act access k), c) :: apost) := by
      cases c <;> simp
    rcases hspares d hshows with hkeep | hsweep
    · refine ⟨[], _, h.resume hclock ⟨d, c₀, hc₀.trans hclock, ?_, hkeep⟩ htimely
        (hsince.trans (hlo.trans hclock)) hrest ?_, hclock, nofun, [], rfl, ?_⟩
      · rwa [List.append_nil]
      · simpa using hcalls
      · rw [hwaiting, Entry.args_nil, List.nil_append, List.append_nil]
    · refine ⟨[.sweep shared.1], _, h.resume hclock ⟨_, shared.1, Nat.le_refl _, ?_, hsweep⟩
        htimely (hsince.trans (hlo.trans hclock)) hrest ?_, hclock, fun e he => ?_, [], rfl, ?_⟩
      · exact hrun.sweep (hc₀.trans hclock)
      · simpa [Entry.isCall] using hcalls
      · rw [List.mem_singleton.mp he]
        exact hclock
      · rw [hwaiting, List.append_nil]
        exact List.Subperm.refl _
  · have hclock := hgets.1
    obtain ⟨d', hinspect, hshows'⟩ := hgets.inspect hshows
    refine ⟨[.inspect shared.1 job o], _, h.resume hclock ⟨d', shared.1, Nat.le_refl _, ?_, hshows'⟩
      ?_ (hsince.trans (hlo.trans hclock)) hrest ?_, hclock, fun e he => ?_, [], rfl, ?_⟩
    · exact hrun.inspect (hc₀.trans hclock) hinspect
    · rintro t o' ⟨⟩
      exact hsince.trans (hlo.trans hclock)
    · -- the call is in the middle of those of the jobs at work
      rw [List.filter_append]
      refine (hcalls.append_right [.inspect shared.1 job o]).trans ?_
      simp only [callsOf_append, callsOf_cons, List.append_assoc]
      refine List.Perm.append_left _ ?_
      show ([] ++ _ : List _).Perm _
      rw [List.nil_append, ← List.append_assoc]
      exact List.perm_append_comm
    · rw [List.mem_singleton.mp he]
      exact hclock
    · rw [List.append_nil, waiting_append, waiting_append, waiting_cons_none, waiting_cons_some]
      exact (List.perm_middle.symm : (job :: (waiting apre ++ waiting apost)).Perm _).subperm

end Act

/-- A job that is done keeps what it was answered. -/
theorem Explained.finish (h : F.Explained post d₀ s tr ongoing ended)
    {pre rest : List (Job τ (Nat × σ) × Prog ι (Nat × σ) α)} {job : Job τ (Nat × σ)} {a : α}
    (hat : s.running = pre ++ (job, .ret a) :: rest) :
    ∃ ongoing' ended', F.Explained post d₀
        { s with running := pre ++ rest, done := (job, a) :: s.done } (tr ++ []) ongoing' ended' ∧
      GoesOn s { s with running := pre ++ rest, done := (job, a) :: s.done } ongoing ongoing'
        [] := by
  obtain ⟨apre, c, apost, rfl, rfl, rfl⟩ := Pool.exists_account (h.running.trans hat)
  obtain ⟨htimely, lo, -, -, hpost⟩ := h.asks _ (List.mem_append_right _ (List.mem_cons_self ..))
  refine ⟨apre ++ apost, ((job, a), c) :: ended, ⟨?_, ?_, ?_, fun r hr => h.asks r ?_, ?_, ?_⟩,
    Nat.le_refl _, nofun, [], rfl, ?_⟩
  · rw [List.append_nil]
    exact h.run
  · rw [List.map_append]
  · rw [List.map_cons, h.done]
  · exact (List.sublist_cons_self _ apost).append_left apre |>.subset hr
  · intro r hr
    rcases List.mem_cons.mp hr with rfl | hr
    · exact ⟨htimely, hpost⟩
    · exact h.fits r hr
  · rw [List.append_nil]
    refine h.calls.trans ?_
    simp only [callsOf_append, callsOf_cons, List.append_assoc]
    exact (List.perm_append_comm_assoc _ _ _).append_left _
  · rw [Entry.args_nil, List.nil_append, List.append_nil]
    refine List.Sublist.subperm (List.Sublist.filterMap _ ?_)
    exact (List.sublist_cons_self _ apost).append_left apre

theorem Explained.step
    (hprog : ∀ (job : Job τ (Nat × σ)) lo, F.Asks job.task (post job) (prog job.task) lo none)
    (h : F.Explained post d₀ s tr ongoing ended) (hstep : Pool.Step prog s s') :
    ∃ ext ongoing' ended', F.Explained post d₀ s' (tr ++ ext) ongoing' ended' ∧
      GoesOn s s' ongoing ongoing' ext := by
  cases hstep with
  | start task =>
    obtain ⟨ongoing', hstart⟩ := h.start hprog task
    exact ⟨[], ongoing', ended, hstart⟩
  | act hat haccess =>
    obtain ⟨ext, ongoing', hact⟩ := h.act hat haccess
    exact ⟨ext, ongoing', ended, hact⟩
  | finish hat =>
    obtain ⟨ongoing', ended', hfinish⟩ := h.finish hat
    exact ⟨[], ongoing', ended', hfinish⟩

/-! ## Runs -/

variable {s₀ : Nat × σ}

/-- **A history goes on**: along a run, the history of the component is extended by calls of
jobs that had not been answered, or have begun since. -/
theorem Explained.leads
    (hprog : ∀ (job : Job τ (Nat × σ)) lo, F.Asks job.task (post job) (prog job.task) lo none)
    (h : F.Explained post d₀ s tr ongoing ended) (hleads : (Pool.system prog s₀).Leads s s') :
    ∃ ext ongoing' ended', F.Explained post d₀ s' (tr ++ ext) ongoing' ended' ∧
      GoesOn s s' ongoing ongoing' ext := by
  refine hleads.invariant (P := fun s' => ∃ ext ongoing' ended',
    F.Explained post d₀ s' (tr ++ ext) ongoing' ended' ∧ GoesOn s s' ongoing ongoing' ext) ?_ ?_
  · rintro t t' ⟨ext, ongoing', ended', hexplained, hgoes⟩ hstep
    obtain ⟨ext', ongoing'', ended'', hexplained', hgoes'⟩ := hexplained.step hprog hstep
    rw [List.append_assoc] at hexplained'
    exact ⟨ext ++ ext', ongoing'', ended'', hexplained', hgoes.trans hgoes'⟩
  · refine ⟨[], ongoing, ended, ?_, .refl⟩
    rwa [List.append_nil]

/-- **Linearization**: in every interleaving there is a history of the component that gives
each job what the job was answered. -/
theorem explained_of_reachable
    (hprog : ∀ (job : Job τ (Nat × σ)) lo, F.Asks job.task (post job) (prog job.task) lo none)
    (hd₀ : F.shows d₀ s₀) (h : (Pool.system prog s₀).Reachable s) :
    ∃ tr ongoing ended, F.Explained post d₀ s tr ongoing ended := by
  obtain ⟨p, rfl, hleads⟩ := h
  have hstart : F.Explained post d₀ (⟨s₀, [], [], []⟩ : Pool ι (Nat × σ) α τ) [] [] [] :=
    ⟨⟨d₀, 0, Nat.zero_le _, .nil, hd₀⟩, rfl, rfl, nofun, nofun, .nil⟩
  obtain ⟨ext, ongoing, ended, hexplained, -⟩ := hstart.leads hprog hleads
  exact ⟨_, ongoing, ended, hexplained⟩

/-! ## What a history tells -/

/-- It is a history of the component. -/
theorem Explained.history_run (h : F.Explained post d₀ s tr ongoing ended) :
    ∃ d, ∃ c ≤ s.shared.1, C.Run d₀ (F.history tr) c d ∧ F.shows d s.shared := by
  obtain ⟨d, c, hc, hrun, hshows⟩ := h.run
  obtain ⟨c', hc', hrun'⟩ := hrun.of_onBehalf
  exact ⟨d, c', hc'.trans hc, hrun', hshows⟩

theorem sum_filterMap {γ δ : Type} (f : γ → Option δ) (g : δ → Nat) (l : List γ) :
    ((l.filterMap f).map g).sum = (l.map fun x => ((f x).map g).getD 0).sum := by
  induction l with
  | nil => rfl
  | cons x l ih =>
    rw [List.filterMap_cons, List.map_cons, List.sum_cons, ← ih]
    cases f x with
    | none => exact (Nat.zero_add _).symm
    | some y => rfl

/-- **The results claim no more than the history is worth**, if each of them claims no more
than its job's call is worth. -/
theorem Explained.claimed_le (h : F.Explained post d₀ s tr ongoing ended)
    {claim : Job τ (Nat × σ) → α → Nat} {worth : Entry A O → Nat}
    (hclaim : ∀ job a c, Timely job c → post job a c →
      claim job a ≤ ((F.seen job.task c).map worth).getD 0) :
    Pool.claimed claim s ≤ ((F.history tr).map worth).sum := by
  -- what the call of a job is worth
  let value : Entry (Job τ (Nat × σ)) O → Nat := fun e =>
    ((Entry.project (Component.question fun job => F.asks job.task) e).map worth).getD 0
  have hvalue : ∀ (job : Job τ (Nat × σ)) c, ((F.seen job.task c).map worth).getD 0
      = ((callOf job c).toList.map value).sum := by
    intro job c
    cases c with
    | none => rfl
    | some answer =>
      show _ = (((F.asks job.task).map fun a => (a, answer.2)).map _ |>.map worth).getD 0 + 0
      rw [seen, Option.bind_some, Nat.add_zero]
      cases F.asks job.task <;> rfl
  have hended : Pool.claimed claim s ≤ ((callsOf ended).map value).sum := by
    have hfits := h.fits
    rw [Pool.claimed, ← h.done]
    clear h
    induction ended with
    | nil => exact Nat.le_refl _
    | cons r rest ih =>
      obtain ⟨⟨job, a⟩, c⟩ := r
      obtain ⟨htimely, hpost⟩ := hfits _ (List.mem_cons_self ..)
      have hrest := ih fun r hr => hfits r (List.mem_cons_of_mem _ hr)
      rw [callsOf_cons, List.map_append, List.sum_append, List.map_cons, List.map_cons,
        List.sum_cons, ← hvalue]
      exact Nat.add_le_add (hclaim job a c htimely hpost) hrest
  have hcalls := (h.calls.map value).sum_nat
  rw [List.map_append, List.sum_append] at hcalls
  have hfilter : ((tr.filter Entry.isCall).map value).sum ≤ (tr.map value).sum :=
    List.Sublist.sum_le_sum (List.filter_sublist.map value) fun _ _ => Nat.zero_le _
  rw [history, sum_filterMap]
  show _ ≤ (tr.map value).sum
  omega

end Front

end Ocellus
