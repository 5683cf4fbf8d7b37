import Ocellus.Base.TimedProgram

/-!
# What a swept store remembers

A shared store of slots, each of them empty or with the times at which something was
recorded in it. Jobs take turns to record things in the slots that are theirs, and some
jobs sweep the store: they drop what is older than `ttl`.

When a sweep is done that was begun at least `ttl` after some moment, what was recorded up
to this moment is gone: a slot that is still in use belongs to a job that was at work then
or has begun since (`Stamps.recent_of_held`). This is so in every interleaving, and whatever
else the jobs do.
-/

namespace Ocellus

namespace Stamps

/-! ## One slot -/

section Slot

variable {young ttl now c lo : Nat} {fills : Prop} {o o' : Option (List Nat)}

/-- What an access at time `now` does to the times of a slot. If it records something, it
drops what is `young` no more. -/
inductive Touch (young now : Nat) (fills : Prop) : Option (List Nat) → Option (List Nat) → Prop where
  | same (o : Option (List Nat)) : Touch young now fills o o
  | clear (o : Option (List Nat)) : Touch young now fills o none
  | shrink {ts ts' : List Nat} : ts' ≠ [] → ts' ⊆ ts → Touch young now fills (some ts) (some ts')
  | record {o : Option (List Nat)} {ts : List Nat} : fills → ts ≠ [] →
      (∀ t ∈ ts, now < t + young ∧ (t = now ∨ t ∈ o.getD [])) → Touch young now fills o (some ts)

/-- A slot in use has a time, and none that is yet to come. -/
def Dated (c : Nat) (o : Option (List Nat)) : Prop := ∀ ts, o = some ts → ts ≠ [] ∧ ∀ t ∈ ts, t ≤ c

/-- Nothing in the slot was `ttl` old at `lo`. -/
def Fresh (ttl lo : Nat) (o : Option (List Nat)) : Prop := ∀ ts, o = some ts → ∀ t ∈ ts, lo < t + ttl

theorem Dated.mono (h : Dated c o) (hc : c ≤ now) : Dated now o := by
  intro ts hts
  obtain ⟨hne, hle⟩ := h ts hts
  exact ⟨hne, fun t ht => (hle t ht).trans hc⟩

theorem Dated.touch (h : Dated c o) (hc : c ≤ now) (ht : Touch young now fills o o') :
    Dated now o' := by
  cases ht with
  | same => exact h.mono hc
  | clear => exact fun ts hts => nomatch hts
  | shrink hne hsub =>
    rintro _ ⟨⟩
    exact ⟨hne, fun t ht => ((h _ rfl).2 t (hsub ht)).trans hc⟩
  | record _ hne hts =>
    rintro _ ⟨⟩
    refine ⟨hne, fun t ht => ?_⟩
    rcases (hts t ht).2 with rfl | hold
    · exact Nat.le_refl _
    · cases o with
      | none => cases hold
      | some ts => exact ((h _ rfl).2 t hold).trans hc

theorem Fresh.touch (h : Fresh ttl lo o) (hyoung : young ≤ ttl) (hlo : lo ≤ now)
    (ht : Touch young now fills o o') : Fresh ttl lo o' := by
  cases ht with
  | same => exact h
  | clear => exact fun ts hts => nomatch hts
  | shrink _ hsub =>
    rintro _ ⟨⟩ t ht
    exact h _ rfl t (hsub ht)
  | record _ _ hts =>
    rintro _ ⟨⟩ t ht
    have hnow := (hts t ht).1
    omega

/-- All that is in the slot was recorded by `c`. -/
def OldBy (c : Nat) (o : Option (List Nat)) : Prop := ∀ ts, o = some ts → ∀ t ∈ ts, t ≤ c

theorem OldBy.touch (h : OldBy c o) (ht : Touch young now fills o o') : OldBy c o' ∨ fills := by
  cases ht with
  | same => exact .inl h
  | clear => exact .inl fun ts hts => nomatch hts
  | shrink _ hsub =>
    left
    rintro _ ⟨⟩ t ht
    exact h _ rfl t (hsub ht)
  | record hfills _ _ => exact .inr hfills

/-- What is old is not fresh much later. -/
theorem eq_none_of_oldBy (hdated : Dated now o) (hold : OldBy c o) (hfresh : Fresh ttl lo o)
    (hlo : c + ttl ≤ lo) : o = none := by
  cases o with
  | none => rfl
  | some ts =>
    obtain ⟨t, ht⟩ := List.exists_mem_of_ne_nil ts (hdated ts rfl).1
    have hle := hold ts rfl t ht
    have hlt := hfresh ts rfl t ht
    omega

end Slot

/-! ## A store that jobs share -/

section Store

variable {ι σ α τ κ : Type}

/-- A clocked store: the times in its slots, and the slots that are a task's. -/
structure Store (σ τ κ : Type) where
  stamps : σ → κ → Option (List Nat)
  fills : τ → κ → Prop
  young : Nat
  ttl : Nat
  young_le : young ≤ ttl

variable (S : Store σ τ κ)

/-- What an access of a task does. -/
def Store.Touches (task : τ) (s s' : Nat × σ) : Prop :=
  s.1 ≤ s'.1 ∧ ∀ k, Touch S.young s'.1 (S.fills task k) (S.stamps s.2 k) (S.stamps s'.2 k)

def Store.IsDated (s : Nat × σ) : Prop := ∀ k, Dated s.1 (S.stamps s.2 k)

/-- What others do. -/
def Store.Others (s s' : Nat × σ) : Prop := ∃ task, S.Touches task s s'

/-- The slots in `K` hold nothing that was too old at `lo`. -/
def Store.FreshOn (K : κ → Prop) (lo : Nat) (s : Nat × σ) : Prop :=
  lo ≤ s.1 ∧ ∀ k, K k → Fresh S.ttl lo (S.stamps s.2 k)

/-- The tasks that `cleans` says sweep the store, and no task does more than it may. -/
def Store.Swept (cleans : τ → Prop) (prog : τ → Prog ι (Nat × σ) α) : Prop :=
  ∀ (task : τ) (lo : Nat), Prog.Sat (fun s s' => S.IsDated s ∧ S.Others s s') (S.Touches task)
    (fun _ s' => cleans task → S.FreshOn (fun _ => True) lo s') (prog task) fun s => lo ≤ s.1

variable {S} {s s' : Nat × σ} {K : κ → Prop} {lo : Nat} {task : τ}

theorem Store.IsDated.touches (h : S.IsDated s) (ht : S.Touches task s s') : S.IsDated s' :=
  fun k => (h k).touch ht.1 (ht.2 k)

theorem Store.FreshOn.touches (h : S.FreshOn K lo s) (ht : S.Touches task s s') :
    S.FreshOn K lo s' :=
  ⟨h.1.trans ht.1, fun k hk => (h.2 k hk).touch S.young_le (h.1.trans ht.1) (ht.2 k)⟩

theorem Store.stable_freshOn (K : κ → Prop) (lo : Nat) :
    Prog.Stable (fun s s' => S.IsDated s ∧ S.Others s s') (S.FreshOn K lo) := by
  rintro s s' h ⟨-, task, ht⟩
  exact h.touches ht

theorem Store.stable_clock (lo : Nat) :
    Prog.Stable (fun s s' => S.IsDated s ∧ S.Others s s') fun s : Nat × σ => lo ≤ s.1 := by
  rintro s s' h ⟨-, task, ht⟩
  exact Nat.le_trans h ht.1

/-! ## Runs -/

variable {prog : τ → Prog ι (Nat × σ) α} {cleans : τ → Prop} {s₀ : Nat × σ}
  {p p' : Pool ι (Nat × σ) α τ}

theorem Store.Swept.judgment (h : S.Swept cleans prog) :
    Pool.Judgment prog S.IsDated S.Others (fun job => S.Touches job.task)
      (fun job _ s' => cleans job.task → S.FreshOn (fun _ => True) job.since.1 s') where
  keeps _ _ _ hs ht := ⟨⟨_, ht⟩, hs.touches ht⟩
  sat job _ := ⟨_, Nat.le_refl _, h job.task job.since.1⟩
  stable _ _ s s' hpost hothers hcleans := S.stable_freshOn _ _ s s' (hpost hcleans) hothers

/-- A job that is at work in `p`, or has begun no earlier. -/
def IsRecent (p : Pool ι (Nat × σ) α τ) (job : Job τ (Nat × σ)) : Prop :=
  (∃ r ∈ p.running, r.1 = job) ∨ p.shared.1 ≤ job.since.1

/-- The slots of recent jobs. -/
def recentSlots (S : Store σ τ κ) (p p' : Pool ι (Nat × σ) α τ) : Set κ :=
  {k | ∃ job ∈ p'.begun, IsRecent p job ∧ S.fills job.task k}

/-- The slots in use. -/
def heldSlots (S : Store σ τ κ) (s : σ) : Set κ := {k | (S.stamps s k).isSome = true}

/-- What is in a slot was there in `p`, or the slot is one of recent jobs; and only recent
jobs are at work. -/
structure Remembers (S : Store σ τ κ) (p p' : Pool ι (Nat × σ) α τ) : Prop where
  clock : p.shared.1 ≤ p'.shared.1
  slots : ∀ k, OldBy p.shared.1 (S.stamps p'.shared.2 k) ∨ k ∈ recentSlots S p p'
  running : ∀ r ∈ p'.running, IsRecent p r.1

theorem Remembers.self (h : S.IsDated p.shared) : Remembers S p p where
  clock := Nat.le_refl _
  slots k := .inl fun ts hts t ht => (h k ts hts).2 t ht
  running r hr := .inl ⟨r, hr, rfl⟩

theorem Remembers.moves {q : Pool ι (Nat × σ) α τ} (h : Remembers S p p')
    (hmoves : Pool.Moves (fun job => S.Touches job.task) p' q) : Remembers S p q := by
  have hslots : ∀ k, k ∈ recentSlots S p p' → k ∈ recentSlots S p q := by
    rintro k ⟨job, hjob, hrecent⟩
    exact ⟨job, hmoves.begun hjob, hrecent⟩
  refine ⟨?_, fun k => ?_, fun r hr => ?_⟩
  · rcases hmoves.shared with heq | ⟨r, -, -, ht⟩
    · exact heq ▸ h.clock
    · exact h.clock.trans ht.1
  · rcases h.slots k with hold | hrecent
    · rcases hmoves.shared with heq | ⟨r, hr, hbegun, ht⟩
      · exact heq ▸ .inl hold
      · rcases hold.touch (ht.2 k) with hold | hfills
        · exact .inl hold
        · exact .inr ⟨r.1, hmoves.begun hbegun, h.running r hr, hfills⟩
    · exact .inr (hslots k hrecent)
  · rcases hmoves.running r hr with ⟨r', hr', heq⟩ | hsince
    · exact heq ▸ h.running r' hr'
    · exact .inr (hsince ▸ h.clock)

/-- **What was recorded up to some moment is forgotten** when a sweep is done that was
begun `ttl` later: the slots in use are those of jobs that were at work at this moment,
or have begun since. -/
theorem recent_of_held (hprog : S.Swept cleans prog) (hs₀ : S.IsDated s₀)
    (h : (Pool.system prog s₀).Reachable p) (hleads : (Pool.system prog s₀).Leads p p')
    {job : Job τ (Nat × σ)} {a : α} (hdone : (job, a) ∈ p'.done) (hcleans : cleans job.task)
    (hlate : p.shared.1 + S.ttl ≤ job.since.1) :
    heldSlots S p'.shared.2 ⊆ recentSlots S p p' := by
  have hjudgment := hprog.judgment
  have hplaced := Pool.placed_of_reachable hjudgment hs₀ h
  obtain ⟨q, hq, hqp⟩ := h
  have hplaced' := Pool.placed_of_reachable hjudgment hs₀ ⟨q, hq, hqp.trans hleads⟩
  have hremembers : Remembers S p p' :=
    hplaced.leads hjudgment (fun q q' _ hq hmoves => hq.moves hmoves) (.self hplaced.holds) hleads
  have hfresh := (hplaced'.done _ hdone).2 hcleans
  intro k hheld
  rcases hremembers.slots k with hold | hrecent
  · have hnone := eq_none_of_oldBy (hplaced'.holds k) hold (hfresh.2 k trivial) hlate
    rw [heldSlots, Set.mem_ofPred_eq, hnone] at hheld
    cases hheld
  · exact hrecent

end Store

end Stamps

end Ocellus
