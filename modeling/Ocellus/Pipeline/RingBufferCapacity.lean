import Ocellus.Pipeline.RingBufferHistory

/-!
# The capacity of a ring buffer

A buffer made for at least one item never holds more than its capacity, and its
counter is the number of items lost. `RingBuffer::new` takes a capacity of 0 as
well, and there both fail with the first push (`bounded_iff`): the empty buffer is
"full", so that a push counts an item as dropped when there is none, and its item
goes in; while items are there, the length is past the capacity, and pushes drop none.
-/

namespace Ocellus

namespace RingBuffer

universe u

variable {τ : Type u} {η : Type} {cap : Nat} {tr : History η τ} {r r' : RingBuffer τ}
  {e : Event τ}

/-- The buffer holds at most `cap` items, and has counted those that were pushed
and are neither delivered nor buffered. -/
structure Bounded (cap : Nat) (tr : History η τ) (r : RingBuffer τ) : Prop where
  room : r.buf.length ≤ cap
  losses : ∃ lost : List τ, tr.pushed.Perm (lost ++ tr.delivered ++ r.buf) ∧
    r.dropped = lost.length

theorem Follows.bounded (h : Follows cap tr r) : Bounded cap tr r := by
  refine ⟨h.room, (tr.ledger cap).met .dropped, ?_, h.dropped.symm⟩
  rw [← h.pushed, ← h.delivered, ← h.held]
  exact Ledger.entered_perm _

/-! ## Without room for an item -/

/-- Nothing is ever lost, but the first push is counted as a loss. -/
structure Hoards (tr : History η τ) (r : RingBuffer τ) : Prop where
  capacity : r.cap = 0
  kept : tr.pushed = tr.delivered ++ r.buf
  counted : r.dropped = 0 ↔ tr.pushed = []

/-- What leaves the buffer without a push is handed out. -/
theorem Event.Did.hands_out (hdid : e.Did r r') (hpush : e.pushed = []) :
    r.buf = e.delivered ++ r'.buf ∧ r'.cap = r.cap ∧ r'.dropped = r.dropped := by
  cases e with
  | push item n => cases hpush
  | tryPop got =>
    cases hdid
    refine ⟨?_, rfl, rfl⟩
    show r.buf = r.buf.head?.toList ++ r.buf.tail
    cases r.buf <;> rfl
  | popBlocking got =>
    obtain rfl : r.popBlocking.1 = got := congrArg Prod.fst hdid
    obtain rfl : r.popBlocking.2 = r' := congrArg Prod.snd hdid
    refine ⟨?_, popBlocking_cap r, by rw [popBlocking_frame]⟩
    cases hbuf : r.buf with
    | cons x rest =>
      rw [popBlocking_of_cons hbuf]
      rfl
    | nil =>
      rw [popBlocking_of_nil hbuf]
      cases r.closed
      · exact hbuf.symm
      · exact hbuf.symm
  | drainBatch max got =>
    cases hdid
    exact ⟨(drainBatch_append max r).symm, rfl, rfl⟩
  | close =>
    obtain rfl := hdid
    exact ⟨rfl, rfl, rfl⟩
  | stats len dropped =>
    obtain ⟨-, rfl⟩ := hdid
    exact ⟨rfl, rfl, rfl⟩

theorem Hoards.push (h : Hoards tr r) {item : τ} {n : Nat} (who : η)
    (hpush : r.push item = .ok (n, r')) : Hoards (tr ++ [(who, .push item n)]) r' := by
  obtain ⟨-, rfl⟩ := push_eq_ok hpush
  -- the buffer is "full" only when it is empty, and then there is nothing to drop
  have htail : (if r.buf.length = r.cap then r.buf.tail else r.buf) = r.buf := by
    split
    · rename_i hfull
      rw [List.length_eq_zero_iff.mp (hfull.trans h.capacity), List.tail_nil]
    · rfl
  refine ⟨h.capacity, ?_, ?_⟩
  · rw [History.pushed_concat, History.delivered_concat, htail, h.kept]
    simp [Event.pushed, Event.delivered]
  · refine iff_of_false (fun hzero => ?_) fun hpushed => ?_
    · obtain ⟨hdropped, hcount⟩ := Nat.add_eq_zero_iff.mp hzero
      have hkept := h.kept.symm.trans (h.counted.mp hdropped)
      obtain ⟨-, hbuf⟩ := List.append_eq_nil_iff.mp hkept
      rw [if_pos (by rw [hbuf, h.capacity, List.length_nil])] at hcount
      cases hcount
    · rw [History.pushed_concat] at hpushed
      exact List.cons_ne_nil _ _ (List.append_eq_nil_iff.mp hpushed).2

theorem Hoards.did (h : Hoards tr r) (who : η) (hdid : e.Did r r') :
    Hoards (tr ++ [(who, e)]) r' := by
  by_cases hpush : e.pushed = []
  · obtain ⟨hbuf, hcap, hdropped⟩ := hdid.hands_out hpush
    have hpushed : History.pushed (tr ++ [(who, e)]) = tr.pushed := by
      rw [History.pushed_concat, hpush, List.append_nil]
    refine ⟨hcap.trans h.capacity, ?_, ?_⟩
    · rw [hpushed, History.delivered_concat, List.append_assoc, ← hbuf, h.kept]
    · rw [hpushed, hdropped]
      exact h.counted
  · cases e with
    | push item n => exact h.push who hdid
    | tryPop _ | popBlocking _ | drainBatch _ _ | close | stats _ _ => exact absurd rfl hpush

theorem Run.hoards (h : Run η 0 tr r) : Hoards tr r := by
  induction h with
  | new => exact ⟨rfl, rfl, iff_of_true rfl rfl⟩
  | step who _ hdid ih => exact ih.did who hdid

/-- With nothing lost, the counter should be at 0. -/
theorem Hoards.bounded_iff_pushed (h : Hoards tr r) : Bounded 0 tr r ↔ tr.pushed = [] := by
  constructor
  · rintro ⟨-, lost, hperm, hdropped⟩
    have hlength := hperm.length_eq
    rw [h.kept] at hlength
    simp only [List.length_append] at hlength
    exact h.counted.mp (by omega)
  · intro hpushed
    obtain ⟨hdelivered, hbuf⟩ := List.append_eq_nil_iff.mp (h.kept.symm.trans hpushed)
    refine ⟨by rw [hbuf, List.length_nil], [], ?_, h.counted.mpr hpushed⟩
    rw [hpushed, hdelivered, hbuf, List.nil_append, List.nil_append]

/-! ## Every capacity -/

/-- **When a buffer is bounded and counts its losses**: in the states of all runs of
a buffer for at least one item, and of a buffer for none until something is pushed. -/
theorem bounded_iff (h : Run η cap tr r) : Bounded cap tr r ↔ 1 ≤ cap ∨ tr.pushed = [] := by
  rcases Nat.eq_zero_or_pos cap with rfl | hcap
  · rw [h.hoards.bounded_iff_pushed]
    constructor
    · exact .inr
    · rintro (hcap | hpushed)
      · exact absurd hcap (Nat.not_succ_le_zero 0)
      · exact hpushed
  · exact iff_of_true (h.follows hcap).bounded (.inl hcap)

/-- A buffer for one item, after two pushes and a pop. -/
theorem bounded_iff_twoPushes : Bounded 1 twoPushes ⟨[], 1, 1, false⟩ := by
  have hpush : Run Nat 1 [(0, .push 7 0)] ⟨[7], 1, 0, false⟩ := .step 0 .new rfl
  have hdrop : Run Nat 1 [(0, .push 7 0), (0, .push 8 1)] ⟨[8], 1, 1, false⟩ := .step 0 hpush rfl
  have hpop : Run Nat 1 twoPushes ⟨[], 1, 1, false⟩ := .step 1 hdrop rfl
  exact (bounded_iff hpop).mpr (.inl le_rfl)

/-- Two pushes into a buffer for nothing: both items are there, past the capacity,
and one counts as lost. -/
theorem not_bounded_zero_capacity :
    ∃ (tr : History Nat Nat) (r : RingBuffer Nat), Run Nat 0 tr r ∧
      tr.pushed = [7, 8] ∧ r.buf = [7, 8] ∧ r.dropped = 1 ∧ ¬ Bounded 0 tr r := by
  have hpush : Run Nat 0 [(0, .push 7 1)] ⟨[7], 0, 1, false⟩ := .step 0 .new rfl
  have hagain : Run Nat 0 [(0, .push 7 1), (0, .push 8 1)] ⟨[7, 8], 0, 1, false⟩ :=
    .step 0 hpush rfl
  refine ⟨_, _, hagain, rfl, rfl, rfl, fun hbounded => ?_⟩
  exact Nat.not_succ_le_zero 1 hbounded.room

end RingBuffer

end Ocellus
