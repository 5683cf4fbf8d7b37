import Ocellus.Base.Transition
import Ocellus.Pipeline.RingBuffer

/-!
# Waiting for packets (`ring_buffer.rs`)

Any number of threads on one ring buffer. `pop_blocking` waits on the condition variable
in the critical section in which it has found the buffer empty, and `push` notifies one
thread in the critical section in which it puts its packet in; but `close` notifies all
threads only after its critical section.

No wake-up is lost (`no_lost_wakeup`): as long as somebody waits, there are as many
threads awake in `pop_blocking` as there are packets. And after `close` all threads in
`pop_blocking` return, whatever the schedule (`close_releases`).
-/

namespace Ocellus

namespace RingBuffer

universe u

/-- A ring buffer and the threads in its functions. -/
structure Shared (τ : Type u) : Type u where
  buffer : RingBuffer τ
  /-- In `pop_blocking`, about to look at the buffer. -/
  looking : Nat
  /-- In `pop_blocking`, waiting on the condition variable. -/
  waiting : Nat
  /-- In `close`, about to notify. -/
  closing : Nat

namespace Shared

variable {τ : Type u}

/-- `cvar.notify_one()`: if a thread waits, one wakes up. -/
def notifyOne (s : Shared τ) : Shared τ :=
  match s.waiting with
  | 0 => s
  | waiting + 1 => { s with looking := s.looking + 1, waiting }

/-- `cvar.notify_all()`. -/
def notifyAll (s : Shared τ) : Shared τ :=
  { s with looking := s.looking + s.waiting, waiting := 0 }

/-- The threads in `pop_blocking` and `close` go on. -/
inductive Inside : Shared τ → Shared τ → Prop where
  | item {s : Shared τ} {n : Nat} {x : τ} : s.looking = n + 1 → s.buffer.popBlocking.1 = .item x →
      Inside s { s with looking := n, buffer := s.buffer.popBlocking.2 }
  | closed {s : Shared τ} {n : Nat} : s.looking = n + 1 → s.buffer.popBlocking.1 = .closed →
      Inside s { s with looking := n }
  | wait {s : Shared τ} {n : Nat} : s.looking = n + 1 → s.buffer.popBlocking.1 = .wait →
      Inside s { s with looking := n, waiting := s.waiting + 1 }
  | notifyAll {s : Shared τ} {n : Nat} : s.closing = n + 1 →
      Inside s (notifyAll { s with closing := n })

/-- A condition variable may wake up a thread without being notified. -/
inductive Spurious : Shared τ → Shared τ → Prop where
  | wake {s : Shared τ} {n : Nat} : s.waiting = n + 1 →
      Spurious s { s with looking := s.looking + 1, waiting := n }

/-- Nobody enters the buffer. -/
def Stays (s s' : Shared τ) : Prop := Inside s s' ∨ Spurious s s'

/-- Threads call the functions of the buffer at any time. -/
inductive Step : Shared τ → Shared τ → Prop where
  | inside {s s' : Shared τ} : Inside s s' → Step s s'
  | spurious {s s' : Shared τ} : Spurious s s' → Step s s'
  | popBlocking {s : Shared τ} : Step s { s with looking := s.looking + 1 }
  | push {s : Shared τ} {x : τ} {dropped : Nat} {buffer : RingBuffer τ} :
      s.buffer.push x = .ok (dropped, buffer) → Step s (notifyOne { s with buffer })
  | tryPop {s : Shared τ} : Step s { s with buffer := s.buffer.tryPop.2 }
  | drainBatch {s : Shared τ} {max : Nat} : Step s { s with buffer := (s.buffer.drainBatch max).2 }
  | close {s : Shared τ} : Step s { s with buffer := s.buffer.close, closing := s.closing + 1 }

/-- Any threads on a new buffer. -/
def system (τ : Type u) (cap : Nat) : TransitionSystem (Shared τ) where
  init s := s = ⟨.new cap, 0, 0, 0⟩
  step := Step

/-! ## Who is awake -/

/-- While somebody waits, there is a thread awake for each packet, and somebody about to
notify if the buffer is closed. -/
structure Awake (s : Shared τ) : Prop where
  packets : 0 < s.waiting → s.buffer.buf.length ≤ s.looking
  closed : 0 < s.waiting → s.buffer.closed = true → 0 < s.closing

variable {s s' : Shared τ} {cap : Nat}

/-- A thread that finds nothing waits, on an open buffer. -/
theorem popBlocking_eq_wait {r : RingBuffer τ} (h : r.popBlocking.1 = .wait) :
    r.buf = [] ∧ r.closed = false := by
  cases hbuf : r.buf with
  | cons x rest =>
    rw [popBlocking_of_cons hbuf] at h
    cases h
  | nil =>
    rw [popBlocking_of_nil hbuf] at h
    cases hclosed : r.closed with
    | false => exact ⟨rfl, rfl⟩
    | true =>
      rw [hclosed] at h
      cases h

/-- A thread that is told that the buffer is closed has found it empty. -/
theorem popBlocking_eq_closed {r : RingBuffer τ} (h : r.popBlocking.1 = .closed) : r.buf = [] := by
  cases hbuf : r.buf with
  | cons x rest =>
    rw [popBlocking_of_cons hbuf] at h
    cases h
  | nil => rfl

theorem Awake.inside (h : Awake s) (hstep : Inside s s') : Awake s' := by
  obtain ⟨hpackets, hclosed⟩ := h
  cases hstep with
  | item hlooking hpop =>
    have hbuf := popBlocking_eq_item hpop
    refine ⟨fun hwaiting => ?_, fun hwaiting hc => ?_⟩
    · have hle := hpackets hwaiting
      rw [hbuf, List.length_cons, hlooking] at hle
      exact Nat.le_of_succ_le_succ hle
    · exact hclosed hwaiting ((popBlocking_closed s.buffer).symm.trans hc)
  | closed hlooking hpop =>
    refine ⟨fun _ => ?_, hclosed⟩
    rw [popBlocking_eq_closed hpop]
    exact Nat.zero_le _
  | wait hlooking hpop =>
    obtain ⟨hempty, hopen⟩ := popBlocking_eq_wait hpop
    refine ⟨fun _ => ?_, fun _ hc => ?_⟩
    · rw [hempty]
      exact Nat.zero_le _
    · exact absurd (hopen.symm.trans hc) Bool.false_ne_true
  | notifyAll _ => exact ⟨fun h => absurd h (lt_irrefl 0), fun h => absurd h (lt_irrefl 0)⟩

theorem Awake.spurious (h : Awake s) (hstep : Spurious s s') : Awake s' := by
  cases hstep with
  | wake hwaiting =>
    have hbefore : 0 < s.waiting := hwaiting ▸ Nat.succ_pos _
    exact ⟨fun _ => Nat.le_succ_of_le (h.packets hbefore), fun _ => h.closed hbefore⟩

theorem Awake.step (h : Awake s) (hstep : Step s s') : Awake s' := by
  cases hstep with
  | inside hinside => exact h.inside hinside
  | spurious hspurious => exact h.spurious hspurious
  | popBlocking =>
    exact ⟨fun hwaiting => Nat.le_succ_of_le (h.packets hwaiting), h.closed⟩
  | @push x dropped buffer hpush =>
    have hlength : buffer.buf.length ≤ s.buffer.buf.length + 1 := by
      rw [(push_eq_ok hpush).2, List.length_append, List.length_singleton]
      show (if _ then _ else _ : List τ).length + 1 ≤ _
      split
      · rw [List.length_tail]
        omega
      · exact le_rfl
    rw [notifyOne]
    split
    · rename_i hnone
      have hnobody : ¬ 0 < s.waiting := Nat.not_lt_of_ge (Nat.le_of_eq hnone)
      exact ⟨fun hwaiting => absurd hwaiting hnobody, fun hwaiting => absurd hwaiting hnobody⟩
    · rename_i n hsome
      have hbefore : 0 < s.waiting := (show s.waiting = n + 1 from hsome) ▸ Nat.succ_pos _
      refine ⟨fun _ => hlength.trans (Nat.succ_le_succ (h.packets hbefore)), fun _ hc => ?_⟩
      exact h.closed hbefore ((push_closed hpush).symm.trans hc)
  | tryPop =>
    refine ⟨fun hwaiting => le_trans ?_ (h.packets hwaiting), h.closed⟩
    exact (List.tail_sublist _).length_le
  | drainBatch =>
    refine ⟨fun hwaiting => le_trans ?_ (h.packets hwaiting), h.closed⟩
    exact (List.drop_sublist _ _).length_le
  | close => exact ⟨h.packets, fun _ _ => Nat.succ_pos _⟩

theorem awake_of_reachable (h : (system τ cap).Reachable s) : Awake s := by
  refine h.invariant ?_ fun s s' hs hstep => hs.step hstep
  rintro s rfl
  exact ⟨fun h => absurd h (lt_irrefl 0), fun h => absurd h (lt_irrefl 0)⟩

/-- **No wake-up is lost**: in every reachable state in which a thread waits, at least as
many threads are awake in `pop_blocking` as there are packets; and if the buffer is
closed, somebody is about to notify. -/
theorem no_lost_wakeup (h : (system τ cap).Reachable s) (hwaiting : 0 < s.waiting) :
    s.buffer.buf.length ≤ s.looking ∧ (s.buffer.closed = true → 0 < s.closing) := by
  have hawake := awake_of_reachable h
  exact ⟨hawake.packets hwaiting, hawake.closed hwaiting⟩

/-- A thread waits, and is woken up for a packet. -/
theorem no_lost_wakeup_push : ∃ s : Shared Unit, (system Unit 4096).Reachable s ∧
    s.waiting = 1 ∧ s.buffer.buf = [()] ∧ s.buffer.buf.length ≤ s.looking := by
  have h₀ : (system Unit 4096).Reachable _ := .of_init rfl
  have h₁ := h₀.step .popBlocking
  have h₂ := h₁.step .popBlocking
  have h₃ := h₂.step (.inside (.wait rfl rfl))
  have h₄ := h₃.step (.inside (.wait rfl rfl))
  have h₅ := h₄.step (@Step.push _ _ () _ _ rfl)
  exact ⟨_, h₅, rfl, rfl, (no_lost_wakeup h₅ Nat.one_pos).1⟩

/-! ## After `close` -/

/-- What the threads inside have still to do. -/
def toDo (s : Shared τ) : Nat := 2 * s.waiting + s.looking + s.closing

theorem Inside.closed_step (h : Inside s s') (hclosed : s.buffer.closed = true) :
    s'.buffer.closed = true ∧ s'.toDo < s.toDo := by
  cases h with
  | item hlooking _ =>
    refine ⟨(popBlocking_closed s.buffer).trans hclosed, ?_⟩
    simp only [toDo]
    omega
  | closed hlooking _ =>
    refine ⟨hclosed, ?_⟩
    simp only [toDo]
    omega
  | wait _ hpop => exact absurd (hclosed.symm.trans (popBlocking_eq_wait hpop).2) nofun
  | notifyAll hclosing =>
    refine ⟨hclosed, ?_⟩
    simp only [toDo, Shared.notifyAll]
    omega

theorem Stays.closed_step (h : Stays s s') (hclosed : s.buffer.closed = true) :
    s'.buffer.closed = true ∧ s'.toDo < s.toDo := by
  rcases h with hinside | hspurious
  · exact hinside.closed_step hclosed
  · cases hspurious with
    | wake hwaiting =>
      refine ⟨hclosed, ?_⟩
      simp only [toDo]
      omega

/-- A thread that is awake can go on. -/
theorem exists_inside (hlooking : 0 < s.looking) : ∃ s', Inside s s' := by
  obtain ⟨n, hn⟩ := Nat.exists_eq_succ_of_ne_zero (Nat.pos_iff_ne_zero.mp hlooking)
  cases hpop : s.buffer.popBlocking.1 with
  | item x => exact ⟨_, .item hn hpop⟩
  | closed => exact ⟨_, .closed hn hpop⟩
  | wait => exact ⟨_, .wait hn hpop⟩

/-- **After `close`, all threads return**: if nobody enters the buffer anew, the threads
inside come to an end under any schedule and with any spurious wake-ups; and when none of
them goes on by itself, nobody is left in `pop_blocking`. -/
theorem close_releases (h : (system τ cap).Reachable s) (hclosed : s.buffer.closed = true) :
    Acc (fun t' t => Stays t t') s ∧
    ∀ t, Relation.ReflTransGen Stays s t → (∀ t', ¬ Inside t t') →
      t.looking = 0 ∧ t.waiting = 0 := by
  constructor
  · generalize hn : s.toDo = n
    clear h
    induction n using Nat.strong_induction_on generalizing s with
    | _ n ih =>
      refine .intro s fun t hstep => ?_
      obtain ⟨hclosed', hless⟩ := hstep.closed_step hclosed
      exact ih t.toDo (hn ▸ hless) hclosed' rfl
  · intro t hleads hend
    have hkept : Awake t ∧ t.buffer.closed = true := by
      clear hend
      induction hleads with
      | refl => exact ⟨awake_of_reachable h, hclosed⟩
      | tail _ hlast ih =>
        exact ⟨hlast.elim ih.1.inside ih.1.spurious, (hlast.closed_step ih.2).1⟩
    have hlooking : t.looking = 0 := by
      by_contra hne
      obtain ⟨t', hstep⟩ := exists_inside (Nat.pos_of_ne_zero hne)
      exact hend t' hstep
    have hclosing : t.closing = 0 := by
      by_contra hne
      obtain ⟨n, hn⟩ := Nat.exists_eq_succ_of_ne_zero hne
      exact hend _ (.notifyAll hn)
    refine ⟨hlooking, ?_⟩
    by_contra hne
    have hnotify := hkept.1.closed (Nat.pos_of_ne_zero hne) hkept.2
    exact absurd hclosing (Nat.ne_of_gt hnotify)

/-- Two threads wait when the buffer is closed. -/
theorem close_releases_two : ∃ s : Shared Unit, (system Unit 4096).Reachable s ∧
    s.waiting = 2 ∧ s.buffer.closed = true ∧
    ∀ t, Relation.ReflTransGen Stays s t → (∀ t', ¬ Inside t t') →
      t.looking = 0 ∧ t.waiting = 0 := by
  have h₀ : (system Unit 4096).Reachable _ := .of_init rfl
  have h₁ := h₀.step .popBlocking
  have h₂ := h₁.step .popBlocking
  have h₃ := h₂.step (.inside (.wait rfl rfl))
  have h₄ := h₃.step (.inside (.wait rfl rfl))
  have h₅ := h₄.step .close
  exact ⟨_, h₅, rfl, rfl, (close_releases h₅ rfl).2⟩

end Shared

end RingBuffer

end Ocellus
