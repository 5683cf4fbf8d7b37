import Ocellus.Base.DropOldest
import Ocellus.Pipeline.RingBuffer

/-!
# What a ring buffer does with its items

All handles of a buffer share one mutex, so that a run is a sequence of critical
sections, in any order and by anyone. `Event` is a critical section with what its
call returned; a call of `pop_blocking` is one event for each pass through its
loop.

Next to a run goes the ledger of a drop-oldest queue that sees the same events.
`Follows` relates it to the buffer and is kept by every critical section; what the
calls return is what the ledger says (`Event.Right`).
-/

namespace Ocellus

namespace RingBuffer

universe u

variable {τ : Type u} {η : Type}

/-- A critical section: which call, and what it returned. -/
inductive Event (τ : Type u) : Type u where
  | push (item : τ) (dropped : Nat)
  | tryPop (got : Option τ)
  | popBlocking (got : Popped τ)
  | drainBatch (max : Nat) (got : List τ)
  | close
  | stats (len dropped : Nat)

namespace Event

/-- The call led from `r` to `r'`. -/
def Did (r r' : RingBuffer τ) : Event τ → Prop
  | .push item dropped => r.push item = .ok (dropped, r')
  | .tryPop got => r.tryPop = (got, r')
  | .popBlocking got => r.popBlocking = (got, r')
  | .drainBatch max got => r.drainBatch max = (got, r')
  | .close => r' = r.close
  | .stats len dropped => r.stats = (len, dropped) ∧ r' = r

/-- The item that was pushed. -/
def pushed : Event τ → List τ
  | .push item _ => [item]
  | _ => []

/-- The items that were handed out. -/
def delivered : Event τ → List τ
  | .tryPop got => got.toList
  | .popBlocking (.item x) => [x]
  | .drainBatch _ got => got
  | _ => []

/-- What the event is to a drop-oldest queue. -/
def apply (cap : Nat) (l : Ledger τ) : Event τ → Ledger τ
  | .push item _ => l.push cap item
  | .tryPop _ => l.deliver 1
  | .popBlocking _ => l.deliver 1
  | .drainBatch max _ => l.deliver max
  | .close => l
  | .stats _ _ => l

/-- The call returned what the queue says: a push the number of items dropped, a
pop the oldest item, a drain the oldest ones, and `pop_blocking` nothing only if
the buffer is closed and empty. -/
def Right (cap : Nat) (closed : Prop) (l : Ledger τ) : Event τ → Prop
  | .push item dropped => dropped = ((l.push cap item).met .dropped).length
  | .tryPop got => got = l.held.head?
  | .popBlocking (.item x) => l.held.head? = some x
  | .popBlocking .closed => closed ∧ l.held = []
  | .popBlocking .wait => ¬ closed ∧ l.held = []
  | .drainBatch max got => got = l.held.take (min max l.held.length)
  | .close => True
  | .stats len dropped => len = l.held.length ∧ dropped = (l.met .dropped).length

end Event

/-- A history: who was in the critical section, and what happened there. -/
abbrev History (η : Type) (τ : Type u) := List (η × Event τ)

namespace History

def pushed (tr : History η τ) : List τ := tr.flatMap fun e => e.2.pushed

def delivered (tr : History η τ) : List τ := tr.flatMap fun e => e.2.delivered

@[simp] theorem pushed_concat (tr : History η τ) (e : η × Event τ) :
    pushed (tr ++ [e]) = tr.pushed ++ e.2.pushed := by
  rw [pushed, List.flatMap_append, List.flatMap_singleton]
  rfl

@[simp] theorem delivered_concat (tr : History η τ) (e : η × Event τ) :
    delivered (tr ++ [e]) = tr.delivered ++ e.2.delivered := by
  rw [delivered, List.flatMap_append, List.flatMap_singleton]
  rfl

/-- Somebody has closed the buffer. -/
def Closed (tr : History η τ) : Prop := ∃ who, (who, Event.close) ∈ tr

/-- The drop-oldest queue of capacity `cap` that saw the same events. -/
def ledger (cap : Nat) (tr : History η τ) : Ledger τ :=
  tr.foldl (fun l e => e.2.apply cap l) .empty

@[simp] theorem ledger_concat (cap : Nat) (tr : History η τ) (e : η × Event τ) :
    ledger cap (tr ++ [e]) = e.2.apply cap (ledger cap tr) := by
  rw [ledger, List.foldl_append]
  rfl

end History

/-- The runs of a buffer of capacity `cap`. -/
inductive Run (η : Type) (cap : Nat) : History η τ → RingBuffer τ → Prop where
  | new : Run η cap [] (.new cap)
  | step {tr : History η τ} {r r' : RingBuffer τ} {e : Event τ} (who : η) :
      Run η cap tr r → e.Did r r' → Run η cap (tr ++ [(who, e)]) r'

theorem Run.of_prefix {cap : Nat} {tr : History η τ} {r : RingBuffer τ} (h : Run η cap tr r) :
    ∀ {pre post : History η τ} {e : η × Event τ}, tr = pre ++ e :: post →
      ∃ r₀ r₁, Run η cap pre r₀ ∧ e.2.Did r₀ r₁ := by
  induction h with
  | new =>
    intro pre post e htr
    cases pre <;> cases htr
  | @step tr r r' last who hrun hdid ih =>
    intro pre post e htr
    rcases List.eq_nil_or_concat post with rfl | ⟨post, x, rfl⟩
    · obtain ⟨rfl, he⟩ := List.append_inj' htr rfl
      cases he
      exact ⟨r, r', hrun, hdid⟩
    · rw [List.concat_eq_append, ← List.cons_append, ← List.append_assoc] at htr
      exact ih (List.append_inj' htr rfl).1

/-! ## One critical section -/

/-- The buffer holds what the ledger holds, and has counted what it dropped. -/
structure Follows (cap : Nat) (tr : History η τ) (r : RingBuffer τ) : Prop where
  held : (tr.ledger cap).held = r.buf
  dropped : ((tr.ledger cap).met .dropped).length = r.dropped
  capacity : r.cap = cap
  room : r.buf.length ≤ cap
  closed : r.closed = true ↔ tr.Closed
  pushed : (tr.ledger cap).entered = tr.pushed
  delivered : (tr.ledger cap).met .delivered = tr.delivered

variable {cap : Nat} {tr : History η τ} {r r' : RingBuffer τ} {e : Event τ}

theorem follows_new (cap : Nat) : Follows cap ([] : History η τ) (.new cap) := by
  refine ⟨rfl, rfl, rfl, Nat.zero_le _, ?_, rfl, rfl⟩
  constructor
  · intro h
    cases h
  · rintro ⟨who, h⟩
    cases h

theorem closed_concat {who : η} (he : e ≠ .close) :
    History.Closed (tr ++ [(who, e)]) ↔ tr.Closed := by
  constructor
  · rintro ⟨who', h⟩
    rcases List.mem_append.mp h with h | h
    · exact ⟨who', h⟩
    · cases List.mem_singleton.mp h
      exact absurd rfl he
  · rintro ⟨who', h⟩
    exact ⟨who', List.mem_append_left _ h⟩

/-- A critical section that hands out the `n` oldest items. -/
theorem Follows.deliver (h : Follows cap tr r) {n : Nat} (who : η)
    (happly : ∀ l : Ledger τ, e.apply cap l = l.deliver n) (hpushed : e.pushed = [])
    (hdelivered : e.delivered = r.buf.take n) (he : e ≠ .close) :
    Follows cap (tr ++ [(who, e)]) { r with buf := r.buf.drop n } := by
  have hstep : History.ledger cap (tr ++ [(who, e)]) = (tr.ledger cap).deliver n := by
    rw [History.ledger_concat, happly]
  constructor
  · rw [hstep, Ledger.held_deliver, h.held]
  · rw [hstep, Ledger.dropped_deliver, h.dropped]
  · exact h.capacity
  · exact (List.length_drop ▸ Nat.sub_le _ _).trans h.room
  · exact h.closed.trans (closed_concat he).symm
  · rw [hstep, Ledger.entered_deliver, h.pushed, History.pushed_concat, hpushed, List.append_nil]
  · rw [hstep, Ledger.delivered_deliver, h.delivered, h.held, History.delivered_concat, hdelivered]

theorem Follows.push (hcap : 1 ≤ cap) (h : Follows cap tr r) {item : τ} {n : Nat} (who : η)
    (hpush : r.push item = .ok (n, r')) :
    Follows cap (tr ++ [(who, .push item n)]) r' ∧
      n = (((tr.ledger cap).push cap item).met .dropped).length := by
  obtain ⟨rfl, hr'⟩ := push_eq_ok hpush
  -- the ledger marks one more item exactly when the buffer is full
  have hdropped : (((tr.ledger cap).push cap item).met .dropped).length = r'.dropped := by
    rw [Ledger.dropped_push, List.length_append, h.dropped, h.held, hr', h.capacity]
    show _ = r.dropped + _
    by_cases hfull : r.buf.length = cap
    · rw [if_pos hfull, if_pos hfull, List.length_take]
      omega
    · rw [if_neg hfull, if_neg hfull]
      rfl
  refine ⟨?_, hdropped.symm⟩
  constructor
  · rw [History.ledger_concat, hr']
    show ((tr.ledger cap).push cap item).held = _
    rw [Ledger.held_push, h.held, h.capacity]
  · rw [History.ledger_concat]
    exact hdropped
  · rw [hr']
    exact h.capacity
  · rw [hr', h.capacity, List.length_append, List.length_singleton]
    have hroom := h.room
    by_cases hfull : r.buf.length = cap
    · rw [if_pos hfull, List.length_tail]
      omega
    · rw [if_neg hfull]
      omega
  · rw [push_closed hpush]
    have hopen : Event.push item r'.dropped ≠ .close := nofun
    exact h.closed.trans (closed_concat hopen).symm
  · rw [History.ledger_concat]
    show ((tr.ledger cap).push cap item).entered = _
    rw [Ledger.entered_push, h.pushed, History.pushed_concat]
    rfl
  · rw [History.ledger_concat]
    show ((tr.ledger cap).push cap item).met .delivered = _
    rw [Ledger.delivered_push, h.delivered, History.delivered_concat]
    exact (List.append_nil _).symm

/-- A critical section that hands out nothing. -/
theorem Follows.idle (h : Follows cap tr r) {closed : Bool} (who : η)
    (happly : ∀ l : Ledger τ, e.apply cap l = l) (hpushed : e.pushed = [])
    (hdelivered : e.delivered = []) (hclosed : closed = true ↔ (tr ++ [(who, e)]).Closed) :
    Follows cap (tr ++ [(who, e)]) { r with closed } := by
  have hstep : History.ledger cap (tr ++ [(who, e)]) = tr.ledger cap := by
    rw [History.ledger_concat, happly]
  constructor
  · rw [hstep, h.held]
  · rw [hstep, h.dropped]
  · exact h.capacity
  · exact h.room
  · exact hclosed
  · rw [hstep, h.pushed, History.pushed_concat, hpushed, List.append_nil]
  · rw [hstep, h.delivered, History.delivered_concat, hdelivered, List.append_nil]

/-- One pass of `pop_blocking`. -/
theorem Follows.popBlocking (h : Follows cap tr r) {got : Popped τ} (who : η)
    (hpop : r.popBlocking = (got, r')) :
    Follows cap (tr ++ [(who, .popBlocking got)]) r' ∧
      (Event.popBlocking got).Right cap tr.Closed (tr.ledger cap) := by
  cases hbuf : r.buf with
  | cons x rest =>
    rw [popBlocking_of_cons hbuf] at hpop
    cases hpop
    constructor
    · have hrest : rest = r.buf.drop 1 := by rw [hbuf, List.drop_one, List.tail_cons]
      rw [hrest]
      refine h.deliver who (fun _ => rfl) rfl ?_ nofun
      rw [hbuf]
      rfl
    · show (tr.ledger cap).held.head? = some x
      rw [h.held, hbuf, List.head?_cons]
  | nil =>
    rw [popBlocking_of_nil hbuf] at hpop
    have hempty : (tr.ledger cap).held = [] := h.held.trans hbuf
    -- nothing is handed out, whether the buffer is closed or not
    have hnone : ∀ got : Popped τ, (Event.popBlocking got).delivered = [] →
        Follows cap (tr ++ [(who, .popBlocking got)]) r := by
      intro got hgot
      have hopen : Event.popBlocking got ≠ .close := nofun
      have hidle := h.deliver who (n := 1) (e := .popBlocking got) (fun _ => rfl) rfl
        (by rw [hgot, hbuf]; rfl) hopen
      rwa [hbuf, List.drop_nil, ← hbuf] at hidle
    cases hclosed : r.closed with
    | true =>
      rw [hclosed] at hpop
      cases hpop
      exact ⟨hnone _ rfl, h.closed.mp hclosed, hempty⟩
    | false =>
      rw [hclosed] at hpop
      cases hpop
      exact ⟨hnone _ rfl, fun hc => Bool.noConfusion (hclosed.symm.trans (h.closed.mpr hc)), hempty⟩

/-- Every critical section does to the buffer what it does to the ledger, and
returns what the ledger says. -/
theorem Follows.did (hcap : 1 ≤ cap) (h : Follows cap tr r) (who : η) (hdid : e.Did r r') :
    Follows cap (tr ++ [(who, e)]) r' ∧ e.Right cap tr.Closed (tr.ledger cap) := by
  cases e with
  | push item n => exact h.push hcap who hdid
  | popBlocking got => exact h.popBlocking who hdid
  | tryPop got =>
    cases hdid
    constructor
    · rw [← List.drop_one]
      refine h.deliver who (fun _ => rfl) rfl ?_ nofun
      show r.buf.head?.toList = _
      rw [List.take_one]
    · show r.buf.head? = _
      rw [h.held]
  | drainBatch max got =>
    cases hdid
    constructor
    · rw [← List.drop_eq_drop_min]
      exact h.deliver who (fun _ => rfl) rfl List.take_eq_take_min.symm nofun
    · show r.buf.take _ = _
      rw [h.held]
  | close =>
    obtain rfl := hdid
    refine ⟨h.idle who (fun _ => rfl) rfl rfl ?_, trivial⟩
    exact iff_of_true rfl ⟨who, List.mem_append_right _ (List.mem_singleton_self _)⟩
  | stats len dropped =>
    obtain ⟨hstats, rfl⟩ := hdid
    cases hstats
    have hopen : (Event.stats r'.buf.length r'.dropped : Event τ) ≠ .close := nofun
    refine ⟨h.idle who (fun _ => rfl) rfl rfl (h.closed.trans (closed_concat hopen).symm), ?_, ?_⟩
    · rw [h.held]
    · exact h.dropped.symm

/-! ## Runs -/

theorem Run.follows (hcap : 1 ≤ cap) (h : Run η cap tr r) : Follows cap tr r := by
  induction h with
  | new => exact follows_new cap
  | step who _ hdid ih => exact (ih.did hcap who hdid).1

/-- **The ring buffer is a drop-oldest queue**: in every reachable state the items
pushed so far are those that left, each delivered or dropped, and behind them those
in the buffer; what was delivered came out in the order of the pushes. Only a push
drops an item, when it finds exactly `cap` of them, and then the oldest. And every
call returned what it should (`Event.Right`). -/
theorem refines_dropOldest (hcap : 1 ≤ cap) (h : Run η cap tr r) :
    tr.pushed = (tr.ledger cap).gone.map Prod.snd ++ r.buf ∧
    tr.delivered = (tr.ledger cap).met .delivered ∧ tr.delivered.Sublist tr.pushed ∧
    r.dropped = ((tr.ledger cap).met .dropped).length ∧ r.buf.length ≤ cap ∧
    ∀ pre who e post, tr = pre ++ (who, e) :: post →
      e.Right cap (History.Closed pre) (History.ledger cap pre) ∧
      (History.ledger cap (pre ++ [(who, e)])).met .dropped
        = (History.ledger cap pre).met .dropped ++
          if e.pushed ≠ [] ∧ (History.ledger cap pre).held.length = cap then
            (History.ledger cap pre).held.take 1 else [] := by
  have hfollows := h.follows hcap
  refine ⟨?_, hfollows.delivered.symm, ?_, hfollows.dropped.symm, hfollows.room, ?_⟩
  · rw [← hfollows.pushed, Ledger.entered, hfollows.held]
  · rw [← hfollows.delivered, ← hfollows.pushed]
    exact Ledger.met_sublist .delivered _
  · intro pre who e post htr
    obtain ⟨r₀, r₁, hrun, hdid⟩ := h.of_prefix htr
    refine ⟨((hrun.follows hcap).did hcap who hdid).2, ?_⟩
    rw [History.ledger_concat]
    cases e with
    | push item n =>
      show ((History.ledger cap pre).push cap item).met .dropped = _
      rw [Ledger.dropped_push]
      simp [Event.pushed]
    -- what is handed out is delivered, not dropped
    | tryPop _ | popBlocking _ | drainBatch _ _ =>
      refine (Ledger.dropped_deliver _ _).trans ?_
      simp [Event.pushed]
    -- the calls that hand nothing out
    | close | stats _ _ =>
      show (History.ledger cap pre).met .dropped = _
      simp [Event.pushed]

/-- One thread pushes twice into a buffer for one item, and another one pops. -/
def twoPushes : History Nat Nat :=
  [(0, .push 7 0), (0, .push 8 1), (1, .popBlocking (.item 8))]

theorem refines_dropOldest_twoPushes :
    twoPushes.pushed = (twoPushes.ledger 1).gone.map Prod.snd ++ [] ∧
    twoPushes.delivered = (twoPushes.ledger 1).met .delivered ∧
    twoPushes.delivered.Sublist twoPushes.pushed ∧
    1 = ((twoPushes.ledger 1).met .dropped).length ∧ 0 ≤ 1 ∧
    ∀ pre who e post, twoPushes = pre ++ (who, e) :: post →
      e.Right 1 (History.Closed pre) (History.ledger 1 pre) ∧
      (History.ledger 1 (pre ++ [(who, e)])).met .dropped
        = (History.ledger 1 pre).met .dropped ++
          if e.pushed ≠ [] ∧ (History.ledger 1 pre).held.length = 1 then
            (History.ledger 1 pre).held.take 1 else [] := by
  have hpush : Run Nat 1 [(0, .push 7 0)] ⟨[7], 1, 0, false⟩ := .step 0 .new rfl
  have hdrop : Run Nat 1 [(0, .push 7 0), (0, .push 8 1)] ⟨[8], 1, 1, false⟩ := .step 0 hpush rfl
  have hpop : Run Nat 1 twoPushes ⟨[], 1, 1, false⟩ := .step 1 hdrop rfl
  exact refines_dropOldest (Nat.le_refl 1) hpop

end RingBuffer

end Ocellus
