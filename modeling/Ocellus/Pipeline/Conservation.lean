import Ocellus.Pipeline.CaptureOrder
import Ocellus.Pipeline.Heartbeat
import Mathlib.Algebra.Order.Group.Multiset
import Mathlib.Tactic.Abel

/-!
# No packet vanishes

Every captured packet is in one place: with the task, in its channel, with the analyzer,
in the ring buffer, or among those lost, which the ring buffer has evicted, the channel
has refused, or the task has dropped with its channel when it returned
(`packets_conserved`). Nothing else makes packets, or loses or doubles them.
-/

namespace Ocellus

namespace Agent

variable {setup : Setup} {s s' : State} {a : Action}

/-- The packets that are on their way or have arrived, and those that are lost. -/
def State.held (s : State) : List RawPacket := s.flow ++ (s.refused ++ s.evicted)

/-- What a push evicts, and what it leaves. -/
theorem evicted_append_kept (r : RingBuffer RawPacket) :
    (if r.buf.length = r.cap then r.buf.take 1 else [])
      ++ (if r.buf.length = r.cap then r.buf.tail else r.buf) = r.buf := by
  split
  · rw [← List.drop_one, List.take_append_drop]
  · rfl

/-- What is captured is added to what is held, and all other packets are kept. -/
def Adds (new : List RawPacket) (s s' : State) : Prop :=
  s'.captured = s.captured ++ new ∧
    (s'.held.map RawPacket.unscored).Perm (s.held.map RawPacket.unscored ++ new)

/-- Nothing is captured. -/
theorem Adds.of_perm (hcaptured : s'.captured = s.captured)
    (hheld : (s'.held.map RawPacket.unscored).Perm (s.held.map RawPacket.unscored)) :
    Adds [] s s' := by
  refine ⟨?_, ?_⟩
  · rw [hcaptured, List.append_nil]
  · rw [List.append_nil]
    exact hheld

/-- Nothing is captured, and nothing is lost. -/
theorem Adds.of_flow (hcaptured : s'.captured = s.captured) (hrefused : s'.refused = s.refused)
    (hevicted : s'.evicted = s.evicted)
    (hflow : s'.flow.map RawPacket.unscored = s.flow.map RawPacket.unscored) :
    Adds [] s s' := by
  refine .of_perm hcaptured (.of_eq ?_)
  simp only [State.held, List.map_append, hflow, hrefused, hevicted]

/-- A packet is captured, and perhaps another one evicted. -/
theorem Adds.capture {raw : RawPacket} {evicted kept : List RawPacket}
    (hraw : raw.unscored = raw) (hsplit : evicted ++ kept = s.buffer.buf)
    (hbuf : s'.buffer.buf = kept ++ [raw]) (hcaptured : s'.captured = s.captured ++ [raw])
    (hevicted : s'.evicted = s.evicted ++ evicted) (hrefused : s'.refused = s.refused)
    (hanalyzer : s'.analyzer = s.analyzer) (hstream : s'.stream = s.stream) : Adds [raw] s s' := by
  refine ⟨hcaptured, ?_⟩
  have hadded : (s.held ++ [raw]).map RawPacket.unscored
      = s.held.map RawPacket.unscored ++ [raw] := by
    rw [List.map_append, List.map_singleton, hraw]
  rw [← hadded]
  refine .map _ ?_
  rw [State.held, State.held, State.flow, State.flow, hbuf, hevicted, hrefused, hanalyzer, hstream,
    ← hsplit, ← Multiset.coe_eq_coe]
  simp only [← Multiset.coe_add]
  abel

/-- A step adds what it captures. -/
theorem Step.held (h : Step setup a s s') : ∃ new, Adds new s s' := by
  cases h with
  | @capture _ raw dropped buffer hcaptures hpush =>
    obtain ⟨-, rfl⟩ := RingBuffer.push_eq_ok hpush
    exact ⟨[raw], .capture hcaptures.spec.2 (evicted_append_kept s.buffer) rfl rfl rfl rfl rfl rfl⟩
  | batch hat _ =>
    refine ⟨[], .of_flow rfl rfl rfl ?_⟩
    rw [State.flow, State.flow, hat]
    show List.map _ (s.stream.enqueued ++ (List.map _ (List.map _ _) ++ _)) = _
    rw [List.map_map, Function.comp_def, List.map_id', RingBuffer.drainBatch_append]
    rfl
  | empty hat hempty =>
    refine ⟨[], .of_flow rfl rfl rfl ?_⟩
    rw [State.flow, State.flow, hat, ← RingBuffer.drainBatch_append 64 s.buffer, hempty]
    rfl
  | item hat hpop =>
    refine ⟨[], .of_flow rfl rfl rfl ?_⟩
    rw [State.flow, State.flow, hat, RingBuffer.popBlocking_eq_item hpop]
    rfl
  | closed hat _ | collect hat _ | forwarded hat =>
    refine ⟨[], .of_flow rfl rfl rfl ?_⟩
    rw [State.flow, State.flow, hat]
    rfl
  | score hat =>
    refine ⟨[], .of_flow rfl rfl rfl ?_⟩
    simp [State.flow, hat, Analyzer.inFlight]
  | accepted hat _ =>
    refine ⟨[], .of_flow rfl rfl rfl ?_⟩
    simp [State.flow, hat, Analyzer.inFlight, PacketStream.State.enqueue]
  | @refused _ pkt rest hat _ =>
    refine ⟨[], .of_perm rfl (.map _ ?_)⟩
    rw [State.held, State.held, State.flow, State.flow, hat]
    show List.Perm (s.stream.enqueued ++ (rest ++ s.buffer.buf) ++
      (s.refused ++ [pkt] ++ s.evicted)) (s.stream.enqueued ++ ([pkt] ++ rest ++ s.buffer.buf) ++
      (s.refused ++ s.evicted))
    rw [← Multiset.coe_eq_coe]
    simp only [← Multiset.coe_add]
    abel
  | turn hturn =>
    refine ⟨[], .of_flow rfl rfl rfl ?_⟩
    show List.map _ (_ ++ _) = List.map _ (_ ++ _)
    rw [hturn.frame.2]
  | outside houtside _ =>
    refine ⟨[], .of_flow rfl rfl rfl ?_⟩
    cases houtside <;> rfl

theorem held_perm_captured (h : (system setup).Reachable s) :
    (s.held.map RawPacket.unscored).Perm s.captured := by
  refine h.invariant (P := fun s => (s.held.map RawPacket.unscored).Perm s.captured) ?_
    fun s s' hs hstep => ?_
  · rintro s rfl
    exact .refl _
  · obtain ⟨a, hstep⟩ := hstep
    obtain ⟨new, hcaptured, hperm⟩ := hstep.held
    rw [hcaptured]
    exact hperm.trans (hs.append_right new)

/-- The ring buffer counts what it evicts. -/
theorem Step.dropped (h : Step setup a s s') (hcap : s.buffer.cap = 4096)
    (hs : s.buffer.dropped = s.evicted.length) : s'.buffer.dropped = s'.evicted.length := by
  cases h with
  | capture _ hpush =>
    obtain ⟨-, rfl⟩ := RingBuffer.push_eq_ok hpush
    show s.buffer.dropped + (if _ then 1 else 0) = (s.evicted ++ if _ then _ else _).length
    rw [List.length_append, hs]
    split
    · rename_i hfull
      rw [List.length_take, hfull, hcap]
      rfl
    · rfl
  | @item _ pkt hat hpop =>
    have hbuf := RingBuffer.popBlocking_eq_item hpop
    rw [RingBuffer.popBlocking_of_cons hbuf]
    exact hs
  | _ => exact hs

theorem dropped_eq_evicted (h : (system setup).Reachable s) :
    s.buffer.dropped = s.evicted.length := by
  refine (h.invariant (P := fun s => s.buffer.dropped = s.evicted.length ∧ Uncounted s) ?_
    fun s s' hs hstep => ?_).1
  · rintro s rfl
    exact ⟨rfl, rfl, rfl, rfl⟩
  · obtain ⟨a, hstep⟩ := hstep
    exact ⟨hstep.dropped hs.2.capacity hs.1, hs.2.step hstep⟩

/-- **No packet vanishes**: in every reachable state, the packets that were captured are,
each of them once and but for their scores, those received by the task, those in its
channel, those that it has dropped with the channel, those with the analyzer, those in
the ring buffer, those that the channel has refused and those that the ring buffer has
evicted. It has counted the last ones, and nothing is dropped with the channel before the
task has returned on a failure or a cancellation. Each received packet with transport
metadata has its event, in order, in a batch or pending. -/
theorem packets_conserved (h : (system setup).Reachable s) :
    s.captured.Perm ((s.stream.received ++ s.stream.queue ++ s.stream.abandoned
      ++ s.analyzer.inFlight ++ s.buffer.buf ++ s.refused ++ s.evicted).map RawPacket.unscored) ∧
    s.buffer.dropped = s.evicted.length ∧
    (s.stream.abandoned ≠ [] → s.stream.queue = [] ∧
      (s.stream.status = .failed ∨ s.stream.status = .cancelled)) ∧
    s.stream.handed ++ s.stream.pending = s.stream.received.filterMap setup.parse := by
  have hkept := PacketStream.kept_of_reachable (attached_of_reachable h).stream
  refine ⟨?_, dropped_eq_evicted h, fun hdropped => ?_, hkept.accounts.events⟩
  · have hperm := (held_perm_captured h).symm
    rw [State.held, State.flow, hkept.fifo] at hperm
    simpa only [List.append_assoc] using hperm
  · have hgone : ¬ s.stream.Alive := fun halive => hdropped (hkept.alive halive)
    refine ⟨hkept.gone hgone, ?_⟩
    cases hstatus : s.stream.status with
    | opening => exact absurd (.inl hstatus) hgone
    | running => exact absurd (.inr hstatus) hgone
    | closed => exact absurd (hkept.closed hstatus) hdropped
    | failed => exact .inl rfl
    | cancelled => exact .inr rfl

/-- The task is cancelled with a packet in its channel. -/
theorem Idle.cancel {n : Nat} (hidle : Idle s) (hnumber : s.packetCounter.toNat = n)
    (hpending : s.stream.pending ≠ []) (hseq : s.stream.seq + 1 < 2 ^ 64)
    (h : (system defaultSetup).Reachable s) :
    ∃ s', (system defaultSetup).Reachable s' ∧ s'.captured = s.captured ++ [barePacket n] ∧
      s'.stream.received = s.stream.received ∧ s'.stream.abandoned = [barePacket n] ∧
      s'.stream.handed = s.stream.handed ++ s.stream.pending := by
  subst hnumber
  have hforwarded := hidle.forward (by decide) (captures_barePacket _) rfl h
  have hcancelled := hforwarded.step ⟨_, .outside .cancel .inl⟩
  have hflush : PacketStream.flush defaultSetup.stream true
      { s.stream.enqueue (barePacket s.packetCounter.toNat) with cancelled := true } = _ :=
    PacketStream.flush_of_ne_nil hpending hseq
  have hreturned := hcancelled.step ⟨_, .turn (.cancelled hidle.running rfl hflush)⟩
  refine ⟨_, hreturned, rfl, rfl, ?_, ?_⟩
  · show s.stream.queue ++ _ = _
    rw [hidle.queue]
    rfl
  · rw [PacketStream.State.handed, PacketStream.State.leave, List.flatMap_append,
      List.flatMap_singleton]
    rfl

/-- Of two packets one is reported, and one is in the channel when the task is cancelled. -/
theorem packets_conserved_cancelled : ∃ s, (system defaultSetup).Reachable s ∧
    s.captured = [barePacket 0, barePacket 1] ∧ s.stream.received = [barePacket 0] ∧
    s.stream.abandoned = [barePacket 1] ∧ s.stream.handed = [bareEvent] ∧
    s.captured.Perm ((s.stream.received ++ s.stream.queue ++ s.stream.abandoned
      ++ s.analyzer.inFlight ++ s.buffer.buf ++ s.refused ++ s.evicted).map RawPacket.unscored) ∧
    (s.stream.status = .failed ∨ s.stream.status = .cancelled) := by
  obtain ⟨s₀, h₀, hidle₀, hcounter₀, hcaptured₀, hstream₀⟩ := exists_idle
  obtain ⟨s₁, h₁, hidle₁, hcounter₁, hcaptured₁, hstream₁⟩ := hidle₀.report (n := 0)
    (by rw [hcounter₀]; rfl) (by rw [hstream₀]; decide) h₀
  rw [State.arrival, hstream₀] at hstream₁
  obtain ⟨s, h, hcaptured, hreceived, habandoned, hhanded⟩ := hidle₁.cancel (n := 1)
    (by rw [hcounter₁, hcounter₀]; rfl) (by rw [hstream₁]; exact List.cons_ne_nil _ _)
    (by rw [hstream₁]; decide) h₁
  obtain ⟨hperm, -, hwhen, -⟩ := packets_conserved h
  refine ⟨s, h, ?_, ?_, habandoned, ?_, hperm, (hwhen ?_).2⟩
  · rw [hcaptured, hcaptured₁, hcaptured₀]
    rfl
  · rw [hreceived, hstream₁]
    rfl
  · rw [hhanded, hstream₁]
    rfl
  · rw [habandoned]
    exact List.cons_ne_nil _ _

end Agent

end Ocellus
