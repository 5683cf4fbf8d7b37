import Ocellus.Pipeline.Agent
import Mathlib.Data.List.Range

/-!
# The order of capture

Every stage of the pipeline keeps the order of the packets, or loses some of them.
So what was enqueued for the packet stream task, what the analyzer has in its hands
and what is in the ring buffer is, in this order, a part of what was captured
(`State.flow`); the packets whose events are in the batches come from the front.

The packets are numbered with 64 bits: their numbers increase until they wrap.
-/

namespace Ocellus

/-- The packet as it was captured. -/
def RawPacket.unscored (pkt : RawPacket) : RawPacket :=
  { pkt with idsScore := .fin 0, idsFlag := .unspecified }

@[simp] theorem unscored_scoreOne (result : IdsResult) (pkt : RawPacket) :
    (scoreOne result pkt).unscored = pkt.unscored := rfl

namespace Agent

/-- The packets on their way, in order: those enqueued for the task, those with the
analyzer, and those in the buffer. -/
def State.flow (s : State) : List RawPacket :=
  s.stream.enqueued ++ (s.analyzer.inFlight ++ s.buffer.buf)

/-- The packets whose events have been handed to the batch channel: each of those
received with transport metadata has one event, and the first ones have been sent. -/
def State.reported (s : State) : List RawPacket :=
  (s.stream.received.filter fun pkt => pkt.transport.isSome).take s.stream.handed.length

/-! ## One step -/

variable {setup : Setup} {s s' : State} {a : Action}

/-- A captured packet has its number, and no score yet. -/
theorem Captures.spec {packetId : Nat} {raw : RawPacket} (h : Captures packetId raw) :
    raw.packetId = packetId ∧ raw.unscored = raw := by
  obtain ⟨data, linkType, origLen, capLen, interface, timestamp, h⟩ := h
  obtain ⟨transport, -, h⟩ := Checked.bind_eq_ok.mp h
  cases h
  exact ⟨rfl, rfl⟩

/-- A step adds to the flow, at its end, what it captures, and may lose packets. -/
theorem Step.flow (h : Step setup a s s') :
    ∃ new, s'.captured = s.captured ++ new ∧
      (s'.flow.map RawPacket.unscored).Sublist (s.flow.map RawPacket.unscored ++ new) := by
  -- a step that captures nothing
  have hnone : s'.captured = s.captured → (s'.flow.map RawPacket.unscored).Sublist
      (s.flow.map RawPacket.unscored) → ∃ new, s'.captured = s.captured ++ new ∧
      (s'.flow.map RawPacket.unscored).Sublist (s.flow.map RawPacket.unscored ++ new) := by
    intro hcaptured hflow
    exact ⟨[], by rw [hcaptured, List.append_nil], by rw [List.append_nil]; exact hflow⟩
  -- and loses nothing
  have hsame : s'.captured = s.captured → s'.flow.map RawPacket.unscored
      = s.flow.map RawPacket.unscored → _ :=
    fun hcaptured hflow => hnone hcaptured (hflow ▸ .refl _)
  cases h with
  | @capture _ raw dropped buffer hcaptures hpush =>
    refine ⟨[raw], rfl, ?_⟩
    obtain ⟨-, rfl⟩ := RingBuffer.push_eq_ok hpush
    -- the oldest packet in the buffer may have been dropped
    have hbuf : (if s.buffer.buf.length = s.buffer.cap then s.buffer.buf.tail
        else s.buffer.buf).Sublist s.buffer.buf := by
      split
      · exact List.tail_sublist _
      · exact .refl _
    have hadded : (s.flow ++ [raw]).map RawPacket.unscored
        = s.flow.map RawPacket.unscored ++ [raw] := by
      rw [List.map_append, List.map_singleton, hcaptures.spec.2]
    rw [← hadded, State.flow, State.flow, List.append_assoc, List.append_assoc]
    exact (((hbuf.append (.refl [raw])).append_left s.analyzer.inFlight).append_left
      s.stream.enqueued).map _
  | batch hat _ =>
    refine hsame rfl ?_
    rw [State.flow, State.flow, hat]
    show List.map _ (s.stream.enqueued ++ (List.map _ (List.map _ _) ++ _)) = _
    rw [List.map_map, Function.comp_def, List.map_id', RingBuffer.drainBatch_append]
    rfl
  | empty hat hempty =>
    refine hsame rfl ?_
    rw [State.flow, State.flow, hat, ← RingBuffer.drainBatch_append 64 s.buffer, hempty]
    rfl
  | item hat hpop =>
    refine hsame rfl ?_
    rw [State.flow, State.flow, hat, RingBuffer.popBlocking_eq_item hpop]
    rfl
  | closed hat _ =>
    refine hsame rfl ?_
    rw [State.flow, State.flow, hat]
    rfl
  | score hat =>
    refine hsame rfl ?_
    simp [State.flow, hat, Analyzer.inFlight]
  | collect hat _ =>
    refine hsame rfl ?_
    rw [State.flow, State.flow, hat]
    rfl
  | accepted hat _ =>
    refine hsame rfl ?_
    simp [State.flow, hat, Analyzer.inFlight, PacketStream.State.enqueue]
  | refused hat _ =>
    refine hnone rfl (.map _ ?_)
    rw [State.flow, State.flow, hat]
    exact ((List.sublist_cons_self ..).append (.refl _)).append_left _
  | forwarded hat =>
    refine hsame rfl ?_
    rw [State.flow, State.flow, hat]
    rfl
  | turn hturn =>
    refine hsame rfl ?_
    show List.map _ (_ ++ _) = List.map _ (_ ++ _)
    rw [hturn.frame.2]
  | outside houtside _ =>
    refine hsame rfl ?_
    cases houtside <;> rfl

/-! ## Runs -/

/-- What every step keeps: the flow is a part of what was captured, in order, and
that is numbered from 0, with 64 bits. -/
structure InOrder (s : State) : Prop where
  flow : (s.flow.map RawPacket.unscored).Sublist s.captured
  numbers : s.captured.map (fun pkt => pkt.packetId)
    = (List.range s.captured.length).map fun i => i % 2 ^ 64
  counter : s.packetCounter = BitVec.ofNat 64 s.captured.length

theorem inOrder_start : InOrder start := ⟨.refl _, rfl, rfl⟩

theorem InOrder.step (h : InOrder s) (hstep : Step setup a s s') : InOrder s' := by
  obtain ⟨hflow, hnumbers, hcounter⟩ := h
  obtain ⟨new, hcaptured, hflow'⟩ := hstep.flow
  -- what a step captures is the last packet of both lists
  have hkept : (s'.flow.map RawPacket.unscored).Sublist s'.captured := by
    rw [hcaptured]
    exact hflow'.trans (hflow.append (.refl new))
  cases hstep with
  | @capture _ raw dropped buffer hcaptures hpush =>
    refine ⟨hkept, ?_, ?_⟩
    · show (s.captured ++ [raw]).map _ = (List.range (s.captured ++ [raw]).length).map _
      rw [List.map_append, hnumbers, List.length_append, List.length_singleton, List.range_succ,
        List.map_append, List.map_singleton, List.map_singleton, hcaptures.spec.1, hcounter,
        BitVec.toNat_ofNat]
    · show s.packetCounter + 1 = BitVec.ofNat 64 (s.captured ++ [raw]).length
      rw [hcounter, List.length_append, List.length_singleton, BitVec.ofNat_add _ 1]
      rfl
  | _ => exact ⟨hkept, hnumbers, hcounter⟩

theorem inOrder_of_reachable (h : (system setup).Reachable s) : InOrder s := by
  refine h.invariant ?_ fun s s' hs hstep => ?_
  · rintro s rfl
    exact inOrder_start
  · obtain ⟨a, hstep⟩ := hstep
    exact hs.step hstep

/-- Packets that wear the numbers they were captured with, fewer than wrap. -/
theorem InOrder.pairwise_lt (h : InOrder s) (hle : s.captured.length ≤ 2 ^ 64) :
    (s.captured.map fun pkt => pkt.packetId).Pairwise (· < ·) := by
  -- no number below 2^64 wraps
  have hsmall : (List.range s.captured.length).map (fun i => i % 2 ^ 64)
      = List.range s.captured.length := by
    refine (List.map_congr_left fun i hi => ?_).trans (List.map_id _)
    exact Nat.mod_eq_of_lt ((List.mem_range.mp hi).trans_le hle)
  rw [h.numbers, hsmall]
  exact List.pairwise_lt_range

/-- The events handed on are those of the packets reported. -/
theorem reported_events (h : (system setup).Reachable s) :
    s.reported.map setup.parse = s.stream.handed.map some := by
  have hevents := (PacketStream.kept_of_reachable (attached_of_reachable h).stream).accounts.events
  -- a packet has an event exactly when it has transport metadata
  have hsome : (s.stream.received.filter fun pkt => pkt.transport.isSome).map setup.parse
      = (s.stream.handed ++ s.stream.pending).map some := by
    rw [hevents, List.map_filterMap_some_eq_filter_map_isSome, List.filter_map]
    congr 2
    funext pkt
    exact (parsePacket_isSome ..).symm
  rw [State.reported, List.map_take, hsome, List.map_append, List.take_append_of_le_length,
    ← List.length_map some, List.take_length]
  rw [List.length_map]

/-- The packets reported are some of those on their way, the first in line. -/
theorem reported_sublist (h : (system setup).Reachable s) :
    (s.reported.map RawPacket.unscored).Sublist s.captured := by
  have hfifo := (PacketStream.kept_of_reachable (attached_of_reachable h).stream).fifo
  have hreceived : s.reported.Sublist s.stream.received :=
    (List.take_sublist ..).trans List.filter_sublist
  have hflow : s.stream.received.Sublist s.flow := by
    rw [State.flow, hfifo, List.append_assoc]
    exact List.sublist_append_left ..
  exact ((hreceived.trans hflow).map _).trans (inOrder_of_reachable h).flow

/-- **The order of capture is kept end to end**: in every reachable state, the events
handed to the batch channel are those of certain captured packets, scored, in the
order of capture and each once; and as long as the numbers of the packets have not
wrapped, they increase from one to the next. -/
theorem captureOrder_kept (h : (system setup).Reachable s) :
    s.reported.map setup.parse = s.stream.handed.map some ∧
    (s.reported.map RawPacket.unscored).Sublist s.captured ∧
    (s.captured.length ≤ 2 ^ 64 →
      (s.reported.map fun pkt => pkt.packetId).Pairwise (· < ·)) := by
  refine ⟨reported_events h, reported_sublist h, fun hle => ?_⟩
  have hsublist := (reported_sublist h).map fun pkt => pkt.packetId
  rw [List.map_map] at hsublist
  exact ((inOrder_of_reachable h).pairwise_lt hle).sublist hsublist

/-! ## The numbers wrap -/

/-- Nothing is on its way, and all threads are at work. -/
structure Idle (s : State) : Prop where
  analyzer : s.analyzer = .drain
  buffer : s.buffer = .new 4096
  running : s.stream.status = .running
  queue : s.stream.queue = []

/-- The task right before it looks at a packet that came through alone. -/
def State.arrival (s : State) (raw : RawPacket) : PacketStream.State RawPacket PacketEvent :=
  { s.stream with
    enqueued := s.stream.enqueued ++ [raw], received := s.stream.received ++ [raw] }

/-- A packet comes into the channel, alone. -/
theorem Idle.forward {raw : RawPacket} (hidle : Idle s) (hroom : 0 < setup.channelCapacity)
    (hcaptures : Captures s.packetCounter.toNat raw) (hscored : scoreOne noSignals raw = raw)
    (h : (system setup).Reachable s) :
    (system setup).Reachable { s with
      packetCounter := s.packetCounter + 1, stream := s.stream.enqueue raw
      captured := s.captured ++ [raw] } := by
  obtain ⟨packetCounter, buffer, analyzer, ⟨status, queue, sendersGone, cancelled, pending, seq,
    counters, enqueued, received, abandoned, sent⟩, captured, evicted, refused⟩ := s
  obtain ⟨hanalyzer, hbuffer, hrunning, hqueue⟩ := hidle
  subst hanalyzer hbuffer hrunning hqueue
  -- captured, drained, scored, collected and forwarded
  have h₁ := h.step ⟨_, .capture hcaptures rfl⟩
  have h₂ := h₁.step ⟨_, .batch rfl (List.cons_ne_nil _ _)⟩
  have h₃ := h₂.step ⟨_, @Step.score _ _ raw [] [] noSignals rfl⟩
  rw [hscored] at h₃
  have hall : ∀ slot ∈ [(raw, true)], slot.2 = true := by
    intro slot hslot
    rw [List.mem_singleton.mp hslot]
  have h₄ := h₃.step ⟨_, .collect rfl hall⟩
  have h₅ := h₄.step ⟨_, .accepted rfl ⟨hroom, .inr rfl⟩⟩
  have h₆ := h₅.step ⟨_, .forwarded rfl⟩
  -- nothing was evicted from the empty buffer
  rw [← List.append_nil evicted]
  exact h₆

/-- A packet goes all the way, alone. -/
theorem Idle.round {raw : RawPacket} {stream : PacketStream.State RawPacket PacketEvent}
    (hidle : Idle s) (hroom : 0 < setup.channelCapacity)
    (hcaptures : Captures s.packetCounter.toNat raw) (hscored : scoreOne noSignals raw = raw)
    (hreceive : PacketStream.receive setup.stream setup.parse true raw (s.arrival raw) = .ok stream)
    (h : (system setup).Reachable s) :
    ∃ s', (system setup).Reachable s' ∧ Idle s' ∧ s'.packetCounter = s.packetCounter + 1 ∧
      s'.captured = s.captured ++ [raw] ∧ s'.stream = stream := by
  have hforwarded := hidle.forward hroom hcaptures hscored h
  obtain ⟨packetCounter, buffer, analyzer, ⟨status, queue, sendersGone, cancelled, pending, seq,
    counters, enqueued, received, abandoned, sent⟩, captured, evicted, refused⟩ := s
  obtain ⟨hanalyzer, hbuffer, hrunning, hqueue⟩ := hidle
  subst hanalyzer hbuffer hrunning hqueue
  have hreceived := hforwarded.step ⟨_, .turn (.recv rfl rfl hreceive)⟩
  obtain ⟨pending', seq', counters', sent', rfl⟩ := PacketStream.receive_frame hreceive
  exact ⟨_, hreceived, ⟨rfl, rfl, rfl, rfl⟩, rfl, rfl, rfl⟩

/-- An ARP frame, as far as it is looked at. -/
def arpHeader : Bytes := List.replicate 12 0xFF#8 ++ [0x08#8, 0x06#8]

/-- The packet that `run_capture` makes of it. -/
def arpPacket (packetId : Nat) : RawPacket where
  timestamp := 0
  data := ⟨arpHeader, by decide⟩
  origLen := 14#32
  capLen := 14#32
  interface := []
  linkType := .ethernet
  transport := none
  isTruncated := false
  packetId
  idsScore := .fin 0
  idsFlag := .unspecified

theorem captures_arpPacket (packetId : Nat) : Captures packetId (arpPacket packetId) :=
  ⟨⟨arpHeader, by decide⟩, .ethernet, 14#32, 14#32, [], 0, rfl⟩

theorem exists_idle : ∃ s, (system defaultSetup).Reachable s ∧ Idle s ∧ s.packetCounter = 0#64 ∧
    s.captured = [] ∧ s.stream = { PacketStream.init with status := .running } := by
  have h₀ : (system defaultSetup).Reachable start := .of_init rfl
  exact ⟨_, h₀.step ⟨_, .outside (.opened rfl) nofun⟩, ⟨rfl, rfl, rfl, rfl⟩, rfl, rfl, rfl⟩

/-- A packet comes through while the batch has room for it. -/
theorem Idle.report {n : Nat} (hidle : Idle s) (hnumber : s.packetCounter.toNat = n)
    (hspace : s.stream.pending.length + 1 < 50) (h : (system defaultSetup).Reachable s) :
    ∃ s', (system defaultSetup).Reachable s' ∧ Idle s' ∧ s'.packetCounter = s.packetCounter + 1 ∧
      s'.captured = s.captured ++ [barePacket n] ∧
      s'.stream = (s.arrival (barePacket n)).push bareEvent := by
  subst hnumber
  exact hidle.round (by decide) (captures_barePacket _) rfl
    (PacketStream.receive_of_lt (parsePacket_barePacket _) hspace) h

/-- The first packet, and then `n` ARP frames. -/
theorem exists_arps (n : Nat) : ∃ s, (system defaultSetup).Reachable s ∧ Idle s ∧
    s.packetCounter = BitVec.ofNat 64 (n + 1) ∧ s.stream.pending = [bareEvent] ∧
    s.stream.sent = [] ∧
    s.stream.received.filter (fun pkt => pkt.transport.isSome) = [barePacket 0] := by
  induction n with
  | zero =>
    obtain ⟨s, h, hidle, hcounter, -, hstream⟩ := exists_idle
    have hspace : s.stream.pending.length + 1 < 50 := by
      rw [hstream]
      decide
    obtain ⟨s', h', hidle', hcounter', -, hstream'⟩ :=
      hidle.report (by rw [hcounter]) hspace h
    refine ⟨s', h', hidle', by rw [hcounter', hcounter]; rfl, ?_⟩
    rw [hstream', State.arrival, hstream]
    exact ⟨rfl, rfl, rfl⟩
  | succ n ih =>
    obtain ⟨s, h, hidle, hcounter, hpending, hsent, hreceived⟩ := ih
    obtain ⟨s', h', hidle', hcounter', -, hstream'⟩ := hidle.round (by decide)
      (captures_arpPacket _) rfl (PacketStream.receive_of_none rfl) h
    refine ⟨s', h', hidle', ?_, ?_⟩
    · rw [hcounter', hcounter, BitVec.ofNat_add (n + 1) 1]
      rfl
    · rw [hstream']
      refine ⟨hpending, hsent, ?_⟩
      show List.filter _ (s.stream.received ++ [_]) = _
      rw [List.filter_append, hreceived]
      rfl

/-- The tick sends what is pending. -/
theorem Idle.tick (hidle : Idle s) (hpending : s.stream.pending ≠ []) (hsent : s.stream.sent = [])
    (h : (system defaultSetup).Reachable s) :
    ∃ s', (system defaultSetup).Reachable s' ∧ s'.captured = s.captured ∧
      s'.stream.received = s.stream.received ∧ s'.stream.handed = s.stream.pending := by
  have hseq := (PacketStream.kept_of_reachable (attached_of_reachable h).stream).accounts.seq
  rw [hsent] at hseq
  have hflush : PacketStream.flush defaultSetup.stream true s.stream = _ :=
    PacketStream.flush_of_ne_nil hpending (by rw [hseq]; decide)
  refine ⟨_, h.step ⟨_, .turn (.tick hidle.running hflush)⟩, rfl, rfl, ?_⟩
  rw [PacketStream.State.handed, hsent]
  exact List.append_nil _

/-- **A number comes twice**: the first packet has the number 0, and so has the one
that comes 2^64 packets later. -/
theorem numbers_wrap : ∃ s, (system defaultSetup).Reachable s ∧
    (s.reported.map fun pkt => pkt.packetId) = [0, 0] ∧
    ¬ (s.reported.map fun pkt => pkt.packetId).Pairwise (· < ·) := by
  obtain ⟨s, h, hidle, hcounter, hpending, hsent, hreceived⟩ := exists_arps (2 ^ 64 - 1)
  have hspace : s.stream.pending.length + 1 < 50 := by
    rw [hpending]
    decide
  obtain ⟨s', h', hidle', -, -, hstream⟩ := hidle.report (by rw [hcounter]) hspace h
  -- the last packet wears the number of the first
  have hpending' : s'.stream.pending = [bareEvent, bareEvent] := by
    rw [hstream]
    show s.stream.pending ++ [bareEvent] = _
    rw [hpending]
    rfl
  have hsent' : s'.stream.sent = [] := by
    rw [hstream]
    exact hsent
  have hreceived' : s'.stream.received.filter (fun pkt => pkt.transport.isSome)
      = [barePacket 0, barePacket 0] := by
    rw [hstream]
    show (s.stream.received ++ [_]).filter _ = _
    rw [List.filter_append, hreceived]
    rfl
  obtain ⟨s'', h'', -, hsame, hhanded⟩ := hidle'.tick (by rw [hpending']; nofun) hsent' h'
  have hreported : s''.reported = [barePacket 0, barePacket 0] := by
    rw [State.reported, hhanded, hsame, hreceived', hpending']
    rfl
  refine ⟨s'', h'', ?_, ?_⟩
  · rw [hreported]
    rfl
  · rw [hreported]
    decide

/-- Two packets are captured and reported. -/
theorem captureOrder_kept_twoPackets : ∃ s, (system defaultSetup).Reachable s ∧
    s.captured = [barePacket 0, barePacket 1] ∧ s.stream.handed = [bareEvent, bareEvent] ∧
    s.reported.map defaultSetup.parse = s.stream.handed.map some ∧
    (s.reported.map RawPacket.unscored).Sublist s.captured ∧
    (s.reported.map fun pkt => pkt.packetId).Pairwise (· < ·) := by
  obtain ⟨s₀, h₀, hidle₀, hcounter₀, hcaptured₀, hstream₀⟩ := exists_idle
  obtain ⟨s₁, h₁, hidle₁, hcounter₁, hcaptured₁, hstream₁⟩ := hidle₀.report (n := 0)
    (by rw [hcounter₀]; rfl) (by rw [hstream₀]; decide) h₀
  obtain ⟨s₂, h₂, hidle₂, -, hcaptured₂, hstream₂⟩ := hidle₁.report (n := 1)
    (by rw [hcounter₁, hcounter₀]; rfl) (by rw [hstream₁, State.arrival, hstream₀]; decide) h₁
  have hpending : s₂.stream.pending = [bareEvent, bareEvent] := by
    rw [hstream₂, State.arrival, hstream₁, State.arrival, hstream₀]
    rfl
  have hsent : s₂.stream.sent = [] := by
    rw [hstream₂, State.arrival, hstream₁, State.arrival, hstream₀]
    rfl
  obtain ⟨s, h, hcaptured, -, hhanded⟩ := hidle₂.tick (by rw [hpending]; nofun) hsent h₂
  have hpackets : s.captured = [barePacket 0, barePacket 1] := by
    rw [hcaptured, hcaptured₂, hcaptured₁, hcaptured₀]
    rfl
  obtain ⟨hevents, hsublist, hnumbers⟩ := captureOrder_kept h
  exact ⟨s, h, hpackets, hhanded.trans hpending, hevents, hsublist,
    hnumbers (by rw [hpackets]; decide)⟩

end Agent

end Ocellus
