import Ocellus.Capture.Parse
import Ocellus.Ids.Score
import Ocellus.Pipeline.PacketStream
import Ocellus.Pipeline.RingBuffer

/-!
# The pipeline (`run_capture`, `start_analysis`, `run_packet_stream`)

The capture thread, the analyzer thread with its pool of workers and the packet
stream task, as a transition system in which they take turns in any order. Between
them are the ring buffer, which drops its oldest packet when it is full, and the
bounded channel to the task, which refuses packets when it is full or the task is
gone.

The detectors are left out: a packet may get any result. Startup and shutdown are in
`Ocellus.Pipeline.Shutdown`; here, the threads just run. Next to what the program
keeps, the state has the packets that were captured, and those that were lost on
their way to the task.
-/

namespace Ocellus

/-- `score_one`, with what `IdsEngine::analyze` returns. -/
def scoreOne (result : IdsResult) (pkt : RawPacket) : RawPacket :=
  { pkt with idsScore := result.totalScore, idsFlag := result.flagReason }

namespace Agent

/-- Where the analyzer thread is, with the packets it has. -/
inductive Analyzer where
  /-- At the top of the loop. -/
  | drain
  /-- Scoring, in the pool or alone; a packet that has been scored is marked. The
  results keep their positions (rayon's indexed `collect`). -/
  | scoring (slots : List (RawPacket × Bool))
  | forward (scored : List RawPacket)
  /-- In `pop_blocking`. -/
  | pop
  | done

/-- The packets that the analyzer has taken from the buffer and not passed on. -/
def Analyzer.inFlight : Analyzer → List RawPacket
  | .scoring slots => slots.map Prod.fst
  | .forward scored => scored
  | _ => []

structure Setup where
  channelCapacity : Nat
  stream : PacketStreamConfig
  /-- The BLAKE3 hash, which is a library. -/
  blake3 : Bytes → Bytes

/-- What the task reports of a packet. -/
def Setup.parse (setup : Setup) : RawPacket → Option PacketEvent :=
  parsePacket setup.blake3 setup.stream.agentId

structure State where
  /-- `PACKET_COUNTER`. -/
  packetCounter : BitVec 64
  buffer : RingBuffer RawPacket
  analyzer : Analyzer
  stream : PacketStream.State RawPacket PacketEvent
  captured : List RawPacket
  /-- Dropped by `push` from a full buffer. -/
  evicted : List RawPacket
  /-- Not taken by the channel. -/
  refused : List RawPacket

def start : State := ⟨0#64, .new 4096, .drain, PacketStream.init, [], [], []⟩

/-- `try_send` succeeds. -/
def State.Accepts (setup : Setup) (s : State) : Prop :=
  s.stream.queue.length < setup.channelCapacity ∧ s.stream.Alive

instance (setup : Setup) (s : State) : Decidable (s.Accepts setup) :=
  inferInstanceAs (Decidable (_ ∧ _))

/-- Some data that pcap delivers make the packet `raw`. -/
def Captures (packetId : Nat) (raw : RawPacket) : Prop :=
  ∃ data linkType origLen capLen interface timestamp,
    capturePacket data linkType origLen capLen interface timestamp packetId = .ok raw

/-- Who does what. -/
inductive Action where
  /-- The capture thread pushes a packet. -/
  | capture (raw : RawPacket)
  /-- The analyzer looks at the buffer: `drain_batch`, or one pass of `pop_blocking`. -/
  | drain
  | pop
  /-- A packet is scored. -/
  | score (result : IdsResult)
  /-- All of them are. -/
  | collect
  /-- The analyzer tries to send a packet. -/
  | forward
  /-- It has tried all of them. -/
  | forwarded
  /-- A turn of the packet stream task. -/
  | turn (b : PacketStream.Branch)
  /-- What happens around its loop. -/
  | outside

inductive Step (setup : Setup) : Action → State → State → Prop where
  | capture {s : State} {raw : RawPacket} {dropped : Nat} {buffer : RingBuffer RawPacket} :
      Captures s.packetCounter.toNat raw → s.buffer.push raw = .ok (dropped, buffer) →
      Step setup (.capture raw) s { s with
        packetCounter := s.packetCounter + 1, buffer
        captured := s.captured ++ [raw]
        evicted := s.evicted ++
          if s.buffer.buf.length = s.buffer.cap then s.buffer.buf.take 1 else [] }
  | batch {s : State} : s.analyzer = .drain → (s.buffer.drainBatch 64).1 ≠ [] →
      Step setup .drain s { s with
        analyzer := .scoring ((s.buffer.drainBatch 64).1.map fun pkt => (pkt, false))
        buffer := (s.buffer.drainBatch 64).2 }
  | empty {s : State} : s.analyzer = .drain → (s.buffer.drainBatch 64).1 = [] →
      Step setup .drain s { s with analyzer := .pop, buffer := (s.buffer.drainBatch 64).2 }
  | item {s : State} {pkt : RawPacket} : s.analyzer = .pop → s.buffer.popBlocking.1 = .item pkt →
      Step setup .pop s { s with
        analyzer := .scoring [(pkt, false)], buffer := s.buffer.popBlocking.2 }
  | closed {s : State} : s.analyzer = .pop → s.buffer.popBlocking.1 = .closed →
      Step setup .pop s { s with analyzer := .done }
  /-- By any worker, and in any order. -/
  | score {s : State} {pkt : RawPacket} {pre post : List (RawPacket × Bool)} {result : IdsResult} :
      s.analyzer = .scoring (pre ++ (pkt, false) :: post) →
      Step setup (.score result) s { s with
        analyzer := .scoring (pre ++ (scoreOne result pkt, true) :: post) }
  | collect {s : State} {slots : List (RawPacket × Bool)} : s.analyzer = .scoring slots →
      (∀ slot ∈ slots, slot.2 = true) →
      Step setup .collect s { s with analyzer := .forward (slots.map Prod.fst) }
  | accepted {s : State} {pkt : RawPacket} {rest : List RawPacket} :
      s.analyzer = .forward (pkt :: rest) → s.Accepts setup →
      Step setup .forward s { s with analyzer := .forward rest, stream := s.stream.enqueue pkt }
  | refused {s : State} {pkt : RawPacket} {rest : List RawPacket} :
      s.analyzer = .forward (pkt :: rest) → ¬ s.Accepts setup →
      Step setup .forward s { s with
        analyzer := .forward rest, refused := s.refused ++ [pkt] }
  | forwarded {s : State} : s.analyzer = .forward [] →
      Step setup .forwarded s { s with analyzer := .drain }
  | turn {s : State} {b : PacketStream.Branch} {stream : PacketStream.State RawPacket PacketEvent} :
      PacketStream.Turn setup.stream setup.parse b s.stream stream →
      Step setup (.turn b) s { s with stream }
  /-- The analyzer has a sender until it is done. -/
  | outside {s : State} {stream : PacketStream.State RawPacket PacketEvent} :
      PacketStream.Outside s.stream stream →
      (stream.sendersGone = true → s.stream.sendersGone = true ∨ s.analyzer = .done) →
      Step setup .outside s { s with stream }

def system (setup : Setup) : TransitionSystem State where
  init s := s = start
  step s s' := ∃ a, Step setup a s s'

/-! ## The packet stream task in the pipeline -/

variable {setup : Setup} {s s' : State} {a : Action}

/-- The task sees what it may see anywhere, and the analyzer keeps its sender. -/
structure Attached (setup : Setup) (s : State) : Prop where
  stream : (PacketStream.system setup.stream setup.parse).Reachable s.stream
  sender : s.stream.sendersGone = true → s.analyzer = .done

theorem attached_start : Attached setup start := ⟨.of_init rfl, nofun⟩

theorem Attached.step (h : Attached setup s) (hstep : Step setup a s s') : Attached setup s' := by
  obtain ⟨hstream, hsender⟩ := h
  -- while the analyzer is at work it holds a sender
  have hopen : s.analyzer ≠ .done → s.stream.sendersGone = false := fun hdone =>
    Bool.eq_false_iff.mpr fun hgone => hdone (hsender hgone)
  have hany : s.analyzer ≠ .done → ∀ b : Analyzer, s.stream.sendersGone = true → b = .done :=
    fun hdone b hgone => absurd (hsender hgone) hdone
  cases hstep with
  | capture _ _ => exact ⟨hstream, hsender⟩
  | closed _ _ => exact ⟨hstream, fun _ => rfl⟩
  | batch hat _ | empty hat _ | item hat _ | score hat | collect hat _ | refused hat _
  | forwarded hat =>
    exact ⟨hstream, hany (by rw [hat]; nofun) _⟩
  | @accepted _ pkt rest hat haccepts =>
    have hrunning : s.analyzer ≠ .done := by
      rw [hat]
      nofun
    exact ⟨hstream.step (.inr (.inr ⟨hopen hrunning, haccepts.2, pkt, rfl⟩)), hany hrunning _⟩
  | @turn _ b stream hturn =>
    refine ⟨hstream.step (.inl ⟨b, hturn⟩), ?_⟩
    rw [hturn.frame.1]
    exact hsender
  | outside houtside hgone =>
    refine ⟨hstream.step (.inr (.inl houtside)), fun h => ?_⟩
    rcases hgone h with hgone | hdone
    · exact hsender hgone
    · exact hdone

theorem attached_of_reachable (h : (system setup).Reachable s) : Attached setup s := by
  refine h.invariant ?_ fun s s' hs hstep => ?_
  · rintro s rfl
    exact attached_start
  · obtain ⟨a, hstep⟩ := hstep
    exact hs.step hstep

/-! ## A setup, and what goes through it -/

/-- The default capacity and batch size. -/
def defaultSetup : Setup := ⟨1024, ⟨[], 50⟩, fun _ => bareHash⟩

theorem captures_barePacket (packetId : Nat) : Captures packetId (barePacket packetId) :=
  ⟨⟨bareHeader, by decide⟩, .rawIp, 20#32, 20#32, [], 0, rfl⟩

/-- The result of a packet without signals. -/
def noSignals : IdsResult := ⟨.fin 0, .info, .unspecified, []⟩

end Agent

end Ocellus
