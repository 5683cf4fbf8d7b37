import Ocellus.Pipeline.Agent
import Ocellus.Pipeline.TestFrames

/-!
# Test runs (`run_test_sender` in `tests/test_sender.rs`)

With `--test-send` the packet stream task gets its packets from another task, which makes
some up in each tick and waits for room in the channel. The two are run together, in any
order.

Next to what the program keeps, the state has all packets that the sender has made. A test
run that nobody cancels ends after the ticks that were asked for, and then the events of
just these packets have been handed to the batch channel, in order (`testRun_complete`).
-/

namespace Ocellus

namespace TestSender

structure TestSenderConfig where
  packetsPerTick : Nat
  maxTicks : Option Nat

/-- Where the sender is. -/
inductive Place where
  /-- At the top of its loop. -/
  | top
  /-- In the loop over the packets of a tick, with those that it has not sent. -/
  | sending (rest : List RawPacket)
  | sleeping
  /-- It has returned, and its end of the channel is gone. -/
  | done

structure State where
  place : Place
  tick : Nat
  stream : PacketStream.State RawPacket PacketEvent
  made : List RawPacket

def start : State := ⟨.top, 0, PacketStream.init, []⟩

/-- `cfg.max_ticks.is_some_and(|max| tick >= max)`. -/
def TestSenderConfig.Reached (cfg : TestSenderConfig) (tick : Nat) : Prop :=
  ∃ max, cfg.maxTicks = some max ∧ max ≤ tick

/-- A packet that is made of random numbers. -/
def Generated (raw : RawPacket) : Prop :=
  ∃ draws timestamp frame, buildFrame draws = .ok frame.bytes ∧ frameToRaw timestamp frame = .ok raw

/-- The sender returns. -/
def State.end (s : State) : State :=
  { s with place := .done, stream := { s.stream with sendersGone := true } }

/-- What the sender does. -/
inductive SenderStep (setup : Agent.Setup) (cfg : TestSenderConfig) : State → State → Prop where
  | reached {s : State} : s.place = .top → cfg.Reached s.tick → SenderStep setup cfg s s.end
  | generate {s : State} {packets : List RawPacket} : s.place = .top → ¬ cfg.Reached s.tick →
      packets.length = cfg.packetsPerTick → (∀ raw ∈ packets, Generated raw) →
      SenderStep setup cfg s { s with place := .sending packets, made := s.made ++ packets }
  | send {s : State} {raw : RawPacket} {rest : List RawPacket} : s.place = .sending (raw :: rest) →
      s.stream.queue.length < setup.channelCapacity → s.stream.Alive →
      SenderStep setup cfg s { s with place := .sending rest, stream := s.stream.enqueue raw }
  /-- The receiver is gone. -/
  | sendFails {s : State} {raw : RawPacket} {rest : List RawPacket} :
      s.place = .sending (raw :: rest) → ¬ s.stream.Alive → SenderStep setup cfg s s.end
  | sendCancelled {s : State} {raw : RawPacket} {rest : List RawPacket} :
      s.place = .sending (raw :: rest) → s.stream.cancelled = true → SenderStep setup cfg s s.end
  | sent {s : State} {tick : Nat} : s.place = .sending [] → Checked.add 64 s.tick 1 = .ok tick →
      SenderStep setup cfg s { s with place := .sleeping, tick }
  | slept {s : State} : s.place = .sleeping → SenderStep setup cfg s { s with place := .top }
  | sleepCancelled {s : State} : s.place = .sleeping → s.stream.cancelled = true →
      SenderStep setup cfg s s.end

/-- The sender and the packet stream task, which share the token for the cancellation. -/
inductive Step (setup : Agent.Setup) (cfg : TestSenderConfig) : State → State → Prop where
  | sender {s s' : State} : SenderStep setup cfg s s' → Step setup cfg s s'
  | turn {s : State} {b : PacketStream.Branch} {stream : PacketStream.State RawPacket PacketEvent} :
      PacketStream.Turn setup.stream setup.parse b s.stream stream → Step setup cfg s { s with stream }
  /-- The only sender is this one. -/
  | outside {s : State} {stream : PacketStream.State RawPacket PacketEvent} :
      PacketStream.Outside s.stream stream → stream.sendersGone = s.stream.sendersGone →
      Step setup cfg s { s with stream }

def system (setup : Agent.Setup) (cfg : TestSenderConfig) : TransitionSystem State where
  init s := s = start
  step := Step setup cfg

/-! ## The packet stream task -/

section Stream

variable {τ ε : Type} {cfg : PacketStreamConfig} {parse : τ → Option ε}
  {s s' : PacketStream.State τ ε}

/-- What the task and its surroundings leave alone, and what is final. -/
structure Follows (s s' : PacketStream.State τ ε) : Prop where
  sendersGone : s'.sendersGone = s.sendersGone
  enqueued : s'.enqueued = s.enqueued
  cancelled : s.cancelled = true → s'.cancelled = true
  failed : s.status = .failed → s'.status = .failed
  stopped : s.status = .cancelled → s'.status = .cancelled
  closed : s'.status = .closed → s.status = .closed ∨ s.sendersGone = true

theorem turn_follows {b : PacketStream.Branch} (h : PacketStream.Turn cfg parse b s s') :
    Follows s s' := by
  obtain ⟨hgone, henqueued⟩ := h.frame
  cases h with
  | recv hrunning _ hreceive =>
    obtain ⟨pending, seq, counters, sent, rfl⟩ := PacketStream.receive_frame hreceive
    exact ⟨rfl, rfl, id, id, id, .inl⟩
  | recvNone hrunning _ hsenders hflush =>
    obtain ⟨pending, seq, sent, rfl⟩ := PacketStream.flush_frame hflush
    exact ⟨rfl, rfl, id, fun h => absurd (hrunning.symm.trans h) nofun,
      fun h => absurd (hrunning.symm.trans h) nofun, fun _ => .inr hsenders⟩
  | tick hrunning hflush =>
    obtain ⟨pending, seq, sent, rfl⟩ := PacketStream.flush_frame hflush
    exact ⟨rfl, rfl, id, id, id, .inl⟩
  | cancelled hrunning _ hflush =>
    obtain ⟨pending, seq, sent, rfl⟩ := PacketStream.flush_frame hflush
    exact ⟨rfl, rfl, id, fun h => absurd (hrunning.symm.trans h) nofun, fun _ => rfl, nofun⟩

theorem outside_follows (h : PacketStream.Outside s s') (hgone : s'.sendersGone = s.sendersGone) :
    Follows s s' := by
  cases h with
  | opened hopening =>
    exact ⟨rfl, rfl, id, fun h => absurd (hopening.symm.trans h) nofun,
      fun h => absurd (hopening.symm.trans h) nofun, nofun⟩
  | openFails hopening =>
    exact ⟨rfl, rfl, id, fun _ => rfl, fun h => absurd (hopening.symm.trans h) nofun, nofun⟩
  | sendersGone => exact ⟨hgone, rfl, id, id, id, .inl⟩
  | cancel => exact ⟨rfl, rfl, fun _ => rfl, id, id, .inl⟩

end Stream

/-! ## What every step keeps -/

variable {setup : Agent.Setup} {cfg : TestSenderConfig} {s s' : State}

/-- Why the sender may have returned. -/
def State.Ended (cfg : TestSenderConfig) (s : State) : Prop :=
  s.stream.cancelled = true ∨ s.stream.status = .failed ∨ s.stream.status = .cancelled ∨
    cfg.maxTicks = some s.tick ∧ s.stream.enqueued = s.made ∧
      s.made.length = s.tick * cfg.packetsPerTick

/-- What the sender has made and sent, by where it is. -/
def State.Sent (cfg : TestSenderConfig) (s : State) : Place → Prop
  | .top | .sleeping => s.stream.sendersGone = false ∧
      s.stream.enqueued = s.made ∧ s.made.length = s.tick * cfg.packetsPerTick ∧
      ∀ max, cfg.maxTicks = some max → s.tick ≤ max
  | .sending rest => s.stream.sendersGone = false ∧
      s.stream.enqueued ++ rest = s.made ∧ s.made.length = (s.tick + 1) * cfg.packetsPerTick ∧
      ¬ cfg.Reached s.tick
  | .done => s.stream.sendersGone = true ∧ s.Ended cfg

structure Kept (setup : Agent.Setup) (cfg : TestSenderConfig) (s : State) : Prop where
  stream : (PacketStream.system setup.stream setup.parse).Reachable s.stream
  generated : ∀ raw ∈ s.made, Generated raw
  closed : s.stream.status = .closed → s.stream.sendersGone = true
  sent : s.Sent cfg s.place

theorem kept_start : Kept setup cfg start where
  stream := .of_init rfl
  generated := List.forall_mem_nil _
  closed h := nomatch h
  sent := ⟨rfl, rfl, (Nat.zero_mul _).symm, fun _ _ => Nat.zero_le _⟩

/-- The task goes on. -/
theorem Kept.follows {stream : PacketStream.State RawPacket PacketEvent} (h : Kept setup cfg s)
    (hstep : (PacketStream.system setup.stream setup.parse).step s.stream stream)
    (hfollows : Follows s.stream stream) : Kept setup cfg { s with stream } := by
  obtain ⟨hstream, hgenerated, hclosed, hsent⟩ := h
  obtain ⟨place, tick, old, made⟩ := s
  obtain ⟨hgone, henqueued, hcancelled, hfailed, hstopped, hends⟩ := hfollows
  refine ⟨hstream.step hstep, hgenerated, fun hstatus => ?_, ?_⟩
  · rw [show stream.sendersGone = old.sendersGone from hgone]
    exact (hends hstatus).elim hclosed id
  · dsimp only at hsent hgone henqueued ⊢
    cases place with
    | top | sleeping | sending rest =>
      unfold State.Sent at hsent ⊢
      dsimp only at hsent ⊢
      rw [hgone, henqueued]
      exact hsent
    | done =>
      refine ⟨hgone.trans hsent.1, ?_⟩
      rcases hsent.2 with h | h | h | ⟨hmax, hall, hcount⟩
      · exact .inl (hcancelled h)
      · exact .inr (.inl (hfailed h))
      · exact .inr (.inr (.inl (hstopped h)))
      · exact .inr (.inr (.inr ⟨hmax, henqueued.trans hall, hcount⟩))

/-- The sender returns for a reason. -/
theorem Kept.end (h : Kept setup cfg s) (hended : s.Ended cfg) : Kept setup cfg s.end :=
  ⟨h.stream.step (.inr (.inl .sendersGone)), h.generated, fun _ => rfl, rfl, hended⟩

/-- A receiver that is gone while there is a sender has failed or was cancelled. -/
theorem Kept.ended_of_not_alive (h : Kept setup cfg s) (hgone : s.stream.sendersGone = false)
    (hdead : ¬ s.stream.Alive) : s.Ended cfg := by
  cases hstatus : s.stream.status with
  | opening => exact absurd (.inl hstatus) hdead
  | running => exact absurd (.inr hstatus) hdead
  | failed => exact .inr (.inl hstatus)
  | closed => exact absurd (hgone.symm.trans (h.closed hstatus)) nofun
  | cancelled => exact .inr (.inr (.inl hstatus))

theorem Kept.sender (h : Kept setup cfg s) (hstep : SenderStep setup cfg s s') :
    Kept setup cfg s' := by
  have hsent := h.sent
  cases hstep with
  | reached hplace hreached =>
    rw [hplace] at hsent
    obtain ⟨-, hall, hcount, hticks⟩ := hsent
    obtain ⟨max, hmax, hle⟩ := hreached
    obtain rfl : max = s.tick := Nat.le_antisymm hle (hticks max hmax)
    exact h.end (.inr (.inr (.inr ⟨hmax, hall, hcount⟩)))
  | generate hplace hmore hlength hpackets =>
    rw [hplace] at hsent
    obtain ⟨hgone, hall, hcount, -⟩ := hsent
    refine ⟨h.stream, List.forall_mem_append.mpr ⟨h.generated, hpackets⟩, h.closed, hgone, ?_, ?_,
      hmore⟩
    · exact congrArg (· ++ _) hall
    · show (s.made ++ _).length = _
      rw [List.length_append, hcount, hlength, Nat.succ_mul]
  | @send raw rest hplace hroom halive =>
    rw [hplace] at hsent
    obtain ⟨hgone, hall, hcount, hmore⟩ := hsent
    refine ⟨h.stream.step (.inr (.inr ⟨hgone, halive, raw, rfl⟩)), h.generated, h.closed, hgone, ?_,
      hcount, hmore⟩
    show s.stream.enqueued ++ [raw] ++ rest = s.made
    rw [List.append_assoc, List.singleton_append, hall]
  | sendFails hplace hdead =>
    rw [hplace] at hsent
    exact h.end (h.ended_of_not_alive hsent.1 hdead)
  | sendCancelled hplace hcancelled => exact h.end (.inl hcancelled)
  | @sent tick hplace htick =>
    rw [hplace] at hsent
    obtain ⟨hgone, hall, hcount, hmore⟩ := hsent
    rw [List.append_nil] at hall
    obtain rfl := Checked.add_eq_ok htick
    refine ⟨h.stream, h.generated, h.closed, hgone, hall, hcount, fun max hmax => ?_⟩
    exact Nat.lt_of_not_le fun hle => hmore ⟨max, hmax, hle⟩
  | slept hplace =>
    rw [hplace] at hsent
    exact ⟨h.stream, h.generated, h.closed, hsent⟩
  | sleepCancelled hplace hcancelled => exact h.end (.inl hcancelled)

theorem kept_of_reachable (h : (system setup cfg).Reachable s) : Kept setup cfg s := by
  refine h.invariant ?_ fun s s' hs hstep => ?_
  · rintro s rfl
    exact kept_start
  · cases hstep with
    | sender hsender => exact hs.sender hsender
    | turn hturn => exact hs.follows (.inl ⟨_, hturn⟩) (turn_follows hturn)
    | outside houtside hgone => exact hs.follows (.inr (.inl houtside)) (outside_follows houtside hgone)

/-! ## Runs to the end -/

/-- Every packet that is made has an event. -/
theorem Generated.parse_isSome {raw : RawPacket} (h : Generated raw) :
    (setup.parse raw).isSome = true := by
  obtain ⟨draws, timestamp, frame, hbuild, hraw⟩ := h
  obtain ⟨bytes, hbytes⟩ := frame
  obtain rfl : bytes = draws.frame.bytes :=
    Except.ok.inj (hbuild.symm.trans (buildFrame_eq draws))
  rw [show frameToRaw timestamp ⟨draws.frame.bytes, hbytes⟩ = _ from frameToRaw_eq ..] at hraw
  obtain rfl := Except.ok.inj hraw
  exact parsePacket_isSome ..

/-- A sender that has returned, without a failure and without being cancelled, has made
all its ticks. -/
theorem Kept.ticks (h : Kept setup cfg s) (hclosed : s.stream.status = .closed)
    (hcancelled : s.stream.cancelled = false) :
    cfg.maxTicks = some s.tick ∧ s.stream.enqueued = s.made ∧
      s.made.length = s.tick * cfg.packetsPerTick := by
  have hgone := h.closed hclosed
  have hsent := h.sent
  cases hplace : s.place with
  | top | sleeping | sending rest =>
    rw [hplace] at hsent
    exact absurd (hsent.1.symm.trans hgone) nofun
  | done =>
    rw [hplace] at hsent
    rcases hsent.2 with hcancel | hfailed | hstopped | hticks
    · exact absurd (hcancelled.symm.trans hcancel) nofun
    · exact absurd (hclosed.symm.trans hfailed) nofun
    · exact absurd (hclosed.symm.trans hstopped) nofun
    · exact hticks

/-- **A test run is complete**: when the packet stream task has seen its channel closed and
nobody has cancelled anything, then the sender was given a number of ticks, it has made
the packets of these ticks, and of all that it has made, in order, the events have been
handed to the batch channel. -/
theorem testRun_complete (setup : Agent.Setup) (cfg : TestSenderConfig) {s : State}
    (h : (system setup cfg).Reachable s) (hclosed : s.stream.status = .closed)
    (hcancelled : s.stream.cancelled = false) :
    (∃ maxTicks, cfg.maxTicks = some maxTicks ∧ s.made.length = maxTicks * cfg.packetsPerTick) ∧
      (∀ raw ∈ s.made, Generated raw) ∧ s.stream.received = s.made ∧
      s.stream.handed.map some = s.made.map setup.parse ∧
      s.stream.counters.captured = BitVec.ofNat 64 s.made.length := by
  have hkept := kept_of_reachable h
  obtain ⟨hmax, hall, hcount⟩ := hkept.ticks hclosed hcancelled
  obtain ⟨haccounts, -, hfifo, hidle, -, hgone, hdropped⟩ :=
    PacketStream.kept_of_reachable hkept.stream
  have hpending : s.stream.pending = [] := hidle (by rw [hclosed]; nofun)
  have hqueue : s.stream.queue = [] := hgone (by rw [PacketStream.State.Alive, hclosed]; decide)
  -- all that was sent has been received, and nothing of it is pending
  have hreceived : s.stream.received = s.made := by
    rw [← hall, hfifo, hqueue, hdropped hclosed, List.append_nil, List.append_nil]
  have hhanded : s.stream.handed = s.made.filterMap setup.parse := by
    rw [← hreceived, ← haccounts.events, hpending, List.append_nil]
  have hsome : ∀ event ∈ s.made.map setup.parse, event.isSome = true := by
    intro event hevent
    obtain ⟨raw, hraw, rfl⟩ := List.mem_map.mp hevent
    exact (hkept.generated raw hraw).parse_isSome
  have hevents : s.stream.handed.map some = s.made.map setup.parse := by
    rw [hhanded, List.map_filterMap_some_eq_filter_map_isSome, List.filter_eq_self.mpr hsome]
  refine ⟨⟨s.tick, hmax, hcount⟩, hkept.generated, hreceived, hevents, ?_⟩
  have hlength := congrArg List.length hevents
  rw [List.length_map, List.length_map] at hlength
  rw [haccounts.captured, hpending, ← hlength]
  rfl

/-- An echo request with nothing behind its header. -/
def emptyDraws : Draws where
  proto := 0
  macs := ⟨List.replicate 12 0#8, rfl⟩
  ttl := 64#8
  ttl_ge := by decide
  src := ⟨10#8, 0#8, 0#8, 1#8, by decide, by decide⟩
  dst := ⟨10#8, 0#8, 0#8, 2#8, by decide, by decide⟩
  srcPort := 1024#16
  srcPort_ge := by decide
  dstPort := 53#16
  dstPort_mem := by decide
  payload := []
  payload_le := by decide

/-- Two ticks, with one packet each. -/
theorem testRun_complete_two : ∃ s : State,
    (system ⟨1024, ⟨[], 50⟩, fun _ => bareHash⟩ ⟨1, some 2⟩).Reachable s ∧
    s.stream.status = .closed ∧ s.made = [emptyDraws.raw 0, emptyDraws.raw 7] ∧
    s.stream.handed.length = 2 ∧ (∃ maxTicks, some 2 = some maxTicks ∧ s.made.length = maxTicks * 1) ∧
    (∀ raw ∈ s.made, Generated raw) ∧ s.stream.received = s.made ∧
    s.stream.handed.map some = s.made.map (Agent.Setup.parse ⟨1024, ⟨[], 50⟩, fun _ => bareHash⟩) ∧
    s.stream.counters.captured = BitVec.ofNat 64 s.made.length := by
  let setup : Agent.Setup := ⟨1024, ⟨[], 50⟩, fun _ => bareHash⟩
  have hgenerated (timestamp : Int) : Generated (emptyDraws.raw timestamp) :=
    ⟨emptyDraws, timestamp, emptyDraws.frame, buildFrame_eq _, frameToRaw_eq ..⟩
  have hevent (timestamp : Int) : ∃ event, setup.parse (emptyDraws.raw timestamp) = some event :=
    Option.isSome_iff_exists.mp (hgenerated timestamp).parse_isSome
  obtain ⟨first, hfirst⟩ := hevent 0
  obtain ⟨second, hsecond⟩ := hevent 7
  have hmore {tick : Nat} (htick : tick < 2) : ¬ TestSenderConfig.Reached ⟨1, some 2⟩ tick := by
    rintro ⟨max, hmax, hle⟩
    obtain rfl := Option.some.inj hmax
    exact absurd hle (Nat.not_le_of_lt htick)
  have hroom : 0 < 1024 := by decide
  have hspace : 1 < 50 := by decide
  have h₀ : (system setup ⟨1, some 2⟩).Reachable start := .of_init rfl
  have h₁ := h₀.step (.outside (.opened rfl) rfl)
  have h₂ := h₁.step (.sender (.generate rfl (hmore Nat.two_pos) rfl
    (List.forall_mem_singleton.mpr (hgenerated 0))))
  have h₃ := h₂.step (.sender (.send rfl hroom (.inr rfl)))
  have h₄ := h₃.step (.sender (.sent rfl rfl))
  have h₅ := h₄.step (.turn (b := .recv true) (.recv rfl rfl
    (PacketStream.receive_of_lt hfirst hspace)))
  have h₆ := h₅.step (.sender (.slept rfl))
  have h₇ := h₆.step (.sender (.generate rfl (hmore Nat.one_lt_two) rfl
    (List.forall_mem_singleton.mpr (hgenerated 7))))
  have h₈ := h₇.step (.sender (.send rfl hroom (.inr rfl)))
  have h₉ := h₈.step (.turn (b := .recv true) (.recv rfl rfl
    (PacketStream.receive_of_lt hsecond (show 2 < 50 by decide))))
  have h₁₀ := h₉.step (.sender (.sent rfl rfl))
  have h₁₁ := h₁₀.step (.sender (.slept rfl))
  have h₁₂ := h₁₁.step (.sender (.reached rfl ⟨2, rfl, le_refl 2⟩))
  have h₁₃ := h₁₂.step (.turn (b := .recvNone true) (.recvNone rfl rfl rfl
    (PacketStream.flush_of_ne_nil nofun (show 0 + 1 < 2 ^ 64 by decide))))
  exact ⟨_, h₁₃, rfl, rfl, rfl, testRun_complete setup ⟨1, some 2⟩ h₁₃ rfl rfl⟩

end TestSender

end Ocellus
