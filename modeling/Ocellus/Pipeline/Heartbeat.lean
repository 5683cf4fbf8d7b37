import Ocellus.Pipeline.Agent

/-!
# Heartbeats (`run_heartbeat_loop` in `grpc_client.rs`)

A heartbeat reports the counters: packets captured, flagged and dropped. Only
`captured` is ever counted. So a heartbeat tells the truth as long as no packet was
lost and no event flagged; which steps lose or flag something can be told from the
state before them (`Harmless`).
-/

namespace Ocellus

structure HeartbeatConfig where
  agentId : Str
  agentVersion : Str
  hostname : Str
  osInfo : Str

/-- The proto message `AgentHeartbeat`. -/
structure AgentHeartbeat where
  agentId : Str
  ts : Option Timestamp
  packetsCaptured : BitVec 64
  packetsFlagged : BitVec 64
  packetsDropped : BitVec 64
  cpuUsagePct : F32
  memUsageMb : F32
  agentVersion : Str
  hostname : Str
  osInfo : Str

/-- The heartbeat at a tick; `now` is the time since the epoch. -/
def heartbeat (cfg : HeartbeatConfig) (now : Nat) (memMb : F32) (counters : AgentCounters) :
    AgentHeartbeat where
  agentId := cfg.agentId
  ts := some (.ofDuration now)
  packetsCaptured := counters.captured
  packetsFlagged := counters.flagged
  packetsDropped := counters.dropped
  cpuUsagePct := .fin 0
  memUsageMb := memMb
  agentVersion := cfg.agentVersion
  hostname := cfg.hostname
  osInfo := cfg.osInfo

/-! ## The batch of a turn -/

namespace PacketStream

variable {τ ε : Type} {cfg : PacketStreamConfig} {parse : τ → Option ε} {s s' : State τ ε}

/-- The batch channel takes the batch of the turn, if there is one. -/
def Branch.accepted : Branch → Bool
  | .recv accepted => accepted
  | .recvNone accepted => accepted
  | .tick accepted => accepted
  | .cancelled accepted => accepted

/-- The events that a turn sends: all that are pending, but on a receipt only if the
packet has an event that fills the batch. -/
def Branch.batch (cfg : PacketStreamConfig) (parse : τ → Option ε) (s : State τ ε) :
    Branch → List ε
  | .recv _ =>
    match s.queue.head?.bind parse with
    | none => []
    | some event => if cfg.batchSize ≤ s.pending.length + 1 then s.pending ++ [event] else []
  | _ => s.pending

/-- A turn sends its batch, if it is not empty, and counts nothing as flagged or
dropped. -/
structure Sends (cfg : PacketStreamConfig) (batch : List ε) (accepted : Bool) (s s' : State τ ε) :
    Prop where
  sent : s'.sent = s.sent ++ if batch = [] then [] else [(⟨batch, s.seq, cfg.agentId⟩, accepted)]
  flagged : s'.counters.flagged = s.counters.flagged
  dropped : s'.counters.dropped = s.counters.dropped

theorem sends_flush {accepted : Bool} (h : flush cfg accepted s = .ok s') :
    Sends cfg s.pending accepted s s' := by
  rcases flush_cases h with ⟨hempty, rfl⟩ | ⟨hpending, rfl⟩
  · exact ⟨by rw [if_pos hempty, List.append_nil], rfl, rfl⟩
  · exact ⟨by rw [if_neg hpending], rfl, rfl⟩

theorem Turn.sends {b : Branch} (h : Turn cfg parse b s s') :
    Sends cfg (b.batch cfg parse s) b.accepted s s' := by
  cases h with
  | @recv _ _ accepted raw rest hrunning hqueue hreceive =>
    have hbatch : (Branch.recv accepted).batch cfg parse s = match parse raw with
        | none => []
        | some event =>
          if cfg.batchSize ≤ s.pending.length + 1 then s.pending ++ [event] else [] := by
      rw [Branch.batch, hqueue]
      rfl
    rw [hbatch]
    rcases receive_cases hreceive with ⟨hnone, rfl⟩ | ⟨event, hsome, ⟨hfull, hflush⟩ | ⟨hroom, rfl⟩⟩
    · rw [hnone]
      exact ⟨(List.append_nil _).symm, rfl, rfl⟩
    · rw [hsome]
      show Sends cfg (if _ then _ else _) _ s s'
      rw [if_pos hfull]
      obtain ⟨hsent, hflagged, hdropped⟩ := sends_flush hflush
      exact ⟨hsent, hflagged, hdropped⟩
    · rw [hsome]
      show Sends cfg (if _ then _ else _) _ s _
      rw [if_neg (Nat.not_le_of_lt hroom)]
      exact ⟨(List.append_nil _).symm, rfl, rfl⟩
  | recvNone _ _ _ hflush | tick _ hflush | cancelled _ _ hflush =>
    obtain ⟨hsent, hflagged, hdropped⟩ := sends_flush hflush
    exact ⟨hsent, hflagged, hdropped⟩

end PacketStream

namespace Agent

variable {setup : Setup} {s s' : State} {a : Action}

/-! ## The true totals -/

/-- The packets lost so far: dropped by the ring buffer, refused by the channel to the
task, or in a batch that the batch channel did not take. -/
def State.lost (s : State) : Nat :=
  s.evicted.length + s.refused.length +
    ((s.stream.sent.filter fun p => !p.2).flatMap fun p => p.1.events).length

/-- The events put into batches with a reason. -/
def State.flagged (s : State) : Nat :=
  s.stream.handed.countP fun event => event.flagReason ≠ .unspecified

/-- Any heartbeat sent now reports the true totals. -/
def State.Truthful (s : State) : Prop :=
  ∀ cfg now memMb,
    (heartbeat cfg now memMb s.stream.counters).packetsDropped.toNat = s.lost ∧
    (heartbeat cfg now memMb s.stream.counters).packetsFlagged.toNat = s.flagged

/-- No step counts anything as flagged or dropped. -/
structure Uncounted (s : State) : Prop where
  flagged : s.stream.counters.flagged = 0#64
  dropped : s.stream.counters.dropped = 0#64
  capacity : s.buffer.cap = 4096

theorem Uncounted.step (h : Uncounted s) (hstep : Step setup a s s') : Uncounted s' := by
  obtain ⟨hflagged, hdropped, hcapacity⟩ := h
  cases hstep with
  | capture _ hpush =>
    obtain ⟨-, rfl⟩ := RingBuffer.push_eq_ok hpush
    exact ⟨hflagged, hdropped, hcapacity⟩
  | item _ _ => exact ⟨hflagged, hdropped, (RingBuffer.popBlocking_cap _).trans hcapacity⟩
  | turn hturn =>
    exact ⟨hturn.sends.flagged.trans hflagged, hturn.sends.dropped.trans hdropped, hcapacity⟩
  | outside houtside _ => cases houtside <;> exact ⟨hflagged, hdropped, hcapacity⟩
  | _ => exact ⟨hflagged, hdropped, hcapacity⟩

theorem uncounted_of_reachable (h : (system setup).Reachable s) : Uncounted s := by
  refine h.invariant ?_ fun s s' hs hstep => ?_
  · rintro s rfl
    exact ⟨rfl, rfl, rfl⟩
  · obtain ⟨a, hstep⟩ := hstep
    exact hs.step hstep

/-- Nothing was lost or flagged. -/
structure Clean (s : State) : Prop where
  evicted : s.evicted = []
  refused : s.refused = []
  sent : ∀ p ∈ s.stream.sent,
    p.2 = true ∧ ∀ event ∈ p.1.events, event.flagReason = .unspecified

/-- The counters are right as long as they are 0. -/
theorem truthful_iff_clean (h : (system setup).Reachable s) : s.Truthful ↔ Clean s := by
  obtain ⟨hflagged, hdropped, -⟩ := uncounted_of_reachable h
  have hsizes := (PacketStream.kept_of_reachable (attached_of_reachable h).stream).accounts.sizes
  -- the counters are 0 in every reachable state
  have hcounters : s.Truthful ↔ s.lost = 0 ∧ s.flagged = 0 := by
    constructor
    · intro htruthful
      obtain ⟨hlost, hflag⟩ := htruthful ⟨[], [], [], []⟩ 0 (.fin 0)
      rw [heartbeat, hdropped] at hlost
      rw [heartbeat, hflagged] at hflag
      exact ⟨hlost.symm, hflag.symm⟩
    · rintro ⟨hlost, hflag⟩ cfg now memMb
      rw [heartbeat, hdropped, hflagged, hlost, hflag]
      exact ⟨rfl, rfl⟩
  -- a batch that was not taken is not empty
  have hfailed : ((s.stream.sent.filter fun p => !p.2).flatMap fun p => p.1.events).length = 0 ↔
      ∀ p ∈ s.stream.sent, p.2 = true := by
    rw [List.length_eq_zero_iff, List.flatMap_eq_nil_iff]
    constructor
    · intro hnone p hp
      by_contra hrefused
      have hmem : p ∈ s.stream.sent.filter fun p => !p.2 :=
        List.mem_filter.mpr ⟨hp, by rw [Bool.not_eq_true] at hrefused; rw [hrefused]; rfl⟩
      exact (hsizes p hp).1 (hnone p hmem)
    · intro hall p hp
      obtain ⟨hmem, hrefused⟩ := List.mem_filter.mp hp
      rw [hall p hmem] at hrefused
      cases hrefused
  have hflags : s.flagged = 0 ↔
      ∀ p ∈ s.stream.sent, ∀ event ∈ p.1.events, event.flagReason = .unspecified := by
    rw [State.flagged, List.countP_eq_zero]
    constructor
    · intro hnone p hp event hevent
      have hnot := hnone event (List.mem_flatMap.mpr ⟨p, hp, hevent⟩)
      rwa [decide_eq_true_eq, not_not] at hnot
    · intro hall event hevent
      obtain ⟨p, hp, hevent⟩ := List.mem_flatMap.mp hevent
      rw [decide_eq_true_eq, not_not]
      exact hall p hp event hevent
  rw [hcounters, State.lost, hflags, Nat.add_eq_zero_iff, Nat.add_eq_zero_iff, hfailed,
    List.length_eq_zero_iff, List.length_eq_zero_iff]
  constructor
  · rintro ⟨⟨⟨hevicted, hrefused⟩, haccepted⟩, hunflagged⟩
    exact ⟨hevicted, hrefused, fun p hp => ⟨haccepted p hp, hunflagged p hp⟩⟩
  · rintro ⟨hevicted, hrefused, hsent⟩
    exact ⟨⟨⟨hevicted, hrefused⟩, fun p hp => (hsent p hp).1⟩, fun p hp => (hsent p hp).2⟩

/-! ## What each step loses -/

/-- The step loses nothing and flags nothing: the ring buffer has room for a packet
that is captured, the channel to the task for one that is forwarded, and a batch
that is sent is taken and has no event with a reason. -/
def Harmless (setup : Setup) (s : State) : Action → Prop
  | .capture _ => s.buffer.buf.length ≠ s.buffer.cap
  | .forward => s.Accepts setup
  | .turn b =>
    let batch := b.batch setup.stream setup.parse s.stream
    batch ≠ [] → b.accepted = true ∧ ∀ event ∈ batch, event.flagReason = .unspecified
  | _ => True

theorem Step.clean_iff (h : Step setup a s s') (huncounted : Uncounted s) :
    Clean s' ↔ Clean s ∧ Harmless setup s a := by
  -- a step that loses and sends nothing
  have hsame : s'.evicted = s.evicted → s'.refused = s.refused →
      s'.stream.sent = s.stream.sent → Harmless setup s a →
      (Clean s' ↔ Clean s ∧ Harmless setup s a) := by
    intro hevicted hrefused hsent hharmless
    rw [and_iff_left hharmless]
    constructor
    · rintro ⟨h₁, h₂, h₃⟩
      exact ⟨hevicted ▸ h₁, hrefused ▸ h₂, hsent ▸ h₃⟩
    · rintro ⟨h₁, h₂, h₃⟩
      exact ⟨hevicted.trans h₁, hrefused.trans h₂, hsent.symm ▸ h₃⟩
  cases h with
  | batch _ _ | empty _ _ | item _ _ | closed _ _ | score _ | collect _ _ | forwarded _ =>
    exact hsame rfl rfl rfl trivial
  | accepted _ haccepts => exact hsame rfl rfl rfl haccepts
  | outside houtside _ => cases houtside <;> exact hsame rfl rfl rfl trivial
  | refused _ hrefuses =>
    constructor
    · rintro ⟨-, hrefused, -⟩
      exact absurd hrefused (List.append_ne_nil_of_right_ne_nil _ (List.cons_ne_nil _ _))
    · rintro ⟨-, haccepts⟩
      exact absurd haccepts hrefuses
  | capture _ _ =>
    by_cases hfull : s.buffer.buf.length = s.buffer.cap
    -- a full buffer has an oldest packet to lose
    · have holdest : s.buffer.buf.take 1 ≠ [] := by
        rw [Ne, List.take_eq_nil_iff, ← List.length_eq_zero_iff, hfull, huncounted.capacity]
        omega
      constructor
      · rintro ⟨hevicted, -, -⟩
        rw [if_pos hfull] at hevicted
        exact absurd hevicted (List.append_ne_nil_of_right_ne_nil _ holdest)
      · rintro ⟨-, hroom⟩
        exact absurd hfull hroom
    · refine hsame ?_ rfl rfl hfull
      show s.evicted ++ (if _ then _ else _) = s.evicted
      rw [if_neg hfull, List.append_nil]
  | @turn _ b stream hturn =>
    have hsent := hturn.sends.sent
    -- a turn sends at most one batch, the last one of the new state
    by_cases hbatch : b.batch setup.stream setup.parse s.stream = []
    · rw [if_pos hbatch, List.append_nil] at hsent
      exact hsame rfl rfl hsent fun hne => absurd hbatch hne
    · rw [if_neg hbatch] at hsent
      constructor
      · rintro ⟨hevicted, hrefused, hall⟩
        have hall' := hsent ▸ hall
        exact ⟨⟨hevicted, hrefused, fun p hp => hall' p (List.mem_append_left _ hp)⟩,
          fun _ => hall' _ (List.mem_append_right _ (List.mem_singleton_self _))⟩
      · rintro ⟨⟨hevicted, hrefused, hall⟩, hlast⟩
        refine ⟨hevicted, hrefused, fun p hp => ?_⟩
        rw [show State.stream _ = stream from rfl, hsent] at hp
        rcases List.mem_append.mp hp with hp | hp
        · exact hall p hp
        · rw [List.mem_singleton.mp hp]
          exact hlast hbatch

/-! ## Runs -/

/-- The runs of the pipeline: the steps, each with the state before it. -/
inductive Run (setup : Setup) : List (State × Action) → State → Prop where
  | start : Run setup [] start
  | step {tr : List (State × Action)} {s s' : State} {a : Action} :
      Run setup tr s → Step setup a s s' → Run setup (tr ++ [(s, a)]) s'

theorem Run.reachable {tr : List (State × Action)} (h : Run setup tr s) :
    (system setup).Reachable s := by
  induction h with
  | start => exact .of_init rfl
  | step _ hstep ih => exact ih.step ⟨_, hstep⟩

/-- **Heartbeats, exactly**: in the state that a run has come to, a heartbeat tells
the truth if and only if no step of the run has lost or flagged anything. -/
theorem truthful_iff_harmless {tr : List (State × Action)} (h : Run setup tr s) :
    s.Truthful ↔ ∀ p ∈ tr, Harmless setup p.1 p.2 := by
  rw [truthful_iff_clean h.reachable]
  induction h with
  | start =>
    have hclean : Clean start := ⟨rfl, rfl, fun _ hp => absurd hp List.not_mem_nil⟩
    exact iff_of_true hclean fun _ hp => absurd hp List.not_mem_nil
  | @step tr s s' a hrun hstep ih =>
    rw [hstep.clean_iff (uncounted_of_reachable hrun.reachable), ih, List.forall_mem_append,
      List.forall_mem_singleton]

/-- A run without harm goes on. -/
theorem Run.harmless_step {tr : List (State × Action)}
    (h : Run setup tr s ∧ ∀ p ∈ tr, Harmless setup p.1 p.2) (hstep : Step setup a s s')
    (hlast : Harmless setup s a) :
    Run setup (tr ++ [(s, a)]) s' ∧ ∀ p ∈ tr ++ [(s, a)], Harmless setup p.1 p.2 := by
  refine ⟨h.1.step hstep, List.forall_mem_append.mpr ⟨h.2, fun p hp => ?_⟩⟩
  rw [List.mem_singleton.mp hp]
  exact hlast

/-- A packet is captured, scored, received and sent. -/
theorem truthful_iff_harmless_onePacket : ∃ tr s, Run defaultSetup tr s ∧
    s.captured = [barePacket 0] ∧ s.stream.handed = [bareEvent] ∧
    (∀ p ∈ tr, Harmless defaultSetup p.1 p.2) ∧ s.Truthful := by
  have h₀ : Run defaultSetup [] start ∧
      ∀ p ∈ ([] : List (State × Action)), Harmless defaultSetup p.1 p.2 :=
    ⟨.start, fun _ hp => absurd hp List.not_mem_nil⟩
  have h₁ := Run.harmless_step h₀ (.outside (.opened rfl) nofun) trivial
  have h₂ := Run.harmless_step h₁ (.capture (captures_barePacket 0) rfl) nofun
  have h₃ := Run.harmless_step h₂ (.batch rfl (List.cons_ne_nil _ _)) trivial
  have h₄ := Run.harmless_step h₃ (@Step.score _ _ (barePacket 0) [] [] noSignals rfl) trivial
  have hall : ∀ slot ∈ [(scoreOne noSignals (barePacket 0), true)], slot.2 = true := by
    intro slot hslot
    rw [List.mem_singleton.mp hslot]
  have h₅ := Run.harmless_step h₄ (.collect rfl hall) trivial
  have hroom : 0 < 1024 ∧ (PacketStream.Status.running = .opening ∨
      PacketStream.Status.running = .running) := by
    decide
  have h₆ := Run.harmless_step h₅ (.accepted rfl hroom) hroom
  have h₇ := Run.harmless_step h₆ (.forwarded rfl) trivial
  have h₈ := Run.harmless_step h₇ (.turn (b := .recv true) (.recv rfl rfl
    (PacketStream.receive_of_lt (parsePacket_barePacket 0) (by decide))))
    fun hbatch => absurd rfl hbatch
  have h₉ := Run.harmless_step h₈ (.turn (b := .tick true) (.tick rfl rfl)) fun _ => by
    refine ⟨rfl, fun event hevent => ?_⟩
    rw [List.mem_singleton.mp hevent]
    rfl
  exact ⟨_, _, h₉.1, rfl, rfl, h₉.2, (truthful_iff_harmless h₉.1).mpr h₉.2⟩

/-- **A lost packet that no heartbeat reports**: the backend cannot be reached, and so
the channel to the task refuses the first packet. -/
theorem refused_not_counted : ∃ s, (system defaultSetup).Reachable s ∧
    s.refused = [barePacket 0] ∧ s.lost = 1 ∧ s.stream.counters.dropped = 0#64 ∧
    ¬ s.Truthful := by
  have h₀ : (system defaultSetup).Reachable start := .of_init rfl
  have h₁ := h₀.step ⟨_, .outside (.openFails rfl) nofun⟩
  have h₂ := h₁.step ⟨_, .capture (captures_barePacket 0) rfl⟩
  have h₃ := h₂.step ⟨_, .batch rfl (List.cons_ne_nil _ _)⟩
  have h₄ := h₃.step ⟨_, @Step.score _ _ (barePacket 0) [] [] noSignals rfl⟩
  have hall : ∀ slot ∈ [(scoreOne noSignals (barePacket 0), true)], slot.2 = true := by
    intro slot hslot
    rw [List.mem_singleton.mp hslot]
  have h₅ := h₄.step ⟨_, .collect rfl hall⟩
  have hgone : ¬ ((0 < 1024) ∧ (PacketStream.Status.failed = .opening ∨
      PacketStream.Status.failed = .running)) := by
    decide
  -- the task is gone, and its end of the channel with it
  have h₆ := h₅.step ⟨_, .refused rfl hgone⟩
  refine ⟨_, h₆, rfl, rfl, rfl, fun htruthful => ?_⟩
  have hlost := (htruthful ⟨[], [], [], []⟩ 0 (.fin 0)).1
  cases hlost

end Agent

end Ocellus
