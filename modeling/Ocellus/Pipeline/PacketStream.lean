import Ocellus.Base.Transition
import Ocellus.Pipeline.PacketEvent

/-!
# The packet stream (`run_packet_stream` in `grpc_client.rs`)

A task that takes packets from a channel, turns those with transport metadata into
events, and hands the events on in batches. One turn of its `select!` loop is one
step, with what the batch channel makes of the batch if one is sent; the packets
put into the channel, the end of its senders and the cancellation come from outside,
at any time.

The task is generic in the packets and in what it parses them to. Next to what the
program keeps, the state has what has gone through it: all packets that were
enqueued and received, those that were in the channel when the task returned, and the
batches that were handed to the batch channel.
-/

namespace Ocellus

/-- The counters shared with the heartbeat. -/
structure AgentCounters where
  captured : BitVec 64
  flagged : BitVec 64
  dropped : BitVec 64
  deriving DecidableEq, Repr

/-- `AgentCounters::default()`. -/
def AgentCounters.zero : AgentCounters := ⟨0#64, 0#64, 0#64⟩

/-- The proto message `PacketBatch`. -/
structure PacketBatch (ε : Type) where
  events : List ε
  seq : Nat
  agentId : Str
  deriving DecidableEq

structure PacketStreamConfig where
  agentId : Str
  batchSize : Nat

namespace PacketStream

/-- Where the task is. -/
inductive Status where
  /-- Opening the `IngestPackets` stream. -/
  | opening
  /-- In the loop. -/
  | running
  /-- The stream could not be opened. -/
  | failed
  /-- It has seen the channel closed and empty. -/
  | closed
  | cancelled
  deriving DecidableEq, Repr

structure State (τ ε : Type) where
  status : Status
  /-- The packets in `capture_rx`. -/
  queue : List τ
  /-- All senders of the channel are gone. -/
  sendersGone : Bool
  cancelled : Bool
  pending : List ε
  seq : Nat
  counters : AgentCounters
  enqueued : List τ
  received : List τ
  /-- Dropped with `capture_rx`. -/
  abandoned : List τ
  /-- The batches handed to the batch channel, and whether it took them. -/
  sent : List (PacketBatch ε × Bool)

/-- The task takes packets, or will. -/
def State.Alive {τ ε : Type} (s : State τ ε) : Prop := s.status = .opening ∨ s.status = .running

instance {τ ε : Type} (s : State τ ε) : Decidable s.Alive := inferInstanceAs (Decidable (_ ∨ _))

variable {τ ε : Type} (cfg : PacketStreamConfig) (parse : τ → Option ε)

def init : State τ ε := ⟨.opening, [], false, false, [], 0, .zero, [], [], [], []⟩

/-- The task returns. This drops `capture_rx`, and with it the packets that nobody has
received. -/
def State.leave (status : Status) (s : State τ ε) : State τ ε :=
  { s with status, queue := [], abandoned := s.queue }

/-- `flush`: send what is pending as one batch. -/
def flush (accepted : Bool) (s : State τ ε) : Checked (State τ ε) :=
  if s.pending = [] then .ok s
  else do
    let batch := ⟨s.pending, s.seq, cfg.agentId⟩
    let seq ← Checked.add 64 s.seq 1
    return { s with pending := [], seq, sent := s.sent ++ [(batch, accepted)] }

/-- An event is counted, and pending. -/
def State.push (event : ε) (s : State τ ε) : State τ ε := { s with
  counters := { s.counters with captured := s.counters.captured + 1 }
  pending := s.pending ++ [event] }

/-- What is done with a received packet. -/
def receive (accepted : Bool) (raw : τ) (s : State τ ε) : Checked (State τ ε) :=
  match parse raw with
  | none => .ok s
  | some event =>
    let s := s.push event
    if cfg.batchSize ≤ s.pending.length then flush cfg accepted s else .ok s

/-- The branches of `select!`, with what the batch channel would do with a batch. -/
inductive Branch where
  | recv (accepted : Bool)
  /-- `recv` returns `None`. -/
  | recvNone (accepted : Bool)
  | tick (accepted : Bool)
  | cancelled (accepted : Bool)
  deriving DecidableEq, Repr

/-- One turn of the loop. -/
inductive Turn : Branch → State τ ε → State τ ε → Prop where
  | recv {s s' : State τ ε} {accepted : Bool} {raw : τ} {rest : List τ} :
      s.status = .running → s.queue = raw :: rest →
      receive cfg parse accepted raw
        { s with queue := rest, received := s.received ++ [raw] } = .ok s' →
      Turn (.recv accepted) s s'
  | recvNone {s s' : State τ ε} {accepted : Bool} :
      s.status = .running → s.queue = [] → s.sendersGone = true →
      flush cfg accepted s = .ok s' → Turn (.recvNone accepted) s (s'.leave .closed)
  | tick {s s' : State τ ε} {accepted : Bool} :
      s.status = .running → flush cfg accepted s = .ok s' → Turn (.tick accepted) s s'
  | cancelled {s s' : State τ ε} {accepted : Bool} :
      s.status = .running → s.cancelled = true →
      flush cfg accepted s = .ok s' → Turn (.cancelled accepted) s (s'.leave .cancelled)

/-- What happens around the loop. -/
inductive Outside : State τ ε → State τ ε → Prop where
  | opened {s : State τ ε} : s.status = .opening → Outside s { s with status := .running }
  | openFails {s : State τ ε} : s.status = .opening → Outside s (s.leave .failed)
  | sendersGone {s : State τ ε} : Outside s { s with sendersGone := true }
  | cancel {s : State τ ε} : Outside s { s with cancelled := true }

/-- A packet is put into the channel. -/
def State.enqueue (raw : τ) (s : State τ ε) : State τ ε :=
  { s with queue := s.queue ++ [raw], enqueued := s.enqueued ++ [raw] }

/-- The task, among senders that may send at any time while there is one and the
task takes packets. -/
def system : TransitionSystem (State τ ε) where
  init s := s = init
  step s s' := (∃ b, Turn cfg parse b s s') ∨ Outside s s' ∨
    s.sendersGone = false ∧ s.Alive ∧ ∃ raw, s' = s.enqueue raw

/-! ## What a turn does -/

variable {cfg parse} {s s' : State τ ε} {accepted : Bool}

/-- The events that have been handed to the batch channel, in order. -/
def State.handed (s : State τ ε) : List ε := s.sent.flatMap fun p => p.1.events

/-- Inversion of a flush: it does nothing, or sends what is pending. -/
theorem flush_cases (h : flush cfg accepted s = .ok s') :
    (s.pending = [] ∧ s' = s) ∨ (s.pending ≠ [] ∧ s' = { s with
      pending := [], seq := s.seq + 1
      sent := s.sent ++ [(⟨s.pending, s.seq, cfg.agentId⟩, accepted)] }) := by
  rw [flush] at h
  split at h
  · rename_i hempty
    exact .inl ⟨hempty, (Except.ok.inj h).symm⟩
  · rename_i hpending
    obtain ⟨seq, hseq, h⟩ := Checked.bind_eq_ok.mp h
    obtain rfl := Checked.add_eq_ok hseq
    exact .inr ⟨hpending, (Except.ok.inj h).symm⟩

/-- What the task keeps true of its own variables. -/
structure Accounts (cfg : PacketStreamConfig) (parse : τ → Option ε) (s : State τ ε) : Prop where
  events : s.handed ++ s.pending = s.received.filterMap parse
  seq : s.seq = s.sent.length
  numbered : s.sent.map (fun p => p.1.seq) = List.range s.sent.length
  sizes : ∀ p ∈ s.sent, p.1.events ≠ [] ∧ p.1.events.length ≤ max 1 cfg.batchSize
  captured : s.counters.captured = BitVec.ofNat 64 (s.handed.length + s.pending.length)

theorem accounts_init : Accounts cfg parse (init : State τ ε) :=
  ⟨rfl, rfl, rfl, fun _ hp => absurd hp List.not_mem_nil, rfl⟩

/-- A flush sends at most what fits into a batch, and leaves nothing pending. -/
theorem flush_accounts (hs : Accounts cfg parse s)
    (hfits : s.pending.length ≤ max 1 cfg.batchSize) (h : flush cfg accepted s = .ok s') :
    Accounts cfg parse s' ∧ s'.pending = [] := by
  rcases flush_cases h with ⟨hempty, rfl⟩ | ⟨hpending, rfl⟩
  · exact ⟨hs, hempty⟩
  · have hhanded : State.handed { s with
        pending := [], seq := s.seq + 1
        sent := s.sent ++ [(⟨s.pending, s.seq, cfg.agentId⟩, accepted)] } = s.handed ++ s.pending := by
      rw [State.handed, List.flatMap_append, List.flatMap_singleton]
      rfl
    refine ⟨⟨?_, ?_, ?_, ?_, ?_⟩, rfl⟩
    · rw [hhanded, List.append_nil]
      exact hs.events
    · rw [List.length_append, List.length_singleton, ← hs.seq]
    · rw [List.map_append, hs.numbered, List.length_append, List.length_singleton,
        List.range_succ, ← hs.seq]
      rfl
    · intro p hp
      rcases List.mem_append.mp hp with hp | hp
      · exact hs.sizes p hp
      · rw [List.mem_singleton.mp hp]
        exact ⟨hpending, hfits⟩
    · rw [hhanded, List.length_append, List.length_nil, Nat.add_zero]
      exact hs.captured

/-- Evaluation of a flush. -/
theorem flush_of_ne_nil (hpending : s.pending ≠ []) (hseq : s.seq + 1 < 2 ^ 64) :
    flush cfg accepted s = .ok { s with
      pending := [], seq := s.seq + 1
      sent := s.sent ++ [(⟨s.pending, s.seq, cfg.agentId⟩, accepted)] } := by
  rw [flush, if_neg hpending, Checked.add_of_lt hseq]
  rfl

/-- Evaluation of a receipt without an event. -/
theorem receive_of_none {raw : τ} (hnone : parse raw = none) :
    receive cfg parse accepted raw s = .ok s := by
  unfold receive
  rw [hnone]

/-- Evaluation of a receipt that fills a batch. -/
theorem receive_of_le {raw : τ} {event : ε} (hsome : parse raw = some event)
    (hfull : cfg.batchSize ≤ s.pending.length + 1) :
    receive cfg parse accepted raw s = flush cfg accepted (s.push event) := by
  unfold receive
  rw [hsome]
  exact if_pos (List.length_append.trans_ge hfull)

/-- Evaluation of a receipt that does not. -/
theorem receive_of_lt {raw : τ} {event : ε} (hsome : parse raw = some event)
    (hroom : s.pending.length + 1 < cfg.batchSize) :
    receive cfg parse accepted raw s = .ok (s.push event) := by
  unfold receive
  rw [hsome]
  exact if_neg (Nat.not_le_of_lt (List.length_append.trans_lt hroom))

/-- Inversion of a receipt: the packet has no event, or its event is counted and
pending, and what is pending is sent once it fills a batch. -/
theorem receive_cases {raw : τ} (h : receive cfg parse accepted raw s = .ok s') :
    (parse raw = none ∧ s' = s) ∨ ∃ event, parse raw = some event ∧
      ((cfg.batchSize ≤ s.pending.length + 1 ∧ flush cfg accepted (s.push event) = .ok s') ∨
        (s.pending.length + 1 < cfg.batchSize ∧ s' = s.push event)) := by
  cases hparse : parse raw with
  | none =>
    rw [receive_of_none hparse] at h
    exact .inl ⟨rfl, (Except.ok.inj h).symm⟩
  | some event =>
    refine .inr ⟨event, rfl, ?_⟩
    rcases Nat.lt_or_ge (s.pending.length + 1) cfg.batchSize with hroom | hfull
    · rw [receive_of_lt hparse hroom] at h
      exact .inr ⟨hroom, (Except.ok.inj h).symm⟩
    · rw [receive_of_le hparse hfull] at h
      exact .inl ⟨hfull, h⟩

/-- A flush touches nothing but the batch and its number. -/
theorem flush_frame (h : flush cfg accepted s = .ok s') :
    ∃ pending seq sent, s' = { s with pending, seq, sent } := by
  rcases flush_cases h with ⟨-, rfl⟩ | ⟨-, rfl⟩
  · exact ⟨_, _, _, rfl⟩
  · exact ⟨_, _, _, rfl⟩

/-- A receipt touches nothing but the batch, its number and the counter. -/
theorem receive_frame {raw : τ} (h : receive cfg parse accepted raw s = .ok s') :
    ∃ pending seq counters sent, s' = { s with pending, seq, counters, sent } := by
  rcases receive_cases h with ⟨-, rfl⟩ | ⟨event, -, ⟨-, hflush⟩ | ⟨-, rfl⟩⟩
  · exact ⟨_, _, _, _, rfl⟩
  · obtain ⟨pending, seq, sent, rfl⟩ := flush_frame hflush
    exact ⟨_, _, _, _, rfl⟩
  · exact ⟨_, _, _, _, rfl⟩

/-- A turn leaves the senders alone, and what they have enqueued. -/
theorem Turn.frame {b : Branch} (h : Turn cfg parse b s s') :
    s'.sendersGone = s.sendersGone ∧ s'.enqueued = s.enqueued := by
  cases h with
  | recv _ _ hreceive =>
    obtain ⟨pending, seq, counters, sent, rfl⟩ := receive_frame hreceive
    exact ⟨rfl, rfl⟩
  | recvNone _ _ _ hflush | tick _ hflush | cancelled _ _ hflush =>
    obtain ⟨pending, seq, sent, rfl⟩ := flush_frame hflush
    exact ⟨rfl, rfl⟩

/-- A receipt keeps the accounts, and room for one more event. -/
theorem receive_accounts {raw : τ} {rest : List τ} (hs : Accounts cfg parse s)
    (hspace : s.pending.length < max 1 cfg.batchSize)
    (h : receive cfg parse accepted raw
      { s with queue := rest, received := s.received ++ [raw] } = .ok s') :
    Accounts cfg parse s' ∧ s'.pending.length < max 1 cfg.batchSize := by
  rcases receive_cases h with ⟨hnone, rfl⟩ | ⟨event, hsome, hpushed⟩
  · refine ⟨⟨?_, hs.seq, hs.numbered, hs.sizes, hs.captured⟩, hspace⟩
    rw [List.filterMap_append, List.filterMap_cons_none hnone, List.filterMap_nil,
      List.append_nil]
    exact hs.events
  · have haccounts : Accounts cfg parse (State.push event
        { s with queue := rest, received := s.received ++ [raw] }) := by
      refine ⟨?_, hs.seq, hs.numbered, hs.sizes, ?_⟩
      · show s.handed ++ (s.pending ++ [event]) = (s.received ++ [raw]).filterMap parse
        rw [List.filterMap_append, List.filterMap_cons_some hsome, List.filterMap_nil, ← hs.events,
          List.append_assoc]
      · show s.counters.captured + 1 = BitVec.ofNat 64 (s.handed.length + (s.pending ++ [event]).length)
        rw [hs.captured, List.length_append, List.length_singleton, ← Nat.add_assoc,
          BitVec.ofNat_add _ 1]
        rfl
    rcases hpushed with ⟨-, hflush⟩ | ⟨hroom, rfl⟩
    · have hfits : (s.pending ++ [event]).length ≤ max 1 cfg.batchSize := by
        rw [List.length_append, List.length_singleton]
        omega
      obtain ⟨hkept, hempty⟩ := flush_accounts haccounts hfits hflush
      refine ⟨hkept, ?_⟩
      rw [hempty]
      show 0 < max 1 cfg.batchSize
      omega
    · refine ⟨haccounts, ?_⟩
      show (s.pending ++ [event]).length < max 1 cfg.batchSize
      rw [List.length_append, List.length_singleton]
      exact lt_of_lt_of_le hroom (Nat.le_max_right ..)

/-! ## Runs -/

/-- What every step keeps: the accounts, room for one more event, the order of the
channel, that a task outside of its loop has left nothing behind, and that the channel
is gone with the task. -/
structure Kept (cfg : PacketStreamConfig) (parse : τ → Option ε) (s : State τ ε) : Prop where
  accounts : Accounts cfg parse s
  space : s.pending.length < max 1 cfg.batchSize
  fifo : s.enqueued = s.received ++ (s.queue ++ s.abandoned)
  idle : s.status ≠ .running → s.pending = []
  alive : s.Alive → s.abandoned = []
  gone : ¬ s.Alive → s.queue = []
  closed : s.status = .closed → s.abandoned = []

theorem kept_init : Kept cfg parse (init : State τ ε) := by
  refine ⟨accounts_init, ?_, rfl, fun _ => rfl, fun _ => rfl, fun _ => rfl, nofun⟩
  show 0 < max 1 cfg.batchSize
  omega

theorem alive_of_running (h : s.status = .running) : s.Alive := .inr h

/-- The task flushes, and goes on. -/
theorem Kept.flush (hs : Kept cfg parse s) (h : flush cfg accepted s = .ok s') :
    Kept cfg parse s' ∧ s'.pending = [] := by
  obtain ⟨hkept, hpending⟩ := flush_accounts hs.accounts hs.space.le h
  obtain ⟨pending, seq, sent, rfl⟩ := flush_frame h
  -- room for at least one event, even with `batch_size` 0
  have hspace : pending.length < max 1 cfg.batchSize := by
    rw [show pending = [] from hpending]
    exact Nat.zero_lt_of_lt hs.space
  exact ⟨⟨hkept, hspace, hs.fifo, fun _ => hpending, hs.alive, hs.gone, hs.closed⟩, hpending⟩

/-- A task with nothing pending returns. -/
theorem Kept.leave (hs : Kept cfg parse s) (halive : s.Alive) (hpending : s.pending = [])
    {status : Status} (hends : ¬ (status = .opening ∨ status = .running))
    (hclosed : status = .closed → s.queue = []) : Kept cfg parse (s.leave status) := by
  refine ⟨{ hs.accounts with }, hs.space, ?_, fun _ => hpending, fun h => absurd h hends,
    fun _ => rfl, hclosed⟩
  show s.enqueued = s.received ++ ([] ++ s.queue)
  rw [hs.fifo, hs.alive halive, List.append_nil, List.nil_append]

theorem Kept.turn (hs : Kept cfg parse s) {b : Branch} (h : Turn cfg parse b s s') :
    Kept cfg parse s' := by
  cases h with
  | @recv _ _ accepted raw rest hrunning hqueue hreceive =>
    obtain ⟨hkept, hspace⟩ := receive_accounts hs.accounts hs.space hreceive
    obtain ⟨pending, seq, counters, sent, rfl⟩ := receive_frame hreceive
    refine ⟨hkept, hspace, ?_, fun hidle => absurd hrunning hidle, hs.alive,
      fun hgone => absurd (alive_of_running hrunning) hgone, hs.closed⟩
    show s.enqueued = (s.received ++ [raw]) ++ (rest ++ s.abandoned)
    rw [hs.fifo, hqueue, List.append_assoc, List.singleton_append, List.cons_append]
  | recvNone hrunning hqueue _ hflush =>
    obtain ⟨hkept, hpending⟩ := hs.flush hflush
    obtain ⟨pending, seq, sent, rfl⟩ := flush_frame hflush
    exact hkept.leave (alive_of_running hrunning) hpending (by decide) fun _ => hqueue
  | tick _ hflush => exact (hs.flush hflush).1
  | cancelled hrunning _ hflush =>
    obtain ⟨hkept, hpending⟩ := hs.flush hflush
    obtain ⟨pending, seq, sent, rfl⟩ := flush_frame hflush
    exact hkept.leave (alive_of_running hrunning) hpending (by decide) nofun

theorem Kept.outside (hs : Kept cfg parse s) (h : Outside s s') : Kept cfg parse s' := by
  cases h with
  | opened hopening =>
    obtain ⟨haccounts, hspace, hfifo, hidle, halive, -, -⟩ := hs
    exact ⟨{ haccounts with }, hspace, hfifo, fun hrunning => absurd rfl hrunning,
      fun _ => halive (.inl hopening), fun hgone => absurd (.inr rfl) hgone, nofun⟩
  | openFails hopening =>
    exact hs.leave (.inl hopening) (hs.idle (by rw [hopening]; nofun)) (by decide) nofun
  | sendersGone | cancel =>
    obtain ⟨haccounts, hspace, hfifo, hidle, halive, hgone, hclosed⟩ := hs
    exact ⟨{ haccounts with }, hspace, hfifo, hidle, halive, hgone, hclosed⟩

/-- A task that takes packets has not dropped the channel. -/
theorem Kept.enqueue (hs : Kept cfg parse s) (halive : s.Alive) (raw : τ) :
    Kept cfg parse (s.enqueue raw) := by
  obtain ⟨haccounts, hspace, hfifo, hidle, hnone, -, hclosed⟩ := hs
  refine ⟨{ haccounts with }, hspace, ?_, hidle, hnone, fun hgone => absurd halive hgone, hclosed⟩
  show s.enqueued ++ [raw] = s.received ++ (s.queue ++ [raw] ++ s.abandoned)
  rw [hfifo, hnone halive, List.append_nil, List.append_nil, List.append_assoc]

/-- What is kept in every reachable state. -/
theorem kept_of_reachable (h : (system cfg parse).Reachable s) : Kept cfg parse s := by
  refine h.invariant ?_ fun s s' hs hstep => ?_
  · rintro s rfl
    exact kept_init
  · rcases hstep with ⟨b, hturn⟩ | houtside | ⟨-, halive, raw, rfl⟩
    · exact hs.turn hturn
    · exact hs.outside houtside
    · exact hs.enqueue halive raw

/-! ## The property -/

/-- The batches that the batch channel took. -/
def State.batches (s : State τ ε) : List (PacketBatch ε) :=
  s.sent.filterMap fun p => if p.2 then some p.1 else none

/-- Their events, in order. -/
def State.events (s : State τ ε) : List ε := s.batches.flatMap fun b => b.events

/-- The batch channel took every batch. -/
theorem batches_of_accepted (h : ∀ p ∈ s.sent, p.2 = true) : s.batches = s.sent.map Prod.fst := by
  rw [State.batches, ← List.filterMap_eq_map]
  refine List.filterMap_congr fun p hp => ?_
  rw [if_pos (h p hp)]
  rfl

theorem events_of_accepted (h : ∀ p ∈ s.sent, p.2 = true) : s.events = s.handed := by
  rw [State.events, batches_of_accepted h, List.flatMap_map, State.handed]

end PacketStream

/-- **Batching is lossless and gap-free**: if the batch channel takes every batch,
then in every reachable state the events sent and those pending are those of the
packets received, in order; the batches are numbered from 0, none of them is empty
or too long; and `captured` counts the events, as far as 64 bits go. When the task
has seen the channel closed, all packets that were enqueued are covered, and when it
was cancelled, the first ones. -/
theorem PacketStream.batches_lossless (blake3 : Bytes → Bytes) (cfg : PacketStreamConfig)
    {s : State RawPacket PacketEvent}
    (h : (system cfg (parsePacket blake3 cfg.agentId)).Reachable s)
    (haccepted : ∀ p ∈ s.sent, p.2 = true) :
    s.events ++ s.pending = s.received.filterMap (parsePacket blake3 cfg.agentId) ∧
    s.batches.map (fun b => b.seq) = List.range s.batches.length ∧
    (∀ b ∈ s.batches, b.events ≠ [] ∧ b.events.length ≤ max 1 cfg.batchSize) ∧
    s.counters.captured = BitVec.ofNat 64 (s.events.length + s.pending.length) ∧
    s.received <+: s.enqueued ∧
    (s.status = .closed →
      s.pending = [] ∧ s.events = s.enqueued.filterMap (parsePacket blake3 cfg.agentId)) ∧
    (s.status = .cancelled → s.pending = [] ∧ ∃ covered, covered <+: s.enqueued ∧
      s.events = covered.filterMap (parsePacket blake3 cfg.agentId)) := by
  obtain ⟨⟨hevents, hseq, hnumbered, hsizes, hcaptured⟩, -, hfifo, hidle, -, hgone, hclosed⟩ :=
    kept_of_reachable h
  have hbatches := batches_of_accepted haccepted
  have hhanded := events_of_accepted haccepted
  -- what is still in the channel was enqueued last
  have hcovered : s.received <+: s.enqueued := ⟨s.queue ++ s.abandoned, hfifo.symm⟩
  refine ⟨?_, ?_, ?_, ?_, hcovered, ?_, ?_⟩
  · rw [hhanded, hevents]
  · rw [hbatches, List.map_map, List.length_map]
    exact hnumbered
  · intro b hb
    rw [hbatches] at hb
    obtain ⟨p, hp, rfl⟩ := List.mem_map.mp hb
    exact hsizes p hp
  · rw [hhanded, hcaptured]
  · intro hstatus
    have hpending : s.pending = [] := hidle (by rw [hstatus]; nofun)
    rw [hpending, List.append_nil] at hevents
    have halive : ¬ s.Alive := by
      rw [State.Alive, hstatus]
      decide
    rw [hgone halive, hclosed hstatus, List.append_nil, List.append_nil] at hfifo
    exact ⟨hpending, by rw [hhanded, hevents, hfifo]⟩
  · intro hstatus
    have hpending : s.pending = [] := hidle (by rw [hstatus]; nofun)
    rw [hpending, List.append_nil] at hevents
    exact ⟨hpending, s.received, hcovered, hhanded.trans hevents⟩

namespace PacketStream

/-- A task that is cancelled when it has received one of two packets. -/
theorem batches_lossless_barePacket :
    let parse := parsePacket (fun _ => bareHash) []
    ∃ s, (system ⟨[], 50⟩ parse).Reachable s ∧ s.status = .cancelled ∧
      s.enqueued = [barePacket 0, barePacket 1] ∧ s.events ≠ [] ∧
      s.pending = [] ∧ ∃ covered, covered <+: s.enqueued ∧ s.events = covered.filterMap parse := by
  intro parse
  have hparse := parsePacket_barePacket
  have h₀ : (system ⟨[], 50⟩ parse).Reachable init := .of_init rfl
  have h₁ := h₀.step (.inr (.inl (.opened rfl)))
  have h₂ := h₁.step (.inr (.inr ⟨rfl, .inr rfl, barePacket 0, rfl⟩))
  have h₃ := h₂.step (.inr (.inr ⟨rfl, .inr rfl, barePacket 1, rfl⟩))
  have h₄ := h₃.step (.inl ⟨.recv true, .recv rfl rfl (receive_of_lt (hparse 0) (by decide))⟩)
  -- the second packet is still in the queue
  have h₅ := h₄.step (.inr (.inl .cancel))
  have h₆ := h₅.step (.inl ⟨.cancelled true, .cancelled rfl rfl rfl⟩)
  have haccepted : ∀ p ∈ [((⟨[bareEvent], 0, []⟩ : PacketBatch PacketEvent), true)], p.2 = true := by
    decide
  have hlossless := batches_lossless (fun _ => bareHash) ⟨[], 50⟩ h₆ haccepted
  exact ⟨_, h₆, rfl, rfl, nofun, hlossless.2.2.2.2.2.2 rfl⟩

/-! ## The counter wraps -/

/-- The task is at the top of its loop with nothing to do, and lost nothing. -/
structure Ready (s : State τ ε) : Prop where
  running : s.status = .running
  senders : s.sendersGone = false
  queue : s.queue = []
  pending : s.pending = []
  accepted : ∀ p ∈ s.sent, p.2 = true

/-- Two packets make a batch. -/
theorem Ready.batch {raw : τ} {event : ε} (hparse : parse raw = some event)
    (hsize : cfg.batchSize = 2) (hready : Ready s) (hseq : s.seq + 1 < 2 ^ 64)
    (h : (system cfg parse).Reachable s) :
    ∃ s', (system cfg parse).Reachable s' ∧ Ready s' ∧ s'.seq = s.seq + 1 ∧
      s'.handed = s.handed ++ [event, event] := by
  obtain ⟨status, queue, sendersGone, cancelled, pending, seq, counters, enqueued, received,
    abandoned, sent⟩ := s
  obtain ⟨hrunning, hsenders, hqueue, hpending, haccepted⟩ := hready
  subst hrunning hsenders hqueue hpending
  have h₁ := h.step (.inr (.inr ⟨rfl, .inr rfl, raw, rfl⟩))
  -- two packets are enqueued, and then received one by one
  have h₂ := h₁.step (.inr (.inr ⟨rfl, .inr rfl, raw, rfl⟩))
  have hfirst : receive cfg parse true raw ⟨.running, [raw], false, cancelled, [], seq, counters,
      enqueued ++ [raw] ++ [raw], received ++ [raw], abandoned, sent⟩ = .ok ⟨.running, [raw], false,
      cancelled, [event], seq, { counters with captured := counters.captured + 1 },
      enqueued ++ [raw] ++ [raw], received ++ [raw], abandoned, sent⟩ := by
    rw [receive_of_lt hparse (by rw [hsize]; exact Nat.one_lt_two)]
    rfl
  have h₃ := h₂.step (.inl ⟨.recv true, .recv rfl rfl hfirst⟩)
  have hsecond : receive cfg parse true raw ⟨.running, [], false, cancelled, [event], seq,
      { counters with captured := counters.captured + 1 }, enqueued ++ [raw] ++ [raw],
      received ++ [raw] ++ [raw], abandoned, sent⟩ = .ok ⟨.running, [], false, cancelled, [], seq + 1,
      { counters with captured := counters.captured + 1 + 1 }, enqueued ++ [raw] ++ [raw],
      received ++ [raw] ++ [raw], abandoned,
      sent ++ [(⟨[event, event], seq, cfg.agentId⟩, true)]⟩ := by
    rw [receive_of_le hparse hsize.le]
    exact flush_of_ne_nil (List.cons_ne_nil _ _) hseq
  have h₄ := h₃.step (.inl ⟨.recv true, .recv rfl rfl hsecond⟩)
  refine ⟨_, h₄, ⟨rfl, rfl, rfl, rfl, ?_⟩, rfl, ?_⟩
  · intro p hp
    rcases List.mem_append.mp hp with hp | hp
    · exact haccepted p hp
    · rw [List.mem_singleton.mp hp]
  · rw [State.handed, List.flatMap_append, List.flatMap_singleton]
    rfl

/-- After `n` batches of two. -/
theorem exists_ready {raw : τ} {event : ε} (hparse : parse raw = some event)
    (hsize : cfg.batchSize = 2) {n : Nat} (hn : n < 2 ^ 64) :
    ∃ s, (system cfg parse).Reachable s ∧ Ready s ∧ s.seq = n ∧ s.handed.length = 2 * n := by
  induction n with
  | zero =>
    have h₀ : (system cfg parse).Reachable init := .of_init rfl
    exact ⟨_, h₀.step (.inr (.inl (.opened rfl))),
      ⟨rfl, rfl, rfl, rfl, fun _ hp => absurd hp List.not_mem_nil⟩, rfl, rfl⟩
  | succ n ih =>
    obtain ⟨s, h, hready, rfl, hlength⟩ := ih (by omega)
    obtain ⟨s', h', hready', hseq, hhanded⟩ := hready.batch hparse hsize hn h
    refine ⟨s', h', hready', hseq, ?_⟩
    rw [hhanded, List.length_append, hlength, List.length_cons, List.length_singleton]
    omega

/-- **The counter is 0 again** after 2^64 events, all of them sent. -/
theorem captured_wraps :
    ∃ s, (system ⟨[], 2⟩ (parsePacket (fun _ => bareHash) [])).Reachable s ∧
      (∀ p ∈ s.sent, p.2 = true) ∧ s.events.length + s.pending.length = 2 ^ 64 ∧
      s.counters.captured.toNat = 0 := by
  obtain ⟨s, h, hready, -, hlength⟩ := exists_ready (parsePacket_barePacket 0)
    (rfl : (⟨[], 2⟩ : PacketStreamConfig).batchSize = 2) (show 2 ^ 63 < 2 ^ 64 by omega)
  have hevents : s.events = s.handed := events_of_accepted hready.accepted
  refine ⟨s, h, hready.accepted, ?_, ?_⟩
  · rw [hevents, hlength, hready.pending]
    rfl
  · rw [(kept_of_reachable h).accounts.captured, hlength, hready.pending]
    rfl

end PacketStream

end Ocellus
