import Ocellus.Ids.EndOfLearning
import Ocellus.Ids.Feeds
import Ocellus.Pipeline.AddressText
import Ocellus.Pipeline.CaptureOrder

/-!
# The pipeline with its engine

The threads of the pipeline and the accesses of the workers and the sweeper to the
engine, interleaved in any order. A packet that waits for its score may be analyzed,
and gets the result of an analysis of it. Both halves are runs of their own systems
(`WholeAgent.agent_reachable`, `WholeAgent.pool_reachable`).

So an event that is handed to the batch channel is that of a captured packet with the
result of an analysis of it (`events_analyzed`), and none that names an address in the
feed that was loaded goes out unflagged (`feed_enforced`).
-/

namespace Ocellus

open IdsEngine

/-- The pipeline, and who is at work on the engine. -/
structure WholeAgent (libs : Libs) : Type 1 where
  agent : Agent.State
  pool : Pool Instants (IdsEngine libs) (Option IdsResult) Duty

/-- The sweeper may make a round at any time, and a worker may take up a packet that
waits for its score. -/
def Agent.State.MayBegin (s : Agent.State) : Duty → Prop
  | .packet pkt => ∃ slots, s.analyzer = .scoring slots ∧ (pkt, false) ∈ slots
  | .sweep => True

namespace WholeAgent

variable {libs : Libs} {setup : Agent.Setup} {e₀ : IdsEngine libs} {s s' : WholeAgent libs}

inductive Step (setup : Agent.Setup) : WholeAgent libs → WholeAgent libs → Prop where
  /-- The threads and the task, but for scores. -/
  | thread {s : WholeAgent libs} {a : Agent.Action} {agent : Agent.State} :
      Agent.Step setup a s.agent agent → (∀ result, a ≠ .score result) →
      Step setup s { s with agent }
  /-- A worker or the sweeper. -/
  | engine {s : WholeAgent libs} {pool : Pool Instants (IdsEngine libs) (Option IdsResult) Duty} :
      Pool.Step Duty.program s.pool pool →
      (∀ job ∈ pool.begun, job ∈ s.pool.begun ∨ s.agent.MayBegin job.task) →
      Step setup s { s with pool }
  /-- A packet gets the result of an analysis of it. -/
  | score {s : WholeAgent libs} {pkt : RawPacket} {pre post : List (RawPacket × Bool)}
      {job : Job Duty (IdsEngine libs)} {result : IdsResult} :
      s.agent.analyzer = .scoring (pre ++ (pkt, false) :: post) →
      (job, some result) ∈ s.pool.done → job.task = .packet pkt →
      Step setup s { s with
        agent := { s.agent with analyzer := .scoring (pre ++ (scoreOne result pkt, true) :: post) } }

/-- The agent, with an engine that is `e₀` at first. -/
def system (setup : Agent.Setup) (e₀ : IdsEngine libs) : TransitionSystem (WholeAgent libs) where
  init s := s = ⟨Agent.start, ⟨e₀, [], [], []⟩⟩
  step := Step setup

/-! ## Its two halves -/

theorem agent_reachable (h : (system setup e₀).Reachable s) :
    (Agent.system setup).Reachable s.agent := by
  refine h.invariant (P := fun s => (Agent.system setup).Reachable s.agent) ?_ fun s s' hs hstep => ?_
  · rintro s rfl
    exact .of_init rfl
  · cases hstep with
    | thread hthread _ => exact hs.step ⟨_, hthread⟩
    | engine _ _ => exact hs
    | score hat _ _ => exact hs.step ⟨_, .score hat⟩

theorem pool_reachable (h : (system setup e₀).Reachable s) :
    (concurrently e₀).Reachable s.pool := by
  refine h.invariant (P := fun s => (concurrently e₀).Reachable s.pool) ?_ fun s s' hs hstep => ?_
  · rintro s rfl
    exact .of_init rfl
  · cases hstep with
    | thread _ _ => exact hs
    | engine hengine _ => exact hs.step hengine
    | score _ _ _ => exact hs

/-! ## Where scores come from -/

/-- A packet as it was captured. -/
def Fresh (pkt : RawPacket) : Prop := pkt.unscored = pkt

/-- A packet with the result of an analysis of it. -/
def HasResult (s : WholeAgent libs) (pkt : RawPacket) : Prop :=
  ∃ job result, (job, some result) ∈ s.pool.done ∧ job.task = .packet pkt.unscored ∧
    pkt = scoreOne result pkt.unscored

/-- The packets with the analyzer have the results that they should have by then. -/
def InHand (s : WholeAgent libs) : Agent.Analyzer → Prop
  | .scoring slots => ∀ slot ∈ slots, if slot.2 then HasResult s slot.1 else Fresh slot.1
  | .forward scored => ∀ pkt ∈ scored, HasResult s pkt
  | _ => True

/-- Packets are fresh up to the analyzer, and have their results from there on. -/
structure Traced (s : WholeAgent libs) : Prop where
  buffer : ∀ pkt ∈ s.agent.buffer.buf, Fresh pkt
  inHand : InHand s s.agent.analyzer
  enqueued : ∀ pkt ∈ s.agent.stream.enqueued, HasResult s pkt

theorem HasResult.mono {pkt : RawPacket} (h : HasResult s pkt) (hsub : s.pool.done ⊆ s'.pool.done) :
    HasResult s' pkt := by
  obtain ⟨job, result, hdone, htask, heq⟩ := h
  exact ⟨job, result, hsub hdone, htask, heq⟩

theorem InHand.mono {a : Agent.Analyzer} (h : InHand s a) (hsub : s.pool.done ⊆ s'.pool.done) :
    InHand s' a := by
  cases a with
  | scoring slots =>
    intro slot hslot
    have hold := h slot hslot
    split
    · rename_i hscored
      rw [if_pos hscored] at hold
      exact hold.mono hsub
    · rename_i hscored
      rwa [if_neg hscored] at hold
  | forward scored => exact fun pkt hpkt => (h pkt hpkt).mono hsub
  | drain | pop | done => trivial

theorem done_subset {p p' : Pool Instants (IdsEngine libs) (Option IdsResult) Duty}
    (h : Pool.Step Duty.program p p') : p.done ⊆ p'.done := by
  cases h with
  | start _ | act _ _ => exact List.Subset.refl _
  | finish _ => exact List.subset_cons_self ..

theorem Traced.engine {pool : Pool Instants (IdsEngine libs) (Option IdsResult) Duty}
    (h : Traced s) (hstep : Pool.Step Duty.program s.pool pool) : Traced { s with pool } :=
  ⟨h.buffer, h.inHand.mono (done_subset hstep),
    fun pkt hpkt => (h.enqueued pkt hpkt).mono (done_subset hstep)⟩

theorem fresh_slots {pkts : List RawPacket} (h : ∀ pkt ∈ pkts, Fresh pkt) :
    InHand s (.scoring (pkts.map fun pkt => (pkt, false))) := by
  intro slot hslot
  obtain ⟨pkt, hpkt, rfl⟩ := List.mem_map.mp hslot
  exact h pkt hpkt

/-- The threads and the task pass packets on. -/
theorem Traced.thread {a : Agent.Action} {agent : Agent.State} (h : Traced s)
    (hstep : Agent.Step setup a s.agent agent) (ha : ∀ result, a ≠ .score result) :
    Traced { s with agent } := by
  obtain ⟨hbuffer, hinHand, henqueued⟩ := h
  cases hstep with
  | @capture _ raw dropped buffer hcaptures hpush =>
    obtain ⟨-, rfl⟩ := RingBuffer.push_eq_ok hpush
    refine ⟨fun pkt hpkt => ?_, hinHand, henqueued⟩
    rcases List.mem_append.mp hpkt with hpkt | hpkt
    · refine hbuffer pkt ?_
      split at hpkt
      · exact List.mem_of_mem_tail hpkt
      · exact hpkt
    · obtain rfl := List.mem_singleton.mp hpkt
      exact hcaptures.spec.2
  | batch _ _ =>
    have hsplit := RingBuffer.drainBatch_append 64 s.agent.buffer
    refine ⟨fun pkt hpkt => hbuffer pkt ?_, fresh_slots fun pkt hpkt => hbuffer pkt ?_, henqueued⟩
    · exact hsplit ▸ List.mem_append_right _ hpkt
    · exact hsplit ▸ List.mem_append_left _ hpkt
  | empty _ _ =>
    have hsplit := RingBuffer.drainBatch_append 64 s.agent.buffer
    exact ⟨fun pkt hpkt => hbuffer pkt (hsplit ▸ List.mem_append_right _ hpkt), trivial, henqueued⟩
  | @item _ pkt _ hpop =>
    have hsplit := RingBuffer.popBlocking_eq_item hpop
    refine ⟨fun p hp => hbuffer p (hsplit ▸ List.mem_cons_of_mem _ hp), ?_, henqueued⟩
    intro slot hslot
    rw [List.mem_singleton.mp hslot]
    exact hbuffer pkt (hsplit ▸ List.mem_cons_self ..)
  | closed _ _ => exact ⟨hbuffer, trivial, henqueued⟩
  | score _ => exact absurd rfl (ha _)
  | @collect _ slots hat hall =>
    rw [hat] at hinHand
    refine ⟨hbuffer, fun pkt hpkt => ?_, henqueued⟩
    obtain ⟨slot, hslot, rfl⟩ := List.mem_map.mp hpkt
    have hscored := hinHand slot hslot
    rwa [if_pos (hall slot hslot)] at hscored
  | @accepted _ pkt rest hat _ =>
    rw [hat] at hinHand
    obtain ⟨hpkt, hrest⟩ := List.forall_mem_cons.mp hinHand
    exact ⟨hbuffer, hrest, List.forall_mem_append.mpr
      ⟨henqueued, List.forall_mem_singleton.mpr hpkt⟩⟩
  | refused hat _ =>
    rw [hat] at hinHand
    exact ⟨hbuffer, (List.forall_mem_cons.mp hinHand).2, henqueued⟩
  | forwarded _ => exact ⟨hbuffer, trivial, henqueued⟩
  | turn hturn => exact ⟨hbuffer, hinHand, hturn.frame.2 ▸ henqueued⟩
  | outside houtside _ =>
    refine ⟨hbuffer, hinHand, ?_⟩
    cases houtside <;> exact henqueued

theorem Traced.score {pkt : RawPacket} {pre post : List (RawPacket × Bool)}
    {job : Job Duty (IdsEngine libs)} {result : IdsResult} (h : Traced s)
    (hat : s.agent.analyzer = .scoring (pre ++ (pkt, false) :: post))
    (hdone : (job, some result) ∈ s.pool.done) (htask : job.task = .packet pkt) :
    Traced { s with
      agent := { s.agent with analyzer := .scoring (pre ++ (scoreOne result pkt, true) :: post) } } := by
  have hinHand := h.inHand
  rw [hat] at hinHand
  have hfresh : Fresh pkt := hinHand (pkt, false) (List.mem_append_right _ (List.mem_cons_self ..))
  refine ⟨h.buffer, fun slot hslot => ?_, h.enqueued⟩
  have hold : slot ∈ pre ∨ slot ∈ post → if slot.2 then HasResult s slot.1 else Fresh slot.1 := by
    rintro (hslot | hslot)
    · exact hinHand slot (List.mem_append_left _ hslot)
    · exact hinHand slot (List.mem_append_right _ (List.mem_cons_of_mem _ hslot))
  rcases List.mem_append.mp hslot with hslot | hslot
  · exact hold (.inl hslot)
  · rcases List.mem_cons.mp hslot with rfl | hslot
    · rw [if_pos rfl]
      refine ⟨job, result, hdone, ?_, ?_⟩
      · rw [unscored_scoreOne, hfresh]
        exact htask
      · rw [unscored_scoreOne, hfresh]
    · exact hold (.inr hslot)

theorem traced_start (pool : Pool Instants (IdsEngine libs) (Option IdsResult) Duty) :
    Traced ⟨Agent.start, pool⟩ where
  buffer := List.forall_mem_nil _
  inHand := trivial
  enqueued := List.forall_mem_nil _

theorem traced_of_reachable (h : (system setup e₀).Reachable s) : Traced s := by
  refine h.invariant ?_ fun s s' hs hstep => ?_
  · rintro s rfl
    exact traced_start _
  · cases hstep with
    | thread hthread ha => exact hs.thread hthread ha
    | engine hengine _ => exact hs.engine hengine
    | score hat hdone htask => exact hs.score hat hdone htask

/-! ## Events -/

/-- The packet of an event that has been handed to the batch channel. -/
theorem exists_reported (h : (system setup e₀).Reachable s) {event : PacketEvent}
    (hevent : event ∈ s.agent.stream.handed) :
    ∃ pkt ∈ s.agent.captured, Fresh pkt ∧ ∃ job result, (job, some result) ∈ s.pool.done ∧
      job.task = .packet pkt ∧ setup.parse (scoreOne result pkt) = some event := by
  have hagent := agent_reachable h
  have hsome : some event ∈ s.agent.reported.map setup.parse := by
    rw [Agent.reported_events hagent]
    exact List.mem_map_of_mem hevent
  obtain ⟨pkt, hpkt, hparse⟩ := List.mem_map.mp hsome
  have hcaptured := (Agent.reported_sublist hagent).subset (List.mem_map_of_mem hpkt)
  have henqueued : pkt ∈ s.agent.stream.enqueued := by
    rw [(PacketStream.kept_of_reachable (Agent.attached_of_reachable hagent).stream).fifo]
    exact List.mem_append_left _ (List.mem_of_mem_filter (List.mem_of_mem_take hpkt))
  obtain ⟨job, result, hdone, htask, heq⟩ := (traced_of_reachable h).enqueued pkt henqueued
  exact ⟨pkt.unscored, hcaptured, rfl, job, result, hdone, htask, heq ▸ hparse⟩

/-- The event as it would be without a score. -/
def unscoredEvent (event : PacketEvent) : PacketEvent :=
  { event with flagReason := .unspecified, anomalyScore := .fin 0 }

/-- **No event is made up**: each one that is handed to the batch channel is that of a
captured packet, with the score and the reason of an analysis of this packet. -/
theorem events_analyzed (h : (system setup e₀).Reachable s) :
    ∀ event ∈ s.agent.stream.handed, ∃ pkt ∈ s.agent.captured,
      setup.parse pkt = some (unscoredEvent event) ∧
      ∃ job result, (job, some result) ∈ s.pool.done ∧ job.task = .packet pkt ∧
        event.flagReason = result.flagReason ∧ event.anomalyScore = result.totalScore := by
  intro event hevent
  obtain ⟨pkt, hpkt, hfresh, job, result, hdone, htask, hparse⟩ := exists_reported h hevent
  have hscore : pkt.idsScore = .fin 0 := (congrArg RawPacket.idsScore hfresh).symm
  have hflag : pkt.idsFlag = .unspecified := (congrArg RawPacket.idsFlag hfresh).symm
  obtain ⟨tm, htm, rfl⟩ := Option.map_eq_some_iff.mp hparse
  refine ⟨pkt, hpkt, Option.map_eq_some_iff.mpr ⟨tm, htm, ?_⟩, job, result, hdone, htask, rfl, rfl⟩
  rw [hscore, hflag]
  rfl

/-! ## A packet that is analyzed and reported -/

theorem begun_subset {p p' : Pool Instants (IdsEngine libs) (Option IdsResult) Duty}
    (h : (concurrently e₀).Leads p p') : p.begun ⊆ p'.begun := by
  refine h.invariant (P := fun p' => p.begun ⊆ p'.begun) (fun q q' hq hstep => ?_)
    (List.Subset.refl _)
  have hsub : q.begun ⊆ q'.begun := by
    cases hstep with
    | start _ => exact List.subset_cons_self ..
    | act _ _ | finish _ => exact List.Subset.refl _
  exact List.Subset.trans hq hsub

/-- Work on the engine, while the threads of the pipeline rest. -/
theorem leads_of_pool {agent : Agent.State}
    {p p' : Pool Instants (IdsEngine libs) (Option IdsResult) Duty}
    (h : (concurrently e₀).Leads p p')
    (hbegin : ∀ job ∈ p'.begun, job ∈ p.begun ∨ agent.MayBegin job.task) :
    (system setup e₀).Leads ⟨agent, p⟩ ⟨agent, p'⟩ := by
  induction h with
  | refl => exact .refl
  | @tail q q' hleads hlast ih =>
    have hq : q.begun ⊆ q'.begun := begun_subset (.single hlast)
    refine (ih fun job hjob => hbegin job (hq hjob)).tail (.engine hlast fun job hjob => ?_)
    exact (hbegin job hjob).imp_left fun hold => begun_subset hleads hold

/-- A packet comes through alone, with the result of its analysis. -/
theorem exists_onePacket {t : Instants} {r : IdsResult} {e : IdsEngine libs}
    (hcall : analyze t (barePacket 0) e₀ = .ok (r, e)) :
    ∃ s event, (system Agent.defaultSetup e₀).Reachable s ∧ s.agent.stream.handed = [event] ∧
      parsePacket (fun _ => bareHash) [] (scoreOne r (barePacket 0)) = some event := by
  obtain ⟨event, hparse⟩ := Option.isSome_iff_exists.mp
    (parsePacket_isSome (fun _ => bareHash) [] (scoreOne r (barePacket 0)))
  have h₀ : (system Agent.defaultSetup e₀).Reachable _ := .of_init rfl
  have h₁ := h₀.step (.thread (.outside (.opened rfl) nofun) nofun)
  have h₂ := h₁.step (.thread (.capture (Agent.captures_barePacket 0) rfl) nofun)
  have h₃ := h₂.step (.thread (.batch rfl (List.cons_ne_nil _ _)) nofun)
  -- a worker analyzes the packet
  let job : Job Duty (IdsEngine libs) := ⟨.packet (barePacket 0), e₀⟩
  have hcalled : (concurrently e₀).Leads ⟨e₀, [], [], []⟩ ⟨e, [], [(job, some r)], [job]⟩ :=
    duty_is_schedule (run_packet hcall)
  obtain ⟨s₀, hinit, hleads⟩ := h₃
  have h₄ : (system Agent.defaultSetup e₀).Reachable _ :=
    ⟨s₀, hinit, hleads.trans (leads_of_pool hcalled fun j hj => by
      rw [List.mem_singleton.mp hj]
      exact .inr ⟨_, rfl, List.mem_cons_self ..⟩)⟩
  have h₅ := h₄.step (@Step.score _ _ _ (barePacket 0) [] [] job r rfl (List.mem_cons_self ..) rfl)
  have hall : ∀ slot ∈ [(scoreOne r (barePacket 0), true)], slot.2 = true := by
    intro slot hslot
    rw [List.mem_singleton.mp hslot]
  have h₆ := h₅.step (.thread (.collect rfl hall) nofun)
  have hroom : 0 < 1024 ∧ (PacketStream.Status.running = .opening ∨
      PacketStream.Status.running = .running) := by
    decide
  have h₇ := h₆.step (.thread (.accepted rfl hroom) nofun)
  have hspace : 0 + 1 < 50 := by decide
  have h₈ := h₇.step (.thread (.turn (b := .recv true) (.recv rfl rfl
    (PacketStream.receive_of_lt hparse hspace))) nofun)
  have h₉ := h₈.step (.thread (.turn (b := .tick true) (.tick rfl rfl)) nofun)
  exact ⟨_, event, h₉, rfl, hparse⟩

/-- `barePacket` is analyzed and reported. -/
theorem events_analyzed_bare :
    ∃ s : WholeAgent .plain, ∃ event ∈ s.agent.stream.handed,
      (system Agent.defaultSetup
        (IdsEngine.new (.new none 0) (fun _ => none) .new : IdsEngine .plain)).Reachable s ∧
      ∃ pkt ∈ s.agent.captured, Agent.defaultSetup.parse pkt = some (unscoredEvent event) := by
  obtain ⟨⟨r, e⟩, hcall, -⟩ := analyze_returns
    (bounded_new (.new none 0) (fun _ => none) (.new : Blacklist Libs.plain.bloom)) (by decide)
    ⟨0, 0, 0, 0⟩ (barePacket 0)
  obtain ⟨s, event, h, hhanded, -⟩ := exists_onePacket hcall
  have hevent : event ∈ s.agent.stream.handed := hhanded ▸ List.mem_singleton_self _
  obtain ⟨pkt, hpkt, hparse, -⟩ := events_analyzed h event hevent
  exact ⟨s, event, hevent, h, pkt, hpkt, hparse⟩

/-- **Listed addresses do not go out unflagged**: no event that names an address of the
feed that was loaded, as an address or within a range, has another reason than
`blacklisted`, or less than 90 points. -/
theorem feed_enforced {ips domains : Option Str} {blacklist : Blacklist libs.bloom}
    {baseline : Baseline} {geo : IpAddr → Option Str}
    (hload : Blacklist.loadBlacklists libs.lower ips domains = .ok blacklist)
    {lead trail : Blacklist.Blanks} {entry : Blacklist.FeedEntry} {a : U32}
    (hline : lead.1 ++ (entry.text ++ trail.1) ∈ Blacklist.linesOf ips) (hcovers : entry.Covers a)
    (h : (system setup (IdsEngine.new baseline geo blacklist)).Reachable s) {event : PacketEvent}
    (hevent : event ∈ s.agent.stream.handed)
    (hname : event.srcIp = Blacklist.addrText a ∨ event.dstIp = Blacklist.addrText a) :
    event.flagReason = .blacklisted ∧ .fin 90 ≤ event.anomalyScore := by
  obtain ⟨pkt, -, -, job, result, hdone, htask, hparse⟩ := exists_reported h hevent
  have hlisted := Blacklist.listed_of_line hload hline hcovers
  obtain ⟨tm, htm, rfl⟩ := Option.map_eq_some_iff.mp hparse
  have hpacket : IsListed tm (IdsEngine.new baseline geo blacklist) := by
    show (blacklist.checkIp tm.srcIp).isSome = true ∨ (blacklist.checkIp tm.dstIp).isSome = true
    rcases hname with hsrc | hdst
    · exact .inl ((IpAddr.eq_v4_of_text hsrc).symm ▸ hlisted)
    · exact .inr ((IpAddr.eq_v4_of_text hdst).symm ▸ hlisted)
  obtain ⟨r, hr, hverdict⟩ := verdict_of_done (pool_reachable h) hdone htask htm
  cases hr
  obtain ⟨hreason, hscore, -⟩ := hverdict hpacket
  exact ⟨hreason, hscore⟩

/-- The feed lists the source of `barePacket`. -/
theorem feed_enforced_bare :
    ∃ (blacklist : Blacklist Libs.plain.bloom) (s : WholeAgent .plain) (event : PacketEvent),
      Blacklist.loadBlacklists Libs.plain.lower (some "10.0.0.1\n".toList) none = .ok blacklist ∧
      (system Agent.defaultSetup
        (IdsEngine.new (.new none 0) (fun _ => none) blacklist)).Reachable s ∧
      event ∈ s.agent.stream.handed ∧ event.srcIp = "10.0.0.1".toList ∧
      event.flagReason = .blacklisted ∧ .fin 90 ≤ event.anomalyScore := by
  have hloads : (Blacklist.loadBlacklists Libs.plain.lower (some "10.0.0.1\n".toList) none :
      Checked (Blacklist Libs.plain.bloom)).Returns fun _ => True := by
    decide +kernel
  obtain ⟨blacklist, hload, -⟩ := hloads
  obtain ⟨⟨r, e⟩, hcall, -⟩ := analyze_returns (bounded_new (.new none 0) (fun _ => none) blacklist)
    (by decide) ⟨0, 0, 0, 0⟩ (barePacket 0)
  obtain ⟨s, event, h, hhanded, hparse⟩ := exists_onePacket hcall
  have hevent : event ∈ s.agent.stream.handed := hhanded ▸ List.mem_singleton_self _
  have hline : Blacklist.noBlanks.1 ++ ((Blacklist.FeedEntry.addr 0x0A000001#32).text
      ++ Blacklist.noBlanks.1) ∈ Blacklist.linesOf (some "10.0.0.1\n".toList) := by
    decide +kernel
  have hsrc : event.srcIp = Blacklist.addrText 0x0A000001#32 := by
    cases hparse
    rfl
  have htext : Blacklist.addrText 0x0A000001#32 = "10.0.0.1".toList := by
    decide +kernel
  exact ⟨blacklist, s, event, hload, h, hevent, hsrc.trans htext,
    feed_enforced hload hline rfl h hevent (.inl hsrc)⟩

end WholeAgent

end Ocellus
