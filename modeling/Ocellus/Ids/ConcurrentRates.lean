import Ocellus.Ids.EndOfLearning
import Ocellus.Ids.RateLimitConformance
import Ocellus.Ids.SharedDetectors

/-!
# Rates under any schedule

The rate limiter is asked once in each call of `analyze`, and swept meanwhile. Its limits
hold of what the workers report together, however their calls are interleaved
(`rates_conform`): the limiter has a history of its own, in the order in which its entries
are taken, and the results of the calls claim no more than this history has let through.
-/

namespace Ocellus

namespace IdsEngine

variable {libs : Libs}

/-! ## Claims -/

/-- What a result claims to have been let through, from what the limiter was told of the
packet and the signals of the result: the more signals, the less. -/
structure Claim where
  amount : RateLimiter.Packet → List Signal → Nat
  anti : ∀ p {ss ss'}, ss ⊆ ss' → amount p ss' ≤ amount p ss

/-- What each packet of `src` counts for, if no signal has one of the names. -/
def Claim.unreported (names : List SignalName) (amount : RateLimiter.Packet → Nat) (src : IpAddr) :
    Claim where
  amount p ss := if p.srcIp = src ∧ ∀ s ∈ ss, s.name ∉ names then amount p else 0
  anti p ss ss' hsub := by
    split
    · rename_i h
      rw [if_pos ⟨h.1, fun s hs => h.2 s (hsub hs)⟩]
    · exact Nat.zero_le _

/-- The claim of a call that was begun at `since`, if that was `lo` or later. -/
def Claim.ofCall (claim : Claim) (lo since : Nat) (p : RateLimiter.Packet) (ss : List Signal) : Nat :=
  if lo ≤ since then claim.amount p ss else 0

/-- What `analyze` tells the limiter. -/
def limiterPacket (pkt : RawPacket) (tm : TransportMeta) : RateLimiter.Packet :=
  ⟨tm.srcIp, pkt.origLen.toNat, isSyn tm⟩

/-- The claim of the result of a job. -/
def Claim.ofJob (claim : Claim) (lo : Nat) (job : Job Duty (Nat × IdsEngine libs))
    (result : Option IdsResult) : Nat :=
  match job.task, result with
  | .packet pkt, some r =>
    match pkt.transport with
    | some tm => claim.ofCall lo job.since.1 (limiterPacket pkt tm) r.signals
    | none => 0
  | _, _ => 0

/-! ## The front of the limiter -/

/-- What an entry has let through, from `lo` on. -/
def Claim.ofEntry (claim : Claim) (lo : Nat) : Entry RateLimiter.Packet (Option Signal) → Nat
  | .inspect t p o => if lo ≤ t then claim.amount p o.toList else 0
  | .sweep _ => 0

/-- The limiter is part of the engine. -/
def limiterFront (libs : Libs) : Front (IdsEngine libs) Duty (@RateLimiter.component libs.fp) where
  shows d s := d = s.2.rateLimiter
  asks
    | .packet pkt => pkt.transport.map (limiterPacket pkt)
    | .sweep => none

theorem sparing_limiter {t : Instants} {e e' : IdsEngine libs}
    (h : e'.rateLimiter = e.rateLimiter ∨ e'.rateLimiter = e.rateLimiter.sweep t.rateLimiter) :
    Sparing (limiterFront libs) t e e' := by
  rintro clock now system - rfl d hd
  obtain rfl : d = e.rateLimiter := hd
  exact h.imp Eq.symm Eq.symm

theorem sweepProgram_spares : Does (Sparing (limiterFront libs)) (sweepProgram : Program libs Unit) := by
  have hnow : Does (Sparing (limiterFront libs))
      (Prog.access fun t e => .ok (t.portScan, e) : Program libs Nat) := by
    refine .access fun t e a e' h => ⟨sparing_limiter (.inl ?_), trivial⟩
    cases h
    rfl
  refine hnow.bind fun now _ => ?_
  refine (Prog.Within.write fun t e => sparing_limiter (.inl rfl)).bind fun _ _ => ?_
  refine (Prog.Within.write fun t e => sparing_limiter (.inl rfl)).bind fun _ _ => ?_
  refine (Prog.Within.write fun t e => sparing_limiter (.inl rfl)).bind fun _ _ => ?_
  refine (Prog.Within.write fun t e => sparing_limiter (.inl rfl)).bind fun _ _ => ?_
  refine (Prog.Within.write fun t e => sparing_limiter (.inr rfl)).bind fun _ _ => ?_
  exact .write fun t e => sparing_limiter (.inl rfl)

/-- A call has the signal that the limiter answered. -/
theorem limiter_asked : Asked (limiterFront libs) fun _ _ rate _ _ c => ∃ t, c = some (t, rate) where
  allows := ⟨fun _ _ => sparing_limiter (.inl rfl), fun _ _ _ => sparing_limiter (.inl rfl)⟩
  sweep lo := asking_of_sparing sweepProgram_spares fun _ _ => trivial
  detects pkt tm htm := by
    have hports : AllowsPorts tm (Sparing (limiterFront libs)) :=
      ⟨fun _ _ _ _ => sparing_limiter (.inl rfl), fun _ _ _ _ => sparing_limiter (.inl rfl)⟩
    have hflows : AllowsFlows tm (Sparing (limiterFront libs)) :=
      ⟨fun _ _ _ _ => sparing_limiter (.inl rfl), fun _ _ _ => sparing_limiter (.inl rfl)⟩
    have hallows : Allows (Sparing (limiterFront libs)) :=
      ⟨fun _ _ => sparing_limiter (.inl rfl), fun _ _ _ => sparing_limiter (.inl rfl)⟩
    have htcp := hallows.tcp hflows fun p _ => ratioProgram_bids fun _ _ _ _ => sparing_limiter (.inl rfl)
    refine ⟨fun rate c => ∃ t, c = some (t, rate), fun rate _ c => ∃ t, c = some (t, rate),
      fun lo => ?_, fun rate lo c hrate => asking_of_sparing hports.ports fun _ _ => hrate,
      fun rate ports lo c hrate => asking_of_sparing htcp fun _ _ => hrate⟩
    have hasks : (limiterFront libs).asks (.packet pkt) = some (limiterPacket pkt tm) :=
      congrArg (Option.map _) htm
    refine Front.asks_access hasks fun now system s o e' _ haccess => ⟨o, ⟨now, rfl⟩, ?_⟩
    rintro _ rfl
    obtain ⟨⟨o, d⟩, hlimiter, haccess⟩ := Checked.bind_eq_ok.mp haccess
    cases haccess
    exact ⟨d, hlimiter, rfl⟩

/-! ## What all results claim -/

variable {e₀ : IdsEngine libs}
  {s : Pool (Nat × Int) (Nat × IdsEngine libs) (Option IdsResult) Duty}

/-- What the results of the calls begun from `lo` on claim to have been let through. -/
def claimedFrom (claim : Claim) (lo : Nat)
    (s : Pool (Nat × Int) (Nat × IdsEngine libs) (Option IdsResult) Duty) : Nat :=
  Pool.claimed (claim.ofJob lo) s

/-- A result claims no more than its call has been let through. -/
theorem ofJob_le (claim : Claim) (lo : Nat) (job : Job Duty (Nat × IdsEngine libs))
    (result : Option IdsResult) (c : Option (Nat × Option Signal)) (htimely : Front.Timely job c)
    (h : Tells (fun _ _ rate _ _ c => ∃ t, c = some (t, rate)) job result c) :
    claim.ofJob lo job result
      ≤ (((limiterFront libs).seen job.task c).map (claim.ofEntry lo)).getD 0 := by
  obtain ⟨task, since⟩ := job
  cases task with
  | sweep => exact Nat.zero_le _
  | packet pkt =>
    cases htm : pkt.transport with
    | none =>
      have hnothing : claim.ofJob lo ⟨.packet pkt, since⟩ result = 0 := by
        unfold Claim.ofJob
        cases result with
        | none => rfl
        | some r => simp only [htm]
      rw [hnothing]
      exact Nat.zero_le _
    | some tm =>
      obtain ⟨r, rate, ports, tcp, rfl, hmakes, t, rfl⟩ := h pkt tm rfl htm
      have hsince : since.1 ≤ t := htimely t rate rfl
      have hseen : (limiterFront libs).seen (.packet pkt) (some (t, rate))
          = some (.inspect t (limiterPacket pkt tm) rate) := by
        simp [Front.seen, limiterFront, htm]
      rw [hseen]
      simp only [Claim.ofJob, htm, Claim.ofCall, Claim.ofEntry, Option.map_some, Option.getD_some]
      split
      · rename_i hlo
        rw [if_pos (Nat.le_trans hlo hsince)]
        exact claim.anti _ hmakes.rate_subset
      · exact Nat.zero_le _

/-- One history of the limiter has let through what all results claim. -/
theorem exists_history (h : (clocked e₀).Reachable s) (hnew : e₀.rateLimiter = .new) (claim : Claim)
    (lo : Nat) : ∃ tr, ∃ c ≤ s.shared.1,
      RateLimiter.component.Run .new tr c s.shared.2.rateLimiter ∧
      claimedFrom claim lo s ≤ (tr.map (claim.ofEntry lo)).sum := by
  obtain ⟨tr, ongoing, ended, hexplained⟩ :=
    Front.explained_of_reachable limiter_asked.asks hnew.symm h
  obtain ⟨d, c, hc, hrun, rfl⟩ := hexplained.history_run
  exact ⟨_, c, hc, hrun, hexplained.claimed_le (ofJob_le claim lo)⟩

/-- The packets of `src` that calls begun from `lo` on have not reported for their rate. -/
def acceptedFrom (src : IpAddr) (lo : Nat)
    (s : Pool (Nat × Int) (Nat × IdsEngine libs) (Option IdsResult) Duty) : Nat :=
  claimedFrom (.unreported [.rateExceededPackets] (fun _ => 1) src) lo s

/-- What the limiter may report. -/
def rateNames : List SignalName :=
  [.rateExceededPackets, .rateExceededBytes, .rateExceededConnections]

/-- The bytes of their packets that have not been reported for any rate. -/
def bytesFrom (src : IpAddr) (lo : Nat)
    (s : Pool (Nat × Int) (Nat × IdsEngine libs) (Option IdsResult) Duty) : Nat :=
  claimedFrom (.unreported rateNames RateLimiter.Packet.pktBytes src) lo s

/-- And the SYNs among them. -/
def synsFrom (src : IpAddr) (lo : Nat)
    (s : Pool (Nat × Int) (Nat × IdsEngine libs) (Option IdsResult) Duty) : Nat :=
  claimedFrom (.unreported rateNames (fun p => p.isSyn.toNat) src) lo s

/-! ## Bounds on the history -/

theorem countP_eq_sum {α : Type} (p : α → Bool) (l : List α) :
    l.countP p = (l.map fun a => if p a then 1 else 0).sum := by
  induction l with
  | nil => rfl
  | cons a l ih => rw [List.countP_cons, ih, List.map_cons, List.sum_cons, Nat.add_comm]

section History

variable {fp : Rounding} {tr : RateLimiter.Trace} {c hi : Nat} {d : RateLimiter fp} {src : IpAddr}

theorem verdict_name {ip : IpAddr} {syn within : Bool} {b : Bucket} {sig : Signal}
    (h : RateLimiter.verdict ip syn within b = some sig) : sig.name ∈ rateNames := by
  unfold RateLimiter.verdict at h
  split at h
  · cases h
    exact List.mem_cons_self ..
  · split at h
    · cases h
      exact List.mem_cons_of_mem _ (List.mem_cons_self ..)
    · split at h
      · cases h
        exact List.mem_cons_of_mem _ (List.mem_cons_of_mem _ (List.mem_cons_self ..))
      · cases h

/-- What the limiter reports, it reports for a rate. -/
theorem name_mem_rateNames (h : RateLimiter.component.Run .new tr c d) :
    ∀ entry ∈ tr, ∀ t p sig, entry = .inspect t p (some sig) → sig.name ∈ rateNames := by
  induction h with
  | nil =>
    intro entry hentry
    cases hentry
  | inspect hrun hc hstep ih =>
    intro entry hentry t' p' sig heq
    rcases List.mem_append.mp hentry with hentry | hentry
    · exact ih entry hentry t' p' sig heq
    · obtain ⟨b', hb, -⟩ := RateLimiter.inspect_eq_ok hstep
      obtain ⟨-, -, rfl⟩ := Entry.inspect.inj ((List.mem_singleton.mp hentry).symm.trans heq)
      exact verdict_name (RateLimiter.inspectBucket_eq_ok hb).signal.symm
  | sweep hrun hc ih =>
    intro entry hentry t p sig heq
    rcases List.mem_append.mp hentry with hentry | hentry
    · exact ih entry hentry t p sig heq
    · cases (List.mem_singleton.mp hentry).symm.trans heq

/-- An entry that is claimed is from `lo` on and of the source, and was not reported. -/
theorem ofEntry_le {names : List SignalName} {amount : RateLimiter.Packet → Nat} {t n : Nat}
    {p : RateLimiter.Packet} {o : Option Signal}
    (h : lo ≤ t → p.srcIp = src → (∀ s ∈ o.toList, s.name ∉ names) → amount p ≤ n) :
    (Claim.unreported names amount src).ofEntry lo (.inspect t p o) ≤ n := by
  show (if lo ≤ t then if p.srcIp = src ∧ ∀ s ∈ o.toList, s.name ∉ names then amount p else 0
    else 0) ≤ n
  split
  · rename_i hlo
    split
    · rename_i hunreported
      exact h hlo hunreported.1 hunreported.2
    · exact Nat.zero_le _
  · exact Nat.zero_le _

theorem accepted_le (hrun : RateLimiter.component.Run .new tr c d) (hc : c ≤ hi) :
    (tr.map ((Claim.unreported [.rateExceededPackets] (fun _ => 1) src).ofEntry lo)).sum
      ≤ RateLimiter.acceptedIn src lo hi tr := by
  rw [RateLimiter.acceptedIn, countP_eq_sum]
  refine List.sum_le_sum fun entry hentry => ?_
  have htime : entry.time ≤ hi := Nat.le_trans (hrun.time_le entry hentry) hc
  cases entry with
  | sweep t => exact Nat.zero_le _
  | inspect t p o =>
    refine ofEntry_le fun hlo hsrc hnames => ?_
    have haccepted : RateLimiter.isPacketRate o = false := by
      cases o with
      | none => rfl
      | some sig =>
        have hname := hnames sig (List.mem_cons_self ..)
        simpa [RateLimiter.isPacketRate] using hname
    have htime : t ≤ hi := htime
    simp [RateLimiter.isAccepted, Entry.time, hsrc, haccepted, hlo, htime]

theorem amount_le (amount : Nat × Bool → Nat) (hrun : RateLimiter.component.Run .new tr c d)
    (hc : c ≤ hi) :
    (tr.map ((Claim.unreported rateNames (fun p => amount (p.pktBytes, p.isSyn)) src).ofEntry
      lo)).sum ≤ (tr.map (RateLimiter.letThroughBy amount src lo hi)).sum := by
  refine List.sum_le_sum fun entry hentry => ?_
  have htime : entry.time ≤ hi := Nat.le_trans (hrun.time_le entry hentry) hc
  cases entry with
  | sweep t => exact Nat.zero_le _
  | inspect t p o =>
    refine ofEntry_le fun hlo hsrc hnames => ?_
    have hnone : o = none := by
      cases o with
      | none => rfl
      | some sig =>
        exact absurd (name_mem_rateNames hrun _ hentry t p sig rfl)
          (hnames sig (List.mem_cons_self ..))
    exact (if_pos ⟨hsrc, hnone, hlo, htime⟩).ge

end History

/-! ## The limits -/

/-- **The limits hold under any schedule**: however the workers' calls and the sweeper's
rounds are interleaved, of the packets of one source whose analysis was begun at `lo` or
later, at most `1000 + 500 * (now - lo)` are not reported for the packet rate, if tokens
are counted exactly; and within a second, those reported for no rate have at most twice
the byte limit and twice the connection limit, however tokens are rounded. -/
theorem rates_conform (h : (clocked e₀).Reachable s) (hnew : e₀.rateLimiter = .new) (src : IpAddr)
    {lo : Nat} (hlo : lo ≤ s.shared.1) :
    (libs.fp = .exact →
      (acceptedFrom src lo s : ℚ) ≤ 1000 + 500 * asSecsF64 (s.shared.1 - lo)) ∧
    (s.shared.1 ≤ lo + secs 1 → bytesFrom src lo s ≤ 2 * 10485760 ∧ synsFrom src lo s ≤ 2 * 50) := by
  refine ⟨fun hexact => ?_, fun hlen => ⟨?_, ?_⟩⟩
  · obtain ⟨tr, c, hc, hrun, hclaimed⟩ :=
      exists_history h hnew (.unreported [.rateExceededPackets] (fun _ => 1) src) lo
    have haccepted : acceptedFrom src lo s ≤ RateLimiter.acceptedIn src lo s.shared.1 tr :=
      hclaimed.trans (accepted_le hrun hc)
    have hbound : (RateLimiter.acceptedIn src lo s.shared.1 tr : ℚ)
        ≤ 1000 + 500 * asSecsF64 (s.shared.1 - lo) := by
      generalize s.shared.2.rateLimiter = d at hrun
      revert d
      rw [hexact]
      exact fun d hrun => RateLimiter.acceptedIn_le hrun src hlo
    exact (Nat.cast_le.mpr haccepted).trans hbound
  · obtain ⟨tr, c, hc, hrun, hclaimed⟩ :=
      exists_history h hnew (.unreported rateNames RateLimiter.Packet.pktBytes src) lo
    exact (hclaimed.trans (amount_le Prod.fst hrun hc)).trans
      (RateLimiter.letThroughBy_le RateLimiter.bytes_isWindowCounter hrun src hlen)
  · obtain ⟨tr, c, hc, hrun, hclaimed⟩ :=
      exists_history h hnew (.unreported rateNames (fun p => p.isSyn.toNat) src) lo
    exact (hclaimed.trans (amount_le (fun a => a.2.toNat) hrun hc)).trans
      (RateLimiter.letThroughBy_le RateLimiter.connections_isWindowCounter hrun src hlen)

/-- A call on `markerPacket`, while a round of the sweeper is under way. -/
theorem rates_conform_marker :
    let libs : Libs := { Libs.plain with fp := .exact }
    ∃ s : Pool (Nat × Int) (Nat × IdsEngine libs) (Option IdsResult) Duty,
      (clocked (new (.new none 0) (fun _ => none) .new)).Reachable s ∧ s.running.length = 1 ∧
      s.done.length = 1 ∧
      (acceptedFrom (.v4 1#32) 0 s : ℚ) ≤ 1000 + 500 * asSecsF64 (s.shared.1 - 0) := by
  intro libs
  obtain ⟨⟨r, e⟩, hcall, -⟩ := analyze_returns (n := 0)
    (e := (new (.new none 0) (fun _ => none) .new : IdsEngine libs)) (bounded_new _ _ _)
    (by decide) (Instants.reading 0 0) markerPacket
  have hrun := Prog.timed_run (k := 0) (run_packet hcall)
  have hsweeping := TransitionSystem.Reachable.of_init (S := clocked _)
    (rfl : _ = (⟨(0, (new (.new none 0) (fun _ => none) .new : IdsEngine libs)), [], [], []⟩ :
      Pool (Nat × Int) (Nat × IdsEngine libs) (Option IdsResult) Duty))
  have hbegun := (hsweeping.step (Pool.Step.start Duty.sweep)).step
    (Pool.Step.start (Duty.packet markerPacket))
  obtain ⟨s₀, h₀, hleads⟩ := hbegun
  have hreach : (clocked (new (.new none 0) (fun _ => none) .new)).Reachable _ :=
    ⟨s₀, h₀, hleads.trans (Pool.leads_of_run hrun rfl)⟩
  exact ⟨_, hreach, rfl, rfl, (rates_conform hreach rfl (.v4 1#32) (Nat.zero_le _)).1 rfl⟩

end IdsEngine

end Ocellus
