import Ocellus.Ids.BlacklistEnforcement
import Ocellus.Ids.ConcurrentAnalysis

/-!
# What workers and sweeper can do to the baseline

From the judgment of each job, in every interleaving:

- a packet with a listed address is reported as blacklisted (`listed_reported`);
- what the baseline knows, it knew at first or learned from a packet, and what it learns
  for good, a country or a well-known port, from a packet whose analysis was begun while
  it was learning (`knowledge_has_origin`);
- the end of the learning phase is a race that only the calls at work at that time can
  win: each of them may still add one country and one well-known port, and no call that
  is begun later adds any (`race_bounded`).
-/

namespace Ocellus

namespace IdsEngine

variable {libs : Libs} {e₀ : IdsEngine libs}
  {s s' : Pool Instants (IdsEngine libs) (Option IdsResult) Duty}

/-- What holds of the jobs of a reachable pool. -/
abbrev InPlace (e₀ : IdsEngine libs)
    (s : Pool Instants (IdsEngine libs) (Option IdsResult) Duty) : Prop :=
  Pool.Placed (LoadedLike e₀) Grows Guarantee (fun job r _ => Judged job r) s

theorem inPlace_of_reachable (h : (concurrently e₀).Reachable s) : InPlace e₀ s :=
  Pool.placed_of_reachable (concurrently_judgment e₀) ⟨rfl, rfl⟩ h

theorem LoadedLike.isListed {e : IdsEngine libs} (h : LoadedLike e₀ e) (tm : TransportMeta) :
    IsListed tm e ↔ IsListed tm e₀ := by
  unfold IsListed
  rw [h.1]

theorem LoadedLike.listedPacket {e : IdsEngine libs} (h : LoadedLike e₀ e) (pkt : RawPacket) :
    ListedPacket pkt e ↔ ListedPacket pkt e₀ := by
  simp only [ListedPacket, h.isListed]

/-! ## A job that is left alone -/

/-- A job that is left alone does what its program does alone, whoever else is at work. -/
theorem duty_is_schedule {t : Instants} {duty : Duty} {e : IdsEngine libs} {r : Option IdsResult}
    (hrun : duty.program.run t s.shared = .ok (r, e)) :
    (concurrently e₀).Leads s { s with
      shared := e, done := (⟨duty, s.shared⟩, r) :: s.done
      begun := ⟨duty, s.shared⟩ :: s.begun } := Pool.leads_of_task hrun

theorem run_packet {t : Instants} {pkt : RawPacket} {e e' : IdsEngine libs} {r : IdsResult}
    (hcall : analyze t pkt e = .ok (r, e')) :
    (Duty.packet pkt).program.run t e = .ok (some r, e') := by
  show (analyzeProgram pkt >>= fun r => pure (some r)).run t e = _
  rw [Prog.run_bind, analyzeProgram_run, hcall]
  rfl

theorem run_sweep (t : Instants) (e : IdsEngine libs) :
    Duty.sweep.program.run t e = .ok (none, sweep t e) := by
  show (sweepProgram >>= fun _ => pure none).run t e = _
  rw [Prog.run_bind, sweepProgram_run]
  rfl

/-! ## The verdict -/

/-- The verdict of a call that is done. -/
theorem verdict_of_done (h : (concurrently e₀).Reachable s) {job : Job Duty (IdsEngine libs)}
    {result : Option IdsResult} (hdone : (job, result) ∈ s.done) {pkt : RawPacket}
    {tm : TransportMeta} (htask : job.task = .packet pkt) (htm : pkt.transport = some tm) :
    ∃ r, result = some r ∧ Verdict tm e₀ r := by
  have hplace := inPlace_of_reachable h
  obtain ⟨hbegun, hjudged⟩ := hplace.done _ hdone
  obtain ⟨r, hr, hverdict⟩ := hjudged pkt tm htask htm
  exact ⟨r, hr, fun hlisted => hverdict (((hplace.begun job hbegun).isListed tm).mpr hlisted)⟩

/-- **Blacklisted traffic is reported under any schedule**: whatever else workers and
sweeper do meanwhile, a call on a packet with a listed address comes to the reason
`blacklisted`, to at least 90 points and to severity Alert or Critical. -/
theorem listed_reported (h : (concurrently e₀).Reachable s) {job : Job Duty (IdsEngine libs)}
    {result : Option IdsResult} (hdone : (job, result) ∈ s.done) {pkt : RawPacket}
    {tm : TransportMeta} (htask : job.task = .packet pkt) (htm : pkt.transport = some tm)
    (hlisted : IsListed tm e₀) :
    ∃ r, result = some r ∧ r.flagReason = .blacklisted ∧ .fin 90 ≤ r.totalScore ∧
      (r.severity = .alert ∨ r.severity = .critical) := by
  obtain ⟨r, hr, hverdict⟩ := verdict_of_done h hdone htask htm
  exact ⟨r, hr, hverdict hlisted⟩

/-- An agent that has learned and lists the source of `markerPacket`. -/
def listing : IdsEngine .plain :=
  new (.new (some { BaselineState.empty with learnedAt := 1 }) 0) (fun _ => none)
    (Blacklist.new.addIp 1#32)

/-- It reports the packet, while a round of the sweeper is under way. -/
theorem listed_reported_marker :
    ∃ s r e, analyze ⟨0, 0, 0, 0⟩ markerPacket listing = .ok (r, e) ∧
      (concurrently listing).Reachable s ∧ s.running.length = 1 ∧
      r.flagReason = .blacklisted ∧ .fin 90 ≤ r.totalScore := by
  obtain ⟨⟨r, e⟩, hcall, -⟩ := analyze_returns (n := 0) (e := listing) (bounded_new _ _ _)
    (by decide) ⟨0, 0, 0, 0⟩ markerPacket
  have hstart : Pool.Step Duty.program
      (⟨listing, [], [], []⟩ : Pool Instants (IdsEngine .plain) (Option IdsResult) Duty)
      ⟨listing, [(⟨.sweep, listing⟩, Duty.sweep.program)], [], [⟨.sweep, listing⟩]⟩ :=
    Pool.Step.start Duty.sweep
  have hleads : (concurrently listing).Leads _ _ := .head hstart (duty_is_schedule (run_packet hcall))
  have hreach : (concurrently listing).Reachable _ := ⟨_, rfl, hleads⟩
  obtain ⟨r', heq, hreason, hscore, -⟩ := listed_reported hreach (List.mem_cons_self ..) rfl rfl
    (.inl (by decide +kernel))
  cases heq
  exact ⟨_, r, e, hcall, hreach, rfl, hreason, hscore⟩

/-! ## Where knowledge comes from -/

/-- A packet that may have taught the baseline `x`, in a call that was begun with the
engine `since`. -/
def MayTeach (e₀ : IdsEngine libs) (since : IdsEngine libs) (pkt : RawPacket) (x : Element) :
    Prop :=
  Carries libs e₀.geo pkt x ∧
    (since.baseline.phase = .refinement → ¬ Fixed x ∧ ¬ ListedPacket pkt e₀)

theorem Teaches.mayTeach {job : Job Duty (IdsEngine libs)} {x : Element} (h : Teaches job x)
    (hloaded : LoadedLike e₀ job.since) :
    ∃ pkt, job.task = .packet pkt ∧ MayTeach e₀ job.since pkt x := by
  obtain ⟨pkt, htask, hcarries, hphase⟩ := h
  rw [hloaded.2] at hcarries
  rw [hloaded.listedPacket] at hphase
  exact ⟨pkt, htask, hcarries, hphase⟩

/-- **Knowledge has an origin**: under any schedule, whatever the baseline knows it knew
at first, or it was carried by a packet that was analyzed. If the analysis was begun in
refinement, it is no country and no well-known port, and no address of the packet is
listed. -/
theorem knowledge_has_origin (h : (concurrently e₀).Reachable s) {x : Element}
    (hx : s.shared.baseline.Knows x) :
    e₀.baseline.Knows x ∨
      ∃ job ∈ s.begun, ∃ pkt, job.task = .packet pkt ∧ MayTeach e₀ job.since pkt x := by
  obtain ⟨s₀, rfl, hleads⟩ := h
  refine Pool.Placed.leads (concurrently_judgment e₀)
    (J := fun s => ∀ x, s.shared.baseline.Knows x → e₀.baseline.Knows x ∨
      ∃ job ∈ s.begun, ∃ pkt, job.task = .packet pkt ∧ MayTeach e₀ job.since pkt x)
    (fun t t' hplaced ht hmoves x hx => ?_) (inPlace_of_reachable (.of_init rfl))
    (fun x => .inl) hleads x hx
  -- what was known before has its origin still
  have hold (hx : t.shared.baseline.Knows x) : e₀.baseline.Knows x ∨
      ∃ job ∈ t'.begun, ∃ pkt, job.task = .packet pkt ∧ MayTeach e₀ job.since pkt x := by
    refine (ht x hx).imp_right ?_
    rintro ⟨job, hjob, horigin⟩
    exact ⟨job, hmoves.begun hjob, horigin⟩
  rcases hmoves.shared with hsame | ⟨r, -, hbegun, hguar⟩
  · exact hold (hsame ▸ hx)
  · rcases hguar.teaches x hx with hx | hteaches
    · exact hold hx
    · exact .inr ⟨r.1, hmoves.begun hbegun, hteaches.mayTeach (hplaced.begun r.1 hbegun)⟩

/-- An agent that has just started. -/
def newcomer : IdsEngine .plain := new (.new none 0) (fun _ => none) .new

/-- The call on `markerPacket` teaches it the port 443. -/
theorem knowledge_has_origin_marker :
    ∃ s, (concurrently newcomer).Reachable s ∧ s.shared.baseline.Knows (.port 443#16) ∧
      ∃ job ∈ s.begun, ∃ pkt, job.task = .packet pkt ∧
        MayTeach newcomer job.since pkt (.port 443#16) := by
  have hport : (analyze ⟨0, 0, 0, 0⟩ markerPacket newcomer).Returns fun p =>
      443#16 ∈ p.2.baseline.state.commonPorts := by
    decide +kernel
  obtain ⟨⟨r, e⟩, hcall, hmem⟩ := hport
  have hknows : e.baseline.Knows (.port 443#16) := hmem
  have hreach : (concurrently newcomer).Reachable _ :=
    ⟨_, rfl, duty_is_schedule (run_packet hcall)⟩
  exact ⟨_, hreach, hknows,
    (knowledge_has_origin hreach hknows).resolve_left (Finset.notMem_empty _)⟩

/-! ## The end of learning -/

/-- The country of the source of the packet of a job, if it is at work on one. -/
def jobCountry (geo : IpAddr → Option Str) (job : Job Duty (IdsEngine libs)) : Option Str :=
  match job.task with
  | .packet pkt => pkt.transport.bind fun tm => geo tm.srcIp
  | .sweep => none

/-- The destination port of the packet of a job. -/
def jobPort (job : Job Duty (IdsEngine libs)) : Option U16 :=
  match job.task with
  | .packet pkt => pkt.transport.bind (·.dstPort)
  | .sweep => none

theorem MayTeach.jobCountry {job : Job Duty (IdsEngine libs)} {pkt : RawPacket} {code : Str}
    (htask : job.task = .packet pkt) (h : MayTeach e₀ job.since pkt (.country code)) :
    jobCountry e₀.geo job = some code := by
  obtain ⟨⟨tm, domain, htm, -, hcode⟩, -⟩ := h
  rw [IdsEngine.jobCountry, htask]
  exact Option.bind_eq_some_iff.mpr ⟨tm, htm, hcode⟩

theorem MayTeach.jobPort {job : Job Duty (IdsEngine libs)} {pkt : RawPacket} {port : U16}
    (htask : job.task = .packet pkt) (h : MayTeach e₀ job.since pkt (.port port)) :
    jobPort job = some port := by
  obtain ⟨⟨tm, domain, htm, -, hport⟩, -⟩ := h
  rw [IdsEngine.jobPort, htask]
  exact Option.bind_eq_some_iff.mpr ⟨tm, htm, hport⟩

/-- The fixed elements that are known after the end of learning were known at that time,
or are carried by the packet of a call that was at work, and was begun before it. -/
def Race (e₀ : IdsEngine libs) (s s' : Pool Instants (IdsEngine libs) (Option IdsResult) Duty) :
    Prop :=
  ∀ x, Fixed x → s'.shared.baseline.Knows x → s.shared.baseline.Knows x ∨
    ∃ r ∈ s.running, ∃ pkt, r.1.task = .packet pkt ∧
      r.1.since.baseline.phase ≠ .refinement ∧ MayTeach e₀ r.1.since pkt x

theorem race_of_leads (h : (concurrently e₀).Reachable s)
    (hphase : s.shared.baseline.phase = .refinement) (hleads : (concurrently e₀).Leads s s') :
    s'.shared.baseline.phase = .refinement ∧ Race e₀ s s' := by
  suffices hall : (s'.shared.baseline.phase = .refinement ∧ Race e₀ s s') ∧
      ∀ r ∈ s'.running, (∃ r' ∈ s.running, r'.1 = r.1) ∨ r.1.since.baseline.phase = .refinement
    from hall.1
  refine Pool.Placed.leads (concurrently_judgment e₀)
    (J := fun s' => (s'.shared.baseline.phase = .refinement ∧ Race e₀ s s') ∧
      ∀ r ∈ s'.running, (∃ r' ∈ s.running, r'.1 = r.1) ∨ r.1.since.baseline.phase = .refinement)
    (fun t t' hplaced ht hmoves => ?_) (inPlace_of_reachable h)
    ⟨⟨hphase, fun x _ => .inl⟩, fun r hr => .inl ⟨r, hr, rfl⟩⟩ hleads
  obtain ⟨⟨hrefining, hrace⟩, hrunning⟩ := ht
  refine ⟨?_, fun r hr => ?_⟩
  · rcases hmoves.shared with hsame | ⟨r, hr, hbegun, hguar⟩
    · rw [Race, hsame]
      exact ⟨hrefining, hrace⟩
    · refine ⟨hguar.phase hrefining, fun x hfixed hx => ?_⟩
      rcases hguar.teaches x hx with hx | hteaches
      · exact hrace x hfixed hx
      · obtain ⟨pkt, htask, hmay⟩ := hteaches.mayTeach (hplaced.begun r.1 hbegun)
        have hearly : r.1.since.baseline.phase ≠ .refinement :=
          fun hlate => (hmay.2 hlate).1 hfixed
        obtain ⟨r', hr', hsame⟩ := (hrunning r hr).resolve_right hearly
        rw [← hsame] at htask hearly hmay
        exact .inr ⟨r', hr', pkt, htask, hearly, hmay⟩
  · rcases hmoves.running r hr with ⟨r', hr', hsame⟩ | hnew
    · exact hsame ▸ hrunning r' hr'
    · exact .inr (hnew ▸ hrefining)

/-- At most one element for each job. -/
theorem card_le_of_jobs {α : Type} {β : Type*} [DecidableEq α] {new : Finset α} {jobs : List β}
    (f : β → Option α) (h : ∀ a ∈ new, ∃ j ∈ jobs, f j = some a) : new.card ≤ jobs.length := by
  have hsub : new ⊆ (jobs.filterMap f).toFinset := by
    intro a ha
    obtain ⟨j, hj, hfj⟩ := h a ha
    exact List.mem_toFinset.mpr (List.mem_filterMap.mpr ⟨j, hj, hfj⟩)
  calc new.card ≤ (jobs.filterMap f).toFinset.card := Finset.card_le_card hsub
    _ ≤ (jobs.filterMap f).length := List.toFinset_card_le _
    _ ≤ jobs.length := List.length_filterMap_le _ _

/-- **The race at the end of learning is bounded**: once the agent is in refinement, it
stays there, and under any schedule every country and every well-known port it learns is
carried by the packet of a call that was at work at that time, and that was begun in the
learning phase. So there are at most as many of each as jobs at work. -/
theorem race_bounded (h : (concurrently e₀).Reachable s)
    (hphase : s.shared.baseline.phase = .refinement) (hleads : (concurrently e₀).Leads s s') :
    s'.shared.baseline.phase = .refinement ∧ Race e₀ s s' ∧
    (s'.shared.baseline.state.countries \ s.shared.baseline.state.countries).card
      ≤ s.running.length ∧
    ((s'.shared.baseline.state.commonPorts \ s.shared.baseline.state.commonPorts).filter
      (· ∈ WELL_KNOWN_PORTS)).card ≤ s.running.length := by
  obtain ⟨hstays, hrace⟩ := race_of_leads h hphase hleads
  refine ⟨hstays, hrace, ?_, ?_⟩
  · show _ ≤ s.running.length
    refine card_le_of_jobs (fun r => jobCountry e₀.geo r.1) fun code hcode => ?_
    obtain ⟨hknown, hnew⟩ := Finset.mem_sdiff.mp hcode
    obtain ⟨r, hr, pkt, htask, -, hmay⟩ := (hrace (.country code) trivial hknown).resolve_left hnew
    exact ⟨r, hr, hmay.jobCountry htask⟩
  · show _ ≤ s.running.length
    refine card_le_of_jobs (fun r => jobPort r.1) fun port hport => ?_
    obtain ⟨hdiff, hwell⟩ := Finset.mem_filter.mp hport
    obtain ⟨hknown, hnew⟩ := Finset.mem_sdiff.mp hdiff
    obtain ⟨r, hr, pkt, htask, -, hmay⟩ := (hrace (.port port) hwell hknown).resolve_left hnew
    exact ⟨r, hr, hmay.jobPort htask⟩

/-- A call on `markerPacket` that has made eight accesses while the agent learns, and is
overtaken by the end of the phase. -/
def overtaken : Option (Program .plain (Option IdsResult) × IdsEngine .plain) :=
  (Duty.packet markerPacket).program.advance ⟨0, 0, 0, 0⟩ 8 newcomer

def overtakingSweep : Instants := ⟨0, 0, 0, 1000000000000000⟩

/-- The race is there: the call still teaches the agent the port 443. -/
theorem race_bounded_marker :
    ∃ s s', (concurrently newcomer).Leads s s' ∧ s.shared.baseline.phase = .refinement ∧
      443#16 ∉ s.shared.baseline.state.commonPorts ∧
      443#16 ∈ s'.shared.baseline.state.commonPorts ∧
      ((s'.shared.baseline.state.commonPorts \ s.shared.baseline.state.commonPorts).filter
        (· ∈ WELL_KNOWN_PORTS)).card ≤ s.running.length ∧ s.running.length = 1 := by
  have hends : ∃ q ∈ overtaken, (sweep overtakingSweep q.2).baseline.phase = .refinement ∧
      443#16 ∉ (sweep overtakingSweep q.2).baseline.state.commonPorts ∧
      (q.1.run ⟨0, 0, 0, 0⟩ (sweep overtakingSweep q.2)).Returns fun r =>
        443#16 ∈ r.2.baseline.state.commonPorts := by
    decide +kernel
  obtain ⟨⟨p, e⟩, hfirst, hphase, hnew, ⟨r, e'⟩, hrun, hlearned⟩ := hends
  let job : Job Duty (IdsEngine .plain) := ⟨.packet markerPacket, newcomer⟩
  let begun : Pool Instants (IdsEngine .plain) (Option IdsResult) Duty :=
    ⟨newcomer, [(job, (Duty.packet markerPacket).program)], [], [job]⟩
  have hstart : Pool.Step Duty.program ⟨newcomer, [], [], []⟩ begun :=
    Pool.Step.start (Duty.packet markerPacket)
  have hsome : (concurrently newcomer).Leads _ ⟨e, [(job, p)], [], [job]⟩ :=
    .head hstart (Pool.leads_of_advance (s := begun) hfirst rfl)
  let after : Pool Instants (IdsEngine .plain) (Option IdsResult) Duty :=
    ⟨sweep overtakingSweep e, [(job, p)], [(⟨.sweep, e⟩, none)], [⟨.sweep, e⟩, job]⟩
  have hsweep : (concurrently newcomer).Leads _ after :=
    hsome.trans (duty_is_schedule (run_sweep overtakingSweep e))
  have hrest : (concurrently newcomer).Leads after _ := Pool.leads_of_run (s := after) hrun rfl
  obtain ⟨-, -, -, hports⟩ := race_bounded ⟨_, rfl, hsweep⟩ hphase hrest
  exact ⟨_, _, hrest, hphase, hnew, hlearned, hports, rfl⟩

end IdsEngine

end Ocellus
