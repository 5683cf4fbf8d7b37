import Ocellus.Ids.AnalyzeProgram
import Ocellus.Ids.Refinement

/-!
# Workers and sweeper on one engine

Any number of `analyze` calls and sweeper rounds, begun at any time and interleaved
access by access (`IdsEngine.concurrently`). Each call has a rely-guarantee judgment
(`concurrently_judgment`): it relies on others not to touch the blacklist, not to go
back from refinement to learning, and not to forget anything; it guarantees the same,
and that it teaches the baseline nothing but what its packet carries.

A call that is begun in refinement may see its checks outdated by the time it updates
the baseline, but never to its advantage: what was known stays known. So it still does
not teach a country or a well-known port, nor anything at all if an address of its
packet is listed.
-/

namespace Ocellus

namespace IdsEngine

variable {libs : Libs}

/-- A packet is analyzed by a worker, or the sweeper makes a round. -/
inductive Duty where
  | packet (pkt : RawPacket)
  | sweep

def Duty.program : Duty → Program libs (Option IdsResult)
  | .packet pkt => do return some (← analyzeProgram pkt)
  | .sweep => do
    sweepProgram
    return none

/-- Workers and sweeper take turns on an engine that is `e₀` at first. -/
def concurrently (e₀ : IdsEngine libs) :
    TransitionSystem (Pool Instants (IdsEngine libs) (Option IdsResult) Duty) :=
  Pool.system Duty.program e₀

/-! ## What jobs do to the engine -/

/-- An address of the packet is blacklisted. -/
def ListedPacket (pkt : RawPacket) (e : IdsEngine libs) : Prop :=
  ∃ tm, pkt.transport = some tm ∧ IsListed tm e

/-- What every job relies on. -/
structure Grows (e e' : IdsEngine libs) : Prop where
  blacklist : e'.blacklist = e.blacklist
  geo : e'.geo = e.geo
  phase : e.baseline.phase = .refinement → e'.baseline.phase = .refinement
  knows : ∀ x, e.baseline.Knows x → e'.baseline.Knows x

/-- The job may teach the baseline `x`. -/
def Teaches (job : Job Duty (IdsEngine libs)) (x : Element) : Prop :=
  ∃ pkt, job.task = .packet pkt ∧ Carries libs job.since.geo pkt x ∧
    (job.since.baseline.phase = .refinement → ¬ Fixed x ∧ ¬ ListedPacket pkt job.since)

/-- What a job guarantees. -/
structure Guarantee (job : Job Duty (IdsEngine libs)) (e e' : IdsEngine libs) : Prop
    extends Grows e e' where
  teaches : ∀ x, e'.baseline.Knows x → e.baseline.Knows x ∨ Teaches job x

/-- The blacklist and the database are those that were loaded at first. -/
def LoadedLike (e₀ e : IdsEngine libs) : Prop := e.blacklist = e₀.blacklist ∧ e.geo = e₀.geo

/-- What a job sees of the others. -/
def Rely (e₀ : IdsEngine libs) (e e' : IdsEngine libs) : Prop := LoadedLike e₀ e ∧ Grows e e'

/-- Nothing but the detectors is changed. -/
structure Leaves (e e' : IdsEngine libs) : Prop where
  blacklist : e'.blacklist = e.blacklist
  geo : e'.geo = e.geo
  baseline : e'.baseline = e.baseline

variable {e₀ e e' : IdsEngine libs} {job : Job Duty (IdsEngine libs)} {pkt : RawPacket}
  {tm : TransportMeta}

theorem Leaves.refl (e : IdsEngine libs) : Leaves e e := ⟨rfl, rfl, rfl⟩

theorem Leaves.guarantee (h : Leaves e e') : Guarantee job e e' where
  blacklist := h.blacklist
  geo := h.geo
  phase := h.baseline ▸ id
  knows := h.baseline ▸ fun _ => id
  teaches := h.baseline ▸ fun _ => .inl

/-! ## The detectors -/

/-- A program of detector accesses that returns scored signals. -/
abbrev Detects (rely : IdsEngine libs → IdsEngine libs → Prop) {α : Type} (signals : α → List Signal)
    (p : Program libs α) : Prop :=
  Prog.Sat rely Leaves (fun a _ => Scored (signals a)) p fun _ => True

variable {rely : IdsEngine libs → IdsEngine libs → Prop}

/-- A detector access whose result says nothing yet. -/
theorem sat_leaves {α β : Type} {access : Instants → IdsEngine libs → Checked (β × IdsEngine libs)}
    {post : α → IdsEngine libs → Prop} {k : β → Program libs α}
    (haccess : ∀ t e b e', access t e = .ok (b, e') → Leaves e e')
    (hk : ∀ b, Prog.Sat rely Leaves post (k b) fun _ => True) :
    Prog.Sat rely Leaves post (Prog.access access >>= k) fun _ => True := by
  have hfirst : Prog.Sat rely Leaves (fun _ _ => True) (Prog.access access) fun _ => True :=
    .access (Prog.stable_const True) (fun _ => Prog.stable_const True)
      fun t e b e' _ h => ⟨haccess t e b e' h, trivial⟩
  exact hfirst.seq fun b _ _ => hk b

theorem detects_pure {α : Type} {signals : α → List Signal} {a : α} (h : Scored (signals a)) :
    Detects rely signals (pure a) := .ret (Prog.stable_const True) fun _ _ => h

theorem rateProgram_detects : Detects rely Option.toList (rateProgram pkt tm) := by
  refine .access (Prog.stable_const True) (fun _ => Prog.stable_const _) fun t e a e' _ h => ?_
  obtain ⟨rate, hrate, h⟩ := Checked.bind_eq_ok.mp h
  cases h
  exact ⟨⟨rfl, rfl, rfl⟩, (RateLimiter.graded_inspect hrate).scored⟩

theorem portsProgram_detects : Detects rely Option.toList (portsProgram tm : Program libs (Option Signal)) := by
  have hscan : ∀ name detail, Scored [⟨name, SCORE_PORT_SCAN, detail⟩] := fun name detail s hs =>
    ⟨60, List.mem_singleton.mp hs ▸ rfl, by norm_num⟩
  unfold portsProgram
  cases tm.dstPort with
  | none => exact detects_pure .nil
  | some dstPort =>
    refine sat_leaves (fun t e b e' h => ?_) fun horizontal => ?_
    · cases h
      exact ⟨rfl, rfl, rfl⟩
    · split
      · exact detects_pure (hscan _ _)
      · refine sat_leaves (fun t e b e' h => ?_) fun vertical => ?_
        · cases h
          exact ⟨rfl, rfl, rfl⟩
        · split
          · exact detects_pure (hscan _ _)
          · exact detects_pure .nil

theorem ratioProgram_detects (p : Segment) : Detects rely id (ratioProgram p : Program libs (List Signal)) := by
  refine .access (Prog.stable_const True) (fun _ => Prog.stable_const _) fun t e a e' _ h => ?_
  obtain ⟨ratio, hratio, h⟩ := Checked.bind_eq_ok.mp h
  obtain ⟨c, -, hratio⟩ := Checked.bind_eq_ok.mp hratio
  cases h
  cases hratio
  refine ⟨⟨rfl, rfl, rfl⟩, ?_⟩
  show Scored (if _ then _ else _)
  split
  · exact (Graded.singleton 65 rfl rfl (by norm_num) (by norm_num)).scored
  · exact .nil

theorem updateHalfOpen_leaves (f : Instants → Table FlowKey Nat → Table FlowKey Nat) :
    Prog.Sat rely Leaves (fun _ _ => True) (updateHalfOpen f : Program libs Unit)
      fun _ => True := by
  refine .access (Prog.stable_const True) (fun _ => Prog.stable_const True) fun t e b e' _ h => ?_
  cases h
  exact ⟨⟨rfl, rfl, rfl⟩, trivial⟩

theorem halfOpenProgram_leaves (p : Segment) :
    Prog.Sat rely Leaves (fun _ _ => True) (halfOpenProgram p : Program libs Unit) fun _ => True := by
  unfold halfOpenProgram
  split
  · exact updateHalfOpen_leaves _
  · split
    · exact (updateHalfOpen_leaves _).seq fun _ _ _ => updateHalfOpen_leaves _
    · exact .ret (Prog.stable_const True) fun _ _ => trivial

theorem read_leaves {α : Type} (f : IdsEngine libs → α) :
    Prog.Sat rely Leaves (fun _ _ => True) (Prog.read f : Program libs α) fun _ => True :=
  .read Leaves.refl (Prog.stable_const True) (fun _ => Prog.stable_const True) fun _ _ => trivial

theorem rstProgram_detects (p : Segment) : Detects rely id (rstProgram p : Program libs (List Signal)) := by
  unfold rstProgram
  split
  · refine (read_leaves _).seq fun b _ _ => ?_
    split
    · exact detects_pure .nil
    · refine (read_leaves _).seq fun b' _ _ => ?_
      split
      · exact detects_pure .nil
      · exact detects_pure (Graded.singleton 25 rfl rfl (by norm_num) (by norm_num)).scored
  · exact detects_pure .nil

theorem segmentProgram_detects (p : Segment) :
    Detects rely id (segmentProgram p : Program libs (List Signal)) := by
  refine (ratioProgram_detects p).seq fun ratio _ hratio => ?_
  refine (halfOpenProgram_leaves p).seq fun _ _ _ => ?_
  refine (read_leaves _).seq fun count _ _ => ?_
  refine (rstProgram_detects p).seq fun rst _ hrst => detects_pure ?_
  refine ((hratio.append ?_).append hrst).append ?_
  · split
    · exact (Graded.singleton 50 rfl rfl (by norm_num) (by norm_num)).scored
    · exact .nil
  · split
    · exact (Graded.singleton 55 rfl rfl (by norm_num) (by norm_num)).scored
    · exact .nil

theorem tcpProgram_detects : Detects rely id (tcpProgram tm : Program libs (List Signal)) := by
  unfold tcpProgram
  split
  · exact segmentProgram_detects _
  · exact detects_pure .nil

/-! ## What a call finds -/

/-- Findings with scored signals, among them one of 90 points for a listed address,
which has set the flag. -/
structure Found (tm : TransportMeta) (since : IdsEngine libs) (f : Findings) : Prop where
  scored : Scored f.signals
  listed : IsListed tm since →
    f.primaryFlag = .blacklisted ∧ ∃ s ∈ f.signals, s.score = SCORE_BLACKLIST_IP

variable {since : IdsEngine libs} {f : Findings}

theorem Found.raise (h : Found tm since f) (reason : FlagReason) {ss : List Signal}
    (hss : Scored ss) : Found tm since (f.raise reason ss) := by
  refine ⟨?_, fun hlisted => ?_⟩
  · rw [Findings.raise_signals]
    exact h.scored.append hss
  · obtain ⟨hflag, s, hs, hscore⟩ := h.listed hlisted
    refine ⟨Findings.raise_of_set (by decide) hflag reason ss, s, ?_, hscore⟩
    rw [Findings.raise_signals]
    exact List.mem_append_left _ hs

theorem Found.note (h : Found tm since f) {ss : List Signal} (hss : Scored ss) :
    Found tm since (f.note ss) := by
  refine ⟨h.scored.append hss, fun hlisted => ?_⟩
  obtain ⟨hflag, s, hs, hscore⟩ := h.listed hlisted
  exact ⟨hflag, s, List.mem_append_left _ hs, hscore⟩

theorem checkIp_score {ip : IpAddr} {b : Blacklist libs.bloom} {s : Signal}
    (h : b.checkIp ip = some s) : s.score = SCORE_BLACKLIST_IP := by
  unfold Blacklist.checkIp at h
  split at h
  · cases h
  · split at h
    · cases h
      rfl
    · split at h
      · cases h
        rfl
      · cases h

/-- Both addresses have been looked up. -/
theorem found_addresses (tm : TransportMeta) (since : IdsEngine libs) :
    Found tm since ((Findings.empty.raise .blacklisted
      (since.blacklist.checkIp tm.srcIp).toList).raise .blacklisted
        (since.blacklist.checkIp tm.dstIp).toList) := by
  refine ⟨?_, fun hlisted => ?_⟩
  · rw [Findings.raise_signals, Findings.raise_signals]
    exact (Scored.nil.append (Blacklist.graded_checkIp _ _).scored).append
      (Blacklist.graded_checkIp _ _).scored
  · rw [Findings.raise_raise, Findings.raise_primaryFlag, Findings.raise_signals]
    rcases hlisted with h | h
    · obtain ⟨s, hs⟩ := Option.isSome_iff_exists.mp h
      rw [hs]
      exact ⟨if_pos ⟨rfl, nofun⟩, s, by simp, checkIp_score hs⟩
    · obtain ⟨s, hs⟩ := Option.isSome_iff_exists.mp h
      rw [hs]
      exact ⟨if_pos ⟨rfl, List.append_ne_nil_of_right_ne_nil _ nofun⟩, s, by simp,
        checkIp_score hs⟩

/-! ## Assertions that jobs keep -/

/-- What holds, holds after any job's access. -/
def Kept (K : IdsEngine libs → Prop) : Prop := ∀ e e', K e → Grows e e' → K e'

theorem Kept.stable {K : IdsEngine libs → Prop} (h : Kept K) : Prog.Stable (Rely e₀) K :=
  fun e e' hK hrely => h e e' hK hrely.2

theorem Kept.and {K K' : IdsEngine libs → Prop} (h : Kept K) (h' : Kept K') :
    Kept fun e => K e ∧ K' e := fun e e' hK hg => ⟨h e e' hK.1 hg, h' e e' hK.2 hg⟩

theorem kept_const (p : Prop) : Kept fun _ : IdsEngine libs => p := fun _ _ hp _ => hp

/-- The libraries are those the job began with, and a refinement that it has begun in
goes on. -/
def AtWork (since e : IdsEngine libs) : Prop :=
  LoadedLike since e ∧ (since.baseline.phase = .refinement → e.baseline.phase = .refinement)

theorem kept_atWork (since : IdsEngine libs) : Kept (AtWork since) := by
  rintro e e' ⟨⟨hlist, hgeo⟩, hphase⟩ hgrows
  exact ⟨⟨hgrows.blacklist.trans hlist, hgrows.geo.trans hgeo⟩,
    fun h => hgrows.phase (hphase h)⟩

theorem atWork_self (e : IdsEngine libs) : AtWork e e := ⟨⟨rfl, rfl⟩, id⟩

/-- In refinement, a country that the baseline does not know is among the signals. -/
def CountryCovered (tm : TransportMeta) (since : IdsEngine libs) (ss : List Signal)
    (e : IdsEngine libs) : Prop :=
  since.baseline.phase = .refinement → ∀ code, since.geo tm.srcIp = some code →
    e.baseline.Knows (.country code) ∨ ∃ s ∈ ss, s.score = SCORE_GEO_ANOMALY

/-- And so is a well-known port. -/
def PortCovered (tm : TransportMeta) (since : IdsEngine libs) (ss : List Signal)
    (e : IdsEngine libs) : Prop :=
  since.baseline.phase = .refinement → ∀ port, tm.dstPort = some port → port ∈ WELL_KNOWN_PORTS →
    e.baseline.Knows (.port port) ∨ ∃ s ∈ ss, s.score = SCORE_UNUSUAL_PORT_NETWORK

theorem kept_countryCovered (tm : TransportMeta) (since : IdsEngine libs) (ss : List Signal) :
    Kept (CountryCovered tm since ss) :=
  fun _ _ h hgrows hphase code hcode => (h hphase code hcode).imp_left (hgrows.knows _)

theorem kept_portCovered (tm : TransportMeta) (since : IdsEngine libs) (ss : List Signal) :
    Kept (PortCovered tm since ss) :=
  fun _ _ h hgrows hphase port hport hwell => (h hphase port hport hwell).imp_left (hgrows.knows _)

theorem CountryCovered.mono {ss ss' : List Signal} (h : CountryCovered tm since ss e)
    (hsub : ss ⊆ ss') : CountryCovered tm since ss' e := by
  intro hphase code hcode
  refine (h hphase code hcode).imp_right ?_
  rintro ⟨s, hs, hscore⟩
  exact ⟨s, hsub hs, hscore⟩

theorem PortCovered.mono {ss ss' : List Signal} (h : PortCovered tm since ss e)
    (hsub : ss ⊆ ss') : PortCovered tm since ss' e := by
  intro hphase port hport hwell
  refine (h hphase port hport hwell).imp_right ?_
  rintro ⟨s, hs, hscore⟩
  exact ⟨s, hsub hs, hscore⟩

/-- Programs of a job, from and to what jobs keep. -/
abbrev Works (e₀ : IdsEngine libs) (job : Job Duty (IdsEngine libs)) {α : Type}
    (post : α → IdsEngine libs → Prop) (p : Program libs α) (K : IdsEngine libs → Prop) : Prop :=
  Prog.Sat (Rely e₀) (Guarantee job) post p K

/-- A program of detector accesses keeps what jobs keep. -/
theorem Detects.works {α : Type} {signals : α → List Signal} {p : Program libs α}
    {K : IdsEngine libs → Prop} (hK : Kept K) (h : Detects (Rely e₀) signals p) :
    Works e₀ job (fun a e => Scored (signals a) ∧ K e) p K := by
  have hframed := (h.strengthen fun _ _ h => (h.guarantee : Guarantee job _ _)).frame hK.stable
    fun _ _ hs hg => hK _ _ hs hg.toGrows
  exact hframed.narrow hK.stable fun e he => ⟨trivial, he⟩

/-- A reading of the engine. -/
theorem works_read {α : Type} {g : IdsEngine libs → α} {post : α → IdsEngine libs → Prop}
    {K : IdsEngine libs → Prop} (hK : Kept K) (hpost : ∀ a, Kept (post a))
    (h : ∀ e, K e → post (g e) e) :
    Works e₀ job (fun a e => post a e ∧ K e) (Prog.read g) K :=
  .read (fun e => (Leaves.refl e).guarantee) hK.stable (fun a => ((hpost a).and hK).stable)
    fun e he => ⟨h e he, he⟩

theorem works_lift {α : Type} {x : Checked α} {K : IdsEngine libs → Prop} (hK : Kept K) :
    Works e₀ job (fun a e => x = .ok a ∧ K e) (Prog.lift x) K :=
  .lift hK.stable fun _ _ hx he => ⟨hx, he⟩

theorem works_pure {α : Type} {a : α} {post : α → IdsEngine libs → Prop}
    {K : IdsEngine libs → Prop} (hK : Kept K) (h : ∀ e, K e → post a e) :
    Works e₀ job post (pure a) K := .ret hK.stable h

/-- Sequencing, when the first part keeps `K` and what it tells is not about the
engine. -/
theorem works_bind {α β : Type} {P : α → Prop} {post : β → IdsEngine libs → Prop}
    {p : Program libs α} {k : α → Program libs β} {K : IdsEngine libs → Prop}
    (h : Works e₀ job (fun a e => P a ∧ K e) p K) (hk : ∀ a, P a → Works e₀ job post (k a) K) :
    Works e₀ job post (p >>= k) K := h.bind fun a _ ha => ⟨K, ha.2, hk a ha.1⟩

/-! ## The checks of a call -/

theorem detectProgram_works :
    Works e₀ job (fun f e => Found tm since f ∧ AtWork since e) (detectProgram pkt tm)
      (AtWork since) := by
  have hK := kept_atWork since
  have hlisted : ∀ ip, Works e₀ job
      (fun o e => o = since.blacklist.checkIp ip ∧ AtWork since e)
      (Prog.read fun e => e.blacklist.checkIp ip) (AtWork since) := fun ip =>
    works_read hK (fun _ => kept_const _) fun e he => by rw [he.1.1]
  refine works_bind (hlisted tm.srcIp) fun src hsrc => ?_
  refine works_bind (hlisted tm.dstIp) fun dst hdst => ?_
  subst hsrc hdst
  have hfound := found_addresses tm since
  refine works_bind (rateProgram_detects.works hK) fun rate hrate => ?_
  replace hfound := hfound.raise .rateExceeded hrate
  refine works_bind (portsProgram_detects.works hK) fun scan hscan => ?_
  replace hfound := hfound.raise .portScan hscan
  refine works_bind (tcpProgram_detects.works hK) fun tcp htcp => ?_
  replace hfound := hfound.raise .synFlood htcp
  refine works_pure hK fun e he => ⟨?_, he⟩
  exact ((hfound.note (graded_icmpSignals tm).scored).note
    (graded_fragmentSignals tm).scored).note (graded_truncationSignals pkt).scored

theorem readPhase_works {K : IdsEngine libs → Prop} (hK : Kept K)
    (hwork : ∀ e, K e → AtWork since e) :
    Works e₀ job (fun phase e => (since.baseline.phase = .refinement → phase = .refinement) ∧ K e)
      readPhase K := works_read hK (fun _ => kept_const _) fun e he => (hwork e he).2

/-- A check against the baseline: outside refinement it reports nothing, and in
refinement it reports what is not known. -/
theorem works_check {known : IdsEngine libs → Bool} {s : Signal}
    {post : List Signal → IdsEngine libs → Prop} (hpost : ∀ ss, Kept (post ss))
    (hlearning : since.baseline.phase ≠ .refinement → ∀ e, post [] e)
    (hknown : ∀ e, AtWork since e → known e = true → post [] e) (hnew : ∀ e, post [s] e) :
    Works e₀ job (fun ss e => post ss e ∧ AtWork since e)
      (do
        if (← readPhase) = .refinement then
          if ← Prog.read known then return []
          else return [s]
        else return [])
      (AtWork since) := by
  have hK := kept_atWork since
  refine works_bind (readPhase_works hK fun e he => he) fun phase hphase => ?_
  split
  · have hread : Works e₀ job (fun b e => (b = true → post [] e) ∧ AtWork since e)
        (Prog.read known) (AtWork since) :=
      works_read hK (fun b e e' hb hg h => hpost [] e e' (hb h) hg) fun e he => hknown e he
    refine hread.bind fun b _ h => ⟨fun e => (b = true → post [] e) ∧ AtWork since e, h, ?_⟩
    have hkept : Kept fun e => (b = true → post [] e) ∧ AtWork since e :=
      Kept.and (fun e e' hb hg h => hpost [] e e' (hb h) hg) hK
    split
    · rename_i hb
      exact works_pure hkept fun e he => ⟨he.1 hb, he.2⟩
    · exact works_pure hkept fun e he => ⟨hnew e, he.2⟩
  · rename_i hnot
    exact works_pure hK fun e he => ⟨hlearning (fun h => hnot (hphase h)) e, he⟩

theorem geoProgram_works :
    Works e₀ job (fun ss e => (Scored ss ∧ CountryCovered tm since ss e) ∧ AtWork since e)
      (geoProgram tm (since.geo tm.srcIp)) (AtWork since) := by
  unfold CountryCovered
  cases hgeo : since.geo tm.srcIp with
  | none => exact works_pure (kept_atWork since) fun e he => ⟨⟨.nil, fun _ _ h => nomatch h⟩, he⟩
  | some code =>
    refine works_check (fun ss => (kept_const _).and ?_) ?_ ?_ ?_
    · exact fun e e' h hg hphase code' hcode => (h hphase code' hcode).imp_left (hg.knows _)
    · exact fun hnot e => ⟨.nil, fun hphase => absurd hphase hnot⟩
    · rintro e - hknown
      refine ⟨.nil, fun _ code' hcode => .inl ?_⟩
      cases hcode
      exact of_decide_eq_true (p := code ∈ e.baseline.state.countries) hknown
    · intro e
      exact ⟨(Graded.singleton 35 rfl rfl (by norm_num) (by norm_num)).scored,
        fun _ _ _ => .inr ⟨_, List.mem_singleton_self _, rfl⟩⟩

theorem portProgram_works :
    Works e₀ job (fun ss e => (Scored ss ∧ PortCovered tm since ss e) ∧ AtWork since e)
      (portProgram tm) (AtWork since) := by
  unfold PortCovered portProgram
  cases htm : tm.dstPort with
  | none => exact works_pure (kept_atWork since) fun e he => ⟨⟨.nil, fun _ _ h => nomatch h⟩, he⟩
  | some dstPort =>
    refine works_check (fun ss => (kept_const _).and ?_) ?_ ?_ ?_
    · exact fun e e' h hg hphase port hport hwell =>
        (h hphase port hport hwell).imp_left (hg.knows _)
    · exact fun hnot e => ⟨.nil, fun hphase => absurd hphase hnot⟩
    · rintro e - hknown
      refine ⟨.nil, fun _ port hport _ => .inl ?_⟩
      cases hport
      exact of_decide_eq_true (p := dstPort ∈ e.baseline.state.commonPorts) hknown
    · intro e
      constructor
      · split
        · exact @Graded.scored none _ (.singleton 30 rfl rfl (by norm_num) (by norm_num))
        · exact @Graded.scored none _ (.singleton 20 rfl rfl (by norm_num) (by norm_num))
      · intro _ port hport hwell
        cases hport
        refine .inr ⟨_, List.mem_singleton_self _, if_pos ?_⟩
        exact List.contains_iff_mem.mpr hwell

/-- What is found about a queried name is scored, and added to what was found. -/
theorem domainProgram_works {domain : Option Str} (hf : Found tm since f)
    (hdomain : dnsQueryName pkt tm = .ok domain) {K : IdsEngine libs → Prop} (hK : Kept K) :
    Works e₀ job (fun f' e => (Found tm since f' ∧ f.signals ⊆ f'.signals) ∧ K e)
      (domainProgram pkt tm f domain) K := by
  cases domain with
  | none => exact works_pure hK fun e he => ⟨⟨hf, List.Subset.refl _⟩, he⟩
  | some name =>
    have hlisted : Works e₀ job (fun o e => Scored o.toList ∧ K e)
        (Prog.read fun e => e.blacklist.checkDomain libs.lower name) K :=
      works_read hK (fun _ => kept_const _)
        fun e _ => (Blacklist.graded_checkDomain libs.lower name e.blacklist).scored
    have hname := DnsDetector.inspectName_eq libs.lower (isShort_of_dnsQueryName hdomain)
    have hsignals := DnsDetector.graded_nameSignals libs.lower name
    have hinspect : Works e₀ job (fun ss e => Scored ss ∧ K e) (inspectDomainProgram name) K := by
      have hknown : Works e₀ job (fun _ e => True ∧ K e)
          (Prog.read fun e => e.baseline.isKnownDns libs.lower name) K :=
        works_read hK (fun _ => kept_const True) fun _ _ => trivial
      refine works_bind hknown fun known _ => ?_
      split
      · exact works_pure hK fun e he => ⟨.nil, he⟩
      · rw [hname]
        exact works_pure hK fun e he => ⟨hsignals.scored, he⟩
    refine works_bind hlisted fun listed hlisted => ?_
    refine works_bind hinspect fun anomalies hanomalies => ?_
    refine works_bind (works_lift hK) fun payload hpayload =>
      works_pure hK fun e he => ⟨⟨?_, ?_⟩, he⟩
    · refine ((hf.raise _ hlisted).raise _ hanomalies).raise _ ?_
      rw [inspectDnsPayload_eq_ok hdomain hpayload]
      exact (hsignals.append (DnsDetector.graded_sizeSignals _)).scored
    · simp only [Findings.raise_signals]
      exact fun s hs => by simp [hs]

theorem compareProgram_works (hf : Found tm since f) :
    Works e₀ job (fun r e => (Found tm since r.1 ∧ CountryCovered tm since r.1.signals e ∧
        PortCovered tm since r.1.signals e ∧ r.2.1 = since.geo tm.srcIp ∧
        dnsQueryName pkt tm = .ok r.2.2) ∧ AtWork since e)
      (compareProgram pkt tm f) (AtWork since) := by
  have hK := kept_atWork since
  have hcountry : Works e₀ job (fun o e => o = since.geo tm.srcIp ∧ AtWork since e)
      (Prog.read fun e => e.geo tm.srcIp) (AtWork since) :=
    works_read hK (fun _ => kept_const _) fun e he => by rw [he.1.2]
  refine works_bind hcountry fun country hcountry' => ?_
  subst hcountry'
  have hgeo : Works e₀ job (fun ss e => (Scored ss ∧ CountryCovered tm since ss e) ∧
      AtWork since e) (geoProgram tm (since.geo tm.srcIp)) (AtWork since) := geoProgram_works
  refine hgeo.bind fun geo _ h => ⟨fun e => CountryCovered tm since geo e ∧ AtWork since e,
    ⟨h.1.2, h.2⟩, ?_⟩
  have hf₁ := hf.raise .geoAnomaly h.1.1
  have hgeoKept := kept_countryCovered tm since geo
  have hK₁ := hgeoKept.and hK
  refine works_bind (works_lift hK₁) fun scanned hscanned => ?_
  have hf₂ := hf₁.raise .payloadSig (strength_scanPayload hscanned).2.scored
  refine works_bind (works_lift hK₁) fun domain hdomain => ?_
  refine works_bind (domainProgram_works hf₂ hdomain hK₁) fun f₃ h₃ => ?_
  obtain ⟨hf₃, hsub⟩ := h₃
  have hports : Works e₀ job (fun ss e => (Scored ss ∧ PortCovered tm since ss e) ∧
      AtWork since e) (portProgram tm) (AtWork since) := portProgram_works
  have hboth := (hports.frame hgeoKept.stable fun _ _ hs hg => hgeoKept _ _ hs hg.toGrows).narrow
    hK₁.stable fun e he => And.symm he
  refine hboth.bind fun port _ h => ⟨fun e => ((PortCovered tm since port e ∧ AtWork since e) ∧
    CountryCovered tm since geo e), ⟨⟨h.1.1.2, h.1.2⟩, h.2⟩, ?_⟩
  have hport := h.1.1.1
  have hsubset : geo ⊆ f₃.signals := by
    refine List.Subset.trans (fun s hs => ?_) hsub
    simp [Findings.raise_signals, hs]
  refine works_pure (((kept_portCovered tm since port).and hK).and hgeoKept) fun e he => ?_
  refine ⟨⟨(hf₃.note hport).note (graded_vlanSignals tm).scored, ?_, ?_, rfl, hdomain⟩, he.1.2⟩
  · exact he.2.mono fun s hs => List.mem_append_left _ (List.mem_append_left _ (hsubset hs))
  · exact he.1.1.mono fun s hs => List.mem_append_left _ (List.mem_append_right _ hs)

/-! ## The update of the baseline -/

/-- What a call that updates the baseline may count on: in refinement the baseline
knows what it would not learn. -/
structure Settled (tm : TransportMeta) (since e : IdsEngine libs) : Prop where
  country : since.baseline.phase = .refinement → ∀ code, since.geo tm.srcIp = some code →
    e.baseline.Knows (.country code)
  port : since.baseline.phase = .refinement → ∀ port, tm.dstPort = some port →
    port ∈ WELL_KNOWN_PORTS → e.baseline.Knows (.port port)

theorem kept_settled (tm : TransportMeta) (since : IdsEngine libs) : Kept (Settled tm since) :=
  fun _ _ h hgrows => ⟨fun hphase code hcode => hgrows.knows _ (h.country hphase code hcode),
    fun hphase port hport hwell => hgrows.knows _ (h.port hphase port hport hwell)⟩

/-- A write that adds at most what the job may teach. -/
theorem updateBaseline_works {g : Baseline → Baseline} {x : Option Element}
    {K : IdsEngine libs → Prop} (hK : Kept K) (hphase : ∀ b, (g b).phase = b.phase)
    (hknows : ∀ b y, (g b).Knows y ↔ x = some y ∨ b.Knows y)
    (hteaches : ∀ e, K e → ∀ y, x = some y → e.baseline.Knows y ∨ Teaches job y) :
    Works e₀ job (fun _ e => True ∧ K e) (updateBaseline g) K := by
  refine .access hK.stable (fun _ => ((kept_const True).and hK).stable) fun t e a e' he h => ?_
  cases h
  have hgrows : Grows e { e with baseline := g e.baseline } :=
    ⟨rfl, rfl, fun h => (hphase _).trans h, fun y hy => (hknows _ y).mpr (.inr hy)⟩
  refine ⟨⟨hgrows, fun y hy => ?_⟩, trivial, hK e _ he hgrows⟩
  rcases (hknows _ y).mp hy with hx | hy
  · exact hteaches e he y hx
  · exact .inl hy

theorem observeSome_works {β : Type} {g : β → Baseline → Baseline} {o : Option β}
    {x : β → Element} {K : IdsEngine libs → Prop} (hK : Kept K)
    (hphase : ∀ a b, (g a b).phase = b.phase)
    (hknows : ∀ a b y, (g a b).Knows y ↔ x a = y ∨ b.Knows y)
    (hteaches : ∀ e, K e → ∀ a, o = some a → e.baseline.Knows (x a) ∨ Teaches job (x a)) :
    Works e₀ job (fun _ e => True ∧ K e) (observeSome g o) K := by
  cases o with
  | none => exact works_pure hK fun e he => ⟨trivial, he⟩
  | some a =>
    refine updateBaseline_works (x := some (x a)) hK (hphase a) (fun b y => ?_) fun e he y hy => ?_
    · rw [hknows, Option.some.injEq]
    · cases hy
      exact hteaches e he a rfl

theorem observeProgram_works {since : IdsEngine libs} {domain : Option Str}
    (htm : pkt.transport = some tm) (hdomain : dnsQueryName pkt tm = .ok domain)
    (hunlisted : since.baseline.phase = .refinement → ¬ ListedPacket pkt since) :
    Works e₀ ⟨.packet pkt, since⟩ (fun _ e => True ∧ Settled tm since e)
      (observeProgram tm (since.geo tm.srcIp) domain) (Settled tm since) := by
  have hK := kept_settled tm since
  -- what the packet carries may be taught unless it is fixed
  have hteaches : ∀ x, Bears libs.lower since.geo tm domain x →
      (since.baseline.phase = .refinement → ¬ Fixed x) → Teaches ⟨.packet pkt, since⟩ x :=
    fun x hx hfixed => ⟨pkt, rfl, ⟨tm, domain, htm, hdomain, hx⟩,
      fun hphase => ⟨hfixed hphase, hunlisted hphase⟩⟩
  refine works_bind (observeSome_works (x := .port) hK (fun _ _ => rfl) ?_ ?_) fun _ _ => ?_
  · intro port b y
    cases y <;> simp [Baseline.Knows, BaselineState.Knows, Baseline.observePort, eq_comm]
  · intro e he port hport
    by_cases hwell : since.baseline.phase = .refinement ∧ port ∈ WELL_KNOWN_PORTS
    · exact .inl (he.port hwell.1 port hport hwell.2)
    · exact .inr (hteaches _ hport fun hphase hfix => hwell ⟨hphase, hfix⟩)
  refine works_bind (updateBaseline_works (x := some (.dstIp tm.dstIp)) hK (fun _ => rfl) ?_ ?_)
    fun _ _ => ?_
  · intro b y
    cases y <;> simp [Baseline.Knows, BaselineState.Knows, Baseline.observeDstIp, eq_comm]
  · intro e he y hy
    cases hy
    exact .inr (hteaches _ rfl fun _ => id)
  refine works_bind (updateBaseline_works (x := some (.protocol tm.protocol)) hK (fun _ => rfl)
    ?_ ?_) fun _ _ => ?_
  · intro b y
    cases y <;> simp [Baseline.Knows, BaselineState.Knows, Baseline.observeProtocol, eq_comm]
  · intro e he y hy
    cases hy
    exact .inr (hteaches _ rfl fun _ => id)
  refine works_bind (observeSome_works (x := .country) hK (fun _ _ => rfl) ?_ ?_) fun _ _ => ?_
  · intro code b y
    cases y <;> simp [Baseline.Knows, BaselineState.Knows, Baseline.observeCountry, eq_comm]
  · intro e he code hcode
    by_cases hphase : since.baseline.phase = .refinement
    · exact .inl (he.country hphase code hcode)
    · exact .inr (hteaches _ hcode fun h => absurd h hphase)
  refine observeSome_works (x := fun name => .domain (libs.lower name)) hK (fun _ _ => rfl) ?_ ?_
  · intro name b y
    cases y <;> simp [Baseline.Knows, BaselineState.Knows, Baseline.observeDns, eq_comm]
  · intro e he name hname
    refine .inr (hteaches _ ?_ fun _ => id)
    rw [Bears, hname]
    rfl

/-- The verdict on a packet with a listed address. -/
def Verdict (tm : TransportMeta) (since : IdsEngine libs) (r : IdsResult) : Prop :=
  IsListed tm since → r.flagReason = .blacklisted ∧ .fin 90 ≤ r.totalScore ∧
    (r.severity = .alert ∨ r.severity = .critical)

theorem Found.verdict {r : IdsResult} (h : Found tm since f)
    (hr : IdsResult.fromSignals f.signals f.primaryFlag = .ok r) : Verdict tm since r := by
  intro hlisted
  obtain ⟨hflag, s, hs, hscore⟩ := h.listed hlisted
  obtain ⟨hreason, -, htotal, hseverity⟩ := IdsResult.fromSignals_eq_ok h.scored hr
  have hninety := IdsResult.le_totalScore h.scored hr hs hscore (by norm_num)
  refine ⟨hreason.trans hflag, hninety, ?_⟩
  rw [htotal, F32.fin_le] at hninety
  have halert : THRESHOLD_ALERT ≤ .fin (IdsResult.total f.signals) :=
    F32.fin_le.mpr (le_trans (by norm_num) hninety)
  rw [hseverity, Severity.fromScore, if_pos halert]
  split
  · exact .inr rfl
  · exact .inl rfl

/-- Signals of a low total have low scores. -/
theorem notMem_of_low {ss : List Signal} {q : ℚ} (hlow : ∀ s ∈ ss, s.score < THRESHOLD_INFO)
    (hq : 30 ≤ q) : ¬ ∃ s ∈ ss, s.score = .fin q := by
  rintro ⟨s, hs, hscore⟩
  have hlt := hlow s hs
  rw [hscore] at hlt
  exact absurd (F32.fin_lt.mp hlt) (not_lt.mpr hq)

/-- With a low total in refinement, the checks have found nothing that may not be taught. -/
theorem settled_of_low {ss : List Signal}
    (hlow : since.baseline.phase = .refinement → ∀ s ∈ ss, s.score < THRESHOLD_INFO)
    (hcountry : CountryCovered tm since ss e) (hport : PortCovered tm since ss e) :
    Settled tm since e where
  country hphase code hcode :=
    (hcountry hphase code hcode).resolve_right (notMem_of_low (hlow hphase) (by norm_num))
  port hphase port htm hwell :=
    (hport hphase port htm hwell).resolve_right (notMem_of_low (hlow hphase) (by norm_num))

theorem concludeProgram_works {since : IdsEngine libs} {domain : Option Str}
    (htm : pkt.transport = some tm) (hf : Found tm since f)
    (hdomain : dnsQueryName pkt tm = .ok domain) :
    Works e₀ ⟨.packet pkt, since⟩ (fun r _ => Verdict tm since r)
      (concludeProgram tm f (since.geo tm.srcIp) domain)
      (fun e => (CountryCovered tm since f.signals e ∧ PortCovered tm since f.signals e) ∧
        AtWork since e) := by
  have hK := ((kept_countryCovered tm since f.signals).and
    (kept_portCovered tm since f.signals)).and (kept_atWork since)
  refine works_bind (works_lift hK) fun r hr => ?_
  have hverdict := hf.verdict hr
  have hlearning : Works e₀ ⟨.packet pkt, since⟩
      (fun learning e => (since.baseline.phase = .refinement → learning = false) ∧
        (CountryCovered tm since f.signals e ∧ PortCovered tm since f.signals e) ∧ AtWork since e)
      (Prog.read fun e => e.baseline.isLearning) _ :=
    works_read hK (fun _ => kept_const _)
      fun e he hphase => Baseline.isLearning_of_refinement (he.2.2 hphase)
  refine works_bind hlearning fun learning hlearning => ?_
  split
  · rename_i hupdate
    -- in refinement, the total is low, and so is every signal
    have hlow : since.baseline.phase = .refinement → ∀ s ∈ f.signals, s.score < THRESHOLD_INFO :=
      fun hphase => IdsResult.score_lt_of_totalScore_lt hf.scored hr (by norm_num)
        (hupdate.resolve_left (by rw [hlearning hphase]; decide))
    have hunlisted : since.baseline.phase = .refinement → ¬ ListedPacket pkt since := by
      rintro hphase ⟨tm', htm', hlisted⟩
      cases htm.symm.trans htm'
      exact notMem_of_low (hlow hphase) (by norm_num) (hf.listed hlisted).2
    have hobserve : Works e₀ _ _ _ _ := observeProgram_works htm hdomain hunlisted
    have hsettled := hobserve.narrow hK.stable fun e he => settled_of_low hlow he.1.1 he.1.2
    exact hsettled.bind fun _ e he => ⟨_, he.2, works_pure (kept_settled tm since)
      fun _ _ => hverdict⟩
  · exact works_pure hK fun _ _ => hverdict

/-! ## The judgment of a job -/

/-- What is known of the result of a job. -/
def Judged (job : Job Duty (IdsEngine libs)) (r : Option IdsResult) : Prop :=
  ∀ pkt tm, job.task = .packet pkt → pkt.transport = some tm →
    ∃ r', r = some r' ∧ Verdict tm job.since r'

theorem packetProgram_works (pkt : RawPacket) (since : IdsEngine libs) :
    Works e₀ ⟨.packet pkt, since⟩ (fun r _ => Judged ⟨.packet pkt, since⟩ r)
      (Duty.packet pkt).program (AtWork since) := by
  have hK := kept_atWork since
  cases htm : pkt.transport with
  | none =>
    have hanalyze : Works e₀ ⟨.packet pkt, since⟩ (fun _ e => True ∧ AtWork since e)
        (analyzeProgram pkt) (AtWork since) := by
      unfold analyzeProgram
      rw [htm]
      exact (works_lift hK).weaken fun _ _ h => ⟨trivial, h.2⟩
    refine works_bind hanalyze fun r _ => works_pure hK fun _ _ => ?_
    intro pkt' tm htask htm'
    cases htask
    rw [htm] at htm'
    cases htm'
  | some tm =>
    have hanalyze : Works e₀ ⟨.packet pkt, since⟩ (fun r _ => Verdict tm since r)
        (analyzeProgram pkt) (AtWork since) := by
      unfold analyzeProgram
      rw [htm]
      refine works_bind detectProgram_works fun f hf => ?_
      refine (compareProgram_works hf).bind fun r e hr => ?_
      obtain ⟨f', country, domain⟩ := r
      obtain ⟨⟨hfound, hcountry, hport, heq, hdomain⟩, hwork⟩ := hr
      obtain rfl : country = since.geo tm.srcIp := heq
      exact ⟨fun e => (CountryCovered tm since f'.signals e ∧ PortCovered tm since f'.signals e) ∧
        AtWork since e, ⟨⟨hcountry, hport⟩, hwork⟩, concludeProgram_works htm hfound hdomain⟩
    refine hanalyze.seq fun r _ hr => .ret (Prog.stable_const True) fun _ _ => ?_
    intro pkt' tm' htask htm'
    cases htask
    cases htm.symm.trans htm'
    exact ⟨r, rfl, hr⟩

theorem tickPhase_grows (now : Int) (e : IdsEngine libs) :
    Grows e { e with baseline := e.baseline.tickPhase now } ∧
      ∀ x, (e.baseline.tickPhase now).Knows x → e.baseline.Knows x := by
  unfold Baseline.tickPhase Baseline.finishLearning
  split
  · split
    · exact ⟨⟨rfl, rfl, fun _ => rfl, fun x hx => by cases x <;> exact hx⟩,
        fun x hx => by cases x <;> exact hx⟩
    · exact ⟨⟨rfl, rfl, id, fun _ => id⟩, fun _ => id⟩
  · exact ⟨⟨rfl, rfl, id, fun _ => id⟩, fun _ => id⟩

theorem sweepProgram_works (since : IdsEngine libs) :
    Works e₀ ⟨.sweep, since⟩ (fun _ _ => True) sweepProgram fun _ => True := by
  have hwrite : ∀ g : Instants → IdsEngine libs → IdsEngine libs,
      (∀ t e, Guarantee ⟨.sweep, since⟩ e (g t e)) →
      Works e₀ ⟨.sweep, since⟩ (fun _ _ => True) (Prog.write g) fun _ => True := by
    intro g hg
    refine .access (Prog.stable_const True) (fun _ => Prog.stable_const True) fun t e a e' _ h => ?_
    cases h
    exact ⟨hg t e, trivial⟩
  have hleaves : ∀ (g : Instants → IdsEngine libs → IdsEngine libs) (k : Unit → Program libs Unit),
      (∀ t e, Leaves e (g t e)) →
      (∀ u, Works e₀ ⟨.sweep, since⟩ (fun _ _ => True) (k u) fun _ => True) →
      Works e₀ ⟨.sweep, since⟩ (fun _ _ => True) (Prog.write g >>= k) fun _ => True :=
    fun g k hg hk => (hwrite g fun t e => (hg t e).guarantee).seq fun u _ _ => hk u
  have hnow : Works e₀ ⟨.sweep, since⟩ (fun _ _ => True)
      (Prog.access fun t e => .ok (t.portScan, e)) fun _ => True := by
    refine .access (Prog.stable_const True) (fun _ => Prog.stable_const True) fun t e a e' _ h => ?_
    cases h
    exact ⟨(Leaves.refl e).guarantee, trivial⟩
  refine hnow.seq fun now _ _ => ?_
  refine hleaves _ _ (fun _ _ => ⟨rfl, rfl, rfl⟩) fun _ => ?_
  refine hleaves _ _ (fun _ _ => ⟨rfl, rfl, rfl⟩) fun _ => ?_
  refine hleaves _ _ (fun _ _ => ⟨rfl, rfl, rfl⟩) fun _ => ?_
  refine hleaves _ _ (fun _ _ => ⟨rfl, rfl, rfl⟩) fun _ => ?_
  refine hleaves _ _ (fun _ _ => ⟨rfl, rfl, rfl⟩) fun _ => ?_
  refine hwrite _ fun t e => ?_
  obtain ⟨hgrows, hknows⟩ := tickPhase_grows t.system e
  exact ⟨hgrows, fun x hx => .inl (hknows x hx)⟩

theorem concurrently_judgment (e₀ : IdsEngine libs) :
    Pool.Judgment Duty.program (LoadedLike e₀) Grows Guarantee fun job r _ => Judged job r where
  keeps job e e' hloaded hg :=
    ⟨hg.toGrows, hg.blacklist.trans hloaded.1, hg.geo.trans hloaded.2⟩
  sat job _ := by
    obtain ⟨task, since⟩ := job
    cases task with
    | packet pkt => exact ⟨AtWork since, atWork_self since, packetProgram_works pkt since⟩
    | sweep =>
      refine ⟨fun _ => True, trivial, (sweepProgram_works since).seq fun _ _ _ => ?_⟩
      exact .ret (Prog.stable_const True) fun _ _ _ _ htask => nomatch htask
  stable _ _ := Prog.stable_const _

end IdsEngine

end Ocellus
