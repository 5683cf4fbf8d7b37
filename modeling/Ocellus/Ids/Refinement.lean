import Ocellus.Ids.EngineCall

/-!
# What a baseline in refinement can learn

In refinement the baseline is updated from packets whose result is below the Info
threshold, and the score of a packet counts what the baseline does not know about
it. An unknown country is 35 points and an unknown well-known port 30, either of
which keeps the packet at or above the threshold of 30: neither is ever learned.
A run is any sequence of calls, between which the detectors may change in any way.
-/

namespace Ocellus

namespace IdsEngine

variable {libs : Libs} {geo : IpAddr → Option Str} {t : Instants} {pkt : RawPacket}
  {tm : TransportMeta} {e e' : IdsEngine libs} {r : IdsResult}

/-- The elements that an observation of a packet is about. -/
def Bears (lower : Str → Str) (geo : IpAddr → Option Str) (tm : TransportMeta)
    (domain : Option Str) : Element → Prop
  | .port port => tm.dstPort = some port
  | .dstIp ip => tm.dstIp = ip
  | .country code => geo tm.srcIp = some code
  | .domain name => domain.map lower = some name
  | .protocol proto => tm.protocol = proto

/-- A packet carries an element: its destination address or port, its protocol, the
country of its source, or the name it queries. -/
def Carries (libs : Libs) (geo : IpAddr → Option Str) (pkt : RawPacket) (x : Element) : Prop :=
  ∃ tm domain, pkt.transport = some tm ∧ dnsQueryName pkt tm = .ok domain ∧
    Bears libs.lower geo tm domain x

/-! ## One observation -/

theorem observe_eq (tm : TransportMeta) (domain : Option Str) (e : IdsEngine libs) :
    (observe tm domain e).phase = e.baseline.phase ∧
    (observe tm domain e).state.commonPorts
      = tm.dstPort.toFinset ∪ e.baseline.state.commonPorts ∧
    (observe tm domain e).state.dstIps = {tm.dstIp} ∪ e.baseline.state.dstIps ∧
    (observe tm domain e).state.countries
      = (e.geo tm.srcIp).toFinset ∪ e.baseline.state.countries ∧
    (observe tm domain e).state.commonDnsDomains
      = (domain.map libs.lower).toFinset ∪ e.baseline.state.commonDnsDomains ∧
    ∀ proto, proto ∈ (observe tm domain e).state.protocolDist ↔
      tm.protocol = proto ∨ proto ∈ e.baseline.state.protocolDist := by
  unfold observe
  cases tm.dstPort <;> cases e.geo tm.srcIp <;> cases domain <;>
    simp [Baseline.observePort, Baseline.observeDstIp, Baseline.observeProtocol,
      Baseline.observeCountry, Baseline.observeDns, eq_comm]

/-- An observation adds what it is about, and nothing else. -/
theorem knows_observe (tm : TransportMeta) (domain : Option Str) (e : IdsEngine libs)
    (x : Element) :
    (observe tm domain e).Knows x ↔ Bears libs.lower e.geo tm domain x ∨ e.baseline.Knows x := by
  obtain ⟨-, hports, hips, hcountries, hdomains, hprotocols⟩ := observe_eq tm domain e
  cases x with
  | port port =>
    rw [Baseline.Knows, BaselineState.Knows, hports, Finset.mem_union, Option.mem_toFinset]
    rfl
  | dstIp ip =>
    rw [Baseline.Knows, BaselineState.Knows, hips, Finset.mem_union, Finset.mem_singleton, eq_comm]
    rfl
  | country code =>
    rw [Baseline.Knows, BaselineState.Knows, hcountries, Finset.mem_union, Option.mem_toFinset]
    rfl
  | domain name =>
    rw [Baseline.Knows, BaselineState.Knows, hdomains, Finset.mem_union, Option.mem_toFinset]
    rfl
  | protocol proto => exact hprotocols proto

/-! ## One call -/

/-- A result below the threshold was built from signals below it. -/
theorem Analyzed.signals_low (h : Analyzed t pkt tm e r e') (hlow : r.totalScore < THRESHOLD_INFO) :
    ∀ s ∈ geoSignals tm e ++ portSignals tm e, s.score < THRESHOLD_INFO := by
  obtain ⟨signals, flag, hresult, hscored, hgeo, hports⟩ := h.result
  intro s hs
  refine IdsResult.score_lt_of_totalScore_lt hscored hresult (by norm_num) hlow s ?_
  rcases List.mem_append.mp hs with hs | hs
  · exact hgeo hs
  · exact hports hs

/-- In refinement, a result below the threshold comes from a packet whose country
is known, if it has one. -/
theorem Analyzed.country_known (h : Analyzed t pkt tm e r e')
    (hphase : e.baseline.phase = .refinement) (hlow : r.totalScore < THRESHOLD_INFO) {code : Str}
    (hcode : e.geo tm.srcIp = some code) : e.baseline.Knows (.country code) := by
  by_contra hnew
  -- a new country would be 35 points
  have hsignal : (⟨.geoNewCountry, SCORE_GEO_ANOMALY, .country code tm.srcIp⟩ : Signal)
      ∈ geoSignals tm e := by
    rw [geoSignals, hcode]
    show _ ∈ if _ then _ else _
    rw [if_pos ⟨hphase, decide_eq_false hnew⟩]
    exact List.mem_singleton_self _
  have hlt := h.signals_low hlow _ (List.mem_append_left _ hsignal)
  exact absurd (F32.fin_lt.mp hlt) (by norm_num)

/-- And whose destination port is known, if it is a well-known one. -/
theorem Analyzed.port_known (h : Analyzed t pkt tm e r e')
    (hphase : e.baseline.phase = .refinement) (hlow : r.totalScore < THRESHOLD_INFO) {port : U16}
    (hport : tm.dstPort = some port) (hwell : port ∈ WELL_KNOWN_PORTS) :
    e.baseline.Knows (.port port) := by
  by_contra hnew
  -- a new well-known port would be 30 points
  have hsignal : (⟨.unusualPort, SCORE_UNUSUAL_PORT_NETWORK, .port port⟩ : Signal)
      ∈ portSignals tm e := by
    rw [portSignals, hport]
    show _ ∈ if _ then [(⟨.unusualPort, if _ then _ else _, _⟩ : Signal)] else _
    rw [if_pos ⟨hphase, decide_eq_false hnew⟩, if_pos hwell]
    exact List.mem_singleton_self _
  have hlt := h.signals_low hlow _ (List.mem_append_right _ hsignal)
  exact absurd (F32.fin_lt.mp hlt) (by norm_num)

/-- The elements that refinement never learns. -/
def Fixed : Element → Prop
  | .country _ => True
  | .port port => port ∈ WELL_KNOWN_PORTS
  | _ => False

/-- **One call in refinement**: the phase stays; what is known stays known; what
is new was carried by the packet, whose result is below the threshold; and it is
none of the fixed elements. -/
theorem analyze_refinement (hphase : e.baseline.phase = .refinement)
    (h : analyze t pkt e = .ok (r, e')) :
    e'.baseline.phase = .refinement ∧ ∀ x, e'.baseline.Knows x ↔ e.baseline.Knows x ∨
      (r.totalScore < THRESHOLD_INFO ∧ Carries libs e.geo pkt x ∧ ¬ Fixed x) := by
  rcases analyze_cases h with ⟨htm, rfl⟩ | ⟨tm, htm, hcall⟩
  · refine ⟨hphase, fun x => ⟨.inl, ?_⟩⟩
    rintro (hx | ⟨-, ⟨tm, domain, htm', -⟩, -⟩)
    · exact hx
    · rw [htm] at htm'
      cases htm'
  · obtain ⟨domain, hdomain, hbaseline⟩ := hcall.baseline
    have hlearning := Baseline.isLearning_of_refinement hphase
    have hcarries : ∀ x, Carries libs e.geo pkt x ↔ Bears libs.lower e.geo tm domain x := by
      intro x
      constructor
      · rintro ⟨tm', domain', htm', hdomain', hx⟩
        cases htm.symm.trans htm'
        cases hdomain.symm.trans hdomain'
        exact hx
      · exact fun hx => ⟨tm, domain, htm, hdomain, hx⟩
    by_cases hlow : r.totalScore < THRESHOLD_INFO
    · rw [if_pos (.inr hlow)] at hbaseline
      -- what is fixed scores 30 or more while it is unknown, so it was known
      have hfixed : ∀ x, Fixed x → Bears libs.lower e.geo tm domain x → e.baseline.Knows x := by
        intro x hx hbears
        cases x with
        | port port => exact hcall.port_known hphase hlow hbears hx
        | country code => exact hcall.country_known hphase hlow hbears
        | dstIp ip => exact hx.elim
        | domain name => exact hx.elim
        | protocol proto => exact hx.elim
      rw [hbaseline]
      refine ⟨(observe_eq tm domain e).1.trans hphase, fun x => ?_⟩
      rw [knows_observe, hcarries]
      constructor
      · rintro (hx | hx)
        · by_cases hfix : Fixed x
          · exact .inl (hfixed x hfix hx)
          · exact .inr ⟨hlow, hx, hfix⟩
        · exact .inl hx
      · rintro (hx | ⟨-, hx, -⟩)
        · exact .inr hx
        · exact .inl hx
    · rw [if_neg (by simp [hlearning, hlow])] at hbaseline
      rw [hbaseline]
      refine ⟨hphase, fun x => ⟨.inl, ?_⟩⟩
      rintro (hx | ⟨hlow', -⟩)
      · exact hx
      · exact absurd hlow' hlow

/-! ## Runs -/

/-- The baselines that calls lead to from `b₀`, one at a time, with the packets and
their results: the detectors may be in any state at each of them, and the country
lookup is `geo`. -/
inductive Run (libs : Libs) (geo : IpAddr → Option Str) (b₀ : Baseline) :
    List (RawPacket × IdsResult) → Baseline → Prop where
  | start : Run libs geo b₀ [] b₀
  | call {tr : List (RawPacket × IdsResult)} {e e' : IdsEngine libs} {t : Instants}
      {pkt : RawPacket} {r : IdsResult} :
      Run libs geo b₀ tr e.baseline → e.geo = geo → analyze t pkt e = .ok (r, e') →
      Run libs geo b₀ (tr ++ [(pkt, r)]) e'.baseline

variable {b₀ b : Baseline} {tr : List (RawPacket × IdsResult)}

theorem Run.refinement (h : Run libs geo b₀ tr b) (hphase : b₀.phase = .refinement) :
    b.phase = .refinement ∧ ∀ x, b.Knows x ↔ b₀.Knows x ∨ ∃ p ∈ tr,
      p.2.totalScore < THRESHOLD_INFO ∧ Carries libs geo p.1 x ∧ ¬ Fixed x := by
  induction h with
  | start => exact ⟨hphase, fun x => by simp⟩
  | call _ hgeo hcall ih =>
    obtain ⟨hphase', hknows⟩ := ih
    obtain ⟨hphase'', hstep⟩ := analyze_refinement hphase' hcall
    refine ⟨hphase'', fun x => ?_⟩
    rw [hstep, hknows, hgeo, or_assoc]
    simp only [List.mem_append, List.mem_singleton, or_and_right, exists_or, exists_eq_left]

/-- **Refinement cannot be poisoned**: from a baseline in refinement, whatever a
run of calls adds was carried by a packet whose result is below 30, and neither
the known countries nor the known ports among the well-known ones ever change. -/
theorem refinement_not_poisoned (h : Run libs geo b₀ tr b) (hphase : b₀.phase = .refinement) :
    (∀ x, b.Knows x → b₀.Knows x ∨
      ∃ p ∈ tr, p.2.totalScore < .fin 30 ∧ Carries libs geo p.1 x) ∧
    b.state.countries = b₀.state.countries ∧
    ∀ port ∈ WELL_KNOWN_PORTS, port ∈ b.state.commonPorts ↔ port ∈ b₀.state.commonPorts := by
  obtain ⟨-, hknows⟩ := h.refinement hphase
  have hfixed : ∀ x, Fixed x → (b.Knows x ↔ b₀.Knows x) := by
    intro x hx
    rw [hknows]
    constructor
    · rintro (h₀ | ⟨p, -, -, -, hfix⟩)
      · exact h₀
      · exact absurd hx hfix
    · exact .inl
  refine ⟨fun x hx => ?_, ?_, ?_⟩
  · rcases (hknows x).mp hx with h₀ | ⟨p, hp, hlow, hcarries, -⟩
    · exact .inl h₀
    · exact .inr ⟨p, hp, hlow, hcarries⟩
  · exact Finset.ext fun code => hfixed (.country code) trivial
  · exact fun port hport => hfixed (.port port) hport

/-- A baseline that has learned the port 443. -/
def webBaseline : Baseline :=
  .new (some { BaselineState.empty with commonPorts := {443#16}, learnedAt := 1 }) 0

/-- It learns the destination of a clean packet to this port, and the protocol. -/
theorem refinement_not_poisoned_zeros :
    ∃ r b, Run .plain (fun _ => none) webBaseline [(zerosPacket, r)] b ∧
      b.Knows (.dstIp (.v4 2#32)) ∧ b.Knows (.protocol 17#8) ∧
      ¬ webBaseline.Knows (.dstIp (.v4 2#32)) ∧ ¬ webBaseline.Knows (.protocol 17#8) ∧
      (∀ x, b.Knows x → webBaseline.Knows x ∨ ∃ p ∈ [(zerosPacket, r)],
        p.2.totalScore < .fin 30 ∧ Carries .plain (fun _ => none) p.1 x) ∧
      b.state.countries = ∅ ∧
      ∀ port ∈ WELL_KNOWN_PORTS, port ∈ b.state.commonPorts ↔ port ∈ ({443#16} : Finset U16) := by
  have hcall : (analyze ⟨0, 0, 0, 0⟩ zerosPacket
      (new webBaseline (fun _ => none) .new : IdsEngine .plain)).Returns fun p =>
      .v4 2#32 ∈ p.2.baseline.state.dstIps ∧
        (p.2.baseline.state.protocolDist.lookup 17#8).isSome = true := by
    decide +kernel
  obtain ⟨⟨r, e'⟩, hcall, hip, hproto⟩ := hcall
  have hrun : Run .plain (fun _ => none) webBaseline [(zerosPacket, r)] e'.baseline :=
    Run.call .start rfl hcall
  exact ⟨r, e'.baseline, hrun, hip, AList.lookup_isSome.mp hproto, Finset.notMem_empty _,
    AList.notMem_empty _, refinement_not_poisoned hrun rfl⟩

end IdsEngine

end Ocellus
