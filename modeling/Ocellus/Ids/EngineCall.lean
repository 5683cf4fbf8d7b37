import Ocellus.Ids.EngineSignals

/-!
# What one call of the engine does

`Analyzed` inverts a call of `analyze` that returned: which signals the result was
built from, and what became of the state. What other modules prove about calls
and runs of the engine comes from it, and not from the code of `analyze`.
-/

namespace Ocellus

namespace IdsEngine

variable {libs : Libs} {t : Instants} {pkt : RawPacket} {tm : TransportMeta}
  {e e' : IdsEngine libs} {r : IdsResult}

/-- A call on a packet with metadata that returned `r` and left `e'`. -/
structure Analyzed (t : Instants) (pkt : RawPacket) (tm : TransportMeta) (e : IdsEngine libs)
    (r : IdsResult) (e' : IdsEngine libs) : Prop where
  result : ∃ signals flag, IdsResult.fromSignals signals flag = .ok r ∧ Scored signals ∧
    geoSignals tm e ⊆ signals ∧ portSignals tm e ⊆ signals
  baseline : ∃ domain, dnsQueryName pkt tm = .ok domain ∧
    e'.baseline = if e.baseline.isLearning = true ∨ r.totalScore < THRESHOLD_INFO then
      observe tm domain e else e.baseline
  synFlood : ∃ signals, inspectSegment t tm e.synFlood = .ok (signals, e'.synFlood)

theorem analyzeTransport_inv (h : analyzeTransport t pkt tm e = .ok (r, e')) :
    Analyzed t pkt tm e r e' := by
  obtain ⟨c, flag, hresult, -, rfl⟩ := analyzeTransport_checks h
  have hgeo : geoSignals tm e ⊆ c.signals := by
    intro s hs
    simp only [Checks.signals, List.mem_append, hs, true_or, or_true]
  have hports : portSignals tm e ⊆ c.signals := by
    intro s hs
    simp only [Checks.signals, List.mem_append, hs, true_or, or_true]
  exact ⟨⟨c.signals, flag, hresult, c.scored, hgeo, hports⟩, ⟨c.domain, c.domain_eq, rfl⟩,
    ⟨c.tcp.1, c.tcp_eq⟩⟩

/-- Inversion of a call: a packet without metadata changes nothing, and `Analyzed`
says what becomes of any other. -/
theorem analyze_cases (h : analyze t pkt e = .ok (r, e')) :
    (pkt.transport = none ∧ e' = e) ∨ ∃ tm, pkt.transport = some tm ∧ Analyzed t pkt tm e r e' := by
  rw [analyze] at h
  cases htm : pkt.transport with
  | none =>
    rw [htm] at h
    obtain ⟨result, -, h⟩ := Checked.bind_eq_ok.mp h
    cases h
    exact .inl ⟨rfl, rfl⟩
  | some tm =>
    rw [htm] at h
    exact .inr ⟨tm, rfl, analyzeTransport_inv h⟩

end IdsEngine

end Ocellus
