import Ocellus.Ids.HalfOpen

/-!
# When a RST is reported

A RST is meant to be suspicious when no half-open entry matches it. `inspect`
looks for the entry after it has updated the table for the segment itself: a RST
has then just removed its flow in both directions, and a SYN with RST has just
inserted it. So the report does not depend on the table: a RST is reported
unless it is also a SYN without ACK (`exists_rstInjection_iff`).
`rstJudged_iff` says of which runs the report is right nevertheless.
-/

namespace Ocellus

namespace SynFloodDetector

variable {fp : Rounding} {now : Nat} {p : Segment} {d : SynFloodDetector fp}

/-- The answer reports a RST with no tracked SYN. -/
def ReportsRst (o : List Signal) : Prop := ∃ s ∈ o, s.name = .rstInjection

/-- A flow is tracked if its key or the reverse key has an entry. -/
def Tracked (p : Segment) (d : SynFloodDetector fp) : Prop :=
  p.flowKey ∈ d.halfOpen ∨ p.revKey ∈ d.halfOpen

theorem reverse_revKey (p : Segment) : reverseKey p.revKey = p.flowKey := rfl

/-- A RST that is no SYN leaves no entry in either direction. -/
theorem lookup_of_rst (hrst : p.isRst = true) (hsyn : p.isSyn = false) (h : Table FlowKey Nat)
    {k : FlowKey} (hk : p.flowKey = k ∨ p.flowKey = reverseKey k) :
    (trackHalfOpen now p h).lookup k = none := by
  have hopen : ¬ (p.isSyn = true ∧ p.flowKey = k) := by simp [hsyn]
  rw [lookup_trackHalfOpen, if_neg hopen, if_pos ⟨hk, .inr hrst, hsyn⟩]

/-- A SYN leaves an entry. -/
theorem lookup_of_syn (hsyn : p.isSyn = true) (h : Table FlowKey Nat) :
    (trackHalfOpen now p h).lookup p.flowKey = some now := by
  rw [lookup_trackHalfOpen, if_pos ⟨hsyn, rfl⟩]

/-- The update that precedes the test decides it. -/
theorem rst_test_eq (now : Nat) (hrst : p.isRst = true) (h : Table FlowKey Nat) :
    (p.isRst && ((trackHalfOpen now p h).lookup p.flowKey).isNone
      && ((trackHalfOpen now p h).lookup p.revKey).isNone) = !p.isSyn := by
  cases hsyn : p.isSyn with
  | true =>
    rw [lookup_of_syn hsyn]
    simp
  | false =>
    rw [lookup_of_rst hrst hsyn h (.inl rfl),
      lookup_of_rst hrst hsyn h (.inr (reverse_revKey p).symm), hrst]
    rfl

theorem reportsRst_ite {P : Prop} [Decidable P] {s : Signal} :
    ReportsRst (if P then [s] else []) ↔ P ∧ s.name = .rstInjection := by
  by_cases hP : P <;> simp [ReportsRst, hP]

theorem reportsRst_append {o o' : List Signal} :
    ReportsRst (o ++ o') ↔ ReportsRst o ∨ ReportsRst o' := by
  simp only [ReportsRst, List.mem_append, or_and_right, exists_or]

/-- **What a RST is reported for**: for not being a SYN. -/
theorem reportsRst_iff (hrst : p.isRst = true) :
    ReportsRst (segmentSignals now p d) ↔ p.isSyn = false := by
  unfold segmentSignals otherSignals
  rw [rst_test_eq _ hrst]
  simp only [reportsRst_append, reportsRst_ite]
  -- only the RST signal has the name
  simp [synFloodSignal, halfOpenSignal, rstSignal, xmasSignal]

/-! ## Runs -/

/-- In every call for a RST, it is reported if and only if its flow was not
tracked before the call, in either direction. -/
def RstJudged (fp : Rounding) (tr : Trace) : Prop :=
  ∀ (pre post : Trace) (t : Nat) (p : Segment) (o : List Signal) (c : Nat)
    (d : SynFloodDetector fp),
    tr = pre ++ .inspect t p o :: post → component.Run new pre c d → p.isRst = true →
    (ReportsRst o ↔ p.flowKey ∉ d.halfOpen ∧ p.revKey ∉ d.halfOpen)

/-- In every call for a RST, it is also a SYN without ACK if and only if its flow
was tracked before the call. -/
def RstAligned (fp : Rounding) (tr : Trace) : Prop :=
  ∀ (pre post : Trace) (t : Nat) (p : Segment) (o : List Signal) (c : Nat)
    (d : SynFloodDetector fp),
    tr = pre ++ .inspect t p o :: post → component.Run new pre c d → p.isRst = true →
    (p.isSyn = true ↔ Tracked p d)

variable {tr : Trace} {c : Nat}

/-- **RST judgement, exactly**: a run judges its RSTs right if and only if those
on tracked flows are the ones that are SYNs too. -/
theorem rstJudged_iff (h : component.Run new tr c d) : RstJudged fp tr ↔ RstAligned fp tr := by
  have hreport : ∀ {pre post : Trace} {t p o}, tr = pre ++ .inspect t p o :: post →
      p.isRst = true → (ReportsRst o ↔ p.isSyn = false) := by
    intro pre post t p o htr hrst
    obtain ⟨c', d', hupto⟩ := h.upto htr
    obtain ⟨-, d₀, -, -, hcall⟩ := hupto.inspect_inv
    have hsignals : o = segmentSignals t p d₀ := congrArg Prod.fst (inspect_eq_ok hcall)
    rw [hsignals, reportsRst_iff hrst]
  constructor
  · intro hjudged pre post t p o c d htr hpre hrst
    have hcall := hjudged pre post t p o c d htr hpre hrst
    rw [hreport htr hrst, ← not_or, ← Bool.not_eq_true, not_iff_not] at hcall
    exact hcall
  · intro haligned pre post t p o c d htr hpre hrst
    rw [hreport htr hrst, ← not_or, ← Bool.not_eq_true, not_iff_not]
    exact haligned pre post t p o c d htr hpre hrst

/-- The refusal of `synSegment` by its destination. -/
def refusal : Segment :=
  ⟨.v4 0x0A000002#32, .v4 0x0A000001#32, 80#16, 1234#16, TCP_RST⟩

/-- A SYN, and a second later the RST that answers it; its flow is tracked by then. -/
theorem exists_refusal_run (fp : Rounding) :
    ∃ o₁ o₂ c d, ∃ d₁ : SynFloodDetector fp, component.Run new [.inspect 0 synSegment o₁] 0 d₁ ∧
      component.Run (new : SynFloodDetector fp)
        [.inspect 0 synSegment o₁, .inspect (secs 1) refusal o₂] c d ∧
      refusal.revKey ∈ d₁.halfOpen ∧ ReportsRst o₂ := by
  obtain ⟨r, hsyn, rfl⟩ := bounded_new.inspect_returns (by decide) 0 synSegment
  have hrun₁ : component.Run (new : SynFloodDetector fp)
      [.inspect 0 synSegment (segmentSignals 0 synSegment (new : SynFloodDetector fp))] 0
      (segmentState 0 synSegment new) := .inspect .nil (Nat.le_refl 0) hsyn
  obtain ⟨r, hrst, rfl⟩ := (bounded_new.segmentState 0 synSegment).inspect_returns (by decide)
    (secs 1) refusal
  have hrun₂ := hrun₁.inspect (t := secs 1) (by decide) hrst
  refine ⟨_, _, _, _, _, hrun₁, hrun₂, ?_, (reportsRst_iff rfl).mpr rfl⟩
  rw [← AList.lookup_isSome]
  show ((trackHalfOpen 0 synSegment ∅).lookup synSegment.flowKey).isSome = true
  rw [lookup_of_syn rfl]
  rfl

/-- A RST on a tracked flow. -/
theorem rstJudged_iff_refusal :
    ∃ o₁ o₂ c d, ∃ d₁ : SynFloodDetector .ieee,
      component.Run new [.inspect 0 synSegment o₁] 0 d₁ ∧ Tracked refusal d₁ ∧
      component.Run (new : SynFloodDetector .ieee)
        [.inspect 0 synSegment o₁, .inspect (secs 1) refusal o₂] c d ∧
      (RstJudged .ieee [.inspect 0 synSegment o₁, .inspect (secs 1) refusal o₂] ↔
        RstAligned .ieee [.inspect 0 synSegment o₁, .inspect (secs 1) refusal o₂]) := by
  obtain ⟨o₁, o₂, c, d, d₁, hrun₁, hrun₂, htracked, -⟩ := exists_refusal_run .ieee
  exact ⟨o₁, o₂, c, d, d₁, hrun₁, .inr htracked, hrun₂, rstJudged_iff hrun₂⟩

/-- **A refused connection is reported as an injection**: a SYN, and a second
later the RST that answers it. -/
theorem refusal_reported :
    ∃ o₁ o₂ c d, ∃ d₁ : SynFloodDetector .ieee,
      component.Run new [.inspect 0 synSegment o₁] 0 d₁ ∧
      component.Run (new : SynFloodDetector .ieee)
        [.inspect 0 synSegment o₁, .inspect (secs 1) refusal o₂] c d ∧
      refusal.isRst = true ∧ refusal.revKey ∈ d₁.halfOpen ∧ ReportsRst o₂ ∧
      ¬ RstJudged .ieee [.inspect 0 synSegment o₁, .inspect (secs 1) refusal o₂] := by
  obtain ⟨o₁, o₂, c, d, d₁, hrun₁, hrun₂, htracked, hreported⟩ := exists_refusal_run .ieee
  refine ⟨o₁, o₂, c, d, d₁, hrun₁, hrun₂, rfl, htracked, hreported, fun hjudged => ?_⟩
  exact ((hjudged _ [] _ _ _ _ _ rfl hrun₁ rfl).mp hreported).2 htracked

end SynFloodDetector

end Ocellus
