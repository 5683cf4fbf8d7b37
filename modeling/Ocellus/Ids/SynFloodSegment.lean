import Ocellus.Ids.Sweeper

/-!
# One segment in the SYN-flood detector

Everything a call of `inspect` does, as functions of the detector before it: the
counters of the segment's source once it has been counted (`counted`), the
signals, and the new state. A call that returns does exactly this
(`inspect_eq_ok`), and it returns as long as its counters fit
(`inspect_returns`); after `n` calls no counter exceeds `n` (`Bounded`).
-/

namespace Ocellus

namespace SynFloodDetector

variable {fp : Rounding} {now n : Nat} {p : Segment} {d d' : SynFloodDetector fp}

/-- The counters of the segment's source in their current window. -/
def current (now : Nat) (p : Segment) (d : SynFloodDetector fp) : PerIpCounters :=
  ((d.counters.lookup p.srcIp).getD (PerIpCounters.new now)).maybeReset now

/-- The same counters once the segment has been counted. -/
def counted (now : Nat) (p : Segment) (d : SynFloodDetector fp) : PerIpCounters :=
  { current now p d with
    syns := (current now p d).syns + p.isSyn.toNat
    acks := (current now p d).acks + (p.isAck || p.isSynAck).toNat }

/-- The signals of a call. -/
def segmentSignals (now : Nat) (p : Segment) (d : SynFloodDetector fp) : List Signal :=
  (if flooding fp (counted now p d) then [synFloodSignal fp p.srcIp (counted now p d)] else [])
    ++ otherSignals p (trackHalfOpen now p d.halfOpen)

/-- The state after a call. -/
def segmentState (now : Nat) (p : Segment) (d : SynFloodDetector fp) : SynFloodDetector fp :=
  ⟨d.counters.insert p.srcIp (counted now p d), trackHalfOpen now p d.halfOpen⟩

theorem count_eq_ok {c c' : PerIpCounters} (h : count p c = .ok c') :
    c' = { c with
      syns := c.syns + p.isSyn.toNat
      acks := c.acks + (p.isAck || p.isSynAck).toNat } := by
  obtain ⟨syns, hsyns, h⟩ := Checked.bind_eq_ok.mp h
  obtain ⟨acks, hacks, h⟩ := Checked.bind_eq_ok.mp h
  have hsyns' : syns = c.syns + p.isSyn.toNat := by
    rw [Checked.addIf_eq_ok hsyns]
    cases p.isSyn <;> rfl
  have hacks' : acks = c.acks + (p.isAck || p.isSynAck).toNat := by
    rw [Checked.addIf_eq_ok hacks]
    cases p.isAck || p.isSynAck <;> rfl
  rw [← Except.ok.inj h, hsyns', hacks']

/-- A call is its count, and the rest. -/
theorem inspect_eq_count (now : Nat) (p : Segment) (d : SynFloodDetector fp) :
    inspect now p d = do
      let c ← count p (current now p d)
      return ((if flooding fp c then [synFloodSignal fp p.srcIp c] else [])
          ++ otherSignals p (trackHalfOpen now p d.halfOpen),
        ⟨d.counters.insert p.srcIp c, trackHalfOpen now p d.halfOpen⟩) := by
  rw [inspect_eq]
  simp only [trackRatio, current, bind_assoc, pure_bind]

/-- A call that returns does what it should. -/
theorem inspect_eq_ok {r : List Signal × SynFloodDetector fp} (h : inspect now p d = .ok r) :
    r = (segmentSignals now p d, segmentState now p d) := by
  rw [inspect_eq_count] at h
  obtain ⟨c, hc, h⟩ := Checked.bind_eq_ok.mp h
  obtain rfl : c = counted now p d := count_eq_ok hc
  exact (Except.ok.inj h).symm

/-! ## The counters of a run -/

/-- No counter exceeds `n`. -/
def Bounded (n : Nat) (d : SynFloodDetector fp) : Prop :=
  ∀ ip c, d.counters.lookup ip = some c → c.syns ≤ n ∧ c.acks ≤ n

theorem bounded_new : Bounded 0 (new : SynFloodDetector fp) := by
  intro ip c h
  cases h

theorem Bounded.mono {m : Nat} (h : Bounded n d) (hnm : n ≤ m) : Bounded m d := by
  intro ip c hc
  obtain ⟨hsyns, hacks⟩ := h ip c hc
  exact ⟨hsyns.trans hnm, hacks.trans hnm⟩

theorem Bounded.sweep (h : Bounded n d) (t : Nat) : Bounded n (sweep t d) := by
  intro ip c hc
  rw [SynFloodDetector.sweep, Table.lookup_retain] at hc
  obtain ⟨c', hc', hkept⟩ := Option.bind_eq_some_iff.mp hc
  split at hkept
  · obtain rfl := Option.some.inj hkept
    exact h ip c' hc'
  · cases hkept

/-- A reset only lowers the counters. -/
theorem Bounded.current (h : Bounded n d) (now : Nat) (p : Segment) :
    (current now p d).syns ≤ n ∧ (SynFloodDetector.current now p d).acks ≤ n := by
  have hstored : ((d.counters.lookup p.srcIp).getD (PerIpCounters.new now)).syns ≤ n ∧
      ((d.counters.lookup p.srcIp).getD (PerIpCounters.new now)).acks ≤ n := by
    cases hc : d.counters.lookup p.srcIp with
    | none => exact ⟨Nat.zero_le _, Nat.zero_le _⟩
    | some c => exact h p.srcIp c hc
  unfold SynFloodDetector.current PerIpCounters.maybeReset
  split
  · exact ⟨Nat.zero_le _, Nat.zero_le _⟩
  · exact hstored

/-- A call adds at most one to each. -/
theorem Bounded.segmentState (h : Bounded n d) (now : Nat) (p : Segment) :
    Bounded (n + 1) (segmentState now p d) := by
  obtain ⟨hsyns, hacks⟩ := h.current now p
  have hbit : ∀ b : Bool, b.toNat ≤ 1 := fun b => Bool.toNat_le b
  intro ip c hc
  rw [SynFloodDetector.segmentState, Table.lookup_insert_eq] at hc
  split at hc
  · obtain rfl := Option.some.inj hc
    exact ⟨Nat.add_le_add hsyns (hbit _), Nat.add_le_add hacks (hbit _)⟩
  · exact (h.mono (Nat.le_succ n)) ip c hc

/-- A call returns as long as the counters fit. -/
theorem Bounded.inspect_returns (h : Bounded n d) (hn : n + 1 < 2 ^ 64) (now : Nat) (p : Segment) :
    (inspect now p d).Returns fun r =>
      r = (segmentSignals now p d, SynFloodDetector.segmentState now p d) := by
  obtain ⟨hsyns, hacks⟩ := h.current now p
  have hcount : (count p (SynFloodDetector.current now p d)).Returns fun _ => True :=
    (Checked.addIf_returns p.isSyn (by omega)).bind fun _ _ =>
      (Checked.addIf_returns _ (by omega)).bind fun _ _ => .ok trivial
  obtain ⟨c, hc, -⟩ := hcount
  have hret := inspect_eq_count now p d
  rw [hc, Checked.ok_bind] at hret
  exact ⟨_, hret, inspect_eq_ok hret⟩

end SynFloodDetector

end Ocellus
