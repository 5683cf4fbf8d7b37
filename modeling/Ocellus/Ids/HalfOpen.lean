import Ocellus.Base.Since
import Ocellus.Ids.SynFloodSegment

/-!
# Half-open connections, from the history of a detector

A SYN opens its flow, and each further SYN on it starts its age anew. A segment
with ACK or RST ends the flow in both directions, and a sweep ends what has come
of age. `HalfOpen` says of a history which flows it leaves half-open; the table of
the detector holds exactly these (`lookup_eq_some_iff`), so that `half_open_high`
is a statement about the history (`halfOpen_characterised`).
-/

namespace Ocellus

/-- The flow in the other direction. -/
def reverseKey (k : FlowKey) : FlowKey := (k.2.1, k.1, k.2.2.2, k.2.2.1)

theorem Segment.revKey_eq_iff (p : Segment) (k : FlowKey) :
    p.revKey = k ↔ p.flowKey = reverseKey k := by
  obtain ⟨src, dst, sport, dport⟩ := k
  simp only [revKey, flowKey, reverseKey, Prod.mk.injEq]
  tauto

namespace SynFloodDetector

/-- What a detector has been called with, and what it answered. -/
abbrev Trace := List (Entry Segment (List Signal))

/-- A SYN without ACK on `k` opens it, at its time. -/
def opens (k : FlowKey) : Entry Segment (List Signal) → Option Nat
  | .inspect t p _ => if p.isSyn = true ∧ p.flowKey = k then some t else none
  | .sweep _ => none

/-- A segment on `k` or its reverse that has ACK or RST, and is not a SYN without
ACK. -/
def Closes (k : FlowKey) (p : Segment) : Prop :=
  (p.flowKey = k ∨ p.flowKey = reverseKey k) ∧
    (hasFlag p.flags TCP_ACK = true ∨ hasFlag p.flags TCP_RST = true) ∧ p.isSyn = false

instance (k : FlowKey) (p : Segment) : Decidable (Closes k p) :=
  inferInstanceAs (Decidable (_ ∧ _))

/-- What ends a connection on `k` whose last SYN came at time `t`. -/
def Ends (k : FlowKey) (t : Nat) : Entry Segment (List Signal) → Prop
  | .inspect _ p _ => Closes k p
  | .sweep t' => t + halfOpenTtl ≤ t'

/-- `k` is half-open after `tr`: nothing ended it after its last SYN. -/
def HalfOpen (tr : Trace) (k : FlowKey) : Prop := ∃ t, Since (opens k) (Ends k) tr t

/-! ## The table -/

theorem lookup_erase_erase (k k₁ k₂ : FlowKey) (h : Table FlowKey Nat) :
    ((h.erase k₁).erase k₂).lookup k = if k₂ = k ∨ k₁ = k then none else h.lookup k := by
  by_cases h₂ : k₂ = k
  · subst h₂
    rw [if_pos (.inl rfl)]
    exact AList.lookup_erase k₂ _
  · rw [AList.lookup_erase_ne (Ne.symm h₂)]
    by_cases h₁ : k₁ = k
    · subst h₁
      rw [if_pos (.inr rfl)]
      exact AList.lookup_erase k₁ _
    · rw [AList.lookup_erase_ne (Ne.symm h₁), if_neg (not_or.mpr ⟨h₂, h₁⟩)]

/-- The segments that are no SYN and complete or reset their flow. -/
theorem closing_iff {p : Segment} (hsyn : p.isSyn = false) :
    (p.isSynAck || p.isRst || p.isAck) = true ↔
      hasFlag p.flags TCP_ACK = true ∨ hasFlag p.flags TCP_RST = true := by
  rw [Segment.isSyn] at hsyn
  rw [Segment.isSynAck, Segment.isRst, Segment.isAck, Segment.isSyn]
  revert hsyn
  cases hasFlag p.flags TCP_SYN <;> cases hasFlag p.flags TCP_ACK <;>
    cases hasFlag p.flags TCP_RST <;> decide

/-- One segment, seen from one flow. -/
theorem lookup_trackHalfOpen (now : Nat) (p : Segment) (h : Table FlowKey Nat) (k : FlowKey) :
    (trackHalfOpen now p h).lookup k =
      if p.isSyn = true ∧ p.flowKey = k then some now
      else if Closes k p then none else h.lookup k := by
  rw [trackHalfOpen]
  cases hsyn : p.isSyn with
  | true =>
    have hopen : ¬ Closes k p := fun hc => Bool.noConfusion (hsyn.symm.trans hc.2.2)
    rw [if_pos rfl, Table.lookup_insert_eq, if_neg hopen]
    simp only [true_and, eq_comm]
  | false =>
    have hopen : ¬ (false = true ∧ p.flowKey = k) := fun hs => Bool.false_ne_true hs.1
    rw [if_neg Bool.false_ne_true, if_neg hopen]
    by_cases hflags : (p.isSynAck || p.isRst || p.isAck) = true
    · have hclose : (p.flowKey = k ∨ p.revKey = k) ↔ Closes k p := by
        rw [Closes, p.revKey_eq_iff]
        exact ⟨fun hk => ⟨hk, (closing_iff hsyn).mp hflags, hsyn⟩, fun hc => hc.1⟩
      rw [if_pos hflags, lookup_erase_erase]
      exact if_congr hclose rfl rfl
    · have hopen : ¬ Closes k p := fun hc => hflags ((closing_iff hsyn).mpr hc.2.1)
      rw [if_neg hflags, if_neg hopen]

/-- One sweep, seen from one flow. -/
theorem lookup_sweep_eq_some {fp : Rounding} (now : Nat) (d : SynFloodDetector fp) (k : FlowKey) (t : Nat) :
    (d.sweep now).halfOpen.lookup k = some t ↔
      d.halfOpen.lookup k = some t ∧ ¬ (t ≤ now ∧ t + halfOpenTtl ≤ now) := by
  show (Table.retain _ d.halfOpen).lookup k = some t ↔ _
  rw [Table.lookup_retain, Option.bind_eq_some_iff]
  have hpos : 0 < halfOpenTtl := by decide
  constructor
  · rintro ⟨created, hlookup, hkept⟩
    split at hkept
    · rename_i hyoung
      obtain rfl := Option.some.inj hkept
      rw [durationSince] at hyoung
      exact ⟨hlookup, by omega⟩
    · cases hkept
  · rintro ⟨hlookup, hyoung⟩
    refine ⟨t, hlookup, if_pos ?_⟩
    show now - t < halfOpenTtl
    omega

/-! ## Runs -/

variable {fp : Rounding} {tr : Trace} {c : Nat} {d : SynFloodDetector fp}

/-- **What the table holds**: the flows that the history leaves half-open, each
with the time of its last SYN. -/
theorem lookup_eq_some_iff (h : component.Run new tr c d) (k : FlowKey) (t : Nat) :
    d.halfOpen.lookup k = some t ↔ Since (opens k) (Ends k) tr t := by
  induction h with
  | nil => exact iff_of_false nofun (not_since_nil t)
  | @inspect tr c now d d' p o _ _ hcall ih =>
    have hstate : d'.halfOpen = trackHalfOpen now p d.halfOpen :=
      congrArg (fun r => r.2.halfOpen) (inspect_eq_ok hcall)
    rw [hstate, lookup_trackHalfOpen, since_concat, ← ih]
    -- the call opens `k`, closes it, or leaves it alone
    by_cases hopen : p.isSyn = true ∧ p.flowKey = k
    · rw [if_pos hopen, show opens k (.inspect now p o) = some now from if_pos hopen]
      simp
    · rw [if_neg hopen, show opens k (.inspect now p o) = none from if_neg hopen]
      show (if Closes k p then none else d.halfOpen.lookup k) = some t ↔
        none = some t ∨ none = none ∧ d.halfOpen.lookup k = some t ∧ ¬ Closes k p
      by_cases hclose : Closes k p
      · simp [hclose]
      · simp [hclose]
  | @sweep tr c now d _ _ ih =>
    show (d.sweep now).halfOpen.lookup k = some t ↔ _
    rw [lookup_sweep_eq_some, since_concat, ih]
    show _ ↔ none = some t ∨ none = none ∧ Since (opens k) (Ends k) tr t ∧ ¬ t + halfOpenTtl ≤ now
    have hage : t ≤ now ∧ t + halfOpenTtl ≤ now ↔ t + halfOpenTtl ≤ now := by omega
    rw [hage]
    simp

theorem lookup_isSome_iff (h : component.Run new tr c d) (k : FlowKey) :
    (d.halfOpen.lookup k).isSome = true ↔ HalfOpen tr k := by
  rw [Option.isSome_iff_exists, HalfOpen]
  exact exists_congr fun t => lookup_eq_some_iff h k t

/-- As many entries as half-open flows. -/
theorem len_halfOpen (h : component.Run new tr c d) :
    (Table.len d.halfOpen : ℕ∞) = {k | HalfOpen tr k}.encard := by
  rw [← Table.encard_lookup_isSome]
  exact congrArg Set.encard (Set.ext fun k => lookup_isSome_iff h k)

/-- The other signals have other names. -/
theorem halfOpenHigh_ne_of_mem_ite {P : Prop} [Decidable P] {s s' : Signal}
    (hs : s ∈ if P then [s'] else []) (hname : s'.name ≠ .halfOpenHigh) :
    s.name ≠ .halfOpenHigh := by
  split at hs
  · rw [List.mem_singleton.mp hs]
    exact hname
  · cases hs

/-- A call reports `half_open_high` by the size of the table it leaves. -/
theorem exists_halfOpenHigh_iff (now : Nat) (p : Segment) (d : SynFloodDetector fp) :
    (∃ s ∈ segmentSignals now p d, s.name = .halfOpenHigh) ↔
      halfOpenThreshold ≤ Table.len (trackHalfOpen now p d.halfOpen) := by
  constructor
  · rintro ⟨s, hs, hname⟩
    by_contra hfew
    rw [segmentSignals, otherSignals, if_neg hfew, List.nil_append] at hs
    rcases List.mem_append.mp hs with hs | hs
    · exact halfOpenHigh_ne_of_mem_ite hs SignalName.noConfusion hname
    · rcases List.mem_append.mp hs with hs | hs
      · exact halfOpenHigh_ne_of_mem_ite hs SignalName.noConfusion hname
      · exact halfOpenHigh_ne_of_mem_ite hs SignalName.noConfusion hname
  · intro hmany
    refine ⟨halfOpenSignal (Table.len (trackHalfOpen now p d.halfOpen)), ?_, rfl⟩
    rw [segmentSignals, otherSignals, if_pos hmany]
    simp

/-- **The half-open table, from the history**: after any run from an empty
detector, `k` is in the table if and only if its history leaves it half-open, and
a call reports `half_open_high` exactly when at least 200 flows are half-open once
its own segment has been counted. -/
theorem halfOpen_characterised (h : component.Run new tr c d) :
    (∀ k, k ∈ d.halfOpen ↔ HalfOpen tr k) ∧
      ∀ pre t p o post, tr = pre ++ .inspect t p o :: post →
        ((∃ s ∈ o, s.name = .halfOpenHigh) ↔
          200 ≤ {k | HalfOpen (pre ++ [.inspect t p o]) k}.encard) := by
  constructor
  · intro k
    rw [← AList.lookup_isSome]
    exact lookup_isSome_iff h k
  · intro pre t p o post htr
    obtain ⟨c', d', hupto⟩ := h.upto htr
    obtain ⟨-, d₀, -, -, hcall⟩ := hupto.inspect_inv
    have hstate : d'.halfOpen = trackHalfOpen t p d₀.halfOpen :=
      congrArg (fun r => r.2.halfOpen) (inspect_eq_ok hcall)
    have hsignals : o = segmentSignals t p d₀ := congrArg Prod.fst (inspect_eq_ok hcall)
    rw [hsignals, exists_halfOpenHigh_iff, ← hsignals, ← hstate, ← len_halfOpen hupto]
    show 200 ≤ _ ↔ _
    exact Nat.cast_le.symm

/-- A SYN from 10.0.0.1:1234 to 10.0.0.2:80. -/
def synSegment : Segment :=
  ⟨.v4 0x0A000001#32, .v4 0x0A000002#32, 1234#16, 80#16, TCP_SYN⟩

/-- A SYN, and a sweep 29 seconds later. -/
theorem halfOpen_characterised_synSegment :
    let d : SynFloodDetector .ieee := new
    let o := segmentSignals (secs 1) synSegment d
    (∀ k, k ∈ (sweep (secs 30) (segmentState (secs 1) synSegment d)).halfOpen ↔
      HalfOpen [.inspect (secs 1) synSegment o, .sweep (secs 30)] k) ∧
    ∀ pre t p o' post, [.inspect (secs 1) synSegment o, .sweep (secs 30)]
          = pre ++ .inspect t p o' :: post →
        ((∃ s ∈ o', s.name = .halfOpenHigh) ↔
          200 ≤ {k | HalfOpen (pre ++ [.inspect t p o']) k}.encard) := by
  intro d o
  obtain ⟨r, hcall, rfl⟩ := bounded_new.inspect_returns (by decide) (secs 1) synSegment
  have hrun : component.Run d [.inspect (secs 1) synSegment o] (secs 1)
      (segmentState (secs 1) synSegment d) := .inspect .nil (Nat.zero_le _) hcall
  exact halfOpen_characterised (hrun.sweep (by decide))

end SynFloodDetector

end Ocellus
