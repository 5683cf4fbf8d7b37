import Ocellus.Base.Workers
import Ocellus.Ids.EngineCall
import Ocellus.Ids.HalfOpen

/-!
# Scoring a batch in parallel

`start_analysis` has four workers score the packets of a batch, in any order and
side by side. What the workers share of the half-open table are the calls of a
concurrent map: a SYN inserts its flow, a segment that ends a connection removes
its flow in either direction, and each of these is one atomic operation.

The flows that are half-open after the batch are those that scoring the packets
one by one would leave, for every schedule, exactly when no flow is both opened
and closed within the batch (`parallel_eq_sequential_iff`).
-/

namespace Ocellus

/-- An atomic operation on the half-open table. -/
inductive HalfOpenOp where
  | insert (k : FlowKey)
  | remove (k : FlowKey)
  deriving DecidableEq

/-- What an operation does; the time that an insertion stores is read from the
clock. -/
def HalfOpenOp.Exec : HalfOpenOp → Table FlowKey Nat → Table FlowKey Nat → Prop
  | .insert k, h, h' => ∃ now, h' = h.insert k now
  | .remove k, h, h' => h' = h.erase k

/-- The operations of one call of the detector. -/
def Segment.halfOpenOps (p : Segment) : List HalfOpenOp :=
  if p.isSyn then [.insert p.flowKey]
  else if p.isSynAck || p.isRst || p.isAck then [.remove p.revKey, .remove p.flowKey]
  else []

def RawPacket.segment (pkt : RawPacket) : Option Segment := pkt.transport.bind TransportMeta.segment

/-- The operations of scoring one packet. -/
def scoreOps (pkt : RawPacket) : List HalfOpenOp := (pkt.segment.map Segment.halfOpenOps).getD []

/-- Four workers score a batch. -/
def ScoresInParallel (batch : List RawPacket) (h h' : Table FlowKey Nat) : Prop :=
  Workers.Finishes 4 scoreOps HalfOpenOp.Exec batch h h'

/-- The packets of a batch are scored one by one, in capture order. -/
inductive ScoresInOrder {libs : Libs} : List RawPacket → IdsEngine libs → IdsEngine libs → Prop
    where
  | nil {e : IdsEngine libs} : ScoresInOrder [] e e
  | cons {pkt : RawPacket} {pkts : List RawPacket} {e e' e'' : IdsEngine libs} {t : Instants}
      {r : IdsResult} :
      IdsEngine.analyze t pkt e = .ok (r, e') → ScoresInOrder pkts e' e'' →
      ScoresInOrder (pkt :: pkts) e e''

/-- A packet that opens `k`: a SYN without ACK. -/
def Opens (k : FlowKey) (pkt : RawPacket) : Prop :=
  ∃ p, pkt.segment = some p ∧ p.isSyn = true ∧ p.flowKey = k

/-- A packet that closes `k`: one with ACK or RST, in either direction. -/
def Closes (k : FlowKey) (pkt : RawPacket) : Prop :=
  ∃ p, pkt.segment = some p ∧ SynFloodDetector.Closes k p

/-! ## The operations of a packet -/

theorem Segment.insert_mem_halfOpenOps (p : Segment) (k : FlowKey) :
    .insert k ∈ p.halfOpenOps ↔ p.isSyn = true ∧ p.flowKey = k := by
  rw [halfOpenOps]
  cases p.isSyn with
  | true => simp [eq_comm]
  | false =>
    rw [if_neg Bool.false_ne_true]
    split <;> simp

theorem Segment.remove_mem_halfOpenOps (p : Segment) (k : FlowKey) :
    .remove k ∈ p.halfOpenOps ↔ SynFloodDetector.Closes k p := by
  rw [halfOpenOps, SynFloodDetector.Closes, ← p.revKey_eq_iff]
  cases hsyn : p.isSyn with
  | true => simp
  | false =>
    rw [if_neg Bool.false_ne_true, ← SynFloodDetector.closing_iff hsyn]
    cases (p.isSynAck || p.isRst || p.isAck) with
    | true => simp [eq_comm, or_comm]
    | false => simp

theorem insert_mem_scoreOps (pkt : RawPacket) (k : FlowKey) :
    .insert k ∈ scoreOps pkt ↔ Opens k pkt := by
  rw [scoreOps, Opens]
  cases pkt.segment with
  | none => simp
  | some p => simpa using p.insert_mem_halfOpenOps k

theorem remove_mem_scoreOps (pkt : RawPacket) (k : FlowKey) :
    .remove k ∈ scoreOps pkt ↔ Closes k pkt := by
  rw [scoreOps, Closes]
  cases pkt.segment with
  | none => simp
  | some p => simpa using p.remove_mem_halfOpenOps k

/-- No packet opens a flow and closes it. -/
theorem Opens.not_closes {k k' : FlowKey} {pkt : RawPacket} (h : Opens k pkt) : ¬ Closes k' pkt := by
  rintro ⟨p', hp', -, -, hsyn'⟩
  obtain ⟨p, hp, hsyn, -⟩ := h
  cases hp.symm.trans hp'
  exact Bool.noConfusion (hsyn.symm.trans hsyn')

/-- A call of the detector carries out its operations on the table. -/
theorem execs_trackHalfOpen (now : Nat) (p : Segment) (h : Table FlowKey Nat) :
    Execs HalfOpenOp.Exec p.halfOpenOps h (SynFloodDetector.trackHalfOpen now p h) := by
  rw [Segment.halfOpenOps, SynFloodDetector.trackHalfOpen]
  split
  · exact .cons ⟨now, rfl⟩ .nil
  · split
    · exact .cons rfl (.cons rfl .nil)
    · exact .nil

/-- And so does scoring a packet. -/
theorem execs_analyze {libs : Libs} {t : Instants} {pkt : RawPacket} {e e' : IdsEngine libs}
    {r : IdsResult} (h : IdsEngine.analyze t pkt e = .ok (r, e')) :
    Execs HalfOpenOp.Exec (scoreOps pkt) e.synFlood.halfOpen e'.synFlood.halfOpen := by
  rcases IdsEngine.analyze_cases h with ⟨htm, rfl⟩ | ⟨tm, htm, hcall⟩
  · rw [scoreOps, RawPacket.segment, htm]
    exact .nil
  · obtain ⟨signals, hsegment⟩ := hcall.synFlood
    rw [IdsEngine.inspectSegment_eq] at hsegment
    rw [scoreOps, RawPacket.segment, htm, Option.bind_some]
    cases hp : tm.segment with
    | none =>
      rw [hp] at hsegment
      have hstate : e.synFlood = e'.synFlood := congrArg Prod.snd (Except.ok.inj hsegment)
      rw [hstate]
      exact .nil
    | some p =>
      rw [hp] at hsegment
      have hstate : e'.synFlood.halfOpen
          = SynFloodDetector.trackHalfOpen t.synFlood p e.synFlood.halfOpen :=
        congrArg (fun r => r.2.halfOpen) (SynFloodDetector.inspect_eq_ok hsegment)
      rw [hstate]
      exact execs_trackHalfOpen t.synFlood p e.synFlood.halfOpen

theorem ScoresInOrder.execs {libs : Libs} {batch : List RawPacket} {e e' : IdsEngine libs}
    (h : ScoresInOrder batch e e') :
    Execs HalfOpenOp.Exec (batch.flatMap scoreOps) e.synFlood.halfOpen e'.synFlood.halfOpen := by
  induction h with
  | nil => exact .nil
  | cons hcall _ ih => exact (execs_analyze hcall).append ih

/-! ## What a sequence of operations leaves -/

variable {ops : List HalfOpenOp} {h h' : Table FlowKey Nat} {k : FlowKey}

theorem mem_of_execs_insert (hexecs : Execs HalfOpenOp.Exec ops h h') (hkeep : .remove k ∉ ops) :
    k ∈ h' ↔ .insert k ∈ ops ∨ k ∈ h := by
  induction hexecs with
  | nil => simp
  | @cons o os h₀ h₁ h₂ hexec _ ih =>
    rw [ih fun hmem => hkeep (List.mem_cons_of_mem o hmem), List.mem_cons]
    cases o with
    | insert k' =>
      obtain ⟨now, rfl⟩ := hexec
      rw [AList.mem_insert, HalfOpenOp.insert.injEq]
      tauto
    | remove k' =>
      have hne : k ≠ k' := fun heq => hkeep (by rw [heq]; exact List.mem_cons_self ..)
      obtain rfl := hexec
      rw [AList.mem_erase]
      simp [hne]

theorem mem_of_execs_remove (hexecs : Execs HalfOpenOp.Exec ops h h') (hkeep : .insert k ∉ ops) :
    k ∈ h' ↔ .remove k ∉ ops ∧ k ∈ h := by
  induction hexecs with
  | nil => simp
  | @cons o os h₀ h₁ h₂ hexec _ ih =>
    rw [ih fun hmem => hkeep (List.mem_cons_of_mem o hmem), List.mem_cons]
    cases o with
    | insert k' =>
      have hne : k ≠ k' := fun heq => hkeep (by rw [heq]; exact List.mem_cons_self ..)
      obtain ⟨now, rfl⟩ := hexec
      rw [AList.mem_insert]
      simp [hne]
    | remove k' =>
      obtain rfl := hexec
      rw [AList.mem_erase, HalfOpenOp.remove.injEq]
      tauto

/-! ## What a batch leaves -/

variable {batch : List RawPacket}

/-- A flow of the batch is opened, and is closed, within it. -/
def OpensAndCloses (batch : List RawPacket) (k : FlowKey) : Prop :=
  (∃ p ∈ batch, Opens k p) ∧ ∃ p ∈ batch, Closes k p

/-- Where a flow is not both opened and closed, the order does not matter. -/
theorem mem_of_perm (hperm : ops.Perm (batch.flatMap scoreOps))
    (hexecs : Execs HalfOpenOp.Exec ops h h') (hk : ¬ OpensAndCloses batch k) :
    k ∈ h' ↔ (∃ p ∈ batch, Opens k p) ∨ (¬ ∃ p ∈ batch, Closes k p) ∧ k ∈ h := by
  have hinsert : .insert k ∈ ops ↔ ∃ p ∈ batch, Opens k p := by
    rw [hperm.mem_iff, List.mem_flatMap]
    simp only [insert_mem_scoreOps]
  have hremove : .remove k ∈ ops ↔ ∃ p ∈ batch, Closes k p := by
    rw [hperm.mem_iff, List.mem_flatMap]
    simp only [remove_mem_scoreOps]
  rw [← hinsert, ← hremove]
  -- only insertions or only removals of `k` are left, and their order does not matter
  by_cases hcloses : .remove k ∈ ops
  · have hopens : .insert k ∉ ops := fun hopens => hk ⟨hinsert.mp hopens, hremove.mp hcloses⟩
    rw [mem_of_execs_remove hexecs hopens]
    simp [hopens]
  · rw [mem_of_execs_insert hexecs hcloses]
    simp [hcloses]

theorem HalfOpenOp.exec_total (o : HalfOpenOp) (h : Table FlowKey Nat) : ∃ h', o.Exec h h' := by
  cases o with
  | insert k => exact ⟨h.insert k 0, 0, rfl⟩
  | remove k => exact ⟨h.erase k, rfl⟩

/-- Some schedule carries out the operations of a given packet last. -/
theorem exists_schedule_last {p : RawPacket} (hp : p ∈ batch) (h : Table FlowKey Nat) :
    ∃ h₁ h', ScoresInParallel batch h h' ∧ Execs HalfOpenOp.Exec (scoreOps p) h₁ h' := by
  obtain ⟨pre, post, rfl⟩ := List.append_of_mem hp
  obtain ⟨h₁, hrest⟩ := Execs.exists_of_total HalfOpenOp.exec_total
    ((pre ++ post).flatMap scoreOps) h
  obtain ⟨h', hlast⟩ := Execs.exists_of_total HalfOpenOp.exec_total (scoreOps p) h₁
  -- the others first, then `p`
  have horder : ((pre ++ post) ++ [p]).Perm (pre ++ p :: post) :=
    (List.perm_append_singleton p _).trans List.perm_middle.symm
  refine ⟨h₁, h', Workers.finishes_of_perm 0 horder ?_, hlast⟩
  rw [List.flatMap_append, List.flatMap_singleton]
  exact hrest.append hlast

/-- A flow that is both opened and closed is half-open after one schedule, and not
after another. -/
theorem exists_schedules (hk : OpensAndCloses batch k) (h : Table FlowKey Nat) :
    (∃ h', ScoresInParallel batch h h' ∧ k ∈ h') ∧
      ∃ h', ScoresInParallel batch h h' ∧ k ∉ h' := by
  obtain ⟨⟨p, hp, hopens⟩, q, hq, hcloses⟩ := hk
  constructor
  · obtain ⟨h₁, h', hrun, hlast⟩ := exists_schedule_last hp h
    have hkeep : .remove k ∉ scoreOps p := fun hmem =>
      hopens.not_closes ((remove_mem_scoreOps p k).mp hmem)
    exact ⟨h', hrun, (mem_of_execs_insert hlast hkeep).mpr
      (.inl ((insert_mem_scoreOps p k).mpr hopens))⟩
  · obtain ⟨h₁, h', hrun, hlast⟩ := exists_schedule_last hq h
    have hkeep : .insert k ∉ scoreOps q := fun hmem =>
      ((insert_mem_scoreOps q k).mp hmem).not_closes hcloses
    exact ⟨h', hrun, fun hmem => ((mem_of_execs_remove hlast hkeep).mp hmem).1
      ((remove_mem_scoreOps q k).mpr hcloses)⟩

/-- **Parallel scoring, exactly**: every schedule of a batch leaves the half-open
flows that capture order leaves, if and only if no flow is both opened and closed
by packets of the batch; and a flow that is both is left by one schedule, and not by
another. -/
theorem parallel_eq_sequential_iff {libs : Libs} {e e' : IdsEngine libs}
    (horder : ScoresInOrder batch e e') :
    ((∀ h', ScoresInParallel batch e.synFlood.halfOpen h' →
        ∀ k, k ∈ h' ↔ k ∈ e'.synFlood.halfOpen) ↔
      ∀ k, ¬ OpensAndCloses batch k) ∧
    ∀ k, OpensAndCloses batch k →
      (∃ h', ScoresInParallel batch e.synFlood.halfOpen h' ∧ k ∈ h') ∧
        ∃ h', ScoresInParallel batch e.synFlood.halfOpen h' ∧ k ∉ h' := by
  refine ⟨⟨?_, ?_⟩, fun k hk => exists_schedules hk e.synFlood.halfOpen⟩
  · intro hsame k hk
    obtain ⟨⟨h₁, hrun₁, hmem⟩, h₂, hrun₂, hnotMem⟩ := exists_schedules hk e.synFlood.halfOpen
    exact hnotMem ((hsame h₂ hrun₂ k).mpr ((hsame h₁ hrun₁ k).mp hmem))
  · intro hnone h' hrun k
    obtain ⟨done, hperm, hexecs⟩ := hrun.exists_perm
    rw [mem_of_perm hperm hexecs (hnone k), mem_of_perm (.refl _) horder.execs (hnone k)]

/-- A TCP segment from 10.0.0.1:1234 to 10.0.0.2:80, without payload. -/
def tcpPacket (flags : U8) : RawPacket where
  timestamp := 0
  data := ⟨List.replicate 40 0#8, by decide⟩
  origLen := 40#32
  capLen := 40#32
  interface := []
  linkType := .rawIp
  transport := some {
    srcIp := .v4 0x0A000001#32, dstIp := .v4 0x0A000002#32, srcPort := some 1234#16
    dstPort := some 80#16, protocol := 6#8, tcpFlags := some flags, ttl := 64#8
    ipFlags := 0#8, ipFragOffset := 0#16, icmpType := none, icmpCode := none
    ethSrcMac := none, vlanId := none, payloadOffset := 40 }
  isTruncated := false
  packetId := 0
  idsScore := .fin 0
  idsFlag := .unspecified

/-- An agent that has just started. -/
def freshEngine : IdsEngine .plain := .new (.new none 0) (fun _ => none) .new

theorem exists_scoresInOrder (p q : RawPacket) : ∃ e', ScoresInOrder [p, q] freshEngine e' := by
  have hbounded : freshEngine.Bounded 0 := IdsEngine.bounded_new _ _ _
  obtain ⟨⟨r, e₁⟩, hcall, hbounded₁⟩ := IdsEngine.analyze_returns hbounded (by decide)
    ⟨0, 0, 0, 0⟩ p
  obtain ⟨⟨r', e₂⟩, hcall', -⟩ := IdsEngine.analyze_returns hbounded₁ (by decide) ⟨1, 1, 1, 1⟩ q
  exact ⟨e₂, .cons hcall (.cons hcall' .nil)⟩

/-- The connection of these segments. -/
def tcpFlow : FlowKey := (.v4 0x0A000001#32, .v4 0x0A000002#32, 1234#16, 80#16)

theorem opensAndCloses_handshake :
    OpensAndCloses [tcpPacket TCP_SYN, tcpPacket TCP_ACK] tcpFlow := by
  constructor
  · exact ⟨tcpPacket TCP_SYN, by simp, _, rfl, by decide, rfl⟩
  · exact ⟨tcpPacket TCP_ACK, by simp, _, rfl, .inl rfl, by decide, by decide⟩

/-- The SYN and the ACK of a connection, in one batch. -/
theorem parallel_eq_sequential_iff_handshake :
    ∃ e', ScoresInOrder [tcpPacket TCP_SYN, tcpPacket TCP_ACK] freshEngine e' ∧
      ((∀ h', ScoresInParallel [tcpPacket TCP_SYN, tcpPacket TCP_ACK]
            freshEngine.synFlood.halfOpen h' → ∀ k, k ∈ h' ↔ k ∈ e'.synFlood.halfOpen) ↔
        ∀ k, ¬ OpensAndCloses [tcpPacket TCP_SYN, tcpPacket TCP_ACK] k) ∧
      (∃ h', ScoresInParallel [tcpPacket TCP_SYN, tcpPacket TCP_ACK]
        freshEngine.synFlood.halfOpen h' ∧ tcpFlow ∈ h') ∧
      ∃ h', ScoresInParallel [tcpPacket TCP_SYN, tcpPacket TCP_ACK]
        freshEngine.synFlood.halfOpen h' ∧ tcpFlow ∉ h' := by
  obtain ⟨e', horder⟩ := exists_scoresInOrder (tcpPacket TCP_SYN) (tcpPacket TCP_ACK)
  obtain ⟨hiff, hboth⟩ := parallel_eq_sequential_iff horder
  exact ⟨e', horder, hiff, hboth tcpFlow opensAndCloses_handshake⟩

/-- **A phantom half-open connection**: in capture order the ACK ends what the SYN
began, but the worker with the SYN may come last. -/
theorem phantom_half_open :
    ∃ e' h' k, ScoresInOrder [tcpPacket TCP_SYN, tcpPacket TCP_ACK] freshEngine e' ∧
      ScoresInParallel [tcpPacket TCP_SYN, tcpPacket TCP_ACK] freshEngine.synFlood.halfOpen h' ∧
      k ∈ h' ∧ k ∉ e'.synFlood.halfOpen := by
  obtain ⟨e', horder⟩ := exists_scoresInOrder (tcpPacket TCP_SYN) (tcpPacket TCP_ACK)
  obtain ⟨⟨h', hrun, hmem⟩, -⟩ :=
    exists_schedules opensAndCloses_handshake freshEngine.synFlood.halfOpen
  refine ⟨e', h', _, horder, hrun, hmem, ?_⟩
  have hops : [tcpPacket TCP_SYN, tcpPacket TCP_ACK].flatMap scoreOps
      = scoreOps (tcpPacket TCP_SYN) ++ scoreOps (tcpPacket TCP_ACK) := by simp
  obtain ⟨h₁, -, hlast⟩ := (hops ▸ horder.execs).append_inv
  rw [mem_of_execs_remove hlast (by decide)]
  exact fun hkept => hkept.1 (by decide)

end Ocellus
