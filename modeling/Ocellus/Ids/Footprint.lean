import Ocellus.Base.Stamps
import Ocellus.Ids.ConcurrentRates

/-!
# What the engine holds on to

The detectors keep state for each address, port and flow that they have seen, and the
sweeper drops what is stale. Under any schedule, when a round of the sweeper is done that
was begun two minutes after some moment, all that the detectors hold is on packets whose
analysis was under way at this moment, or has begun since (`footprint_recent`). So the
memory of the engine is bounded by the packets of the last few minutes, and an idle engine
gives it back.
-/

namespace Ocellus

open Stamps (Touch Fresh)

namespace IdsEngine

variable {libs : Libs}

/-- What a detector keeps an entry for. -/
inductive Slot where
  | ports (ip : IpAddr)
  | sources (port : U16)
  | flow (k : FlowKey)
  | counters (ip : IpAddr)
  | bucket (ip : IpAddr)
  deriving DecidableEq

/-- The place of its table in a round of the sweeper. -/
def Slot.place : Slot → Nat
  | .ports _ => 0
  | .sources _ => 1
  | .flow _ => 2
  | .counters _ => 3
  | .bucket _ => 4

/-- The times in an entry, if there is one. -/
def stamps (e : IdsEngine libs) : Slot → Option (List Nat)
  | .ports ip => (e.portScan.portsPerSrc.lookup ip).map fun s => s.entries.map Prod.snd
  | .sources port => (e.portScan.srcsPerPort.lookup port).map fun s => s.entries.map Prod.snd
  | .flow k => (e.synFlood.halfOpen.lookup k).map fun created => [created]
  | .counters ip => (e.synFlood.counters.lookup ip).map fun c => [c.lastReset]
  | .bucket ip => (e.rateLimiter.buckets.lookup ip).map fun b => [b.lastRefill]

/-- The entries that a packet with the metadata `tm` may make. -/
def Fills (tm : TransportMeta) : Slot → Prop
  | .ports ip => ip = tm.srcIp
  | .sources port => tm.dstPort = some port
  | .flow k => ∃ p, IsSegment tm p ∧ k = p.flowKey
  | .counters ip => ip = tm.srcIp
  | .bucket ip => ip = tm.srcIp

def Duty.Fills : Duty → Slot → Prop
  | .packet pkt, slot => ∃ tm, pkt.transport = some tm ∧ IdsEngine.Fills tm slot
  | .sweep, _ => False

/-- The detectors as a store. A set of ports keeps a time for a minute, and a bucket stays
for two. -/
def footprint (libs : Libs) : Stamps.Store (IdsEngine libs) Duty Slot where
  stamps := stamps
  fills := Duty.Fills
  young := secs 60
  ttl := secs 120
  young_le := by decide

/-! ## Entries of a table -/

section Table

variable {κ ν : Type} [DecidableEq κ] {times : ν → List Nat} {fills : Prop} {now : Nat}

theorem touch_insert {T : Table κ ν} {k k₀ : κ} {v : ν} (hfills : k = k₀ → fills)
    (hv : times v ≠ [] ∧ ∀ t ∈ times v, now < t + secs 60 ∧
      (t = now ∨ t ∈ ((T.lookup k₀).map times).getD [])) :
    Touch (secs 60) now fills ((T.lookup k).map times) (((T.insert k₀ v).lookup k).map times) := by
  rw [Table.lookup_insert_eq]
  by_cases hk : k = k₀
  · subst hk
    rw [if_pos rfl]
    exact .record (hfills rfl) hv.1 hv.2
  · rw [if_neg hk]
    exact .same _

theorem touch_erase (T : Table κ ν) (k₀ k : κ) :
    Touch (secs 60) now fills ((T.lookup k).map times) (((T.erase k₀).lookup k).map times) := by
  by_cases hk : k = k₀
  · subst hk
    rw [AList.lookup_erase]
    exact .clear _
  · rw [AList.lookup_erase_ne hk]
    exact .same _

theorem touch_retain {T : Table κ ν} {f : κ → ν → Option ν}
    (hf : ∀ k v v', f k v = some v' → v' = v ∨ (times v' ≠ [] ∧ times v' ⊆ times v))
    (k : κ) :
    Touch (secs 60) now fills ((T.lookup k).map times) (((T.retain f).lookup k).map times) := by
  rw [Table.lookup_retain]
  cases T.lookup k with
  | none => exact .same _
  | some v =>
    rw [Option.bind_some]
    cases hv : f k v with
    | none => exact .clear _
    | some v' =>
      rcases hf k v v' hv with rfl | ⟨hne, hsub⟩
      · exact .same _
      · exact .shrink hne hsub

/-- What is left is what was kept. -/
theorem fresh_retain {T : Table κ ν} {f : κ → ν → Option ν} {lo : Nat}
    (hf : ∀ k v v', f k v = some v' → ∀ t ∈ times v', lo < t + secs 120) (k : κ) :
    Fresh (secs 120) lo (((T.retain f).lookup k).map times) := by
  intro ts hts
  obtain ⟨v', hv', rfl⟩ := Option.map_eq_some_iff.mp hts
  rw [Table.lookup_retain] at hv'
  obtain ⟨v, -, hkept⟩ := Option.bind_eq_some_iff.mp hv'
  exact hf k v v' hkept

end Table

/-! ## What a packet records -/

/-- The times in the set of a key. -/
theorem getD_times (o : Option (SlidingSet PortScanDetector.window)) :
    (o.map fun s => s.entries.map Prod.snd).getD []
      = (o.getD SlidingSet.new).entries.map Prod.snd := by
  cases o with
  | none => rfl
  | some s => rfl

/-- A set that a value has been inserted into has live times only. -/
theorem insert_times (s : SlidingSet PortScanDetector.window) (now : Nat) (v : U16) :
    (s.insert now v).2.entries.map Prod.snd ≠ [] ∧
      ∀ t ∈ (s.insert now v).2.entries.map Prod.snd, now < t + secs 60 ∧
        (t = now ∨ t ∈ s.entries.map Prod.snd) := by
  have hlive : ∀ e ∈ s.live now,
      now < e.2 + secs 60 ∧ (e.2 = now ∨ e.2 ∈ s.entries.map Prod.snd) := by
    intro e he
    obtain ⟨hmem, hyoung⟩ := List.mem_filter.mp he
    have hlt : now - e.2 < secs 60 := of_decide_eq_true hyoung
    exact ⟨by omega, .inr (List.mem_map_of_mem hmem)⟩
  unfold SlidingSet.insert
  dsimp only
  split
  · rename_i hany
    obtain ⟨e, he, -⟩ := List.any_eq_true.mp hany
    refine ⟨fun hnil => ?_, fun t ht => ?_⟩
    · rw [List.map_eq_nil_iff.mp hnil] at he
      cases he
    · obtain ⟨e, he, rfl⟩ := List.mem_map.mp ht
      exact hlive e he
  · refine ⟨by simp, fun t ht => ?_⟩
    obtain ⟨e, he, rfl⟩ := List.mem_map.mp ht
    rcases List.mem_append.mp he with he | he
    · exact hlive e he
    · rw [List.mem_singleton.mp he]
      exact ⟨Nat.lt_add_of_pos_right (by decide), .inl rfl⟩

/-- Counters are at most ten seconds old when a segment has been counted. -/
theorem trackRatio_times {fp : Rounding} {now : Nat} {p : Segment} {T : Table IpAddr PerIpCounters}
    {r : List Signal × Table IpAddr PerIpCounters}
    (h : SynFloodDetector.trackRatio fp now p T = .ok r) :
    ∃ c, r.2 = T.insert p.srcIp c ∧ now < c.lastReset + secs 60 ∧
      (c.lastReset = now ∨ c.lastReset ∈ ((T.lookup p.srcIp).map fun c => [c.lastReset]).getD []) := by
  obtain ⟨c, hcount, h⟩ := Checked.bind_eq_ok.mp h
  cases h
  refine ⟨c, rfl, ?_⟩
  obtain ⟨syns, -, hcount⟩ := Checked.bind_eq_ok.mp hcount
  obtain ⟨acks, -, hcount⟩ := Checked.bind_eq_ok.mp hcount
  cases hcount
  have hnow : now < now + secs 60 := Nat.lt_add_of_pos_right (by decide)
  unfold PerIpCounters.maybeReset
  split
  · exact ⟨hnow, .inl rfl⟩
  · rename_i hyoung
    cases hlookup : T.lookup p.srcIp with
    | none => exact ⟨hnow, .inl rfl⟩
    | some c =>
      rw [hlookup] at hyoung
      have hlt : ¬ secs 10 ≤ now - c.lastReset := hyoung
      have hsecs : secs 10 ≤ secs 60 := by decide
      refine ⟨?_, .inr (List.mem_singleton_self _)⟩
      show now < c.lastReset + secs 60
      omega

/-- What an access at one time records. -/
def Records (fills : Slot → Prop) (t : Instants) (e e' : IdsEngine libs) : Prop :=
  ∀ now system, t = .reading now system →
    ∀ slot, Touch (secs 60) now (fills slot) (e.stamps slot) (e'.stamps slot)

variable {tm : TransportMeta} {pkt : RawPacket}

theorem allows_records (tm : TransportMeta) :
    Allows (Records (Fills tm) : Instants → IdsEngine libs → IdsEngine libs → Prop) where
  same _ _ _ _ _ _ := .same _
  baseline _ _ _ _ _ _ _ := .same _

theorem ports_records (tm : TransportMeta) :
    AllowsPorts tm (Records (Fills tm) : Instants → IdsEngine libs → IdsEngine libs → Prop) where
  port t e dstPort hport now system ht slot := by
    subst ht
    cases slot with
    | ports ip =>
      refine touch_insert (fun hip => hip) ?_
      rw [getD_times]
      exact insert_times _ _ _
    | sources | flow | counters | bucket => exact .same _
  source t e dstPort hport now system ht slot := by
    subst ht
    cases slot with
    | sources port =>
      refine touch_insert (fun hkey => hkey ▸ hport) ?_
      rw [getD_times]
      exact insert_times _ _ _
    | ports | flow | counters | bucket => exact .same _

theorem flows_records (tm : TransportMeta) :
    AllowsFlows tm (Records (Fills tm) : Instants → IdsEngine libs → IdsEngine libs → Prop) where
  opened t e p hp now system ht slot := by
    subst ht
    cases slot with
    | flow k =>
      refine touch_insert (fun hk => ⟨p, hp, hk⟩) ⟨nofun, fun t ht => ?_⟩
      rw [List.mem_singleton.mp ht]
      exact ⟨Nat.lt_add_of_pos_right (by decide), .inl rfl⟩
    | ports | sources | counters | bucket => exact .same _
  closed t e k now system ht slot := by
    cases slot with
    | flow k' => exact touch_erase _ k k'
    | ports | sources | counters | bucket => exact .same _

theorem ratioProgram_records {p : Segment} (hp : IsSegment tm p) :
    Bids (Records (Fills tm)) (some .synFlood) (ratioProgram p : Program libs (List Signal)) := by
  refine ratioProgram_bids fun t e r hr => ?_
  rintro now system rfl slot
  cases slot with
  | counters ip =>
    obtain ⟨c, hinsert, htime⟩ := trackRatio_times hr
    show Touch _ _ _ _ (((r.2).lookup ip).map _)
    rw [hinsert]
    refine touch_insert (fun hip => hip.trans hp.1) ⟨nofun, fun t ht => ?_⟩
    rw [List.mem_singleton.mp ht]
    exact htime
  | ports | sources | flow | bucket => exact .same _

theorem rateProgram_records (tm : TransportMeta) :
    Prog.Within (Records (Fills tm)) (fun o => Graded (some .rateExceeded) o.toList)
      (rateProgram pkt tm : Program libs (Option Signal)) := by
  refine rateProgram_bids fun t e r hr => ?_
  have hcall : RateLimiter.component.inspect t.rateLimiter (limiterPacket pkt tm) e.rateLimiter
      = .ok (r.1, r.2) := hr
  obtain ⟨b, hb, hd⟩ := RateLimiter.inspect_eq_ok hcall
  have hrefill : b.lastRefill = t.rateLimiter := (RateLimiter.inspectBucket_eq_ok hb).lastRefill
  rintro now system rfl slot
  cases slot with
  | bucket ip =>
    show Touch _ _ _ _ ((r.2.buckets.lookup ip).map _)
    rw [hd]
    refine touch_insert (fun hip => hip) ⟨nofun, fun t ht => ?_⟩
    rw [List.mem_singleton.mp ht, hrefill]
    exact ⟨Nat.lt_add_of_pos_right (by decide), .inl rfl⟩
  | ports | sources | flow | counters => exact .same _

/-- A packet makes entries of its own. -/
theorem packet_records (pkt : RawPacket) :
    Does (Records (Duty.packet pkt).Fills) ((Duty.packet pkt).program : Program libs _) := by
  have hanalyze : Does (Records (Duty.packet pkt).Fills)
      (analyzeProgram pkt : Program libs IdsResult) := by
    cases htm : pkt.transport with
    | none =>
      unfold analyzeProgram
      rw [htm]
      exact does_lift _
    | some tm =>
      have hfills : (Duty.packet pkt).Fills = Fills tm := by
        funext slot
        simp [Duty.Fills, htm]
      have htcp := (@allows_records libs tm).tcp (flows_records tm) fun _ hp => ratioProgram_records hp
      rw [hfills]
      exact (allows_records tm).analyze htm ((rateProgram_records tm).mono fun _ _ => trivial)
        ((ports_records tm).ports.mono fun _ _ => trivial) (htcp.mono fun _ _ => trivial)
  exact hanalyze.bind fun r _ => does_pure _

/-! ## What a round of the sweeper leaves -/

/-- The tables that the round has visited hold nothing that was too old at `lo`. -/
def FreshBelow (n lo : Nat) (s : Nat × IdsEngine libs) : Prop :=
  (footprint libs).FreshOn (fun slot => slot.place < n) lo s

/-- What others do to a round. -/
def OthersWork (s s' : Nat × IdsEngine libs) : Prop :=
  (footprint libs).IsDated s ∧ (footprint libs).Others s s'

/-- The visit of the table at the place `n`. -/
theorem sat_visit {n lo : Nat} {g : Instants → IdsEngine libs → IdsEngine libs}
    (hvisit : ∀ now system e (slot : Slot),
      slot.place = n ∧
        Touch (secs 60) now False (e.stamps slot) ((g (.reading now system) e).stamps slot) ∧
        (lo ≤ now → Fresh (secs 120) lo ((g (.reading now system) e).stamps slot)) ∨
      slot.place ≠ n ∧ (g (.reading now system) e).stamps slot = e.stamps slot) :
    Prog.Sat OthersWork ((footprint libs).Touches .sweep) (fun _ s => FreshBelow (n + 1) lo s)
      ((Prog.write g).timed Instants.reading) (FreshBelow n lo) := by
  refine .timed_access (Stamps.Store.stable_freshOn _ _)
    (fun _ => Stamps.Store.stable_freshOn _ _) fun now system s u e' hs hnow hwrite => ?_
  cases hwrite
  have htouches : (footprint libs).Touches .sweep s (now, g (.reading now system) s.2) := by
    refine ⟨hnow, fun slot => ?_⟩
    rcases hvisit now system s.2 slot with ⟨-, htouch, -⟩ | ⟨-, hsame⟩
    · exact htouch
    · show Touch _ _ _ _ ((g (.reading now system) s.2).stamps slot)
      rw [hsame]
      exact .same _
  refine ⟨htouches, hs.1.trans hnow, fun slot hslot => ?_⟩
  rcases hvisit now system s.2 slot with ⟨-, -, hfresh⟩ | ⟨hplace, -⟩
  · exact hfresh (hs.1.trans hnow)
  · exact (hs.touches htouches).2 slot (Nat.lt_of_le_of_ne (Nat.le_of_lt_succ hslot) hplace)

/-- A sweep of a table of port sets, at a time that was read before. -/
theorem sweep_sets {κ : Type} [DecidableEq κ] {T : Table κ (SlidingSet PortScanDetector.window)}
    {start now lo : Nat} (hstart : lo ≤ start) (k : κ) :
    Touch (secs 60) now False ((T.lookup k).map fun s => s.entries.map Prod.snd)
        (((T.retain fun _ s => s.sweep start).lookup k).map fun s => s.entries.map Prod.snd) ∧
      (lo ≤ now → Fresh (secs 120) lo
        (((T.retain fun _ s => s.sweep start).lookup k).map fun s => s.entries.map Prod.snd)) := by
  have hswept : ∀ s s' : SlidingSet PortScanDetector.window, s.sweep start = some s' →
      s'.entries ≠ [] ∧ s'.entries = s.live start := by
    intro s s' h
    unfold SlidingSet.sweep at h
    split at h
    · cases h
    · rename_i hne
      cases h
      exact ⟨fun hnil => hne (List.isEmpty_iff.mpr hnil), rfl⟩
  refine ⟨touch_retain (fun _ s s' h => .inr ?_) k, fun _ => fresh_retain (fun _ s s' h t ht => ?_) k⟩
  · obtain ⟨hne, hlive⟩ := hswept s s' h
    refine ⟨fun hnil => hne (List.map_eq_nil_iff.mp hnil), ?_⟩
    rw [hlive]
    exact List.map_subset _ (List.filter_subset_self _)
  · rw [(hswept s s' h).2] at ht
    obtain ⟨e, he, rfl⟩ := List.mem_map.mp ht
    have hyoung : start - e.2 < secs 60 := of_decide_eq_true (List.mem_filter.mp he).2
    have hsecs : secs 60 ≤ secs 120 := by decide
    omega

/-- A sweep of a table of values with one time. -/
theorem sweep_values {κ ν : Type} [DecidableEq κ] {T : Table κ ν} {time : ν → Nat} {keep : ν → Prop}
    [DecidablePred keep] {now lo : Nat} (hkeep : ∀ v, keep v → now < time v + secs 120) (k : κ) :
    Touch (secs 60) now False ((T.lookup k).map fun v => [time v])
        (((T.retain fun _ v => if keep v then some v else none).lookup k).map fun v => [time v]) ∧
      (lo ≤ now → Fresh (secs 120) lo
        (((T.retain fun _ v => if keep v then some v else none).lookup k).map fun v => [time v])) := by
  have hkept : ∀ v v', (if keep v then some v else none) = some v' → keep v ∧ v' = v := by
    intro v v' h
    split at h
    · rename_i hv
      exact ⟨hv, (Option.some.inj h).symm⟩
    · cases h
  refine ⟨touch_retain (fun _ v v' h => .inl (hkept v v' h).2) k,
    fun hlo => fresh_retain (fun _ v v' h t ht => ?_) k⟩
  obtain ⟨hv, rfl⟩ := hkept v v' h
  rw [List.mem_singleton.mp ht]
  exact lt_of_le_of_lt hlo (hkeep v' hv)

theorem kept_flow {now : Nat} (created : Nat)
    (h : durationSince now created < SynFloodDetector.halfOpenTtl) : now < created + secs 120 := by
  have hlt : now - created < secs 30 := h
  have hsecs : secs 30 ≤ secs 120 := by decide
  omega

theorem kept_counters {now : Nat} (c : PerIpCounters)
    (h : durationSince now c.lastReset < PerIpCounters.window * 10) :
    now < c.lastReset + secs 120 := by
  have hlt : now - c.lastReset < secs 100 := h
  have hsecs : secs 100 ≤ secs 120 := by decide
  omega

theorem kept_bucket {now : Nat} (b : Bucket) (h : asSecs (durationSince now b.lastRefill) < 120) :
    now < b.lastRefill + secs 120 := by
  have hlt : now - b.lastRefill < secs 120 := asSecs_lt_iff.mp h
  omega

/-- A round drops what was stale when it was begun. -/
theorem sat_sweepProgram (lo : Nat) :
    Prog.Sat OthersWork ((footprint libs).Touches .sweep) (fun _ s => FreshBelow 6 lo s)
      (sweepProgram.timed Instants.reading) fun s => lo ≤ s.1 := by
  have hnow : Prog.Sat OthersWork ((footprint libs).Touches .sweep)
      (fun now s => lo ≤ now ∧ FreshBelow 0 lo s)
      ((Prog.access fun t e => .ok (t.portScan, e) : Program libs Nat).timed Instants.reading)
      fun s => lo ≤ s.1 := by
    refine .timed_access (Stamps.Store.stable_clock lo)
      (fun _ => (Prog.stable_const _).and (Stamps.Store.stable_freshOn _ _))
      fun now system s a e' hs hclock haccess => ?_
    cases haccess
    have hlo : lo ≤ now := Nat.le_trans hs hclock
    exact ⟨⟨hclock, fun slot => .same _⟩, hlo, hlo, fun slot hslot => absurd hslot (Nat.not_lt_zero _)⟩
  unfold sweepProgram
  simp only [Prog.timed_bind]
  refine hnow.bind fun start s hs => ⟨_, hs.2, ?_⟩
  have hstart : lo ≤ start := hs.1
  refine (sat_visit fun now system e slot => ?_).bind fun _ s hs => ⟨_, hs, ?_⟩
  · cases slot with
    | ports ip => exact .inl ⟨rfl, sweep_sets hstart ip⟩
    | sources | flow | counters | bucket => exact .inr ⟨nofun, rfl⟩
  refine (sat_visit fun now system e slot => ?_).bind fun _ s hs => ⟨_, hs, ?_⟩
  · cases slot with
    | sources port => exact .inl ⟨rfl, sweep_sets hstart port⟩
    | ports | flow | counters | bucket => exact .inr ⟨nofun, rfl⟩
  refine (sat_visit fun now system e slot => ?_).bind fun _ s hs => ⟨_, hs, ?_⟩
  · cases slot with
    | flow k => exact .inl ⟨rfl, sweep_values kept_flow k⟩
    | ports | sources | counters | bucket => exact .inr ⟨nofun, rfl⟩
  refine (sat_visit fun now system e slot => ?_).bind fun _ s hs => ⟨_, hs, ?_⟩
  · cases slot with
    | counters ip => exact .inl ⟨rfl, sweep_values kept_counters ip⟩
    | ports | sources | flow | bucket => exact .inr ⟨nofun, rfl⟩
  refine (sat_visit fun now system e slot => ?_).bind fun _ s hs => ⟨_, hs, ?_⟩
  · cases slot with
    | bucket ip => exact .inl ⟨rfl, sweep_values kept_bucket ip⟩
    | ports | sources | flow | counters => exact .inr ⟨nofun, rfl⟩
  -- the phase is none of the store's business
  refine sat_visit fun now system e slot => .inr ⟨?_, rfl⟩
  cases slot <;> nofun

/-! ## Under any schedule -/

theorem swept : (footprint libs).Swept (fun duty => duty = .sweep)
    fun duty : Duty => duty.program.timed Instants.reading := by
  intro duty lo
  cases duty with
  | packet pkt =>
    have hwork : Prog.Within (fun i s s' => s.1 ≤ s'.1 ∧
        Records (Duty.packet pkt).Fills (.reading s'.1 i.2) s.2 s'.2) (fun _ => True)
        ((Duty.packet pkt).program.timed Instants.reading : Prog _ (Nat × IdsEngine libs) _) :=
      (packet_records pkt).timed
    have hsat : Prog.Sat OthersWork ((footprint libs).Touches (.packet pkt)) (fun _ _ => True)
        ((Duty.packet pkt).program.timed Instants.reading) fun _ => True :=
      hwork.sat fun i s s' ⟨hclock, hrecords⟩ => ⟨hclock, hrecords s'.1 i.2 rfl⟩
    refine (hsat.weaken fun _ _ _ hsweep => nomatch hsweep).narrow (Stamps.Store.stable_clock lo)
      fun _ _ => trivial
  | sweep =>
    have hround := @sat_sweepProgram libs lo
    show Prog.Sat OthersWork _ _
      ((sweepProgram >>= fun _ => pure none : Program libs (Option IdsResult)).timed _) _
    rw [Prog.timed_bind]
    refine hround.bind fun _ s hs => ⟨_, hs, .ret (Stamps.Store.stable_freshOn _ _) fun s hs _ => ?_⟩
    refine ⟨hs.1, fun slot _ => hs.2 slot ?_⟩
    cases slot <;> simp [Slot.place]

variable {baseline : Baseline} {geo : IpAddr → Option Str} {blacklist : Blacklist libs.bloom}

/-- A new engine holds nothing. -/
theorem stamps_new (slot : Slot) : (new baseline geo blacklist).stamps slot = none := by
  cases slot <;> rfl

variable {p p' : Pool (Nat × Int) (Nat × IdsEngine libs) (Option IdsResult) Duty}
  {job : Job Duty (Nat × IdsEngine libs)} {r : Option IdsResult}

/-- **The engine forgets**: under any schedule, when a round of the sweeper is done that was
begun two minutes after some moment, each entry of the detectors is one of a packet whose
analysis was under way at this moment, or has begun since. -/
theorem footprint_recent (h : (clocked (new baseline geo blacklist)).Reachable p)
    (hleads : (clocked (new baseline geo blacklist)).Leads p p') (hdone : (job, r) ∈ p'.done)
    (htask : job.task = .sweep) (hlate : p.shared.1 + secs 120 ≤ job.since.1) :
    Stamps.heldSlots (footprint libs) p'.shared.2 ⊆ Stamps.recentSlots (footprint libs) p p' := by
  have hdated : (footprint libs).IsDated (0, new baseline geo blacklist) := by
    intro slot ts hts
    rw [show (footprint libs).stamps _ slot = none from stamps_new slot] at hts
    cases hts
  exact Stamps.recent_of_held swept hdated h hleads hdone htask hlate

/-- What a call leaves holds the bucket of its source. -/
theorem held_bucket {t : Instants} {pkt : RawPacket} {tm : TransportMeta} {e e' : IdsEngine libs}
    {r : IdsResult} (htm : pkt.transport = some tm) (h : analyze t pkt e = .ok (r, e')) :
    .bucket tm.srcIp ∈ Stamps.heldSlots (footprint libs) e' := by
  unfold analyze at h
  rw [htm] at h
  obtain ⟨c, flag, -, -, rfl⟩ := analyzeTransport_checks h
  have hcall : RateLimiter.component.inspect t.rateLimiter (limiterPacket pkt tm) e.rateLimiter
      = .ok c.rate := c.rate_eq
  obtain ⟨b, -, hrate⟩ := RateLimiter.inspect_eq_ok hcall
  show ((c.rate.2.buckets.lookup tm.srcIp).map _).isSome = true
  rw [hrate]
  show (((e.rateLimiter.buckets.insert tm.srcIp b).lookup tm.srcIp).map _).isSome = true
  rw [AList.lookup_insert]
  rfl

/-- The sweeper, alone, with its accesses `δ` apart. -/
theorem run_round (δ c : Nat) (e : IdsEngine libs) :
    ∃ e', (Duty.sweep.program.timed Instants.reading : Prog _ (Nat × IdsEngine libs) _).run (δ, 0)
      (c, e) = .ok (none, (c + δ + δ + δ + δ + δ + δ + δ, e')) := ⟨_, rfl⟩

/-- Its first access is a reading of the clock, here at `c`, and others follow. -/
theorem advance_round (c δ : Nat) (e : IdsEngine libs) :
    ∃ rest e', (Duty.sweep.program.timed Instants.reading).advance (c, 0) 1 (0, e)
        = some (rest, (0 + c, e)) ∧
      rest.run (δ, 0) (0 + c, e) = .ok (none, (0 + c + δ + δ + δ + δ + δ + δ, e')) :=
  ⟨_, _, rfl, rfl⟩

/-- An idle engine gives its memory back: `markerPacket` is analyzed, and forgotten by the
second round of the sweeper after that. -/
theorem footprint_recent_idle :
    ∃ p p' : Pool (Nat × Int) (Nat × IdsEngine .plain) (Option IdsResult) Duty,
      (clocked (new (.new none 0) (fun _ => none) .new)).Reachable p ∧
      (clocked (new (.new none 0) (fun _ => none) .new)).Leads p p' ∧
      .bucket (.v4 1#32) ∈ Stamps.heldSlots (footprint .plain) p.shared.2 ∧
      Stamps.heldSlots (footprint .plain) p'.shared.2 = ∅ := by
  obtain ⟨⟨r, e⟩, hcall, -⟩ := analyze_returns (n := 0)
    (e := (new (.new none 0) (fun _ => none) .new : IdsEngine .plain)) (bounded_new _ _ _)
    (by decide) (Instants.reading 0 0) markerPacket
  let e₀ : IdsEngine .plain := new (.new none 0) (fun _ => none) .new
  let call : Job Duty (Nat × IdsEngine .plain) := ⟨.packet markerPacket, (0, e₀)⟩
  let round : Job Duty (Nat × IdsEngine .plain) := ⟨.sweep, (0, e)⟩
  let program : Prog (Nat × Int) (Nat × IdsEngine .plain) (Option IdsResult) :=
    Duty.sweep.program.timed Instants.reading
  obtain ⟨rest, e₁, hadvance, hrest⟩ := advance_round (secs 1) (secs 120) e
  let p : Pool (Nat × Int) (Nat × IdsEngine .plain) (Option IdsResult) Duty :=
    ⟨(0 + secs 1, e), [(round, rest)], [(call, some r)], [round, call]⟩
  have hcalled : (clocked e₀).Leads ⟨(0, e₀), [], [], []⟩ ⟨(0, e), [], [(call, some r)], [call]⟩ :=
    Pool.leads_of_task (Prog.timed_run (k := 0) (run_packet hcall))
  have hstarted : (clocked e₀).Leads ⟨(0, e), [], [(call, some r)], [call]⟩
      ⟨(0, e), [(round, program)], [(call, some r)], [round, call]⟩ :=
    .single (Pool.Step.start Duty.sweep)
  have hread : (clocked e₀).Leads ⟨(0, e), [(round, program)], [(call, some r)], [round, call]⟩ p :=
    Pool.leads_of_advance (s := ⟨(0, e), [(round, program)], [(call, some r)], [round, call]⟩)
      hadvance rfl
  have hreach : (clocked e₀).Reachable p := ⟨_, rfl, (hcalled.trans hstarted).trans hread⟩
  -- the round goes on, and is followed by another
  generalize hc : 0 + secs 1 + secs 120 + secs 120 + secs 120 + secs 120 + secs 120 + secs 120 = c
    at hrest
  have hlate : 0 + secs 1 + secs 120 ≤ c := by omega
  have hended : (clocked e₀).Leads p
      ⟨(c, e₁), [], [(round, none), (call, some r)], [round, call]⟩ :=
    Pool.leads_of_run (s := p) hrest rfl
  let round' : Job Duty (Nat × IdsEngine .plain) := ⟨.sweep, (c, e₁)⟩
  obtain ⟨e₂, hround⟩ := run_round 0 c e₁
  let p' : Pool (Nat × Int) (Nat × IdsEngine .plain) (Option IdsResult) Duty :=
    ⟨(c, e₂), [], [(round', none), (round, none), (call, some r)], [round', round, call]⟩
  have hleads : (clocked e₀).Leads p p' := hended.trans (Pool.leads_of_task hround)
  have hrecent := footprint_recent hreach hleads (List.mem_cons_self ..) rfl hlate
  refine ⟨p, p', hreach, hleads, held_bucket rfl hcall, Set.subset_empty_iff.mp fun slot hslot => ?_⟩
  -- the packet is not recent, and the rounds fill no slots
  obtain ⟨job, hjob, hrecent, hfills⟩ := hrecent hslot
  rcases List.mem_cons.mp hjob with rfl | hjob
  · exact hfills
  · rcases List.mem_cons.mp hjob with rfl | hjob
    · exact hfills
    · rw [List.mem_singleton.mp hjob] at hrecent
      rcases hrecent with ⟨r, hr, heq⟩ | hlate
      · rw [List.mem_singleton.mp hr] at heq
        exact absurd (congrArg Job.task heq) nofun
      · exact absurd (show 0 + secs 1 ≤ 0 from hlate) (by decide)

end IdsEngine

end Ocellus
