import Ocellus.Base.TtlSet
import Ocellus.Ids.PortScan

/-!
# What the port-scan detector counts

Each source's set of ports, and each port's set of source hashes, is a
`TtlSet` with a threshold: the whole detector projects onto one such component
per source (`run_ports`) and one per port (`run_srcs`). From the library's
`answer_iff` it follows, for every run and every call in it, when a horizontal
scan and when any scan is reported.

Two things keep these counts below the number of ports (or sources) observed in
the last 60 s. A re-sighting does not renew an entry, so a port counts from its
opening and not from its last observation; and the per-port set sees 16-bit
hashes, and only those of calls that reported no horizontal scan.
-/

namespace Ocellus

namespace PortScanDetector

open TtlSet (opened seen)

/-- The history of a detector. -/
abbrev Trace := List (Entry (IpAddr × U16) (Option Signal))

def isHorizontal (o : Option Signal) : Bool := o.any fun s => s.name == .portScanHorizontal

/-- A horizontal or a vertical report. -/
def IsScan (o : Option Signal) : Prop :=
  ∃ s, o = some s ∧ (s.name = .portScanHorizontal ∨ s.name = .portScanVertical)

/-! ## One call -/

section Inspect

variable {hasher : IpAddr → BitVec 64} {now : Nat} {ip : IpAddr} {port : U16}
  {d : PortScanDetector}

/-- Everything a call can do: report a horizontal scan, touching the source's
set only, or touch both sets and report a vertical scan or nothing. -/
theorem inspect_cases (hasher : IpAddr → BitVec 64) (now : Nat) (ip : IpAddr) (port : U16)
    (d : PortScanDetector) :
    let h := (d.portsOf ip).insert now port
    let v := (d.srcsOf port).insert now (ipHash hasher ip)
    (20 ≤ h.1 ∧ inspect hasher now ip port d =
      (some (horizontalSignal ip h.1), ⟨d.portsPerSrc.insert ip h.2, d.srcsPerPort⟩)) ∨
    (¬ 20 ≤ h.1 ∧ inspect hasher now ip port d =
      (if 50 ≤ v.1 then some (verticalSignal port v.1) else none,
        ⟨d.portsPerSrc.insert ip h.2, d.srcsPerPort.insert port v.2⟩)) := by
  intro h v
  by_cases hh : 20 ≤ h.1
  · refine .inl ⟨hh, ?_⟩
    exact if_pos hh
  · refine .inr ⟨hh, ?_⟩
    refine (if_neg hh).trans ?_
    by_cases hv : 50 ≤ v.1
    · rw [if_pos hv]
      exact if_pos hv
    · rw [if_neg hv]
      exact if_neg hv

theorem inspect_portsPerSrc :
    (inspect hasher now ip port d).2.portsPerSrc
      = d.portsPerSrc.insert ip ((d.portsOf ip).insert now port).2 := by
  rcases inspect_cases hasher now ip port d with ⟨-, h⟩ | ⟨-, h⟩ <;> rw [h]

/-- A call reports a horizontal scan when its source's set has 20 ports. -/
theorem isHorizontal_inspect :
    isHorizontal (inspect hasher now ip port d).1
      = decide (20 ≤ ((d.portsOf ip).insert now port).1) := by
  rcases inspect_cases hasher now ip port d with ⟨hh, h⟩ | ⟨hh, h⟩
  · rw [h, decide_eq_true hh]
    rfl
  · rw [h, decide_eq_false hh]
    by_cases hv : 50 ≤ ((d.srcsOf port).insert now (ipHash hasher ip)).1
    · rw [if_pos hv]
      rfl
    · rw [if_neg hv]
      rfl

/-- A call that reports a horizontal scan does not touch the per-port sets. -/
theorem inspect_srcsPerPort_of_horizontal
    (hh : isHorizontal (inspect hasher now ip port d).1 = true) :
    (inspect hasher now ip port d).2.srcsPerPort = d.srcsPerPort := by
  rw [isHorizontal_inspect, decide_eq_true_eq] at hh
  rcases inspect_cases hasher now ip port d with ⟨-, h⟩ | ⟨hnot, -⟩
  · rw [h]
  · exact absurd hh hnot

/-- Any other call records its source's hash and reports a vertical scan when
the port's set has 50 of them. -/
theorem inspect_of_not_horizontal
    (hh : isHorizontal (inspect hasher now ip port d).1 = false) :
    (inspect hasher now ip port d).2.srcsPerPort
        = d.srcsPerPort.insert port ((d.srcsOf port).insert now (ipHash hasher ip)).2 ∧
      (inspect hasher now ip port d).1.isSome
        = decide (50 ≤ ((d.srcsOf port).insert now (ipHash hasher ip)).1) := by
  rw [isHorizontal_inspect, decide_eq_false_iff_not] at hh
  rcases inspect_cases hasher now ip port d with ⟨hyes, -⟩ | ⟨-, h⟩
  · exact absurd hyes hh
  · rw [h]
    refine ⟨rfl, ?_⟩
    by_cases hv : 50 ≤ ((d.srcsOf port).insert now (ipHash hasher ip)).1
    · simp [hv]
    · simp [hv]

/-- Every report is a scan report. -/
theorem isScan_of_isSome (h : (inspect hasher now ip port d).1.isSome = true) :
    IsScan (inspect hasher now ip port d).1 := by
  rcases inspect_cases hasher now ip port d with ⟨-, heq⟩ | ⟨-, heq⟩
  · rw [heq]
    exact ⟨_, rfl, .inl rfl⟩
  · rw [heq] at h ⊢
    by_cases hv : 50 ≤ ((d.srcsOf port).insert now (ipHash hasher ip)).1
    · rw [if_pos hv]
      exact ⟨_, rfl, .inr rfl⟩
    · rw [if_neg hv] at h
      cases h

end Inspect

/-- A step of the component is a call of `inspect`. -/
theorem step_eq {hasher : IpAddr → BitVec 64} {t : Nat} {a : IpAddr × U16}
    {d d' : PortScanDetector} {o : Option Signal}
    (h : (component hasher).inspect t a d = .ok (o, d')) :
    o = (inspect hasher t a.1 a.2 d).1 ∧ d' = (inspect hasher t a.1 a.2 d).2 := by
  have heq : inspect hasher t a.1 a.2 d = (o, d') := Except.ok.inj h
  rw [heq]
  exact ⟨rfl, rfl⟩

/-! ## The detector, one set at a time -/

/-- The set of one source. -/
def portsView (src : IpAddr) (d : PortScanDetector) : Option (List (U16 × Nat)) :=
  (d.portsPerSrc.lookup src).map SlidingSet.entries

/-- The set of one port. -/
def srcsView (port : U16) (d : PortScanDetector) : Option (List (U16 × Nat)) :=
  (d.srcsPerPort.lookup port).map SlidingSet.entries

/-- The calls of one source, with whether they reported a horizontal scan. -/
def selectSrc (src : IpAddr) (a : IpAddr × U16) (o : Option Signal) : Option (U16 × Bool) :=
  if a.1 = src then some (a.2, isHorizontal o) else none

/-- The calls on one port that reported no horizontal scan, as hashes, with
whether they reported a vertical one. -/
def selectPort (hasher : IpAddr → BitVec 64) (port : U16) (a : IpAddr × U16)
    (o : Option Signal) : Option (U16 × Bool) :=
  if a.2 = port ∧ isHorizontal o = false then some (ipHash hasher a.1, o.isSome) else none

theorem portsView_getD (src : IpAddr) (d : PortScanDetector) :
    (portsView src d).getD [] = (d.portsOf src).entries := by
  unfold portsView portsOf
  cases d.portsPerSrc.lookup src <;> rfl

theorem srcsView_getD (port : U16) (d : PortScanDetector) :
    (srcsView port d).getD [] = (d.srcsOf port).entries := by
  unfold srcsView srcsOf
  cases d.srcsPerPort.lookup port <;> rfl

theorem map_entries_bind_sweep {window : Nat} (now : Nat) (o : Option (SlidingSet window)) :
    (o.bind fun s => s.sweep now).map SlidingSet.entries
      = (o.map SlidingSet.entries).bind (TtlSet.sweep window now) := by
  cases o with
  | none => rfl
  | some s =>
    show (s.sweep now).map SlidingSet.entries = TtlSet.sweep window now s.entries
    unfold SlidingSet.sweep TtlSet.sweep
    rw [show s.live now = TtlSet.liveAt window now s.entries from rfl]
    split <;> rfl

variable {hasher : IpAddr → BitVec 64} {tr : Trace} {c : Nat} {d : PortScanDetector}

/-- Seen from one source, a run is a run of a set of ports with threshold 20. -/
theorem run_ports (src : IpAddr) (h : (component hasher).Run new tr c d) :
    ∃ c' ≤ c, (TtlSet.component window 20).Run none
      (tr.filterMap (Entry.project (selectSrc src))) c' (portsView src d) := by
  refine h.project (portsView src) (selectSrc src) ?_ ?_ ?_
  · intro t a s o s' hstep hsel
    obtain ⟨rfl, rfl⟩ := step_eq hstep
    -- the ports of other sources
    have hne : src ≠ a.1 := by
      rintro rfl
      simp [selectSrc] at hsel
    simp only [portsView, inspect_portsPerSrc]
    rw [Table.lookup_insert_eq, if_neg hne]
  · intro t a s o s' p b hstep hsel
    obtain ⟨rfl, rfl⟩ := step_eq hstep
    obtain ⟨ip, port⟩ := a
    simp only [selectSrc] at hsel
    split at hsel
    · rename_i hip
      subst hip
      obtain ⟨rfl, rfl⟩ := Prod.mk.inj (Option.some.inj hsel)
      have hview : portsView ip (inspect hasher t ip port s).2
          = some (TtlSet.insert window t port (s.portsOf ip).entries) := by
        simp only [portsView, inspect_portsPerSrc]
        rw [Table.lookup_insert_eq, if_pos rfl]
        rfl
      show Except.ok (decide (20 ≤ (TtlSet.insert window t port _).length),
        some (TtlSet.insert window t port ((portsView ip s).getD []))) = _
      rw [portsView_getD, hview, isHorizontal_inspect]
      rfl
    · cases hsel
  · intro t s
    simp only [component, sweep, portsView, Table.lookup_retain]
    exact map_entries_bind_sweep t _

/-- Seen from one port, a run is a run of a set of hashes with threshold 50. -/
theorem run_srcs (port : U16) (h : (component hasher).Run new tr c d) :
    ∃ c' ≤ c, (TtlSet.component window 50).Run none
      (tr.filterMap (Entry.project (selectPort hasher port))) c' (srcsView port d) := by
  refine h.project (srcsView port) (selectPort hasher port) ?_ ?_ ?_
  · intro t a s o s' hstep hsel
    obtain ⟨rfl, rfl⟩ := step_eq hstep
    simp only [selectPort] at hsel
    split at hsel
    · cases hsel
    · rename_i hnot
      simp only [srcsView]
      -- a call that finds a horizontal scan returns before it counts the source
      cases hh : isHorizontal (inspect hasher t a.1 a.2 s).1 with
      | true => rw [inspect_srcsPerPort_of_horizontal hh]
      | false =>
        have hne : port ≠ a.2 := fun heq => hnot ⟨heq.symm, hh⟩
        rw [(inspect_of_not_horizontal hh).1, Table.lookup_insert_eq, if_neg hne]
  · intro t a s o s' p b hstep hsel
    obtain ⟨rfl, rfl⟩ := step_eq hstep
    simp only [selectPort] at hsel
    split at hsel
    · rename_i hyes
      obtain ⟨rfl, hh⟩ := hyes
      obtain ⟨rfl, rfl⟩ := Prod.mk.inj (Option.some.inj hsel)
      obtain ⟨htable, hsome⟩ := inspect_of_not_horizontal hh
      have hview : srcsView a.2 (inspect hasher t a.1 a.2 s).2
          = some (TtlSet.insert window t (ipHash hasher a.1) (s.srcsOf a.2).entries) := by
        simp only [srcsView, htable]
        rw [Table.lookup_insert_eq, if_pos rfl]
        rfl
      show Except.ok (decide (50 ≤ (TtlSet.insert window t (ipHash hasher a.1) _).length),
        some (TtlSet.insert window t (ipHash hasher a.1) ((srcsView a.2 s).getD []))) = _
      rw [srcsView_getD, hview, hsome]
      rfl
    · cases hsel
  · intro t s
    simp only [component, sweep, srcsView, Table.lookup_retain]
    exact map_entries_bind_sweep t _

end PortScanDetector

end Ocellus
