import Ocellus.Ids.DnsCounting

/-!
# Findings about known domains

A domain of the baseline is to be spared the inspection of its name. The engine skips
the one it makes itself, but hands the payload of the query to the DNS detector all
the same, which inspects the name in it again. So a known name is reported whenever
there is something to find (`known_spared_iff`), just not twice.
-/

namespace Ocellus

namespace IdsEngine

variable {libs : Libs} {t : Instants} {pkt : RawPacket} {tm : TransportMeta}
  {e e' : IdsEngine libs} {r : IdsResult} {name : Str}

/-- **Which known domains are spared**: the result for a DNS packet that queries a name
which the baseline knows is free of findings about names exactly if there is nothing to
find about the name. -/
theorem known_spared_iff (htm : pkt.transport = some tm)
    (hname : dnsQueryName pkt tm = .ok (some name))
    (hknown : e.baseline.isKnownDns libs.lower name = true)
    (h : analyze t pkt e = .ok (r, e')) :
    (∀ s ∈ r.signals, isNameFinding s = false) ↔
      ¬ DnsDetector.IsAnomalous name ∧ ¬ DnsDetector.HasSuspiciousTld libs.lower name := by
  have hperm := findings_perm htm hname h
  rw [if_pos hknown, List.nil_append] at hperm
  rw [← DnsDetector.nameSignals_eq_nil_iff]
  constructor
  · intro hnone
    have hnil : r.signals.filter isNameFinding = [] :=
      List.filter_eq_nil_iff.mpr fun s hs => Bool.eq_false_iff.mp (hnone s hs)
    rw [hnil] at hperm
    exact hperm.symm.eq_nil
  · intro hnil
    rw [hnil] at hperm
    exact fun s hs => Bool.eq_false_iff.mpr (List.filter_eq_nil_iff.mp hperm.eq_nil s hs)

/-- An engine that has learned `a.org`. -/
def familiar : IdsEngine .plain :=
  new (.new (some { BaselineState.empty with
    commonDnsDomains := {"a.org".toList}, learnedAt := 1 }) 0) (fun _ => none) .new

/-- The query for `A.org`. -/
def orgQuery : Bytes :=
  [0#8, 1#8, 1#8, 0#8, 0#8, 1#8, 0#8, 0#8, 0#8, 0#8, 0#8, 0#8, 1#8, 0x41#8, 3#8, 0x6F#8, 0x72#8,
    0x67#8, 0#8, 0#8, 1#8, 0#8, 1#8]

/-- Nothing is reported about `A.org`. -/
theorem known_spared_iff_org :
    ∃ r e', analyze ⟨0, 0, 0, 0⟩ (queryPacket orgQuery (by decide)) familiar = .ok (r, e') ∧
      ∀ s ∈ r.signals, isNameFinding s = false := by
  obtain ⟨⟨r, e'⟩, h, -⟩ := analyze_returns (bounded_new _ (fun _ => none) .new) (by decide)
    ⟨0, 0, 0, 0⟩ (queryPacket orgQuery (by decide))
  have hname : dnsQueryName (queryPacket orgQuery (by decide)) queryMeta
      = .ok (some "A.org".toList) := by decide +kernel
  have hknown : familiar.baseline.isKnownDns Libs.plain.lower "A.org".toList = true := by decide
  exact ⟨r, e', h, (known_spared_iff rfl hname hknown h).mpr (by decide +kernel)⟩

/-- **A known domain that is reported**: an engine that is learning sees the query for
`a.xyz`, and reports the abused TLD when it sees it again. -/
theorem known_xyz_reported :
    (analyze ⟨0, 0, 0, 0⟩ (queryPacket xyzQuery (by decide))
      (new (.new none 0) (fun _ => none) .new : IdsEngine .plain)).Returns fun p =>
        p.2.baseline.isKnownDns Libs.plain.lower "a.xyz".toList = true ∧
        (analyze ⟨1, 1, 1, 1⟩ (queryPacket xyzQuery (by decide)) p.2).Returns fun q =>
          DnsDetector.suspiciousTldSignal "xyz".toList ∈ q.1.signals := by
  decide +kernel

end IdsEngine

end Ocellus
