import Ocellus.Ids.Grades

/-!
# How strongly each detector reacts

The strength of a list of signals is its highest score, and 0 when it is empty.
For each detector that bids for the `flag_reason` of a packet, this module says
on which inputs and states it reaches which strength.
-/

namespace Ocellus

/-- The score of a signal, as a number. -/
def Signal.points (s : Signal) : ℚ :=
  match s.score with
  | .fin q => q
  | .nan => 0

/-- The highest score of the signals. -/
def strength (ss : List Signal) : ℚ := (ss.map Signal.points).foldr max 0

@[simp] theorem strength_nil : strength [] = 0 := rfl

@[simp] theorem strength_cons (s : Signal) (ss : List Signal) :
    strength (s :: ss) = max s.points (strength ss) := rfl

theorem strength_nonneg (ss : List Signal) : 0 ≤ strength ss := by
  induction ss with
  | nil => exact le_refl 0
  | cons s ss ih => exact le_max_of_le_right ih

@[simp] theorem strength_append (ss ss' : List Signal) :
    strength (ss ++ ss') = max (strength ss) (strength ss') := by
  induction ss with
  | nil => exact (max_eq_right (strength_nonneg ss')).symm
  | cons s ss ih => rw [List.cons_append, strength_cons, strength_cons, ih, max_assoc]

theorem points_le_strength {s : Signal} {ss : List Signal} (h : s ∈ ss) :
    s.points ≤ strength ss := by
  induction ss with
  | nil => cases h
  | cons s' ss ih =>
    rcases List.mem_cons.mp h with rfl | h
    · exact le_max_left _ _
    · exact le_max_of_le_right (ih h)

/-- A positive strength is that of a signal. -/
theorem exists_points_eq_strength {ss : List Signal} (h : 0 < strength ss) :
    ∃ s ∈ ss, s.points = strength ss := by
  induction ss with
  | nil => exact absurd h (lt_irrefl 0)
  | cons s ss ih =>
    rw [strength_cons]
    rcases le_total s.points (strength ss) with hle | hle
    · rw [strength_cons, max_eq_right hle] at h
      obtain ⟨s', hs', heq⟩ := ih h
      exact ⟨s', List.mem_cons_of_mem s hs', heq.trans (max_eq_right hle).symm⟩
    · exact ⟨s, List.mem_cons_self .., (max_eq_left hle).symm⟩

/-- Signals of one score `q`, which fire on the condition `p`. -/
theorem strength_eq_ite {ss : List Signal} {q : ℚ} {p : Prop} [Decidable p] (hq : 0 ≤ q)
    (h : ∀ s ∈ ss, s.points = q) (hp : ss ≠ [] ↔ p) : strength ss = if p then q else 0 := by
  by_cases hfires : p
  · obtain ⟨s, hs⟩ := List.exists_mem_of_ne_nil ss (hp.mpr hfires)
    rw [if_pos hfires]
    refine le_antisymm ?_ (h s hs ▸ points_le_strength hs)
    rcases (strength_nonneg ss).eq_or_lt with hzero | hpos
    · rw [← hzero]
      exact hq
    · obtain ⟨s', hs', heq⟩ := exists_points_eq_strength hpos
      exact heq.symm.le.trans (h s' hs').le
  · rw [if_neg hfires, not_not.mp (mt hp.mp hfires), strength_nil]

/-- One signal that fires on a condition. -/
theorem strength_ite {p : Prop} [Decidable p] {s : Signal} {q : ℚ} (hs : s.points = q)
    (hq : 0 ≤ q) : strength (if p then [s] else []) = if p then q else 0 := by
  refine strength_eq_ite hq (fun s' hs' => ?_) (by simp)
  split at hs'
  · rw [List.mem_singleton.mp hs', hs]
  · cases hs'

/-- At most one signal. -/
theorem strength_toList {o : Option Signal} {q : ℚ} {p : Prop} [Decidable p] (hq : 0 ≤ q)
    (h : ∀ s, o = some s → s.points = q) (hp : o ≠ none ↔ p) :
    strength o.toList = if p then q else 0 := by
  refine strength_eq_ite hq (fun s hs => h s (Option.mem_toList.mp hs)) (Iff.trans ?_ hp)
  cases o <;> simp

namespace Graded

variable {reason : Option FlagReason} {ss : List Signal}

theorem score_eq (h : Graded reason ss) {s : Signal} (hs : s ∈ ss) :
    s.score = .fin s.points ∧ 0 < s.points ∧ s.points ≤ 90 := by
  obtain ⟨-, q, hq, hpos, hle⟩ := h s hs
  have hpoints : s.points = q := by
    unfold Signal.points
    rw [hq]
  rw [hpoints]
  exact ⟨hq, hpos, hle⟩

theorem strength_le (h : Graded reason ss) : strength ss ≤ 90 := by
  rcases (strength_nonneg ss).eq_or_lt with hzero | hpos
  · rw [← hzero]
    norm_num
  · obtain ⟨s, hs, heq⟩ := exists_points_eq_strength hpos
    rw [← heq]
    exact (h.score_eq hs).2.2

/-- Only the detectors that fire have a strength. -/
theorem strength_eq_zero_iff (h : Graded reason ss) : strength ss = 0 ↔ ss = [] := by
  constructor
  · intro hzero
    refine List.eq_nil_iff_forall_not_mem.mpr fun s hs => ?_
    have hle := points_le_strength hs
    have hpos := (h.score_eq hs).2.1
    linarith
  · rintro rfl
    rfl

end Graded

/-! ## The detectors -/

namespace Blacklist

variable {bloom : BloomFilter U32}

theorem strength_checkIp (ip : IpAddr) (b : Blacklist bloom) :
    strength (b.checkIp ip).toList = if (b.checkIp ip).isSome then 90 else 0 := by
  refine strength_toList (by norm_num) (fun s h => ?_) Option.isSome_iff_ne_none.symm
  unfold checkIp at h
  split at h
  · cases h
  · split at h
    · cases h
      rfl
    · split at h
      · cases h
        rfl
      · cases h

theorem strength_checkDomain (lower : Str → Str) (domain : Str) (b : Blacklist bloom) :
    strength (b.checkDomain lower domain).toList
      = if (b.checkDomain lower domain).isSome then 80 else 0 := by
  refine strength_toList (by norm_num) (fun s h => ?_) Option.isSome_iff_ne_none.symm
  unfold checkDomain at h
  split at h
  · cases h
    rfl
  · cases h

end Blacklist

namespace RateLimiter

variable {fp : Rounding}

/-- A packet exceeds a rate of its source: there is no token for it, or with it
the source has sent too many bytes or opened too many connections. -/
def Exceeds (now : Nat) (ip : IpAddr) (pktBytes : Nat) (isSyn : Bool) (d : RateLimiter fp) :
    Prop :=
  let b := (d.buckets.lookup ip).getD (Bucket.new capacity now)
  b.refilled fp pktRate capacity now < 1 ∨
    bytesRate < (b.resetWindow fp windowSecs now).bytes + pktBytes ∨
    isSyn = true ∧ connRate < (b.resetWindow fp windowSecs now).connections + 1

instance (now : Nat) (ip : IpAddr) (pktBytes : Nat) (isSyn : Bool) (d : RateLimiter fp) :
    Decidable (Exceeds now ip pktBytes isSyn d) := inferInstanceAs (Decidable (_ ∨ _))

theorem verdict_ne_none {ip : IpAddr} {isSyn w : Bool} {b : Bucket} :
    verdict ip isSyn w b ≠ none ↔
      w = false ∨ bytesRate < b.bytes ∨ isSyn = true ∧ connRate < b.connections := by
  unfold verdict
  cases w with
  | false => simp
  | true =>
    by_cases hbytes : bytesRate < b.bytes
    · simp [hbytes]
    · simp [hbytes]

theorem strength_inspect {now : Nat} {ip : IpAddr} {pktBytes : Nat} {isSyn : Bool}
    {d : RateLimiter fp} {r : Option Signal × RateLimiter fp}
    (h : inspect now ip pktBytes isSyn d = .ok r) :
    strength r.1.toList = if Exceeds now ip pktBytes isSyn d then 40 else 0 := by
  obtain ⟨b', hb, -⟩ := inspect_eq_ok (p := ⟨ip, pktBytes, isSyn⟩) h
  have hspec := inspectBucket_eq_ok hb
  rw [hspec.signal]
  refine strength_toList (by norm_num) (fun s hs => ?_) ?_
  · unfold verdict at hs
    split at hs
    · cases hs
      rfl
    · split at hs
      · cases hs
        rfl
      · split at hs
        · cases hs
          rfl
        · cases hs
  · rw [verdict_ne_none, hspec.bytes, hspec.connections, decide_eq_false_iff_not, not_le]
    refine or_congr_right (or_congr_right (and_congr_right fun hsyn => ?_))
    have hone : isSyn = true := hsyn
    rw [hone]
    rfl

end RateLimiter

namespace PortScanDetector

/-- With the call, the source has contacted 20 ports or the port has been hit by
50 sources. -/
def Scans (hasher : IpAddr → BitVec 64) (now : Nat) (ip : IpAddr) (port : U16)
    (d : PortScanDetector) : Prop :=
  portThreshold ≤ ((d.portsOf ip).insert now port).1 ∨
    srcThreshold ≤ ((d.srcsOf port).insert now (ipHash hasher ip)).1

instance (hasher : IpAddr → BitVec 64) (now : Nat) (ip : IpAddr) (port : U16)
    (d : PortScanDetector) : Decidable (Scans hasher now ip port d) :=
  inferInstanceAs (Decidable (_ ∨ _))

theorem strength_inspect (hasher : IpAddr → BitVec 64) (now : Nat) (ip : IpAddr) (port : U16)
    (d : PortScanDetector) :
    strength (inspect hasher now ip port d).1.toList
      = if Scans hasher now ip port d then 60 else 0 := by
  refine strength_toList (by norm_num) (fun s hs => ?_) ?_
  · rcases inspect_cases hasher now ip port d with ⟨-, h⟩ | ⟨-, h⟩
    · rw [h] at hs
      cases hs
      rfl
    · rw [h] at hs
      dsimp only at hs
      split at hs
      · cases hs
        rfl
      · cases hs
  · unfold Scans
    rcases inspect_cases hasher now ip port d with ⟨hh, h⟩ | ⟨hh, h⟩
    · rw [h]
      exact iff_of_true (Option.some_ne_none _) (.inl hh)
    · rw [h]
      refine Iff.trans ?_ (or_iff_right hh).symm
      show (if 50 ≤ _ then _ else none) ≠ none ↔ 50 ≤ _
      split
      · rename_i hv
        exact iff_of_true (Option.some_ne_none _) hv
      · rename_i hv
        exact iff_of_false (not_not.mpr rfl) hv

end PortScanDetector

namespace SynFloodDetector

variable {fp : Rounding}

/-- How strongly the detector reacts to a segment. -/
def segmentStrength (now : Nat) (p : Segment) (d : SynFloodDetector fp) : ℚ :=
  let halfOpen := trackHalfOpen now p d.halfOpen
  if flooding fp (counted now p d) then 65
  else if p.flags = TCP_XMAS then 55
  else if halfOpenThreshold ≤ Table.len halfOpen then 50
  else if p.isRst && (halfOpen.lookup p.flowKey).isNone && (halfOpen.lookup p.revKey).isNone then 25
  else 0

theorem strength_segmentSignals (now : Nat) (p : Segment) (d : SynFloodDetector fp) :
    strength (segmentSignals now p d) = segmentStrength now p d := by
  unfold segmentSignals otherSignals segmentStrength
  rw [strength_append, strength_append, strength_append,
    strength_ite (q := 65) rfl (by norm_num), strength_ite (q := 50) rfl (by norm_num),
    strength_ite (q := 25) rfl (by norm_num), strength_ite (q := 55) rfl (by norm_num)]
  dsimp only
  split_ifs <;> norm_num

end SynFloodDetector

namespace PayloadScanner

/-- The highest score of the rules matched in a payload. -/
def matchStrength (ac : AhoCorasick patterns) (payload : Bytes) : ℚ :=
  if ∃ r ∈ matched ac payload, r.score = .fin 70 then 70
  else if ∃ r ∈ matched ac payload, r.score = .fin 40 then 40
  else if matched ac payload ≠ [] then 35
  else 0

/-- The signals of the rules `rs`, where no rule scores higher than one of score
`q`. -/
theorem strength_eq_of_max {rs : List PayloadRule} {signals : List Signal} {q : ℚ}
    (hgraded : Graded (some .payloadSig) signals)
    (hsound : ∀ s ∈ signals, ∃ r ∈ rs, r.name = s.name ∧ r.score = s.score)
    (hcomplete : ∀ r ∈ rs, ∃ s ∈ signals, r.name = s.name ∧ r.score = s.score)
    (hmax : ∃ r ∈ rs, r.score = .fin q) (hle : ∀ r ∈ rs, ∀ q', r.score = .fin q' → q' ≤ q) :
    strength signals = q := by
  obtain ⟨r, hr, hscore⟩ := hmax
  obtain ⟨s, hs, -, heq⟩ := hcomplete r hr
  have hpoints : .fin s.points = F32.fin q :=
    (hgraded.score_eq hs).1.symm.trans (heq.symm.trans hscore)
  have hsq : s.points = q := F32.fin.inj hpoints
  have hle' := points_le_strength hs
  refine le_antisymm ?_ (hsq ▸ hle')
  obtain ⟨s', hs', heq'⟩ :=
    exists_points_eq_strength ((hgraded.score_eq hs).2.1.trans_le hle')
  obtain ⟨r', hr', -, hscore'⟩ := hsound s' hs'
  rw [← heq']
  exact hle r' hr' s'.points (hscore'.trans (hgraded.score_eq hs').1)

theorem strength_scanAll {ac : AhoCorasick patterns} {payload : Bytes} {signals : List Signal}
    (h : scanAll ac payload = .ok signals) :
    strength signals = matchStrength ac payload ∧ Graded (some .payloadSig) signals := by
  obtain ⟨signals', hret, hsound, hcomplete⟩ := scanAll_returns ac payload
  rw [h] at hret
  obtain rfl := Except.ok.inj hret
  have hgraded := graded_scanAll hsound
  refine ⟨?_, hgraded⟩
  have hrules : ∀ r ∈ matched ac payload,
      r.score = .fin 35 ∨ r.score = .fin 40 ∨ r.score = .fin 70 :=
    fun r hr => (rules_graded r (mem_rules hr)).2
  unfold matchStrength
  split
  · rename_i h70
    refine strength_eq_of_max hgraded hsound hcomplete h70 fun r hr q hq => ?_
    rcases hrules r hr with h | h | h <;> rw [h] at hq <;> cases hq <;> norm_num
  · rename_i h70
    split
    · rename_i h40
      refine strength_eq_of_max hgraded hsound hcomplete h40 fun r hr q hq => ?_
      rcases hrules r hr with h | h | h
      · rw [h] at hq; cases hq; norm_num
      · rw [h] at hq; cases hq; norm_num
      · exact absurd ⟨r, hr, h⟩ h70
    · rename_i h40
      -- the weakest rules are all that is left
      have h35 : ∀ r ∈ matched ac payload, r.score = .fin 35 := by
        intro r hr
        rcases hrules r hr with h | h | h
        · exact h
        · exact absurd ⟨r, hr, h⟩ h40
        · exact absurd ⟨r, hr, h⟩ h70
      split
      · rename_i hne
        obtain ⟨r, hr⟩ := List.exists_mem_of_ne_nil _ hne
        refine strength_eq_of_max hgraded hsound hcomplete ⟨r, hr, h35 r hr⟩ fun r' hr' q hq => ?_
        rw [h35 r' hr'] at hq
        cases hq
        exact le_refl _
      · rename_i hnil
        refine hgraded.strength_eq_zero_iff.mpr (List.eq_nil_iff_forall_not_mem.mpr fun s hs => ?_)
        obtain ⟨r, hr, -⟩ := hsound s hs
        exact hnil (List.ne_nil_of_mem hr)

end PayloadScanner

namespace DnsDetector

/-- A label that is long or of high entropy. -/
def IsOddLabel (label : Str) : Prop := MAX_LABEL_LEN < label.len ∨ HighEntropy label.asBytes

instance (label : Str) : Decidable (IsOddLabel label) := inferInstanceAs (Decidable (_ ∨ _))

/-- A name with a sign of generated domains: it is long, or a label other than
the last is odd. -/
def IsAnomalous (name : Str) : Prop :=
  MAX_FQDN_LEN < (Str.trimEndDots name).len ∨
    ∃ label ∈ ((Str.trimEndDots name).splitOn '.').dropLast, IsOddLabel label

instance (name : Str) : Decidable (IsAnomalous name) := inferInstanceAs (Decidable (_ ∨ _))

/-- The last label of the name is a suspicious TLD. -/
def HasSuspiciousTld (lower : Str → Str) (name : Str) : Prop :=
  ∃ tld ∈ ((Str.trimEndDots name).splitOn '.').getLast?.toList, lower tld ∈ SUSPICIOUS_TLDS

instance (lower : Str → Str) (name : Str) : Decidable (HasSuspiciousTld lower name) :=
  inferInstanceAs (Decidable (∃ tld ∈ _, _))

/-- How strongly the detector reacts to a name. -/
def nameStrength (lower : Str → Str) (name : Str) : ℚ :=
  if IsAnomalous name then 45 else if HasSuspiciousTld lower name then 15 else 0

theorem points_labelSignals {label : Str} {s : Signal} (h : s ∈ labelSignals label) :
    s.points = 45 := by
  rcases List.mem_append.mp h with h | h
  · split at h
    · rw [List.mem_singleton.mp h]
      rfl
    · cases h
  · split at h
    · rw [List.mem_singleton.mp h]
      rfl
    · cases h

theorem labelSignals_ne_nil {label : Str} : labelSignals label ≠ [] ↔ IsOddLabel label := by
  unfold labelSignals IsOddLabel
  by_cases hlen : MAX_LABEL_LEN < label.len
  · simp [hlen]
  · simp [hlen]

theorem strength_nameSignals (lower : Str → Str) (name : Str) :
    strength (nameSignals lower name) = nameStrength lower name := by
  have htld : strength (tldSignals lower ((Str.trimEndDots name).splitOn '.'))
      = if HasSuspiciousTld lower name then 15 else 0 := by
    refine strength_eq_ite (by norm_num) (fun s hs => ?_) ?_
    · obtain ⟨tld, -, rfl⟩ := List.mem_map.mp hs
      rfl
    · simp [tldSignals, HasSuspiciousTld]
  have hlabels : strength (((Str.trimEndDots name).splitOn '.').dropLast.flatMap labelSignals)
      = if ∃ label ∈ ((Str.trimEndDots name).splitOn '.').dropLast, IsOddLabel label
        then 45 else 0 := by
    refine strength_eq_ite (by norm_num) (fun s hs => ?_) ?_
    · obtain ⟨label, -, hs⟩ := List.mem_flatMap.mp hs
      exact points_labelSignals hs
    · rw [Ne, List.flatMap_eq_nil_iff]
      simp only [← labelSignals_ne_nil, not_forall, exists_prop]
  unfold nameSignals nameStrength
  rw [strength_append, strength_append, strength_ite (q := 45) rfl (by norm_num), htld, hlabels]
  by_cases hlong : MAX_FQDN_LEN < (Str.trimEndDots name).len
  · have hanom : IsAnomalous name := .inl hlong
    rw [if_pos hlong, if_pos hanom]
    split_ifs <;> norm_num
  · rw [if_neg hlong]
    by_cases hodd : ∃ label ∈ ((Str.trimEndDots name).splitOn '.').dropLast, IsOddLabel label
    · have hanom : IsAnomalous name := .inr hodd
      rw [if_pos hodd, if_pos hanom]
      split_ifs <;> norm_num
    · have hanom : ¬ IsAnomalous name := not_or.mpr ⟨hlong, hodd⟩
      rw [if_neg hodd, if_neg hanom]
      split_ifs <;> norm_num

theorem strength_sizeSignals (payload : Bytes) :
    strength (sizeSignals payload) = if IsTunnel payload then 50 else 0 := by
  have hpoints : (tunnelSignal payload).points = 50 := by
    show (45 : ℚ) + 5 = 50
    norm_num
  exact strength_ite hpoints (by norm_num)

end DnsDetector

end Ocellus
