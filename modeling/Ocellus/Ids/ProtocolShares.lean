import Ocellus.Ids.Baseline
import Mathlib.Tactic.Linarith
import Mathlib.Tactic.NormNum

/-!
# The shares of the protocols

`protocol_dist` keeps a moving average per protocol. An observation moves the
average of its own protocol towards 1 and leaves the others where they are, so a
weight depends on how often its protocol was observed and on nothing else: after
`n` observations it is `1 - 0.999 ^ n` (`lookup_protocolDist`). Each weight lies
in `[0, 1]`, but together they are shares of a whole only as long as
`Concentrated` holds of the counts (`isDistribution_iff`).
-/

namespace Ocellus

/-- The weights lie in `[0, 1]` and add up to at most 1. -/
def IsDistribution (dist : Table U8 ℚ) : Prop :=
  (∀ p w, dist.lookup p = some w → 0 ≤ w ∧ w ≤ 1) ∧ dist.values.sum ≤ 1

/-- The number of protocols exceeds the sum of `0.999 ^ n` over them, with `n`
the number of times each was observed, by at most 1. -/
def Concentrated (ps : List U8) : Prop :=
  (ps.toFinset.card : ℚ) ≤ 1 + ∑ p ∈ ps.toFinset, (999 / 1000 : ℚ) ^ ps.count p

namespace Baseline

/-- A baseline after a sequence of observed protocols. -/
def observeProtocols (ps : List U8) (b : Baseline) : Baseline :=
  ps.foldl (fun b p => b.observeProtocol p) b

theorem observeProtocols_concat (ps : List U8) (p : U8) (b : Baseline) :
    b.observeProtocols (ps ++ [p]) = (b.observeProtocols ps).observeProtocol p :=
  List.foldl_concat ..

/-- The weight of a protocol observed `n` times. -/
def weight (n : Nat) : ℚ := 1 - (999 / 1000) ^ n

theorem weight_succ (n : Nat) : EMA_ALPHA + (1 - EMA_ALPHA) * weight n = weight (n + 1) := by
  unfold weight EMA_ALPHA
  ring

theorem weight_nonneg (n : Nat) : 0 ≤ weight n :=
  sub_nonneg.mpr (pow_le_one₀ (by norm_num) (by norm_num))

theorem weight_le_one (n : Nat) : weight n ≤ 1 := by
  have : (0 : ℚ) ≤ (999 / 1000) ^ n := by positivity
  unfold weight
  linarith

variable {b : Baseline}

/-- **Each protocol on its own**: a weight is given by the number of observations
of its protocol. -/
theorem lookup_protocolDist (hb : b.state.protocolDist = ∅) (ps : List U8) (p : U8) :
    (b.observeProtocols ps).state.protocolDist.lookup p
      = if p ∈ ps then some (weight (ps.count p)) else none := by
  induction ps using List.reverseRecOn with
  | nil =>
    show b.state.protocolDist.lookup p = none
    rw [hb]
    rfl
  | append_singleton ps q ih =>
    rw [observeProtocols_concat]
    show ((b.observeProtocols ps).state.protocolDist.insert q _).lookup p = _
    rw [Table.lookup_insert_eq]
    by_cases hpq : p = q
    · subst hpq
      have hold : ((b.observeProtocols ps).state.protocolDist.lookup p).getD 0
          = weight (ps.count p) := by
        rw [ih]
        split
        · rfl
        · rename_i hnew
          rw [List.count_eq_zero.mpr hnew]
          simp [weight]
      have hcount : (ps ++ [p]).count p = ps.count p + 1 := by simp
      rw [if_pos rfl, if_pos (by simp), hold, weight_succ, hcount]
    · -- the other weights stay
      have hmem : p ∈ ps ++ [q] ↔ p ∈ ps := by simp [hpq]
      have hcount : (ps ++ [q]).count p = ps.count p := by
        simp [Ne.symm hpq]
      rw [if_neg hpq, ih, hcount]
      exact if_congr hmem.symm rfl rfl

theorem toFinset_keys_protocolDist (hb : b.state.protocolDist = ∅) (ps : List U8) :
    (b.observeProtocols ps).state.protocolDist.keys.toFinset = ps.toFinset := by
  ext p
  rw [List.mem_toFinset, List.mem_toFinset, ← AList.mem_keys, ← AList.lookup_isSome,
    lookup_protocolDist hb]
  by_cases hp : p ∈ ps <;> simp [hp]

/-- The weights add up to the number of protocols less what is still missing from
each. -/
theorem sum_protocolDist (hb : b.state.protocolDist = ∅) (ps : List U8) :
    (b.observeProtocols ps).state.protocolDist.values.sum
      = ps.toFinset.card - ∑ p ∈ ps.toFinset, (999 / 1000 : ℚ) ^ ps.count p := by
  rw [Table.sum_values, toFinset_keys_protocolDist hb]
  have hweights : ∀ p ∈ ps.toFinset,
      ((b.observeProtocols ps).state.protocolDist.lookup p).getD 0 = weight (ps.count p) := by
    intro p hp
    rw [lookup_protocolDist hb, if_pos (List.mem_toFinset.mp hp), Option.getD_some]
  rw [Finset.sum_congr rfl hweights]
  simp [weight]

/-- **When the weights are a distribution**: after any sequence of observations
on an empty distribution, exactly if the sequence is concentrated on few enough
protocols. -/
theorem isDistribution_iff (hb : b.state.protocolDist = ∅) (ps : List U8) :
    IsDistribution (b.observeProtocols ps).state.protocolDist ↔ Concentrated ps := by
  have hrange : ∀ p w, (b.observeProtocols ps).state.protocolDist.lookup p = some w →
      0 ≤ w ∧ w ≤ 1 := by
    intro p w hw
    rw [lookup_protocolDist hb] at hw
    split at hw
    · cases hw
      exact ⟨weight_nonneg _, weight_le_one _⟩
    · cases hw
  unfold IsDistribution Concentrated
  rw [sum_protocolDist hb, sub_le_iff_le_add]
  exact and_iff_right hrange

theorem isDistribution_iff_tcp :
    IsDistribution ((new none 0).observeProtocols [6#8]).state.protocolDist
      ↔ Concentrated [6#8] :=
  isDistribution_iff rfl [6#8]

/-- **Weights that add up to more than 1**: 700 observations of TCP, then 700 of
UDP. -/
theorem not_isDistribution_tcp_udp :
    ¬ IsDistribution ((new none 0).observeProtocols
      (List.replicate 700 6#8 ++ List.replicate 700 17#8)).state.protocolDist := by
  rintro ⟨-, hsum⟩
  have hset : (List.replicate 700 6#8 ++ List.replicate 700 17#8).toFinset
      = ({6#8, 17#8} : Finset U8) := by
    rw [List.toFinset_append, List.toFinset_replicate_of_ne_zero (by decide),
      List.toFinset_replicate_of_ne_zero (by decide)]
    rfl
  have htcp : (List.replicate 700 6#8 ++ List.replicate 700 17#8).count 6#8 = 700 := by
    rw [List.count_append, List.count_replicate_self, List.count_replicate]
    rfl
  have hudp : (List.replicate 700 6#8 ++ List.replicate 700 17#8).count 17#8 = 700 := by
    rw [List.count_append, List.count_replicate_self, List.count_replicate]
    rfl
  have hhalf : (999 / 1000 : ℚ) ^ 700 < 1 / 2 := by
    rw [show 700 = 175 * 4 from rfl, pow_mul]
    norm_num
  rw [sum_protocolDist rfl, hset, Finset.sum_pair (by decide), Finset.card_pair (by decide),
    htcp, hudp] at hsum
  generalize (999 / 1000 : ℚ) ^ 700 = x at hhalf hsum
  push_cast at hsum
  linarith

end Baseline

end Ocellus
