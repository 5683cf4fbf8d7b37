import Ocellus.Base.Clock
import Ocellus.Base.Component
import Mathlib.Data.Finset.Card

/-!
# Sets whose elements expire

A set of values seen within a window `w`, kept as a list of values with the time
each was first inserted: an insertion evicts what has expired and adds the value
if it is not there. A value seen again while it is there keeps its old time.

What such a set holds is therefore not what was *seen* within the window, but
what was *opened* in it: an observation opens its value when no earlier opening
of that value is less than `w` old. `openings` picks the openings out of a
history; `answer_iff` says that a threshold on the size of the set is a threshold
on the number of values opened, whatever sweeps took place in between.
-/

namespace Ocellus

namespace TtlSet

variable {α : Type} {w : Nat}

/-- The entries that have not expired at `now`. -/
def liveAt (w now : Nat) (l : List (α × Nat)) : List (α × Nat) :=
  l.filter fun e => durationSince now e.2 < w

/-- What is live later was live before. -/
theorem liveAt_liveAt {now later : Nat} (h : now ≤ later) (l : List (α × Nat)) :
    liveAt w later (liveAt w now l) = liveAt w later l := by
  unfold liveAt
  rw [List.filter_filter]
  refine List.filter_congr fun e _ => ?_
  simp only [durationSince]
  by_cases hlive : later - e.2 < w
  · simp [hlive, show now - e.2 < w by omega]
  · simp [hlive]

theorem liveAt_append (now : Nat) (l l' : List (α × Nat)) :
    liveAt w now (l ++ l') = liveAt w now l ++ liveAt w now l' := List.filter_append ..

theorem liveAt_now (hw : 0 < w) (now : Nat) (v : α) : liveAt w now [(v, now)] = [(v, now)] := by
  simp [liveAt, durationSince, hw]

variable [DecidableEq α]

/-- Evict what has expired, and add the value if it is not there. -/
def insert (w now : Nat) (v : α) (l : List (α × Nat)) : List (α × Nat) :=
  let kept := liveAt w now l
  if kept.any fun e => e.1 == v then kept else kept ++ [(v, now)]

/-- Add an observation to the openings before it, if it opens its value. -/
def openWith (w : Nat) (os : List (α × Nat)) (e : α × Nat) : List (α × Nat) :=
  if (liveAt w e.2 os).any fun o => o.1 == e.1 then os else os ++ [e]

/-- The observations of a history that open their value. -/
def openings (w : Nat) (h : List (α × Nat)) : List (α × Nat) := h.foldl (openWith w) []

theorem openings_concat (h : List (α × Nat)) (e : α × Nat) :
    openings w (h ++ [e]) = openWith w (openings w h) e := by
  simp [openings, List.foldl_append]

/-- The distinct values of a history observed within the window before `now`. -/
def seen (w now : Nat) (h : List (α × Nat)) : Finset α :=
  ((liveAt w now h).map Prod.fst).toFinset

/-- The distinct values of a history opened within the window before `now`. -/
def opened (w now : Nat) (h : List (α × Nat)) : Finset α := seen w now (openings w h)

theorem openings_subset (h : List (α × Nat)) : openings w h ⊆ h := by
  induction h using List.reverseRecOn with
  | nil => exact List.Subset.refl _
  | append_singleton h e ih =>
    rw [openings_concat]
    unfold openWith
    split
    · exact fun x hx => List.mem_append_left _ (ih hx)
    · rintro x hx
      rcases List.mem_append.mp hx with hx | hx
      · exact List.mem_append_left _ (ih hx)
      · exact List.mem_append_right _ hx

theorem mem_seen {now : Nat} {h : List (α × Nat)} {v : α} :
    v ∈ seen w now h ↔ ∃ t, (v, t) ∈ h ∧ durationSince now t < w := by
  simp [seen, liveAt]

/-- What was opened in the window was seen in it. -/
theorem opened_subset_seen (now : Nat) (h : List (α × Nat)) :
    opened w now h ⊆ seen w now h := by
  intro v hv
  obtain ⟨t, hmem, hlive⟩ := mem_seen.mp hv
  exact mem_seen.mpr ⟨t, openings_subset h hmem, hlive⟩

/-- Seeing the values through a function makes them no more numerous. -/
theorem card_seen_le_of_map {β : Type} [DecidableEq β] {f : β → α} {now : Nat}
    {h : List (α × Nat)} {h' : List (β × Nat)}
    (hback : ∀ e ∈ h, ∃ b, f b = e.1 ∧ (b, e.2) ∈ h') :
    (seen w now h).card ≤ (seen w now h').card := by
  have hsub : seen w now h ⊆ (seen w now h').image f := by
    intro v hv
    obtain ⟨t, hmem, hlive⟩ := mem_seen.mp hv
    obtain ⟨b, rfl, hb⟩ := hback _ hmem
    exact Finset.mem_image_of_mem f (mem_seen.mpr ⟨t, hb, hlive⟩)
  exact (Finset.card_le_card hsub).trans Finset.card_image_le

/-- Two openings of one value are at least a window apart. -/
theorem openings_apart (h : List (α × Nat)) :
    (openings w h).Pairwise fun e e' => e.1 = e'.1 → w ≤ durationSince e'.2 e.2 := by
  induction h using List.reverseRecOn with
  | nil => exact List.Pairwise.nil
  | append_singleton h e ih =>
    rw [openings_concat]
    unfold openWith
    split
    · exact ih
    · rename_i hnew
      refine List.pairwise_append.mpr ⟨ih, List.pairwise_singleton _ _, ?_⟩
      rintro o ho e' he' heq
      rw [List.mem_singleton.mp he'] at heq ⊢
      by_contra hlt
      refine hnew (List.any_eq_true.mpr ⟨o, ?_, by simpa using heq⟩)
      exact List.mem_filter.mpr ⟨ho, by simpa using Nat.lt_of_not_le hlt⟩

/-- Live openings are of distinct values. -/
theorem nodup_live_openings {now : Nat} {h : List (α × Nat)} (hnow : ∀ e ∈ h, e.2 ≤ now) :
    ((liveAt w now (openings w h)).map Prod.fst).Nodup := by
  unfold List.Nodup liveAt
  rw [List.pairwise_map, List.pairwise_filter]
  refine List.Pairwise.imp_of_mem ?_ (openings_apart h)
  intro e e' _ he' hapart hlive _ heq
  have hle := hnow e' (openings_subset h he')
  have hgap : w ≤ e'.2 - e.2 := hapart heq
  have hyoung : now - e.2 < w := of_decide_eq_true hlive
  omega

/-- The number of live openings is the number of values opened in the window. -/
theorem length_live_openings {now : Nat} {h : List (α × Nat)}
    (hnow : ∀ e ∈ h, e.2 ≤ now) :
    (liveAt w now (openings w h)).length = (opened w now h).card := by
  unfold opened seen
  rw [List.toFinset_card_of_nodup (nodup_live_openings hnow), List.length_map]

/-! ## The set tracks its openings -/

/-- From `c` on, the live part of `l` is the live part of the openings of `h`. -/
def Tracks (w c : Nat) (h l : List (α × Nat)) : Prop :=
  ∀ t, c ≤ t → liveAt w t l = liveAt w t (openings w h)

theorem Tracks.sweep {c t : Nat} {h l : List (α × Nat)} (hl : Tracks w c h l) (hc : c ≤ t) :
    Tracks w t h (liveAt w t l) := by
  intro t' ht'
  rw [liveAt_liveAt ht']
  exact hl t' (Nat.le_trans hc ht')

/-- After an insertion the set is exactly the live openings. -/
theorem Tracks.insert_eq {c t : Nat} {h l : List (α × Nat)} (hw : 0 < w)
    (hl : Tracks w c h l) (hc : c ≤ t) (v : α) :
    insert w t v l = liveAt w t (openings w (h ++ [(v, t)])) := by
  rw [openings_concat]
  unfold insert openWith
  rw [hl t hc]
  by_cases hany : ((liveAt w t (openings w h)).any fun o => o.1 == v) = true
  · simp only [hany, if_true]
  · simp only [hany, Bool.false_eq_true, if_false]
    rw [liveAt_append, liveAt_now hw]

theorem Tracks.insert {c t : Nat} {h l : List (α × Nat)} (hw : 0 < w)
    (hl : Tracks w c h l) (hc : c ≤ t) (v : α) :
    Tracks w t (h ++ [(v, t)]) (insert w t v l) := by
  intro t' ht'
  rw [hl.insert_eq hw hc v, liveAt_liveAt ht']

/-! ## A set with a threshold, as a component -/

/-- What a sweep leaves of a set: its live entries, or no set at all. -/
def sweep (w now : Nat) (l : List (α × Nat)) : Option (List (α × Nat)) :=
  if (liveAt w now l).isEmpty then none else some (liveAt w now l)

omit [DecidableEq α] in
theorem sweep_getD (now : Nat) (l : List (α × Nat)) :
    (sweep w now l).getD [] = liveAt w now l := by
  unfold sweep
  split
  · rename_i h
    exact (List.isEmpty_iff.mp h).symm
  · rfl

/-- A set that is created on demand, answers whether it has reached `threshold`
after each insertion, and is swept. -/
def component (w threshold : Nat) : Component (Option (List (α × Nat))) α Bool where
  inspect now v s :=
    let l := insert w now v (s.getD [])
    .ok (decide (threshold ≤ l.length), some l)
  sweep now s := s.bind (sweep w now)

/-- The observations of a trace. -/
def observations {ο : Type} (tr : List (Entry α ο)) : List (α × Nat) :=
  tr.filterMap fun
    | .inspect t v _ => some (v, t)
    | .sweep _ => none

omit [DecidableEq α] in
theorem observations_time_le {ο : Type} {tr : List (Entry α ο)} {c : Nat}
    (h : ∀ e ∈ tr, e.time ≤ c) : ∀ e ∈ observations tr, e.2 ≤ c := by
  intro e he
  obtain ⟨x, hx, hxe⟩ := List.mem_filterMap.mp he
  cases x with
  | inspect t v o =>
    cases hxe
    exact h _ hx
  | sweep t => cases hxe

variable {threshold : Nat}

theorem Run.tracks (hw : 0 < w) {tr : List (Entry α Bool)} {c : Nat}
    {s : Option (List (α × Nat))} (h : (component w threshold).Run none tr c s) :
    Tracks w c (observations tr) (s.getD []) := by
  induction h with
  | nil => exact fun _ _ => rfl
  | @inspect tr c t s s' v o _ hc hstep ih =>
    cases hstep
    have := ih.insert hw hc v
    simpa [observations] using this
  | @sweep tr c t s _ hc ih =>
    have hs : ((component w threshold).sweep t s).getD [] = liveAt w t (s.getD []) := by
      cases s with
      | none => rfl
      | some l => exact sweep_getD t l
    rw [hs]
    simpa [observations] using ih.sweep hc

/-- **A threshold on the set is a threshold on the values opened**: in every run,
a call is answered `true` exactly when, with its own observation, at least
`threshold` distinct values were opened within the window. -/
theorem answer_iff (hw : 0 < w) {tr : List (Entry α Bool)} {c t : Nat}
    {s s' : Option (List (α × Nat))} {v : α} {o : Bool}
    (h : (component w threshold).Run none tr c s) (hc : c ≤ t)
    (hstep : (component w threshold).inspect t v s = .ok (o, s')) :
    o = true ↔ threshold ≤ (opened w t (observations tr ++ [(v, t)])).card := by
  have hle : ∀ e ∈ observations tr ++ [(v, t)], e.2 ≤ t := by
    intro e he
    rcases List.mem_append.mp he with he | he
    · exact Nat.le_trans (observations_time_le h.time_le e he) hc
    · rw [List.mem_singleton.mp he]
  cases hstep
  rw [← length_live_openings hle, ← (Run.tracks hw h).insert_eq hw hc v]
  exact decide_eq_true_iff

end TtlSet

end Ocellus
