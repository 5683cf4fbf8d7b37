import Ocellus.Base.Transition
import Ocellus.Ids.Baseline

/-!
# The baseline on disk (`Baseline::new`, `Baseline::persist`)

The baseline is kept in a file, as JSON. `SerdeJson` is the library that writes
and reads it; a state may be written as any of several texts, since the order of
a `HashSet` is not determined. The file is what `read_to_string` makes of it:
`none` when it is not there or is not text.

`Exec` is the calls on the baseline of a process, with a restart as one of them.
A call of `tick_phase` that ends the learning phase reads the clock twice.
-/

namespace Ocellus

/-- What is used of `serde_json`, on the type of the persisted state. -/
structure SerdeJson where
  /-- `to_string_pretty` may return this text. -/
  ToStringPretty : BaselineState → Str → Prop
  /-- `from_str`. -/
  fromStr : Str → Option BaselineState

namespace SerdeJson

/-- What was written is read back. -/
def Restores (json : SerdeJson) : Prop :=
  ∀ s text, json.ToStringPretty s text → json.fromStr text = some s

/-- A text that ends too early is rejected. -/
def RejectsPrefixes (json : SerdeJson) : Prop :=
  ∀ s text p, json.ToStringPretty s text → p <+: text → p ≠ text → json.fromStr p = none

end SerdeJson

/-- The baseline of the running process, and the file. -/
structure Host where
  baseline : Baseline
  file : Option Str

namespace Host

variable {json : SerdeJson} {lower : Str → Str}

/-- A process starts: `Baseline::new` on the path of the file. -/
def start (json : SerdeJson) (file : Option Str) (now : Int) : Host :=
  ⟨.new (file.bind json.fromStr) now, file⟩

/-- `persist`, when the write succeeds. -/
def Persists (json : SerdeJson) (h h' : Host) : Prop :=
  ∃ text, json.ToStringPretty h.baseline.state text ∧ h' = { h with file := some text }

/-- `finish_learning`. -/
def FinishesLearning (json : SerdeJson) (now : Int) (h h' : Host) : Prop :=
  if h.baseline.phase = .learning then
    Persists json { h with baseline := h.baseline.finishLearning now } h'
  else h' = h

/-- The test of `tick_phase`: the learning duration has elapsed. -/
def LearningElapsed (now : Int) (h : Host) : Prop :=
  h.baseline.isLearning = true ∧ LEARNING_DURATION ≤ systemSince now h.baseline.learningStarted

instance (now : Int) (h : Host) : Decidable (LearningElapsed now h) :=
  inferInstanceAs (Decidable (_ ∧ _))

/-- The calls on a baseline, with the clock readings of each. -/
inductive Call where
  | observePort (port : U16)
  | observeDstIp (ip : IpAddr)
  | observeCountry (code : Str)
  | observeDns (domain : Str)
  | observeProtocol (proto : U8)
  | tickPhase (elapsed finish : Int)
  | finishLearning (now : Int)
  | persist
  /-- The process ends, and another one starts. -/
  | restart (now : Int)

/-- What a call does. -/
def Exec (json : SerdeJson) (lower : Str → Str) (h h' : Host) : Call → Prop
  | .observePort port => h' = { h with baseline := h.baseline.observePort port }
  | .observeDstIp ip => h' = { h with baseline := h.baseline.observeDstIp ip }
  | .observeCountry code => h' = { h with baseline := h.baseline.observeCountry code }
  | .observeDns domain => h' = { h with baseline := h.baseline.observeDns lower domain }
  | .observeProtocol proto => h' = { h with baseline := h.baseline.observeProtocol proto }
  | .tickPhase elapsed finish =>
    if LearningElapsed elapsed h then FinishesLearning json finish h h' else h' = h
  | .finishLearning now => FinishesLearning json now h h'
  | .persist => Persists json h h'
  | .restart now => h' = start json h.file now

/-- The clock reading with which a call ends the learning phase, if it does. -/
def Call.endsLearning (h : Host) : Call → Option Int
  | .tickPhase elapsed finish => if LearningElapsed elapsed h then some finish else none
  | .finishLearning now => if h.baseline.phase = .learning then some now else none
  | _ => none

/-- A call that writes the file. -/
def Call.Saves (h : Host) (c : Call) : Prop := c = .persist ∨ (c.endsLearning h).isSome = true

/-- **Inversion of a call**: it ends the learning phase and writes the file, or
writes the file, or starts a new process, or leaves the file and the phase alone
and only adds to what is known. -/
theorem Exec.cases {h h' : Host} {c : Call} (hexec : Exec json lower h h' c) :
    (∃ now, c.endsLearning h = some now ∧ h.baseline.phase = .learning ∧
      Persists json { h with baseline := h.baseline.finishLearning now } h') ∨
    (c = .persist ∧ Persists json h h') ∨
    (∃ now, c = .restart now ∧ h' = start json h.file now) ∨
    (¬ c.Saves h ∧ h'.file = h.file ∧ h'.baseline.phase = h.baseline.phase ∧
      h'.baseline.state.learnedAt = h.baseline.state.learnedAt ∧
      ∀ x, h.baseline.Knows x → h'.baseline.Knows x) := by
  have hidle : ∀ {c : Call}, c ≠ .persist → c.endsLearning h = none → ¬ c.Saves h := by
    rintro c hne hnone (hsave | hsave)
    · exact hne hsave
    · rw [hnone] at hsave
      cases hsave
  have hfinishes : ∀ now, h.baseline.phase = .learning → FinishesLearning json now h h' →
      Persists json { h with baseline := h.baseline.finishLearning now } h' := by
    intro now hphase hfinish
    rwa [FinishesLearning, if_pos hphase] at hfinish
  -- observing only inserts, and nothing but a finished learning phase saves
  cases c with
  | observePort _ | observeDstIp _ | observeCountry _ | observeDns _ =>
    refine .inr (.inr (.inr ⟨hidle nofun rfl, ?_⟩))
    subst hexec
    refine ⟨rfl, rfl, rfl, fun x hx => ?_⟩
    cases x <;> first | exact hx | exact Finset.mem_insert_of_mem hx
  | observeProtocol proto =>
    refine .inr (.inr (.inr ⟨hidle nofun rfl, ?_⟩))
    subst hexec
    refine ⟨rfl, rfl, rfl, fun x hx => ?_⟩
    cases x <;> first | exact hx | exact (AList.mem_insert _).mpr (.inr hx)
  | tickPhase elapsed finish =>
    by_cases helapsed : LearningElapsed elapsed h
    · have hphase : h.baseline.phase = .learning := of_decide_eq_true helapsed.1
      rw [Exec, if_pos helapsed] at hexec
      exact .inl ⟨finish, if_pos helapsed, hphase, hfinishes finish hphase hexec⟩
    · rw [Exec, if_neg helapsed] at hexec
      subst hexec
      exact .inr (.inr (.inr ⟨hidle nofun (if_neg helapsed), rfl, rfl, rfl, fun x hx => hx⟩))
  | finishLearning now =>
    by_cases hphase : h.baseline.phase = .learning
    · exact .inl ⟨now, if_pos hphase, hphase, hfinishes now hphase hexec⟩
    · rw [Exec, FinishesLearning, if_neg hphase] at hexec
      subst hexec
      exact .inr (.inr (.inr ⟨hidle nofun (if_neg hphase), rfl, rfl, rfl, fun x hx => hx⟩))
  | persist => exact .inr (.inl ⟨rfl, hexec⟩)
  | restart now => exact .inr (.inr (.inl ⟨now, rfl, hexec⟩))

end Host

/-! ## The texts of two states -/

namespace SerdeJson

/-- A baseline that knows the port 443 and nothing else. -/
def sampleState (learnedAt : Nat) : BaselineState :=
  { BaselineState.empty with commonPorts := {443#16}, learnedAt }

/-- One of the 24 hourly buckets, none of which is ever updated. -/
def sampleHour : Str :=
  "    \x7b\n      \"avg_packet_rate\": 0.0,\n      \"avg_bytes_rate\": 0.0,\n      \"samples\": 0\n    \x7d".toList

@[irreducible] def sampleHead : Str :=
  "\x7b\n  \"common_ports\": [\n    443\n  ],\n  \"dst_ips\": [],\n  \"countries\": [],\n  \"common_dns_domains\": [],\n  \"protocol_dist\": \x7b\x7d,\n  \"hourly\": [\n".toList
    ++ [',', '\n'].intercalate (List.replicate 24 sampleHour) ++ "\n  ],\n  \"learned_at\": ".toList

@[irreducible] def sampleTail : Str := ",\n  \"ring_buffer_recommended\": 0\n\x7d".toList

/-- Its text, pretty-printed. -/
def sampleText (learnedAt : Nat) : Str :=
  sampleHead ++ (Nat.toDigits 10 learnedAt ++ sampleTail)

theorem sampleText_inj {m n : Nat} (h : sampleText m = sampleText n) :
    Nat.toDigits 10 m = Nat.toDigits 10 n :=
  List.append_left_injective _ (List.append_right_injective _ h)

/-- The library on the texts of this baseline before it has learned, and when it
has learned one second after the epoch. -/
def sample : SerdeJson where
  ToStringPretty s text :=
    s = sampleState 0 ∧ text = sampleText 0 ∨ s = sampleState 1 ∧ text = sampleText 1
  fromStr text :=
    if text = sampleText 0 then some (sampleState 0)
    else if text = sampleText 1 then some (sampleState 1) else none

theorem sampleText_ne_nil (n : Nat) : sampleText n ≠ [] := by
  have htail : sampleTail ≠ [] := by
    unfold sampleTail
    decide
  exact List.append_ne_nil_of_right_ne_nil _ (List.append_ne_nil_of_right_ne_nil _ htail)

theorem sampleText_ne : sampleText 1 ≠ sampleText 0 := by
  intro h
  have hdigits := sampleText_inj h
  revert hdigits
  decide

theorem sample_restores : sample.Restores := by
  rintro s text (⟨rfl, rfl⟩ | ⟨rfl, rfl⟩)
  · exact if_pos rfl
  · exact (if_neg sampleText_ne).trans (if_pos rfl)

theorem sample_rejectsPrefixes : sample.RejectsPrefixes := by
  rintro s text p htext hpart hne
  have hlen : ∀ n, n = 0 ∨ n = 1 → (sampleText n).length
      = sampleHead.length + (1 + sampleTail.length) := by
    intro n hn
    have hdigit : (Nat.toDigits 10 n).length = 1 := by
      rcases hn with rfl | rfl <;> decide
    rw [sampleText, List.length_append, List.length_append, hdigit]
  have htextLen : text.length = sampleHead.length + (1 + sampleTail.length) := by
    rcases htext with ⟨-, rfl⟩ | ⟨-, rfl⟩
    · exact hlen 0 (.inl rfl)
    · exact hlen 1 (.inr rfl)
  have hshort : ∀ n, n = 0 ∨ n = 1 → p ≠ sampleText n := by
    rintro n hn rfl
    exact hne (hpart.eq_of_length ((hlen n hn).trans htextLen.symm))
  show (if _ then _ else if _ then _ else _) = _
  rw [if_neg (hshort 0 (.inl rfl)), if_neg (hshort 1 (.inr rfl))]

end SerdeJson

end Ocellus
