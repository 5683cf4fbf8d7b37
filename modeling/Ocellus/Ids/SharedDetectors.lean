import Ocellus.Base.Linearization
import Ocellus.Ids.Accesses
import Ocellus.Ids.ConcurrentAnalysis

/-!
# What the calls ask the detectors

Workers and sweeper take turns on one engine, and time passes between their accesses
(`IdsEngine.clocked`). A call of `analyze` is not atomic, and neither are the port-scan and
the SYN-flood detector. But the entry of a source or of a port in one of their tables is: a
call asks it once, and all else that goes on leaves it alone, or sweeps it. So the entry is
a component behind a `Front`, and has a history of its own.

`Asked` is what there is to show of a front. `Asked.asks` then says of every job what its
result tells of the answer it was given.
-/

namespace Ocellus

/-- The readings of an access at the time `now`. -/
def Instants.reading (now : Nat) (system : Int) : Instants := ⟨now, now, now, system⟩

namespace IdsEngine

variable {libs : Libs}

/-- Workers and sweeper take turns on an engine that is `e₀` at first, and each access
happens some time after the last one. -/
def clocked (e₀ : IdsEngine libs) :
    TransitionSystem (Pool (Nat × Int) (Nat × IdsEngine libs) (Option IdsResult) Duty) :=
  Pool.system (fun duty => duty.program.timed Instants.reading) (0, e₀)

/-! ## The signals of a call -/

/-- The signals of a result are those of the three detectors, and others. -/
structure Makes (signals : List Signal) (rate ports : Option Signal) (tcp : List Signal) :
    Prop where
  ofRate : Graded (some .rateExceeded) rate.toList
  ofPorts : Graded (some .portScan) ports.toList
  ofTcp : Graded (some .synFlood) tcp
  all : ∃ ss, Aside ss ∧ signals.Perm (rate.toList ++ (ports.toList ++ (tcp ++ ss)))

namespace Makes

variable {signals : List Signal} {rate ports : Option Signal} {tcp : List Signal}

theorem rate_subset (h : Makes signals rate ports tcp) : rate.toList ⊆ signals := by
  obtain ⟨ss, -, hall⟩ := h.all
  exact fun s hs => hall.mem_iff.mpr (List.mem_append_left _ hs)

end Makes

/-! ## Programs on the engine that ask -/

variable {D A O : Type} {C : Component D A O} {F : Front (IdsEngine libs) Duty C}
  {duty : Duty} {pkt : RawPacket} {tm : TransportMeta} {α β : Type}

/-- An access that asks nothing. -/
def Sparing (F : Front (IdsEngine libs) Duty C) (t : Instants) (e e' : IdsEngine libs) : Prop :=
  ∀ clock now system, clock ≤ now → t = .reading now system →
    ∀ d, F.shows d (clock, e) → F.shows d (now, e') ∨ F.shows (C.sweep now d) (now, e')

/-- The program asks at most once. -/
abbrev Asking (F : Front (IdsEngine libs) Duty C) (duty : Duty)
    (post : α → Option (Nat × O) → Prop) (p : Program libs α) (lo : Nat)
    (c : Option (Nat × O)) : Prop := F.Asks duty post (p.timed Instants.reading) lo c

variable {post : α → Option (Nat × O) → Prop} {post' : β → Option (Nat × O) → Prop}
  {p : Program libs α} {lo : Nat} {c : Option (Nat × O)}

theorem Asking.bind {f : α → Program libs β} (h : Asking F duty post p lo c)
    (hf : ∀ a lo c, post a c → Asking F duty post' (f a) lo c) :
    Asking F duty post' (p >>= f) lo c := by
  unfold Asking
  rw [Prog.timed_bind]
  exact Front.Asks.bind h hf

theorem asking_of_sparing {returns : α → Prop} (h : Prog.Within (Sparing F) returns p)
    (hpost : ∀ a, returns a → post a c) : Asking F duty post p lo c := by
  refine Front.asks_of_within h.timed (fun i s s' hs => ⟨hs.1, ?_⟩) hpost
  exact hs.2 s.1 s'.1 i.2 hs.1 rfl

/-- What is true of all that is returned, whatever the accesses. -/
theorem Asking.and_returns {returns : α → Prop} (h : Asking F duty post p lo c)
    (hreturns : Prog.Within (fun _ _ _ => True) returns p) :
    Asking F duty (fun a c => post a c ∧ returns a) p lo c :=
  Front.Asks.and_within h hreturns.timed

/-! ## Calls that ask -/

/-- A call asks one of its detectors. -/
theorem analyzeProgram_asking (h : Allows (Sparing F)) (htm : pkt.transport = some tm)
    {rated : Option Signal → Option (Nat × O) → Prop}
    {scanned : Option Signal → Option Signal → Option (Nat × O) → Prop}
    {told : Option Signal → Option Signal → List Signal → Option (Nat × O) → Prop}
    (hrate : ∀ lo, Asking F duty rated (rateProgram pkt tm) lo none)
    (hports : ∀ rate lo c, rated rate c → Asking F duty (scanned rate) (portsProgram tm) lo c)
    (htcp : ∀ rate ports lo c, scanned rate ports c →
      Asking F duty (told rate ports) (tcpProgram tm) lo c) (lo : Nat) :
    Asking F duty
      (fun r c => ∃ rate ports tcp, Makes r.signals rate ports tcp ∧ told rate ports tcp c)
      (analyzeProgram pkt) lo none := by
  have hlisted : ∀ ip lo, Asking F duty
      (fun o c => c = none ∧ Graded (some .blacklisted) o.toList)
      (Prog.read fun e => e.blacklist.checkIp ip) lo none :=
    fun ip lo => asking_of_sparing
      (h.readSignals fun e => Blacklist.graded_checkIp ip e.blacklist) fun _ hss => ⟨rfl, hss⟩
  have hsame : AllowsPorts tm (fun _ _ _ => True : Instants → IdsEngine libs → _ → Prop) :=
    ⟨fun _ _ _ _ => trivial, fun _ _ _ _ => trivial⟩
  have hflows : AllowsFlows tm (fun _ _ _ => True : Instants → IdsEngine libs → _ → Prop) :=
    ⟨fun _ _ _ _ => trivial, fun _ _ _ => trivial⟩
  have hany : Allows (fun _ _ _ => True : Instants → IdsEngine libs → _ → Prop) :=
    ⟨fun _ _ => trivial, fun _ _ _ => trivial⟩
  unfold analyzeProgram
  rw [htm]
  have hdetect : Asking F duty (fun f c => ∃ rate ports tcp, Makes f.signals rate ports tcp ∧
      told rate ports tcp c) (detectProgram pkt tm) lo none := by
    refine (hlisted tm.srcIp lo).bind fun src lo c hsrc => ?_
    obtain ⟨rfl, hsrc⟩ := hsrc
    refine (hlisted tm.dstIp lo).bind fun dst lo c hdst => ?_
    obtain ⟨rfl, hdst⟩ := hdst
    refine ((hrate lo).and_returns (rateProgram_bids fun _ _ _ _ => trivial)).bind
      fun rate lo c hrate => ?_
    refine ((hports rate lo c hrate.1).and_returns hsame.ports).bind fun ports lo c hports => ?_
    refine ((htcp rate ports lo c hports.1).and_returns
      (hany.tcp hflows fun _ _ => ratioProgram_bids fun _ _ _ _ => trivial)).bind
      fun tcp lo c htcp => .ret ?_
    let others := icmpSignals tm ++ (fragmentSignals tm ++ truncationSignals pkt)
    refine ⟨rate, ports, tcp, ⟨hrate.2, hports.2, htcp.2, src.toList ++ (dst.toList ++ others),
      ?_, ?_⟩, htcp.1⟩
    · refine (aside_of_graded hsrc (by decide)).append ((aside_of_graded hdst (by decide)).append ?_)
      refine (aside_of_graded (graded_icmpSignals tm) (by decide)).append ?_
      exact (aside_of_graded (graded_fragmentSignals tm) (by decide)).append
        (aside_of_graded (graded_truncationSignals pkt) (by decide))
    · have hswap := List.perm_append_comm_assoc (src.toList ++ dst.toList)
        (rate.toList ++ (ports.toList ++ tcp)) others
      simp only [List.append_assoc] at hswap
      simp only [Findings.note_signals, Findings.raise_signals, List.append_assoc]
      exact hswap
  refine hdetect.bind fun f lo c hf => asking_of_sparing (h.rest f) fun r hr => ?_
  obtain ⟨rate, ports, tcp, hmakes, htold⟩ := hf
  obtain ⟨ss', hperm, hss'⟩ := hr
  obtain ⟨ss, hss, hall⟩ := hmakes.all
  refine ⟨rate, ports, tcp, ⟨hmakes.ofRate, hmakes.ofPorts, hmakes.ofTcp, ss ++ ss', hss.append hss', ?_⟩,
    htold⟩
  rw [← List.append_assoc tcp, ← List.append_assoc ports.toList, ← List.append_assoc rate.toList]
  exact hperm.trans (hall.append_right ss')

/-! ## Fronts -/

/-- What there is to show of a front: a call that finds `rate`, `ports` and `tcp` was
answered as `told` says, and everything else asks nothing. -/
structure Asked (F : Front (IdsEngine libs) Duty C)
    (told : RawPacket → TransportMeta → Option Signal → Option Signal → List Signal →
      Option (Nat × O) → Prop) : Prop where
  allows : Allows (Sparing F)
  sweep : ∀ lo, F.Asks .sweep (fun _ _ => True) (sweepProgram.timed Instants.reading) lo none
  detects : ∀ pkt tm, pkt.transport = some tm →
    ∃ (rated : Option Signal → Option (Nat × O) → Prop)
      (scanned : Option Signal → Option Signal → Option (Nat × O) → Prop),
    (∀ lo, Asking F (.packet pkt) rated (rateProgram pkt tm) lo none) ∧
    (∀ rate lo c, rated rate c →
      Asking F (.packet pkt) (scanned rate) (portsProgram tm) lo c) ∧
    ∀ rate ports lo c, scanned rate ports c →
      Asking F (.packet pkt) (told pkt tm rate ports) (tcpProgram tm) lo c

/-- What the result of a job tells of the answer it was given. -/
def Tells (told : RawPacket → TransportMeta → Option Signal → Option Signal → List Signal →
    Option (Nat × O) → Prop) (job : Job Duty (Nat × IdsEngine libs)) (result : Option IdsResult)
    (c : Option (Nat × O)) : Prop :=
  ∀ pkt tm, job.task = .packet pkt → pkt.transport = some tm → ∃ r rate ports tcp,
    result = some r ∧ Makes r.signals rate ports tcp ∧ told pkt tm rate ports tcp c

variable {told : RawPacket → TransportMeta → Option Signal → Option Signal → List Signal →
    Option (Nat × O) → Prop}

/-- The jobs ask as the front says. -/
theorem Asked.asks (h : Asked F told) (job : Job Duty (Nat × IdsEngine libs)) (lo : Nat) :
    F.Asks job.task (Tells told job) (job.task.program.timed Instants.reading) lo none := by
  obtain ⟨task, since⟩ := job
  cases task with
  | sweep =>
    show F.Asks _ _ ((sweepProgram >>= fun _ => pure none : Program libs _).timed _) _ _
    rw [Prog.timed_bind]
    exact (h.sweep lo).bind fun _ lo c _ => .ret fun pkt tm htask => nomatch htask
  | packet pkt =>
    cases htm : pkt.transport with
    | none =>
      have hlocal : Does (Sparing F) ((Duty.packet pkt).program : Program libs _) := by
        have hanalyze : Does (Sparing F) (analyzeProgram pkt : Program libs IdsResult) := by
          unfold analyzeProgram
          rw [htm]
          exact does_lift _
        exact hanalyze.bind fun r _ => does_pure _
      refine asking_of_sparing hlocal fun r _ pkt' tm htask htm' => ?_
      cases htask
      cases htm.symm.trans htm'
    | some tm =>
      obtain ⟨rated, scanned, hrate, hports, htcp⟩ := h.detects pkt tm htm
      refine (analyzeProgram_asking h.allows htm hrate hports htcp lo).bind fun r lo c hr => .ret ?_
      intro pkt' tm' htask htm'
      cases htask
      cases htm.symm.trans htm'
      obtain ⟨rate, ports, tcp, hmakes, htold⟩ := hr
      exact ⟨r, rate, ports, tcp, rfl, hmakes, htold⟩

end IdsEngine

end Ocellus
