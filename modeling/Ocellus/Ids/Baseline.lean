import Ocellus.Base.Clock
import Ocellus.Base.Table
import Ocellus.Capture.RawPacket
import Mathlib.Data.Finset.Insert

/-!
# The adaptive baseline (`ids/baseline.rs`)

What has been seen on the network, and the phase: in `learning` everything is
observed, in `refinement` only clean traffic. A `SystemTime` is a number of
nanoseconds since the Unix epoch, which may be negative; the weights of the
protocol distribution are exact rationals. `lower` is `str::to_lowercase`.
-/

namespace Ocellus

def EMA_ALPHA : ℚ := 1 / 1000
/-- 30 minutes. -/
def LEARNING_DURATION : Nat := secs (30 * 60)

/-- The baseline state that is persisted. -/
structure BaselineState where
  commonPorts : Finset U16
  dstIps : Finset IpAddr
  countries : Finset Str
  commonDnsDomains : Finset Str
  protocolDist : Table U8 ℚ
  /-- Unix time in seconds at which learning ended; 0 before that. -/
  learnedAt : Nat

/-- What a baseline can know. -/
inductive Element where
  | port (port : U16)
  | dstIp (ip : IpAddr)
  | country (code : Str)
  | domain (domain : Str)
  | protocol (proto : U8)

namespace BaselineState

/-- `BaselineState::default()`. -/
def empty : BaselineState := ⟨∅, ∅, ∅, ∅, ∅, 0⟩

/-- An element is known; domains are kept in lower case, and a protocol is known that
has a share. -/
def Knows (s : BaselineState) : Element → Prop
  | .port port => port ∈ s.commonPorts
  | .dstIp ip => ip ∈ s.dstIps
  | .country code => code ∈ s.countries
  | .domain domain => domain ∈ s.commonDnsDomains
  | .protocol proto => proto ∈ s.protocolDist

end BaselineState

inductive Phase where
  /-- Observing; all traffic updates the baseline. -/
  | learning
  /-- Baseline updated only from clean traffic. -/
  | refinement
  deriving DecidableEq, Repr

/-- Runtime baseline. -/
structure Baseline where
  state : BaselineState
  phase : Phase
  learningStarted : Int

namespace Baseline

/-- `Baseline::new`, given what could be loaded from the persist path. -/
def new (loaded : Option BaselineState) (now : Int) : Baseline :=
  let state := loaded.getD .empty
  { state, phase := if 0 < state.learnedAt then .refinement else .learning,
    learningStarted := now }

def isLearning (b : Baseline) : Bool := b.phase == .learning

theorem isLearning_of_refinement {b : Baseline} (h : b.phase = .refinement) :
    b.isLearning = false := by
  rw [isLearning, h]
  rfl

/-- Advance to the refinement phase. -/
def finishLearning (now : Int) (b : Baseline) : Baseline :=
  if b.phase = .learning then
    { b with phase := .refinement, state := { b.state with learnedAt := asSecs (systemSince now 0) } }
  else b

/-- Advance when the learning duration has elapsed. -/
def tickPhase (now : Int) (b : Baseline) : Baseline :=
  if b.isLearning = true ∧ LEARNING_DURATION ≤ systemSince now b.learningStarted then
    b.finishLearning now
  else b

/-! ## Observation -/

def observePort (port : U16) (b : Baseline) : Baseline :=
  { b with state := { b.state with commonPorts := insert port b.state.commonPorts } }

def observeDstIp (ip : IpAddr) (b : Baseline) : Baseline :=
  { b with state := { b.state with dstIps := insert ip b.state.dstIps } }

def observeCountry (code : Str) (b : Baseline) : Baseline :=
  { b with state := { b.state with countries := insert code b.state.countries } }

def observeDns (lower : Str → Str) (domain : Str) (b : Baseline) : Baseline :=
  { b with
    state := { b.state with commonDnsDomains := insert (lower domain) b.state.commonDnsDomains } }

/-- An exponential moving average of the share of a protocol. -/
def observeProtocol (proto : U8) (b : Baseline) : Baseline :=
  let weight := (b.state.protocolDist.lookup proto).getD 0
  { b with
    state := { b.state with
      protocolDist := b.state.protocolDist.insert proto (EMA_ALPHA + (1 - EMA_ALPHA) * weight) } }

/-! ## Checks -/

def isKnownPort (port : U16) (b : Baseline) : Bool := decide (port ∈ b.state.commonPorts)

def isKnownCountry (code : Str) (b : Baseline) : Bool := decide (code ∈ b.state.countries)

def isKnownDns (lower : Str → Str) (domain : Str) (b : Baseline) : Bool :=
  decide (lower domain ∈ b.state.commonDnsDomains)

def Knows (b : Baseline) (x : Element) : Prop := b.state.Knows x

end Baseline

end Ocellus
