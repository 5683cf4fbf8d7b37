import Ocellus.Base.Sort
import Ocellus.Capture.RawPacket
import Mathlib.Tactic.FinCases

/-!
# The scoring model (`ids/score.rs`)

Per-signal weights, severity thresholds, and the aggregated `IdsResult`.

A signal's `detail` is the formatted text of the alert. `Detail` keeps the
arguments of the `format!` call, one constructor per format string, so that two
signals with equal details render to equal texts.
-/

namespace Ocellus

open F32 (fin)

/-! ## Thresholds and weights -/

def THRESHOLD_INFO : F32 := fin 30
def THRESHOLD_WARNING : F32 := fin 60
def THRESHOLD_ALERT : F32 := fin 85

def SCORE_BLACKLIST_IP : F32 := fin 90
def SCORE_BLACKLIST_DOMAIN : F32 := fin 80
def SCORE_PAYLOAD_SIG : F32 := fin 70
def SCORE_SYN_FLOOD : F32 := fin 65
def SCORE_PORT_SCAN : F32 := fin 60
def SCORE_HALF_OPEN_HIGH : F32 := fin 50
def SCORE_DNS_ANOMALY : F32 := fin 45
def SCORE_RATE_EXCEEDED : F32 := fin 40
def SCORE_GEO_ANOMALY : F32 := fin 35
def SCORE_UNUSUAL_PORT_NETWORK : F32 := fin 30
def SCORE_UNUSUAL_PORT_GLOBAL : F32 := fin 20

/-- Added to the total when two or more signals fire on the same packet. -/
def CORRELATION_BONUS : F32 := fin 10

/-! ## Signals -/

/-- The static names of the signals, which are strings in snake case in the source. -/
inductive SignalName where
  | blacklistedIp | blacklistedCidr | blacklistedDomain
  | rateExceededPackets | rateExceededBytes | rateExceededConnections
  | portScanHorizontal | portScanVertical
  | synFlood | halfOpenHigh | rstInjection | xmasScan
  | icmpUnusualType | ipFragmentation | packetTruncated
  | geoNewCountry
  | nopSled | infiniteJmpLoop | metasploitPayloadMarker | log4shellJndi
  | phpWebshellEvalB64 | phpPassthru | cmdExec | reverseShellSh | csBeaconMz
  | mimikatzSekurlsa | mimikatzLsadump | sqliOr1eq1 | sqliUnionSelect
  | pathTraversalPasswd | ssrfAwsMetadata
  | dnsLongFqdn | dnsSuspiciousTld | dnsLongLabel | dnsHighEntropy
  | dnsTunnelLargeResponse
  | unusualPort | vlanReservedId
  deriving DecidableEq, Repr

/-- The arguments of the `format!` call behind a signal's `detail`. -/
inductive Detail where
  /-- `IP {} matched blacklist`. -/
  | ipMatched (ip : IpAddr)
  /-- `IP {} matched CIDR blacklist`. -/
  | cidrMatched (ip : IpAddr)
  /-- `Domain '{}' matched blacklist`. -/
  | domainMatched (domain : Str)
  /-- `{} exceeded packet rate ({}/s)`. -/
  | packetRate (src : IpAddr) (rate : ℚ)
  /-- `{} sent {} bytes this window (limit {} B/s)`. -/
  | byteRate (src : IpAddr) (bytes limit : Nat)
  /-- `{} opened {} connections this window (limit {})`. -/
  | connRate (src : IpAddr) (connections limit : Nat)
  /-- `{} contacted {} distinct ports in {}s window`. -/
  | portsContacted (src : IpAddr) (count secs : Nat)
  /-- `port {} hit by {} distinct sources in {}s window`. -/
  | portHit (port : U16) (count secs : Nat)
  /-- `{} SYN/ACK ratio {:.1} ({} SYNs, {} ACKs)`. -/
  | synAckRatio (src : IpAddr) (ratio : ℚ) (syns acks : Nat)
  /-- `{} half-open connections tracked`. -/
  | halfOpen (count : Nat)
  /-- `RST from {} with no tracked SYN`. -/
  | rst (src : IpAddr)
  /-- `Xmas scan flags (FIN+PSH+URG) from {}`. -/
  | xmas (src : IpAddr)
  /-- `Unusual ICMP type {} code {}`. -/
  | icmp (type code : U8)
  /-- `Fragmented packet: offset={}, MF={}, DF={}`. -/
  | fragment (offset : U16) (mf df : Bool)
  /-- `Captured {} of {} bytes`. -/
  | truncated (capLen origLen : U32)
  /-- `First-seen country '{}' for IP {}`. -/
  | country (code : Str) (ip : IpAddr)
  /-- `Payload signature '{}' matched at offset {}`. -/
  | payload (rule : SignalName) (offset : Nat)
  /-- `FQDN length {} exceeds threshold {}`. -/
  | fqdnLength (length threshold : Nat)
  /-- `Rare/abused TLD: .{}`. -/
  | tld (tld : Str)
  /-- `DNS label '{}' length {} > {}`. -/
  | labelLength (label : Str) (length threshold : Nat)
  /-- `DNS label '{}' entropy {:.2} (threshold {:.2}) — likely DGA`; the entropy
  printed is that of the label. -/
  | labelEntropy (label : Str) (threshold : ℚ)
  /-- `DNS response {} bytes (≥{}) — possible tunnel`. -/
  | tunnel (length threshold : Nat)
  /-- `Port {} not seen in baseline`. -/
  | port (port : U16)
  /-- `Reserved VLAN ID {}`. -/
  | vlan (id : U16)
  deriving DecidableEq, Repr

/-- A single scored detection signal. -/
structure Signal where
  name : SignalName
  score : F32
  detail : Detail
  deriving DecidableEq

/-! ## Severity and results -/

/-- Severity band of a packet's total score. -/
inductive Severity where
  | info
  | warning
  | alert
  | critical
  deriving DecidableEq, Repr

def Severity.fromScore (score : F32) : Severity :=
  if THRESHOLD_ALERT ≤ score then
    if fin 95 ≤ score then .critical else .alert
  else if THRESHOLD_WARNING ≤ score then .warning
  else .info

/-- Aggregated result for one packet. -/
structure IdsResult where
  totalScore : F32
  severity : Severity
  flagReason : FlagReason
  signals : List Signal
  deriving DecidableEq

namespace IdsResult

/-- The comparison `from_signals` sorts by: descending score, panicking on NaN. -/
def byScoreDesc (a b : Signal) : Checked Ordering :=
  Checked.unwrap (F32.partialCmp b.score a.score)

/-- Build a result from a list of signals: sum the scores, add the correlation
bonus for two or more, cap at 100, sort by descending score. -/
def fromSignals (signals : List Signal) (flagReason : FlagReason) : Checked IdsResult := do
  let base := F32.sum (signals.map Signal.score)
  let bonus := if 2 ≤ signals.length then CORRELATION_BONUS else fin 0
  let totalScore := F32.min (base + bonus) (fin 100)
  let sorted ← sortBy byScoreDesc signals
  return { totalScore, severity := Severity.fromScore totalScore, flagReason,
           signals := sorted }

/-- The total score is below the Info threshold. -/
def isClean (r : IdsResult) : Bool := decide (r.totalScore < THRESHOLD_INFO)

/-- The signals of a result are those it was built from. -/
theorem signals_perm {signals : List Signal} {flag : FlagReason} {r : IdsResult}
    (h : fromSignals signals flag = .ok r) : r.signals.Perm signals := by
  obtain ⟨sorted, hsorted, h⟩ := Checked.bind_eq_ok.mp h
  cases h
  exact sortBy_perm hsorted

/-! ## `fromSignals` on finite scores -/

theorem byScoreDesc_fin {a b : Signal} (ha : a.score.IsFin) (hb : b.score.IsFin) :
    ∃ o, byScoreDesc a b = .ok o ∧ (b.score ≤ a.score ↔ o ≠ .gt) := by
  obtain ⟨p, hp⟩ := ha
  obtain ⟨q, hq⟩ := hb
  refine ⟨if q < p then .lt else if q = p then .eq else .gt, ?_, ?_⟩
  · simp [byScoreDesc, hp, hq, F32.partialCmp, Checked.unwrap]
  · rw [hp, hq, F32.fin_le]
    by_cases hlt : q < p
    · simp [hlt, hlt.le]
    · by_cases heq : q = p
      · simp [heq]
      · have hgt : ¬ q ≤ p := fun hle => hlt (lt_of_le_of_ne hle heq)
        simp [hlt, heq, hgt]

/-- The order of `signals` in a result. -/
def sortSignals (signals : List Signal) : List Signal :=
  signals.insertionSort fun a b => b.score ≤ a.score

/-- On finite scores no comparison fails, and the sort is Mathlib's. -/
theorem sortBy_byScoreDesc {signals : List Signal} (h : ∀ s ∈ signals, s.score.IsFin) :
    sortBy byScoreDesc signals = .ok (sortSignals signals) :=
  sortBy_eq_insertionSort fun x hx y hy => byScoreDesc_fin (h x hx) (h y hy)

theorem mem_sortSignals {signals : List Signal} {s : Signal} :
    s ∈ sortSignals signals ↔ s ∈ signals := List.mem_insertionSort _

/-- What `fromSignals` returns when it returns. -/
theorem fromSignals_returns {signals : List Signal} (flag : FlagReason)
    (h : ∀ s ∈ signals, s.score.IsFin) :
    (fromSignals signals flag).Returns fun r =>
      r.flagReason = flag ∧ r.signals = sortSignals signals := by
  unfold fromSignals
  rw [sortBy_byScoreDesc h]
  exact .ok ⟨rfl, rfl⟩

end IdsResult

end Ocellus
