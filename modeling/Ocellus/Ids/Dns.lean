import Ocellus.Base.Entropy
import Ocellus.Base.Utf8
import Ocellus.Ids.Score

/-!
# DNS anomalies (`ids/dns.rs`)

Domain-generation heuristics (length, entropy), abused TLDs, and large responses
as a sign of tunnels. The detector has no state. Every index and slice of the
payload and every counter of a byte is checked; the entropy is compared with its
threshold exactly (`Entropy.exceeds_iff`). `lower` is `str::to_lowercase`.
-/

namespace Ocellus

open Checked (index)

/-- `ENTROPY_THRESHOLD`, 3.5 bits, as a fraction. -/
def ENTROPY_THRESHOLD : Nat × Nat := (7, 2)
def MAX_LABEL_LEN : Nat := 40
def MAX_FQDN_LEN : Nat := 128
/-- Response size from which a tunnel is suspected. -/
def DNS_TUNNEL_BYTES : Nat := 400

/-- TLDs with disproportionately high abuse rates. -/
def SUSPICIOUS_TLDS : List Str :=
  ["xyz", "top", "click", "link", "work", "date", "review", "stream", "gdn", "racing", "download",
    "win", "bid", "loan", "online", "science", "party", "trade"].map String.toList

/-! ## Entropy -/

/-- The counters of `shannon_entropy`, one `u32` for each byte value. -/
def countBytes (data : Bytes) : Checked (List Nat) :=
  data.foldlM (fun counts b => do
    let c ← Checked.add 32 (← index counts b.toNat) 1
    return counts.set b.toNat c) (List.replicate 256 0)

/-- `shannon_entropy(data) > ENTROPY_THRESHOLD`. -/
def highEntropy (data : Bytes) : Checked Bool :=
  if data = [] then .ok false
  else do
    let counts ← countBytes data
    return decide (Entropy.Exceeds ENTROPY_THRESHOLD.1 ENTROPY_THRESHOLD.2 counts)

/-! ## The query name -/

/-- What the loop of `extract_dns_query_name` finds at a position. -/
inductive DnsTurn where
  /-- The name runs out of the payload. -/
  | malformed
  /-- The final zero byte, or a compression pointer. -/
  | done
  /-- A label, and the position behind it. -/
  | label (label : Str) (next : Nat)

/-- One turn of the loop. -/
def dnsTurn (payload : Bytes) (pos : Nat) : Checked DnsTurn :=
  if payload.length ≤ pos then .ok .malformed
  else do
    let len := (← index payload pos).toNat
    if len = 0 then .ok .done
    -- pointer compression is not followed
    else if len &&& 0xC0 = 0xC0 then .ok .done
    else do
      let pos ← Checked.add 64 pos 1
      let next ← Checked.add 64 pos len
      if payload.length < next then .ok .malformed
      else do
        let label ← Checked.slice payload pos next
        return .label (Utf8.fromUtf8Lossy label) next

/-- A label takes at least two bytes. -/
theorem dnsTurn_label {payload : Bytes} {pos next : Nat} {label : Str}
    (h : dnsTurn payload pos = .ok (.label label next)) :
    pos < next ∧ next ≤ payload.length := by
  unfold dnsTurn at h
  split at h
  · cases h
  · obtain ⟨b, -, h⟩ := Checked.bind_eq_ok.mp h
    dsimp only at h
    split at h
    · cases h
    · split at h
      · cases h
      · obtain ⟨pos', hpos, h⟩ := Checked.bind_eq_ok.mp h
        obtain ⟨next', hnext, h⟩ := Checked.bind_eq_ok.mp h
        split at h
        · cases h
        · rename_i hfits
          obtain ⟨s, -, h⟩ := Checked.bind_eq_ok.mp h
          cases h
          have hpos := Checked.add_eq_ok hpos
          have hnext := Checked.add_eq_ok hnext
          omega

/-- The loop from `pos` on: the labels it collects. -/
def dnsLabels (payload : Bytes) (pos : Nat) : Checked (Option (List Str)) :=
  match _h : dnsTurn payload pos with
  | .error f => .error f
  | .ok .malformed => .ok none
  | .ok .done => .ok (some [])
  | .ok (.label label next) => (dnsLabels payload next).map (Option.map (label :: ·))
termination_by payload.length - pos
decreasing_by
  have := dnsTurn_label _h
  omega

/-- `extract_dns_query_name`. -/
def extractDnsQueryName (payload : Bytes) : Checked (Option Str) :=
  if payload.length < 12 then .ok none
  else do
    let qdcount := fromBeBytes (← index payload 4) (← index payload 5)
    if qdcount = 0#16 then .ok none
    else do
      match ← dnsLabels payload 12 with
      | none => .ok none
      | some labels => .ok (if labels = [] then none else some (['.'].intercalate labels))

/-! ## The detector -/

namespace DnsDetector

def longFqdnSignal (fqdn : Str) : Signal where
  name := .dnsLongFqdn
  score := SCORE_DNS_ANOMALY
  detail := .fqdnLength fqdn.len MAX_FQDN_LEN

def suspiciousTldSignal (tld : Str) : Signal where
  name := .dnsSuspiciousTld
  score := .fin 15
  detail := .tld tld

def longLabelSignal (label : Str) : Signal where
  name := .dnsLongLabel
  score := SCORE_DNS_ANOMALY
  detail := .labelLength label label.len MAX_LABEL_LEN

def highEntropySignal (label : Str) : Signal where
  name := .dnsHighEntropy
  score := SCORE_DNS_ANOMALY
  detail := .labelEntropy label (ENTROPY_THRESHOLD.1 / ENTROPY_THRESHOLD.2)

def tunnelSignal (payload : Bytes) : Signal where
  name := .dnsTunnelLargeResponse
  score := SCORE_DNS_ANOMALY + .fin 5
  detail := .tunnel payload.length DNS_TUNNEL_BYTES

/-- The checks of one label. -/
def inspectLabel (label : Str) : Checked (List Signal) := do
  let high ← highEntropy label.asBytes
  return (if MAX_LABEL_LEN < label.len then [longLabelSignal label] else [])
    ++ (if high then [highEntropySignal label] else [])

/-- The check of the last label, compared in lower case. -/
def tldSignals (lower : Str → Str) (labels : List Str) : List Signal :=
  (labels.getLast?.toList.filter fun tld => lower tld ∈ SUSPICIOUS_TLDS).map suspiciousTldSignal

/-- `inspect_name`. -/
def inspectName (lower : Str → Str) (fqdn : Str) : Checked (List Signal) := do
  let fqdn := Str.trimEndDots fqdn
  let labels := fqdn.splitOn '.'
  let long := if MAX_FQDN_LEN < fqdn.len then [longFqdnSignal fqdn] else []
  -- per-label checks skip the TLD
  let perLabel ← labels.dropLast.mapM inspectLabel
  return long ++ tldSignals lower labels ++ perLabel.flatten

/-- The tunnel heuristic: a large response with answers. -/
def inspectSize (payload : Bytes) : Checked (List Signal) :=
  if 6 < payload.length then do
    let flags := fromBeBytes (← index payload 2) (← index payload 3)
    let isResponse := flags &&& 0x8000#16 != 0#16
    let ancount := fromBeBytes (← index payload 6) (← index payload 7)
    return if isResponse = true ∧ 0#16 < ancount ∧ DNS_TUNNEL_BYTES ≤ payload.length then
      [tunnelSignal payload] else []
  else .ok []

/-- `inspect_payload`. -/
def inspectPayload (lower : Str → Str) (payload : Bytes) : Checked (List Signal) := do
  match ← extractDnsQueryName payload with
  | none => .ok []
  | some queryName => do
    let name ← inspectName lower queryName
    let size ← inspectSize payload
    return name ++ size

end DnsDetector

end Ocellus
