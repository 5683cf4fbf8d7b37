import Ocellus.Base.Fault
import Ocellus.Ids.Score
import Mathlib.Data.Finset.Insert

/-!
# The blacklist (`ids/blacklist.rs`)

Exact IPv4 addresses behind a Bloom pre-filter, CIDR ranges, and domains. The
Bloom filter is a library; of it the blacklist needs that it has no false
negatives, which `BloomFilter` says of any implementation. `lower` is
`str::to_lowercase`.
-/

namespace Ocellus

/-- A Bloom filter: it may hold more than was set, never less. -/
structure BloomFilter (α : Type) where
  Filter : Type
  new : Filter
  set : α → Filter → Filter
  check : Filter → α → Bool
  check_set_self : ∀ a f, check (set a f) a = true
  check_set : ∀ a b f, check f b = true → check (set a f) b = true

/-- A filter without false positives: the set itself. -/
def BloomFilter.exact (α : Type) [DecidableEq α] : BloomFilter α where
  Filter := List α
  new := []
  set a f := a :: f
  check f a := decide (a ∈ f)
  check_set_self _ _ := decide_eq_true (List.mem_cons_self ..)
  check_set a _ _ h := decide_eq_true (List.mem_cons_of_mem a (of_decide_eq_true h))

/-- Prefix entry for IP range matching. -/
structure CidrEntry where
  base : U32
  mask : U32
  deriving DecidableEq, Repr

namespace CidrEntry

/-- `!0u32 << (32 - prefix_len)`, but `0` for the empty prefix. -/
def maskOf (prefixLen : Nat) : Checked U32 :=
  if prefixLen = 0 then .ok 0#32
  else do Checked.shl (~~~0#32) (← Checked.sub 32 prefixLen)

/-- `CidrEntry::from_cidr`. -/
def fromCidr (s : Str) : Checked (Option CidrEntry) :=
  match Str.splitOnce '/' s with
  | none => .ok none
  | some (ipStr, prefixLenStr) =>
    match Str.parseU32 (Str.trim prefixLenStr) with
    | none => .ok none
    | some prefixLen =>
      match Str.parseIpv4Addr (Str.trim ipStr) with
      | none => .ok none
      | some ip => do
        let mask ← maskOf prefixLen
        return some ⟨ip &&& mask, mask⟩

def contains (e : CidrEntry) (ip : U32) : Bool := ip &&& e.mask == e.base

end CidrEntry

/-- Exact addresses, ranges and domains. Every exact address passes the Bloom
filter. -/
structure Blacklist (bloom : BloomFilter U32) where
  /-- Pre-filter for `ipExact`. -/
  ipBloom : bloom.Filter
  ipExact : Finset U32
  ipCidrs : List CidrEntry
  domains : Finset Str
  check_of_mem : ∀ a ∈ ipExact, bloom.check ipBloom a = true

namespace Blacklist

variable {bloom : BloomFilter U32}

def new : Blacklist bloom := ⟨bloom.new, ∅, [], ∅, fun _ h => absurd h (Finset.notMem_empty _)⟩

def ipSignal (ip : IpAddr) : Signal := ⟨.blacklistedIp, SCORE_BLACKLIST_IP, .ipMatched ip⟩

def cidrSignal (ip : IpAddr) : Signal := ⟨.blacklistedCidr, SCORE_BLACKLIST_IP, .cidrMatched ip⟩

def domainSignal (domain : Str) : Signal :=
  ⟨.blacklistedDomain, SCORE_BLACKLIST_DOMAIN, .domainMatched domain⟩

/-- `check_ip`. -/
def checkIp (ip : IpAddr) (b : Blacklist bloom) : Option Signal :=
  match ip with
  | .v6 _ => none -- the IPv6 blacklist is not populated
  | .v4 a =>
    if bloom.check b.ipBloom a ∧ a ∈ b.ipExact then some (ipSignal ip)
    else if b.ipCidrs.any fun e => e.contains a then some (cidrSignal ip)
    else none

/-- `check_domain`. -/
def checkDomain (lower : Str → Str) (domain : Str) (b : Blacklist bloom) : Option Signal :=
  if lower (Str.trimEndDots domain) ∈ b.domains then some (domainSignal domain) else none

/-! ## Loading -/

/-- `add_ip`. -/
def addIp (ip : U32) (b : Blacklist bloom) : Blacklist bloom :=
  { b with
    ipBloom := bloom.set ip b.ipBloom
    ipExact := insert ip b.ipExact
    check_of_mem := by
      intro a ha
      rcases Finset.mem_insert.mp ha with rfl | ha
      · exact bloom.check_set_self a b.ipBloom
      · exact bloom.check_set ip a b.ipBloom (b.check_of_mem a ha) }

/-- `add_cidr`. -/
def addCidr (s : Str) (b : Blacklist bloom) : Checked (Blacklist bloom) := do
  match ← CidrEntry.fromCidr s with
  | none => return b
  | some e => return { b with ipCidrs := b.ipCidrs ++ [e] }

/-- `add_domain`. -/
def addDomain (lower : Str → Str) (domain : Str) (b : Blacklist bloom) : Blacklist bloom :=
  { b with domains := insert (lower (Str.trimEndDots domain)) b.domains }

/-- What `load_ip_list` does with a line. -/
def loadIpLine (b : Blacklist bloom) (line : Str) : Checked (Blacklist bloom) :=
  let line := Str.trim line
  if line = [] ∨ line.head? = some ';' ∨ line.head? = some '#' then .ok b
  else if '/' ∈ line then b.addCidr line
  else match Str.parseIpv4Addr line with
    | some ip => .ok (b.addIp ip)
    | none => .ok b

/-- `load_ip_list`: load a newline-delimited list of addresses and ranges. -/
def loadIpList (content : Str) (b : Blacklist bloom) : Checked (Blacklist bloom) :=
  (Str.lines content).foldlM loadIpLine b

/-- `load_domain_list`: load a newline-delimited domain list. -/
def loadDomainList (lower : Str → Str) (content : Str) (b : Blacklist bloom) : Blacklist bloom :=
  (Str.lines content).foldl (fun b line =>
    let line := Str.trim line
    if line ≠ [] ∧ line.head? ≠ some '#' then b.addDomain lower line else b) b

end Blacklist

end Ocellus
