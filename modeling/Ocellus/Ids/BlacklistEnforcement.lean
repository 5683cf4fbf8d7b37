import Ocellus.Capture.Ipv4Frames
import Ocellus.Ids.DnsDecoding
import Ocellus.Ids.EngineSignals
import Ocellus.Ids.FeedLoading

/-!
# Blacklists are enforced

A capture is parsed and analyzed in one go, by `Capture.process`. In refinement a
frame that carries an IPv4 packet from or to a listed address is reported as
blacklisted, and a DNS message over UDP that asks for a listed domain, in any
spelling, is reported for the domain; neither is learned from
(`blacklists_enforced`). IPv6 extension headers are not parsed, and a query behind
one is missed (`hopByHop_missed`).
-/

namespace Ocellus

/-! ## Names in text and on the wire -/

/-- The labels as one string, with dots between them. -/
def dotted (labels : List DnsLabel) : Str :=
  ['.'].intercalate (labels.map fun l => l.bytes.map fun b => Char.ofNat b.toNat)

/-- All labels are ASCII. -/
def AsciiLabels (labels : List DnsLabel) : Prop := ∀ l ∈ labels, ∀ b ∈ l.bytes, b < 0x80#8

/-- The labels in lower case. -/
def loweredLabels (labels : List DnsLabel) : List Bytes :=
  labels.map fun l => l.bytes.map toAsciiLowercase

/-- `to_lowercase` of a string of ASCII characters. -/
def Libs.LowersAscii (libs : Libs) : Prop :=
  ∀ s : Str, (∀ c ∈ s, c.toNat < 0x80) → libs.lower s = s.map Char.toLower

theorem Libs.plain_lowersAscii : Libs.plain.LowersAscii := fun _ _ => rfl

theorem toAsciiLowercase_lt (b : U8) : toAsciiLowercase b < 0x80#8 ↔ b < 0x80#8 := by
  revert b
  decide +kernel

theorem toNat_ofNat_of_lt {b : U8} (h : b < 0x80#8) : (Char.ofNat b.toNat).toNat < 0x80 := by
  revert b
  decide +kernel

theorem toLower_ofNat {b : U8} (h : b < 0x80#8) :
    (Char.ofNat b.toNat).toLower = Char.ofNat (toAsciiLowercase b).toNat := by
  revert b
  decide +kernel

/-- Lowering makes no dot. -/
theorem toLower_beq_dot (c : Char) : (c.toLower == '.') = (c == '.') := by
  unfold Char.toLower
  split
  · rename_i h
    have hlow : 65 ≤ c.val.toNat := UInt32.le_iff_toNat_le.mp h.1
    have hhigh : c.val.toNat ≤ 90 := UInt32.le_iff_toNat_le.mp h.2
    have hval : (c.val + ('a'.val - 'A'.val)).toNat = c.val.toNat + 32 := by
      show (c.val + 32).toNat = _
      rw [UInt32.toNat_add, Nat.mod_eq_of_lt]
      · rfl
      · show c.val.toNat + 32 < _
        omega
    -- letters are above the dot
    have hne : ∀ d : Char, 46 < d.val.toNat → (d == '.') = false := by
      intro d hd
      refine beq_false_of_ne ?_
      rintro rfl
      exact absurd hd (by decide)
    rw [hne c (by omega)]
    exact hne _ (by show 46 < (c.val + ('a'.val - 'A'.val)).toNat; omega)
  · rfl

theorem map_toLower_trimEndDots (s : Str) :
    (Str.trimEndDots s).map Char.toLower = Str.trimEndDots (s.map Char.toLower) := by
  have hdot : ((· == '.') ∘ Char.toLower : Char → Bool) = (· == '.') := funext toLower_beq_dot
  unfold Str.trimEndDots List.rdropWhile
  rw [← List.map_reverse (l := s), List.dropWhile_map, hdot, List.map_reverse]

/-- The text of ASCII labels, in lower case. -/
theorem map_toLower_dotted {labels : List DnsLabel} (h : AsciiLabels labels) :
    (dotted labels).map Char.toLower
      = ['.'].intercalate ((loweredLabels labels).map fun bs => bs.map fun b => Char.ofNat b.toNat) := by
  have hmap : ∀ l ∈ labels, (l.bytes.map fun b => Char.ofNat b.toNat).map Char.toLower
      = (l.bytes.map toAsciiLowercase).map fun b => Char.ofNat b.toNat := by
    intro l hl
    simp only [List.map_map]
    exact List.map_congr_left fun b hb => toLower_ofNat (h l hl b hb)
  unfold dotted loweredLabels
  rw [Str.map_intercalate, List.map_map, List.map_map, show Char.toLower '.' = '.' from rfl]
  exact congrArg _ (List.map_congr_left hmap)

theorem dotted_ascii {labels : List DnsLabel} (h : AsciiLabels labels) :
    ∀ c ∈ dotted labels, c.toNat < 0x80 := by
  refine Str.forall_mem_intercalate (by decide) fun s hs c hc => ?_
  obtain ⟨l, hl, rfl⟩ := List.mem_map.mp hs
  obtain ⟨b, hb, rfl⟩ := List.mem_map.mp hc
  exact toNat_ofNat_of_lt (h l hl b hb)

/-- Labels that differ in the case of letters are all ASCII, or not all. -/
theorem AsciiLabels.of_lowered {labels labels' : List DnsLabel} (h : AsciiLabels labels)
    (heq : loweredLabels labels' = loweredLabels labels) : AsciiLabels labels' := by
  intro l' hl' b' hb'
  have hmem : l'.bytes.map toAsciiLowercase ∈ loweredLabels labels :=
    heq ▸ List.mem_map_of_mem hl'
  obtain ⟨l, hl, hbytes⟩ := List.mem_map.mp hmem
  have hb : toAsciiLowercase b' ∈ l.bytes.map toAsciiLowercase := hbytes ▸ List.mem_map_of_mem hb'
  obtain ⟨b, hbmem, hlower⟩ := List.mem_map.mp hb
  rw [← toAsciiLowercase_lt, ← hlower, toAsciiLowercase_lt]
  exact h l hl b hbmem

/-- The decoder finds the text of the labels. -/
theorem text_eq {labels : List DnsLabel} (h : AsciiLabels labels) :
    ['.'].intercalate (labels.map DnsLabel.text) = dotted labels :=
  congrArg _ (List.map_congr_left fun l hl => Utf8.fromUtf8Lossy_ascii (h l hl))

/-! ## Listed domains -/

namespace Blacklist

variable {bloom : BloomFilter U32}

/-- A domain is blacklisted. -/
def ListsDomain (lower : Str → Str) (domain : Str) (b : Blacklist bloom) : Prop :=
  lower (Str.trimEndDots domain) ∈ b.domains

/-- Any spelling of a listed domain is found. -/
theorem checkDomain_of_lowered {libs : Libs} (hlower : libs.LowersAscii) {b : Blacklist bloom}
    {labels labels' : List DnsLabel} (hascii : AsciiLabels labels)
    (hlisted : b.ListsDomain libs.lower (dotted labels))
    (heq : loweredLabels labels' = loweredLabels labels) :
    b.checkDomain libs.lower (dotted labels') = some (domainSignal (dotted labels')) := by
  have htrim : ∀ ls : List DnsLabel, AsciiLabels ls → libs.lower (Str.trimEndDots (dotted ls))
      = Str.trimEndDots ((dotted ls).map Char.toLower) := by
    intro ls hls
    have hkept : ∀ c ∈ Str.trimEndDots (dotted ls), c.toNat < 0x80 :=
      fun c hc => dotted_ascii hls c ((List.rdropWhile_prefix _ _).subset hc)
    rw [hlower _ hkept, map_toLower_trimEndDots]
  refine if_pos ?_
  unfold ListsDomain at hlisted
  rw [htrim labels hascii, map_toLower_dotted hascii, ← heq] at hlisted
  rwa [htrim labels' (hascii.of_lowered heq), map_toLower_dotted (hascii.of_lowered heq)]

end Blacklist

/-! ## Captures -/

/-- A packet as `pcap` delivers it. -/
structure Capture where
  data : ByteVec
  linkType : LinkType
  origLen : U32
  capLen : U32
  interface : Str
  timestamp : Int
  packetId : Nat

/-- The capture is parsed, and analyzed. -/
def Capture.process {libs : Libs} (c : Capture) (t : Instants) (e : IdsEngine libs) :
    Checked (IdsResult × IdsEngine libs) := do
  let pkt ← capturePacket c.data c.linkType c.origLen c.capLen c.interface c.timestamp c.packetId
  IdsEngine.analyze t pkt e

/-- The first question of the DNS message that the frame carries over UDP, from or
to port 53, is for the name of the labels, without compression. -/
structure AsksFor (f : Frame) (labels : List DnsLabel) : Prop where
  udp : ∃ srcPort dstPort length checksum, f.transport = .udp srcPort dstPort length checksum ∧
    (dstPort = 53#16 ∨ srcPort = 53#16)
  question : ∃ (header : Octets 12) (rest : Bytes),
    fromBeBytes (header.1.getD 4 0#8) (header.1.getD 5 0#8) ≠ 0#16 ∧
    f.payload = header.1 ++ (encodeName labels ++ rest)

namespace IdsEngine

variable {libs : Libs} {t : Instants} {pkt : RawPacket} {tm : TransportMeta}
  {e e' : IdsEngine libs} {r : IdsResult}

/-- In refinement, a packet with a signal of 30 points or more is reported for it,
and not learned from. -/
theorem Checks.reported (c : Checks t pkt tm e) {flag : FlagReason}
    (hr : IdsResult.fromSignals c.signals flag = .ok r) (hphase : e.baseline.phase = .refinement)
    {s : Signal} (hs : s ∈ c.signals) {q : ℚ} (hq : s.score = .fin q) (hge : 30 ≤ q)
    (hle : q ≤ 100) :
    s ∈ r.signals ∧ .fin q ≤ r.totalScore ∧
      (if e.baseline.isLearning = true ∨ r.totalScore < THRESHOLD_INFO then
        observe tm c.domain e else e.baseline) = e.baseline := by
  obtain ⟨-, hperm, htotal, -⟩ := IdsResult.fromSignals_eq_ok c.scored hr
  have hscore := IdsResult.le_totalScore c.scored hr hs hq hle
  have hhigh : ¬ r.totalScore < THRESHOLD_INFO := by
    rw [htotal, F32.fin_le] at hscore
    rw [htotal]
    exact fun h => absurd (F32.fin_lt.mp h) (not_lt.mpr (hge.trans hscore))
  refine ⟨hperm.mem_iff.mpr hs, hscore, if_neg ?_⟩
  simp [Baseline.isLearning_of_refinement hphase, hhigh]

/-- A packet from or to a listed address. -/
theorem analyzeTransport_listed (h : analyzeTransport t pkt tm e = .ok (r, e'))
    (hphase : e.baseline.phase = .refinement) (hlisted : IsListed tm e) :
    r.flagReason = .blacklisted ∧ (r.severity = .alert ∨ r.severity = .critical) ∧
      e'.baseline = e.baseline := by
  obtain ⟨c, flag, hr, hflag, rfl⟩ := analyzeTransport_checks h
  have hstrength : strength c.listed = 90 := (strength_listed tm e).trans (if_pos hlisted)
  have hpos : 0 < strength c.listed := by
    rw [hstrength]
    norm_num
  obtain ⟨s, hs, hpoints⟩ := exists_points_eq_strength hpos
  obtain ⟨-, q, hq, -⟩ := c.listed_graded s hs
  have hq90 : q = 90 := by
    rw [← hstrength, ← hpoints, Signal.points, hq]
  have hmem : s ∈ c.signals := by
    unfold Checks.signals
    simp only [List.mem_append, hs, true_or]
  obtain ⟨-, hscore, hkept⟩ := c.reported hr hphase hmem hq (by linarith) (by linarith)
  obtain ⟨hreason, -, htotal, hseverity⟩ := IdsResult.fromSignals_eq_ok c.scored hr
  refine ⟨hreason.trans (hflag hlisted), ?_, hkept⟩
  rw [htotal, F32.fin_le, hq90] at hscore
  have halert : THRESHOLD_ALERT ≤ .fin (IdsResult.total c.signals) :=
    F32.fin_le.mpr (le_trans (by norm_num) hscore)
  rw [hseverity, Severity.fromScore, if_pos halert]
  split
  · exact .inr rfl
  · exact .inl rfl

/-- A packet that queries a listed domain. -/
theorem analyzeTransport_queried (h : analyzeTransport t pkt tm e = .ok (r, e'))
    (hphase : e.baseline.phase = .refinement) {domain : Str}
    (hdomain : dnsQueryName pkt tm = .ok (some domain))
    (hlisted : e.blacklist.checkDomain libs.lower domain = some (Blacklist.domainSignal domain)) :
    Blacklist.domainSignal domain ∈ r.signals ∧ .fin 80 ≤ r.totalScore ∧
      e'.baseline = e.baseline := by
  obtain ⟨c, flag, hr, -, rfl⟩ := analyzeTransport_checks h
  have hname : c.domain = some domain := Except.ok.inj (c.domain_eq.symm.trans hdomain)
  have hmem : Blacklist.domainSignal domain ∈ c.signals := by
    unfold Checks.signals
    rw [c.named_eq_of_some hname, hlisted]
    simp
  exact c.reported hr hphase hmem rfl (by norm_num) (by norm_num)

/-- The name that the engine finds in a frame is the one it asks for. -/
theorem dnsQueryName_of_asksFor {f : Frame} {labels : List DnsLabel} (hasks : AsksFor f labels)
    (hne : labels ≠ []) (hascii : AsciiLabels labels) (hdata : pkt.data.bytes = f.encode) :
    dnsQueryName pkt f.transportMeta = .ok (some (dotted labels)) := by
  obtain ⟨srcPort, dstPort, length, checksum, hudp, hport⟩ := hasks.udp
  obtain ⟨header, rest, hquestions, hpayload⟩ := hasks.question
  have hlen : f.encode.length = f.headers.length + f.payload.length := List.length_append
  have hpos : 0 < f.payload.length := by
    rw [hpayload, List.length_append, header.2]
    omega
  have hheaders : 0 < f.headers.length := by
    unfold Frame.headers
    rw [hudp]
    simp [TransportHeader.encode, toBeBytes]
  have hhas : HasPayload pkt f.transportMeta := by
    refine ⟨hheaders, ?_⟩
    rw [hdata, hlen]
    exact Nat.lt_add_of_pos_right hpos
  have hslice : payload pkt f.transportMeta = .ok f.payload := by
    rw [payload, hdata, Checked.sliceFrom_of_le (by rw [hlen]; exact Nat.le_add_right ..)]
    exact congrArg Except.ok List.drop_left
  have hvec : (header.1 ++ (encodeName labels ++ rest)).length ≤ isizeMax := by
    have := pkt.data.length_le
    rw [hdata, hlen, hpayload] at this
    omega
  have hprotocol : f.transportMeta.protocol = 17#8 := by
    show f.transport.protocol _ = _
    rw [hudp]
    rfl
  have hports : f.transportMeta.dstPort = some 53#16 ∨ f.transportMeta.srcPort = some 53#16 := by
    show (f.transport.layer4 0).dstPort = _ ∨ (f.transport.layer4 0).srcPort = _
    rw [hudp]
    exact hport.imp (congrArg some) (congrArg some)
  unfold dnsQueryName
  rw [if_pos ⟨hprotocol, hports, hhas⟩, hslice, Checked.ok_bind, hpayload,
    extractDnsQueryName_encode header.2 hquestions hne rest hvec, text_eq hascii]

/-- A capture that is processed is parsed, and its metadata analyzed. -/
theorem process_eq_ok {c : Capture} (h : c.process t e = .ok (r, e'))
    (hparse : parseTransport c.data.bytes c.linkType = .ok (some tm)) :
    ∃ pkt, pkt.data = c.data ∧ analyzeTransport t pkt tm e = .ok (r, e') := by
  obtain ⟨pkt, hpkt, h⟩ := Checked.bind_eq_ok.mp h
  unfold capturePacket at hpkt
  rw [hparse] at hpkt
  cases hpkt
  exact ⟨_, rfl, h⟩

theorem process_returns {n : Nat} (hbounded : Bounded n e) (hn : n < 2 ^ 32) (c : Capture)
    (t : Instants) : (c.process t e).Returns fun _ => True := by
  refine Checked.Returns.bind (P := fun _ => True) ?_ fun pkt _ =>
    (analyze_returns hbounded hn t pkt).mono fun _ _ => trivial
  exact (parseTransport_returns c.data.bytes c.linkType).bind fun _ _ => .ok trivial

/-! ## Every capture -/

/-- **Blacklists are enforced** in refinement, whatever the rest of the state is:
against the addresses of every frame that parses as IPv4, and against the name
that a DNS message over UDP asks for first, in any spelling and whether the
baseline knows it or not. A call returns in every state that fewer than 2^32
packets and sweeps lead to. -/
theorem blacklists_enforced (hlower : libs.LowersAscii) (hphase : e.baseline.phase = .refinement) :
    (∀ {c : Capture} {t : Instants} {ip : Bytes} {a : U32} {r : IdsResult} {e' : IdsEngine libs},
      CarriesIpv4 c.data.bytes c.linkType ip → (a = addrAt ip 12 ∨ a = addrAt ip 16) →
      (a ∈ e.blacklist.ipExact ∨ ∃ range ∈ e.blacklist.ipCidrs, range.contains a = true) →
      c.process t e = .ok (r, e') →
      r.flagReason = .blacklisted ∧ (r.severity = .alert ∨ r.severity = .critical) ∧
        e'.baseline = e.baseline) ∧
    (∀ {c : Capture} {t : Instants} {f : Frame} {labels labels' : List DnsLabel} {r : IdsResult}
        {e' : IdsEngine libs},
      AsciiLabels labels → e.blacklist.ListsDomain libs.lower (dotted labels) →
      c.data.bytes = f.encode → c.linkType = f.link.linkType → AsksFor f labels' →
      labels' ≠ [] → loweredLabels labels' = loweredLabels labels →
      c.process t e = .ok (r, e') →
      (∃ s ∈ r.signals, s.name = .blacklistedDomain) ∧ .fin 80 ≤ r.totalScore ∧
        e'.baseline = e.baseline) ∧
    ∀ {baseline : Baseline} {geo : IpAddr → Option Str} {blacklist : Blacklist libs.bloom} {n : Nat},
      Reaches (new baseline geo blacklist) n e → n < 2 ^ 32 → ∀ (c : Capture) (t : Instants),
        (c.process t e).Returns fun _ => True := by
  refine ⟨?_, ?_, ?_⟩
  · intro c t ip a r e' hcarries ha hlisted h
    obtain ⟨tm, hparse, hsrc, hdst⟩ := parsesAsIpv4_iff.mpr ⟨ip, hcarries, rfl, rfl⟩
    obtain ⟨pkt, -, hcall⟩ := process_eq_ok h hparse
    refine analyzeTransport_listed hcall hphase ?_
    rw [← Blacklist.listed_iff] at hlisted
    rcases ha with rfl | rfl
    · exact .inl (hsrc ▸ hlisted)
    · exact .inr (hdst ▸ hlisted)
  · intro c t f labels labels' r e' hascii hlisted hdata hlink hasks hne heq h
    have hparse : parseTransport c.data.bytes c.linkType = .ok (some f.transportMeta) := by
      rw [hdata, hlink, f.encode_eq, f.link.parseTransport_append f.network.etherType_eq
        f.packet_ne_nil, f.parseIp_packet]
    obtain ⟨pkt, hpkt, hcall⟩ := process_eq_ok h hparse
    have hdomain := dnsQueryName_of_asksFor hasks hne (hascii.of_lowered heq)
      ((congrArg ByteVec.bytes hpkt).trans hdata)
    have hcheck := Blacklist.checkDomain_of_lowered hlower hascii hlisted heq
    obtain ⟨hmem, hscore, hbaseline⟩ := analyzeTransport_queried hcall hphase hdomain hcheck
    exact ⟨⟨_, hmem, rfl⟩, hscore, hbaseline⟩
  · intro baseline geo blacklist n hreaches hn c t
    exact process_returns (hreaches.bounded (bounded_new baseline geo blacklist) hn.le) hn c t

/-- An agent that has learned, with one listed address and one listed domain. -/
def guarded : IdsEngine .plain :=
  new (.new (some { BaselineState.empty with learnedAt := 1 }) 0) (fun _ => none)
    ((Blacklist.new.addIp 0x0A000001#32).addDomain Libs.plain.lower "evil.com".toList)

/-- The labels of the listed domain. -/
def evilLabels : List DnsLabel :=
  [⟨[0x65#8, 0x76#8, 0x69#8, 0x6C#8], by decide, by decide⟩,
    ⟨[0x63#8, 0x6F#8, 0x6D#8], by decide, by decide⟩]

/-- And in another spelling. -/
def spelledLabels : List DnsLabel :=
  [⟨[0x45#8, 0x76#8, 0x49#8, 0x6C#8], by decide, by decide⟩,
    ⟨[0x63#8, 0x6F#8, 0x6D#8], by decide, by decide⟩]

theorem ascii_evilLabels : AsciiLabels evilLabels := by
  unfold AsciiLabels
  decide

theorem guarded_listsDomain :
    guarded.blacklist.ListsDomain Libs.plain.lower (dotted evilLabels) := by
  unfold Blacklist.ListsDomain
  decide +kernel

def queryHeader : Octets 12 :=
  ⟨[0#8, 7#8, 1#8, 0#8, 0#8, 1#8, 0#8, 0#8, 0#8, 0#8, 0#8, 0#8], rfl⟩

/-- The query, in that spelling. -/
def evilQuery : Bytes := queryHeader.1 ++ (encodeName spelledLabels ++ [0#8, 1#8, 0#8, 1#8])

/-- The query from the listed address, in a tagged frame with IP options. -/
def evilFrame : Frame where
  link := .ethernet ⟨List.replicate 6 1#8, rfl⟩ ⟨List.replicate 6 2#8, rfl⟩ (some 5#16)
  network := .v4 ⟨6#4, 0#8, 58#16, 1#16, 2#3, 64#8, 0#16, 0x0A000001#32, 0x08080808#32,
    [1#8, 1#8, 1#8, 0#8], rfl⟩
  transport := .udp 40000#16 53#16 34#16 0#16
  payload := evilQuery

/-- Both lists report the frame. -/
theorem blacklists_enforced_query :
    (Capture.process ⟨⟨evilFrame.encode, by decide⟩, .ethernet, 76#32, 76#32, [], 0, 0⟩
      ⟨0, 0, 0, 0⟩ guarded).Returns fun p =>
        p.1.flagReason = .blacklisted ∧ (p.1.severity = .alert ∨ p.1.severity = .critical) ∧
        (∃ s ∈ p.1.signals, s.name = .blacklistedDomain) ∧ .fin 80 ≤ p.1.totalScore ∧
        p.2.baseline = guarded.baseline := by
  obtain ⟨haddr, hname, hreturns⟩ :=
    blacklists_enforced (e := guarded) Libs.plain_lowersAscii (by decide +kernel)
  obtain ⟨⟨r, e'⟩, hcall, -⟩ := hreturns .start (by decide)
    ⟨⟨evilFrame.encode, by decide⟩, .ethernet, 76#32, 76#32, [], 0, 0⟩ ⟨0, 0, 0, 0⟩
  have hip : IsIpv4 evilFrame.packet := ⟨by decide, by decide, by decide⟩
  have hcarries : CarriesIpv4 evilFrame.encode .ethernet evilFrame.packet :=
    ⟨hip, evilFrame.link, 0x0800#16, rfl, .inl rfl, evilFrame.encode_eq⟩
  have hasks : AsksFor evilFrame spelledLabels :=
    ⟨⟨_, _, _, _, rfl, .inl rfl⟩, queryHeader, _, by decide, rfl⟩
  obtain ⟨hreason, hseverity, hbaseline⟩ := haddr hcarries (.inl (by decide))
    (.inl (Finset.mem_insert_self ..)) hcall
  obtain ⟨hsignal, hscore, -⟩ := hname ascii_evilLabels guarded_listsDomain rfl rfl hasks
    (by decide) (by decide) hcall
  exact ⟨_, hcall, hreason, hseverity, hsignal, hscore, hbaseline⟩

/-- The query in an IPv6 packet with a hop-by-hop header, which is padding and
announces UDP. -/
def hopByHopPacket : Bytes :=
  NetworkHeader.encode 0#8
      (.v6 ⟨0#4, ⟨[0#8, 0#8, 0#8], rfl⟩, 42#16, 64#8, 1#128, 2#128⟩)
    ++ ([17#8, 0#8, 1#8, 4#8, 0#8, 0#8, 0#8, 0#8]
      ++ (TransportHeader.encode (.udp 40000#16 53#16 34#16 0#16) ++ evilQuery))

/-- **A query that is missed**: behind a hop-by-hop header no UDP header is looked
for. -/
theorem hopByHop_missed :
    guarded.baseline.phase = .refinement ∧ AsciiLabels evilLabels ∧
    guarded.blacklist.ListsDomain Libs.plain.lower (dotted evilLabels) ∧
    loweredLabels spelledLabels = loweredLabels evilLabels ∧
    (Capture.process ⟨⟨hopByHopPacket, by decide⟩, .rawIp, 82#32, 82#32, [], 0, 0⟩
      ⟨0, 0, 0, 0⟩ guarded).Returns fun p =>
        (∀ s ∈ p.1.signals, s.name ≠ .blacklistedDomain) ∧ p.1.totalScore < .fin 80 :=
  ⟨by decide +kernel, ascii_evilLabels, guarded_listsDomain, by decide, by decide +kernel⟩

end IdsEngine

end Ocellus
