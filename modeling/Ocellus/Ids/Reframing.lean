import Ocellus.Capture.Metadata
import Ocellus.Ids.AnalyzeProgram
import Ocellus.Ids.EngineSafety
import Ocellus.Ids.EngineSignals
import Ocellus.Ids.RateLimitSource

/-!
# The encapsulation of a packet is not judged

An IP packet reaches the agent behind an Ethernet header with or without a VLAN tag,
behind a loopback header or bare. Unless the tag has a reserved VLAN id, `analyze` looks
at nothing of it but the two lengths of the frame (`analyzeProgram_reframed`), and so it
does under any interleaving with other calls. Of these, the rate limiter is told one; and
as long as its verdict is the same and nothing was truncated, so are the result and the
engine, but for the bytes that were counted.
-/

namespace Ocellus

/-- The frame has no VLAN id that is reserved. -/
def Encapsulation.Ordinary (link : Encapsulation) : Prop :=
  link.layer2.vlanId ≠ some 0#16 ∧ link.layer2.vlanId ≠ some 4095#16

/-- The frame of `p` was parsed. -/
def RawPacket.Parsed (p : RawPacket) : Prop :=
  parseTransport p.data.bytes p.linkType = .ok p.transport

/-- The packet with other lengths in its pcap header. -/
def RawPacket.withLengths (p : RawPacket) (origLen capLen : U32) : RawPacket :=
  { p with origLen, capLen }

/-- One IP packet, captured in two encapsulations, whole in both or in none. -/
structure RawPacket.Reframed (p p' : RawPacket) : Prop where
  packet : ∃ link link' ip, Carries p.data.bytes p.linkType link ip ∧
    Carries p'.data.bytes p'.linkType link' ip ∧ link.Ordinary ∧ link'.Ordinary
  parsed : p.Parsed
  parsed' : p'.Parsed
  isTruncated : p.isTruncated = p'.isTruncated

theorem RawPacket.Reframed.symm {p p' : RawPacket} (h : p.Reframed p') : p'.Reframed p := by
  obtain ⟨⟨link, link', ip, hcarries, hcarries', hlink, hlink'⟩, hparsed, hparsed', htrunc⟩ := h
  exact ⟨⟨link', link, ip, hcarries', hcarries, hlink', hlink⟩, hparsed', hparsed, htrunc.symm⟩

namespace IdsEngine

variable {libs : Libs} {p p' : RawPacket} {tm tm' : TransportMeta}

/-- What `analyze` reads of a packet is the same, but for its lengths. -/
structure Alike (p p' : RawPacket) (tm tm' : TransportMeta) : Prop where
  reframes : ∃ start start', tm.Reframes start start' tm'
  hasPayload : HasPayload p tm ↔ HasPayload p' tm'
  offset : tm.payloadOffset < p.data.bytes.length ↔ tm'.payloadOffset < p'.data.bytes.length
  payload : payload p tm = payload p' tm'
  vlan : vlanSignals tm = vlanSignals tm'
  isTruncated : p.isTruncated = p'.isTruncated

theorem vlanSignals_of_ordinary {link : Encapsulation} (h : link.Ordinary)
    (htm : tm.vlanId = link.layer2.vlanId) : vlanSignals tm = [] := by
  unfold vlanSignals
  rw [htm]
  cases hvid : link.layer2.vlanId with
  | none => rfl
  | some vid =>
    refine if_neg fun hreserved => ?_
    rcases hreserved with rfl | rfl
    · exact h.1 hvid
    · exact h.2 hvid

/-- The bytes behind the encapsulation, from byte `n` of the packet on. -/
theorem reframed_payload {link : Encapsulation} {ip : Bytes} {n : Nat}
    (h : Ocellus.Carries p.data.bytes p.linkType link ip)
    (hoff : tm.payloadOffset = link.layer2.ipOffset + n) :
    p.data.bytes.length = link.layer2.ipOffset + ip.length ∧
      payload p tm = Checked.sliceFrom ip n := by
  obtain ⟨-, ⟨etype, -, hdata⟩, -⟩ := h
  have hlen : (link.encode etype).length = link.layer2.ipOffset := link.length_encode etype
  refine ⟨by rw [hdata, List.length_append, hlen], ?_⟩
  unfold payload Checked.sliceFrom
  rw [hdata, hoff, ← hlen, List.length_append, List.drop_append,
    List.drop_eq_nil_of_le (Nat.le_add_right _ _)]
  simp

/-- One packet in two encapsulations is parsed to nothing, or to what is alike. -/
theorem alike_of_reframed (h : p.Reframed p') :
    (p.transport = none ∧ p'.transport = none) ∨
      ∃ tm tm', p.transport = some tm ∧ p'.transport = some tm' ∧ Alike p p' tm tm' := by
  obtain ⟨⟨link, link', ip, hcarries, hcarries', hlink, hlink'⟩, hparsed, hparsed', htrunc⟩ := h
  have hip : parseIp ip link.layer2 = .ok p.transport :=
    hcarries.parseTransport_eq.symm.trans hparsed
  have hip' : parseIp ip link'.layer2 = .ok p'.transport :=
    hcarries'.parseTransport_eq.symm.trans hparsed'
  rcases parseIp_reframe ip link.ipOffset_le link'.ipOffset_le with
    ⟨hnone, hnone'⟩ | ⟨tm, tm', htm, htm', hreframes, hvlan, hvlan'⟩
  · exact .inl ⟨Except.ok.inj (hip.symm.trans hnone), Except.ok.inj (hip'.symm.trans hnone')⟩
  · refine .inr ⟨tm, tm', Except.ok.inj (hip.symm.trans htm),
      Except.ok.inj (hip'.symm.trans htm'), ?_⟩
    obtain ⟨n, hn, hoff, hoff'⟩ := hreframes.payloadOffset
    obtain ⟨hlen, hpayload⟩ := reframed_payload hcarries hoff
    obtain ⟨hlen', hpayload'⟩ := reframed_payload hcarries' hoff'
    refine ⟨⟨_, _, hreframes⟩, ?_, ?_, hpayload.trans hpayload'.symm, ?_, htrunc⟩
    · unfold HasPayload
      omega
    · omega
    · rw [vlanSignals_of_ordinary hlink hvlan, vlanSignals_of_ordinary hlink' hvlan']

/-! ## The accesses of a call -/

theorem Alike.scanPayload (h : Alike p p' tm tm') :
    scanPayload libs p tm = scanPayload libs p' tm' := by
  unfold IdsEngine.scanPayload
  rw [h.payload]
  exact if_congr h.hasPayload rfl rfl

theorem Alike.dnsQueryName (h : Alike p p' tm tm') : dnsQueryName p tm = dnsQueryName p' tm' := by
  obtain ⟨start, start', hr⟩ := h.reframes
  unfold IdsEngine.dnsQueryName
  rw [h.payload, hr.protocol, hr.srcPort, hr.dstPort]
  exact if_congr (by rw [h.hasPayload]) rfl rfl

theorem Alike.inspectDnsPayload (h : Alike p p' tm tm') :
    inspectDnsPayload libs p tm = inspectDnsPayload libs p' tm' := by
  unfold IdsEngine.inspectDnsPayload
  rw [h.payload]
  exact if_congr h.offset rfl rfl

theorem Alike.detectProgram (h : Alike p p' tm tm') :
    (detectProgram p tm : Program libs Findings)
      = detectProgram (p'.withLengths p.origLen p.capLen) tm' := by
  obtain ⟨start, start', hr⟩ := h.reframes
  unfold IdsEngine.detectProgram rateProgram portsProgram tcpProgram isSyn icmpSignals
    fragmentSignals truncationSignals RawPacket.withLengths
  rw [hr.srcIp, hr.dstIp, hr.srcPort, hr.dstPort, hr.protocol, hr.tcpFlags, hr.ipFlags,
    hr.ipFragOffset, hr.icmpType, hr.icmpCode, h.isTruncated]

theorem Alike.compareProgram (h : Alike p p' tm tm') (f : Findings) :
    (compareProgram p tm f : Program libs _) = compareProgram p' tm' f := by
  obtain ⟨start, start', hr⟩ := h.reframes
  unfold IdsEngine.compareProgram domainProgram geoProgram portProgram
  rw [hr.srcIp, hr.dstPort, h.scanPayload, h.dnsQueryName, h.vlan, h.inspectDnsPayload]

theorem Alike.concludeProgram (h : Alike p p' tm tm') (f : Findings)
    (country domain : Option Str) :
    (concludeProgram tm f country domain : Program libs _)
      = concludeProgram tm' f country domain := by
  obtain ⟨start, start', hr⟩ := h.reframes
  unfold IdsEngine.concludeProgram observeProgram
  rw [hr.dstIp, hr.dstPort, hr.protocol]

theorem programs_eq (h : p.Reframed p') : (analyzeProgram p : Program libs IdsResult)
    = analyzeProgram (p'.withLengths p.origLen p.capLen) := by
  unfold analyzeProgram
  rcases alike_of_reframed h with ⟨hp, hp'⟩ | ⟨tm, tm', hp, hp', halike⟩
  · rw [hp, show (p'.withLengths p.origLen p.capLen).transport = none from hp']
  · rw [hp, show (p'.withLengths p.origLen p.capLen).transport = some tm' from hp']
    dsimp only
    rw [halike.detectProgram]
    simp only [halike.compareProgram, halike.concludeProgram]
    rfl

/-! ## The lengths of a frame -/

/-- What the rate limiter says of a packet of `n` bytes. -/
def rateVerdict (t : Instants) (tm : TransportMeta) (e : IdsEngine libs) (n : Nat) :
    Checked (Option Signal) :=
  (e.rateLimiter.inspect t.rateLimiter tm.srcIp n (isSyn tm)).map Prod.fst

/-- The engines are the same, but that the rate limiter has counted `n` and `n'` bytes
for a packet of `srcIp`. -/
structure SameButBytes (srcIp : IpAddr) (n n' : Nat) (e e' : IdsEngine libs) : Prop where
  others : e' = { e with rateLimiter := e'.rateLimiter }
  buckets : ∃ (buckets : Table IpAddr Bucket) (b b' : Bucket),
    e.rateLimiter.buckets = buckets.insert srcIp b ∧
    e'.rateLimiter.buckets = buckets.insert srcIp b' ∧
    b' = { b with bytes := b'.bytes } ∧ b'.bytes + n = b.bytes + n'

variable {t : Instants} {e e₁ : IdsEngine libs} {r : IdsResult}

/-- The rate limiter's part of a call. -/
theorem analyze_rate (htm : p.transport = some tm) (h : analyze t p e = .ok (r, e₁)) :
    ∃ o, e.rateLimiter.inspect t.rateLimiter tm.srcIp p.origLen.toNat (isSyn tm)
      = .ok (o, e₁.rateLimiter) := by
  unfold analyze at h
  rw [htm] at h
  obtain ⟨c, -, -, -, rfl⟩ := analyzeTransport_checks h
  exact ⟨c.rate.1, c.rate_eq⟩

/-- If nothing was truncated, the lengths are for the rate limiter only. -/
theorem analyze_withLengths {origLen capLen : U32} {o : Option Signal} {d d' : RateLimiter libs.fp}
    (htm : p.transport = some tm) (hwhole : p.isTruncated = false)
    (hrate : e.rateLimiter.inspect t.rateLimiter tm.srcIp p.origLen.toNat (isSyn tm) = .ok (o, d))
    (hrate' : e.rateLimiter.inspect t.rateLimiter tm.srcIp origLen.toNat (isSyn tm) = .ok (o, d'))
    (h : analyze t p e = .ok (r, e₁)) :
    analyze t (p.withLengths origLen capLen) e = .ok (r, { e₁ with rateLimiter := d' }) := by
  have hnone : truncationSignals p = [] := if_neg (by rw [hwhole]; decide)
  have hnone' : truncationSignals (p.withLengths origLen capLen) = [] :=
    if_neg (by rw [show (p.withLengths origLen capLen).isTruncated = false from hwhole]; decide)
  unfold analyze at h ⊢
  rw [htm] at h
  rw [show (p.withLengths origLen capLen).transport = some tm from htm]
  unfold analyzeTransport at h ⊢
  simp only [hrate, hnone, Checked.ok_bind] at h
  simp only [show (p.withLengths origLen capLen).origLen = origLen from rfl, hrate', hnone',
    Checked.ok_bind]
  obtain ⟨tcp, htcp, h⟩ := Checked.bind_eq_ok.mp h
  obtain ⟨scanned, hscanned, h⟩ := Checked.bind_eq_ok.mp h
  obtain ⟨domain, hdomain, h⟩ := Checked.bind_eq_ok.mp h
  obtain ⟨f, hf, h⟩ := Checked.bind_eq_ok.mp h
  obtain ⟨result, hresult, h⟩ := Checked.bind_eq_ok.mp h
  cases h
  rw [htcp, Checked.ok_bind, show scanPayload libs (p.withLengths origLen capLen) tm = _ from hscanned,
    Checked.ok_bind, show dnsQueryName (p.withLengths origLen capLen) tm = _ from hdomain,
    Checked.ok_bind, show analyzeDomain (p.withLengths origLen capLen) tm e _ domain = _ from hf,
    Checked.ok_bind, hresult]
  rfl

/-- Two lengths that the rate limiter says the same of. -/
theorem inspect_lengths {srcIp : IpAddr} {syn : Bool} {now n n' : Nat} {o : Option Signal}
    {e₁ e₁' : IdsEngine libs}
    (h : e.rateLimiter.inspect now srcIp n syn = .ok (o, e₁.rateLimiter))
    (h' : e.rateLimiter.inspect now srcIp n' syn = .ok (o, e₁'.rateLimiter))
    (hothers : e₁' = { e₁ with rateLimiter := e₁'.rateLimiter }) :
    SameButBytes srcIp n n' e₁ e₁' := by
  obtain ⟨b, hb, hd⟩ := RateLimiter.inspect_eq_ok (p := ⟨srcIp, n, syn⟩) h
  obtain ⟨b', hb', hd'⟩ := RateLimiter.inspect_eq_ok (p := ⟨srcIp, n', syn⟩) h'
  have hin := RateLimiter.inspectBucket_eq_ok hb
  have hin' := RateLimiter.inspectBucket_eq_ok hb'
  refine ⟨hothers, e.rateLimiter.buckets, b, b', congrArg RateLimiter.buckets hd,
    congrArg RateLimiter.buckets hd', ?_, ?_⟩
  · -- only the bytes depend on the length
    obtain ⟨tokens, lastRefill, bytes, connections, windowStart⟩ := b
    obtain ⟨tokens', lastRefill', bytes', connections', windowStart'⟩ := b'
    simp only [Bucket.mk.injEq, true_and]
    exact ⟨hin'.tokens.trans hin.tokens.symm, hin'.lastRefill.trans hin.lastRefill.symm,
      hin'.connections.trans hin.connections.symm, hin'.windowStart.trans hin.windowStart.symm⟩
  · rw [hin.bytes, hin'.bytes]
    exact Nat.add_right_comm _ n' n

/-- **The encapsulation is not judged**: a call makes the same accesses to the engine for
a packet in one encapsulation as for the same packet in another, but for the two lengths
of the frame. If the rate limiter says the same of both lengths, and nothing was
truncated, then two calls on the same engine have the same result and leave the same
engine, but for the bytes that were counted. -/
theorem analyzeProgram_reframed (h : p.Reframed p') :
    (analyzeProgram p : Program libs IdsResult)
        = analyzeProgram (p'.withLengths p.origLen p.capLen) ∧
      ∀ (t : Instants) (e : IdsEngine libs), p.isTruncated = false →
        (∀ tm, p.transport = some tm →
          rateVerdict t tm e p.origLen.toNat = rateVerdict t tm e p'.origLen.toNat) →
        ∀ r e₁ r' e₁', analyze t p e = .ok (r, e₁) → analyze t p' e = .ok (r', e₁') →
          r' = r ∧ (p.transport = none → e₁' = e₁) ∧ ∀ tm, p.transport = some tm →
            SameButBytes tm.srcIp p.origLen.toNat p'.origLen.toNat e₁ e₁' := by
  refine ⟨programs_eq h, fun t e hwhole hverdict r e₁ r' e₁' hcall hcall' => ?_⟩
  -- the second call is one on the first packet, with the lengths of the second
  have hlengths : analyze t p' e = analyze t (p.withLengths p'.origLen p'.capLen) e := by
    rw [← analyzeProgram_run, ← analyzeProgram_run, programs_eq h.symm]
  rw [hlengths] at hcall'
  cases htm : p.transport with
  | none =>
    have hsame : analyze t (p.withLengths p'.origLen p'.capLen) e = analyze t p e := by
      unfold analyze
      rw [htm, show (p.withLengths p'.origLen p'.capLen).transport = none from htm]
    rw [hsame, hcall] at hcall'
    obtain ⟨rfl, rfl⟩ := Prod.mk.inj (Except.ok.inj hcall')
    exact ⟨rfl, fun _ => rfl, fun _ hsome => absurd hsome nofun⟩
  | some tm =>
    obtain ⟨o, hrate⟩ := analyze_rate htm hcall
    obtain ⟨o', hrate'⟩ : ∃ o', e.rateLimiter.inspect t.rateLimiter tm.srcIp p'.origLen.toNat
        (isSyn tm) = .ok (o', e₁'.rateLimiter) :=
      analyze_rate (p := p.withLengths p'.origLen p'.capLen) htm hcall'
    obtain rfl : o = o' := by
      have hsame := hverdict tm htm
      rw [rateVerdict, rateVerdict, hrate, hrate'] at hsame
      exact Except.ok.inj hsame
    have hsame : analyze t (p.withLengths p'.origLen p'.capLen) e = _ :=
      analyze_withLengths htm hwhole hrate hrate' hcall
    rw [hcall'] at hsame
    obtain ⟨rfl, hothers⟩ := Prod.mk.inj (Except.ok.inj hsame)
    refine ⟨rfl, nofun, fun tm' htm' => ?_⟩
    obtain rfl := Option.some.inj htm'
    exact inspect_lengths hrate hrate' hothers

/-- A DNS query, up to its UDP header. -/
def queryHeaders : Bytes :=
  [0x45#8, 0#8, 0#8, 28#8, 0#8, 0#8, 0#8, 0#8, 64#8, 17#8, 0#8, 0#8, 10#8, 0#8, 0#8, 1#8,
    10#8, 0#8, 0#8, 2#8, 0x30#8, 0x39#8, 0#8, 53#8, 0#8, 8#8, 0#8, 0#8]

/-- The frame that carries them. -/
def queryFrame (link : Encapsulation) : RawPacket where
  timestamp := 0
  data := ⟨link.encode 0x0800#16 ++ queryHeaders, by
    have hoff := link.ipOffset_le
    rw [List.length_append, link.length_encode, show queryHeaders.length = 28 from rfl, isizeMax]
    omega⟩
  origLen := BitVec.ofNat 32 (link.layer2.ipOffset + 28)
  capLen := BitVec.ofNat 32 (link.layer2.ipOffset + 28)
  interface := []
  linkType := link.linkType
  transport := some {
    srcIp := .v4 0x0A000001#32, dstIp := .v4 0x0A000002#32, srcPort := some 12345#16
    dstPort := some 53#16, protocol := 17#8, tcpFlags := none, ttl := 64#8, ipFlags := 0#8
    ipFragOffset := 0#16, icmpType := none, icmpCode := none, ethSrcMac := link.layer2.ethSrcMac
    vlanId := link.layer2.vlanId, payloadOffset := link.layer2.ipOffset + 28 }
  isTruncated := false
  packetId := 0
  idsScore := .fin 0
  idsFlag := .unspecified

/-- Without its Ethernet header, a packet is 14 bytes shorter, and otherwise the same. -/
theorem analyzeProgram_reframed_query :
    let frame := queryFrame (.ethernet ⟨List.replicate 6 1#8, rfl⟩ ⟨List.replicate 6 2#8, rfl⟩ none)
    let frame' := queryFrame .rawIp
    let e : IdsEngine .plain := new (.new none 0) (fun _ => none) .new
    frame.Reframed frame' ∧
      (analyzeProgram frame : Program .plain IdsResult)
        = analyzeProgram (frame'.withLengths 42#32 42#32) ∧
      ∃ r e₁ e₁', analyze ⟨9, 9, 9, 9⟩ frame e = .ok (r, e₁) ∧
        analyze ⟨9, 9, 9, 9⟩ frame' e = .ok (r, e₁') ∧
        SameButBytes (.v4 0x0A000001#32) 42 28 e₁ e₁' := by
  intro frame frame' e
  have hframes : frame.Reframed frame' := by
    refine ⟨⟨_, _, queryHeaders, ⟨rfl, ⟨0x0800#16, .inl rfl, rfl⟩, nofun⟩,
      ⟨rfl, ⟨0x0800#16, .inl rfl, rfl⟩, nofun⟩, ⟨?_, ?_⟩, ⟨?_, ?_⟩⟩, ?_, ?_, rfl⟩
    · decide
    · decide
    · decide
    · decide
    · unfold RawPacket.Parsed
      decide +kernel
    · unfold RawPacket.Parsed
      decide +kernel
  have hreturns := analyze_returns (bounded_new (.new none 0) (fun _ => none) .new : Bounded 0 e)
    (by decide) ⟨9, 9, 9, 9⟩
  obtain ⟨⟨r, e₁⟩, hcall, -⟩ := hreturns frame
  obtain ⟨⟨r', e₁'⟩, hcall', -⟩ := hreturns frame'
  obtain ⟨hprograms, hcalls⟩ := @analyzeProgram_reframed .plain _ _ hframes
  -- neither length is too much for the first second
  have hverdict : ∀ tm, frame.transport = some tm →
      rateVerdict ⟨9, 9, 9, 9⟩ tm e 42 = rateVerdict ⟨9, 9, 9, 9⟩ tm e 28 := by
    intro tm htm
    have hsrc : tm.srcIp = .v4 0x0A000001#32 := Option.some.inj htm ▸ rfl
    have hsyn : isSyn tm = false := Option.some.inj htm ▸ rfl
    unfold rateVerdict
    rw [hsrc, hsyn]
    decide +kernel
  obtain ⟨rfl, -, hsame⟩ := hcalls ⟨9, 9, 9, 9⟩ e rfl hverdict r e₁ r' e₁' hcall hcall'
  exact ⟨hframes, hprograms, _, e₁, e₁', hcall, hcall', hsame _ rfl⟩

end IdsEngine

end Ocellus
