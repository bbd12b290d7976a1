import Rpxy.ForwardingTrust
import Rpxy.ForwardedAccepted

/-!
# The forwarding headers agree with each other

After `add_forwarding_header` and `apply_upstream_options_to_header`, a `Forwarded` header,
when there is one, reads back to a chain whose addresses are those of `X-Forwarded-For`,
whose last `proto=` is `X-Forwarded-Proto`, and which `extract_forwarding_chain_from_headers`
picks as consistent, so a downstream proxy that trusts this hop derives the same chain from
either header. `Forwarded` has two writers: `add_forwarding_header` regenerates it from the
normalised chain when one came in, and `apply_upstream_options_to_header` generates it from
the `X-Forwarded-For` just written, which it reads back and cuts at the trust boundary
again; that second cut changes nothing because the chain is already cut.

Both writers put the authoritative host into `host=`, and the reader's `to_str` accepts only
visible ASCII, so agreement needs a host of header text. The only caller passes
`host_from_uri_or_host_header`, which gives such text.
-/

namespace Rpxy.ForwardingAgreement

open RustText RustResult RustIpAddr RustIpParser HttpHeaders HttpHeaders.HeaderMap ForwardedSyntax
  ForwardedRoundTrip ForwardedAccepted ForwardingChain ForwardingTrust SuffixCut

/-! ### Reading an address back from its text -/

theorem le_count_intercalate (x : Char) :
    ∀ l : List (List Char), l.length ≤ (List.intercalate [x] l).count x + 1
  | [] => by simp
  | [a] => by simp
  | a :: b :: t => by
    have ih := le_count_intercalate x (b :: t)
    rw [List.intercalate_cons_cons, List.count_append, List.count_append]
    simp only [List.length_cons, List.count_singleton_self] at ih ⊢
    omega

/-- An IPv6 text has at least two `:`, so the reader never takes it for `node:port`. -/
theorem two_le_count_ipv6Text (a : Ipv6Addr) : 2 ≤ a.toText.count ':' := by
  unfold Ipv6Addr.toText
  dsimp only
  split
  · have h : ("::ffff:".toList).count ':' = 3 := by decide
    rw [List.count_append]
    omega
  · split
    · have h : ("::".toList).count ':' = 2 := by decide
      rw [List.count_append, List.count_append]
      omega
    · have h := le_count_intercalate ':' (a.segments.map segmentText)
      rw [List.length_map, a.length_segments] at h
      unfold fmtSubslice
      omega

/-- An IPv6 text starts with a hexadecimal digit or `:`, which is none of the characters
the node reader branches on. -/
theorem ipv6Text_head (a : Ipv6Addr) : ∃ c t, a.toText = c :: t ∧ c.toLower ≠ 'u' ∧ c ≠ '[' ∧ c ≠ '_' := by
  cases h : a.toText with
  | nil =>
    have hcount := two_le_count_ipv6Text a
    rw [h] at hcount
    simp at hcount
  | cons c t =>
    refine ⟨c, t, rfl, ?_⟩
    exact forall_mem_ipv6Text (fun c => c.toLower ≠ 'u' ∧ c ≠ '[' ∧ c ≠ '_') (by decide) (by decide)
      (by decide) a c (by simp [h])

/-- An unbracketed IPv6 text, as `X-Forwarded-For` carries it, takes the bare arm. -/
theorem parseUnquotedNode_ipv6Text (token : List Char) (a : Ipv6Addr) :
    parseUnquotedNode token a.toText = .ok ⟨some (canonicalizeIp (.v6 a)), none, .ip⟩ := by
  obtain ⟨c, t, ht, hu, hb, ho⟩ := ipv6Text_head a
  have hcount := two_le_count_ipv6Text a
  rw [parseUnquotedNode_of_count (by rw [ht]; exact eqIgnoreAsciiCase_unknown_of_head hu) (by simp [ht, hb])
      (by omega), parseBareNode_plain (by simp [ht, hb]) (by simp [ht, ho]),
    show a.toText = (IpAddr.v6 a).toText from rfl, parseNodeAddress_toText]
  rfl

theorem trimmed_of_addrText {t : List Char} (h : ∀ c ∈ t, isAddrTextChar c = true) : Trimmed t := by
  have hw : ∀ c, isAddrTextChar c = true → isWhitespace c = false := by
    intro c hc
    simp only [isAddrTextChar, Bool.or_eq_true, beq_iff_eq] at hc
    rcases hc with hc | rfl
    · exact isTchar_not_whitespace hc
    · decide
  exact ⟨fun c hc => hw c (h c (List.mem_of_mem_head? hc)), fun c hc => hw c (h c (List.mem_of_mem_getLast? hc))⟩

/-- `parse_forwarded_node` reads every canonical address back from its text. -/
theorem parseForwardedNode_pushIpAddr {a : IpAddr} (hc : canonicalizeIp a = a) :
    parseForwardedNode (pushIpAddr a) = .ok ⟨some a, none, .ip⟩ := by
  have htext : ∀ c ∈ pushIpAddr a, isAddrTextChar c = true := fun c hc =>
    isAddrTextChar_of_mem_ipText (by rwa [pushIpAddr_eq_toText] at hc)
  have hq : (pushIpAddr a).head? ≠ some '"' := fun h =>
    absurd (htext '"' (List.mem_of_mem_head? h)) (by decide)
  rw [parseForwardedNode, unquoteHttpValue_token (trimmed_of_addrText htext) hq, except_bind_ok']
  cases a with
  | v4 a =>
    have hwf := canonicalizeIp_isWellFormed (.v4 a) none (by simp)
    have hnode : nodeText ⟨some (canonicalizeIp (.v4 a)), none, .ip⟩ = pushIpAddr (.v4 a) := by
      simp [nodeText, portSuffix, pushIpAddr, canonicalizeIp, SocketAddr.toCanonical]
    have h := parseUnquotedNode_nodeText hwf (pushIpAddr (.v4 a))
    rwa [hnode] at h
  | v6 a =>
    rw [show pushIpAddr (.v6 a) = a.toText from rfl, parseUnquotedNode_ipv6Text, hc]

theorem parseForwardedIpToken_pushIpAddr {a : IpAddr} (hc : canonicalizeIp a = a) :
    parseForwardedIpToken (pushIpAddr a) = .ok a := by
  rw [parseForwardedIpToken, parseForwardedNode_pushIpAddr hc]

/-- The facts about an address text that reading `X-Forwarded-For` back uses. -/
theorem ipText_facts (a : IpAddr) : pushIpAddr a ≠ [] ∧ Trimmed (pushIpAddr a) ∧ ',' ∉ pushIpAddr a := by
  have htext : ∀ c ∈ pushIpAddr a, isAddrTextChar c = true := fun c hc =>
    isAddrTextChar_of_mem_ipText (by rwa [pushIpAddr_eq_toText] at hc)
  refine ⟨?_, trimmed_of_addrText htext, fun h => absurd (htext ',' h) (by decide)⟩
  cases a with
  | v4 a => exact ipv4Text_ne_nil a
  | v6 a =>
    obtain ⟨c, t, ht, -⟩ := ipv6Text_head a
    simp [pushIpAddr, ht]

/-! ### Reading `X-Forwarded-For` back -/

/-- The entries `parse_x_forwarded_for_header` builds for the addresses `ips`: only the last
carries the `X-Forwarded-Proto` value and the host. -/
def xffChain (xfProto host : Option (List Char)) : List IpAddr → List ForwardedEntry
  | [] => []
  | a :: rest =>
    xffEntry a (if rest.isEmpty then xfProto else none) (if rest.isEmpty then host else none) ::
      xffChain xfProto host rest

theorem xffEntries_pushIpAddr (xfProto host : Option (List Char)) :
    ∀ {ips : List IpAddr}, (∀ a ∈ ips, canonicalizeIp a = a) →
      xffEntries xfProto host (ips.map pushIpAddr) = .ok (xffChain xfProto host ips)
  | [], _ => rfl
  | a :: rest, hc => by
    have ha := parseForwardedIpToken_pushIpAddr (hc a (by simp))
    have hrest := xffEntries_pushIpAddr xfProto host fun b hb => hc b (List.mem_cons_of_mem a hb)
    simp [xffEntries, ha, hrest, xffChain]

theorem xffChain_map_ip (xfProto host : Option (List Char)) :
    ∀ ips : List IpAddr, (xffChain xfProto host ips).map (·.forNode.ip) = ips.map some
  | [] => rfl
  | a :: rest => by simp [xffChain, xffEntry, xffChain_map_ip xfProto host rest]

theorem chainIps_xffChain (xfProto host : Option (List Char)) (ips : List IpAddr) :
    chainIps (xffChain xfProto host ips) = ips := by
  have h := congrArg (List.filterMap id) (xffChain_map_ip xfProto host ips)
  simpa [chainIps, List.filterMap_map] using h

/-- The last entry carries the `X-Forwarded-Proto` value. -/
theorem xffChain_last_proto (xfProto host : Option (List Char)) :
    ∀ {ips : List IpAddr}, ips ≠ [] → (xffChain xfProto host ips).getLast?.bind (·.proto) = xfProto
  | [a], _ => by simp [xffChain, xffEntry]
  | a :: b :: rest, _ => by
    have ih := @xffChain_last_proto xfProto host (b :: rest) (by simp)
    obtain ⟨y, ys, hy⟩ : ∃ y ys, xffChain xfProto host (b :: rest) = y :: ys := ⟨_, _, rfl⟩
    rw [xffChain, hy, List.getLast?_cons_cons, ← hy]
    exact ih

theorem mem_xffChain {xfProto host : Option (List Char)} :
    ∀ {ips : List IpAddr} {e : ForwardedEntry}, e ∈ xffChain xfProto host ips →
      ∃ a ∈ ips, ∃ p h, e = xffEntry a p h ∧ (p = none ∨ p = xfProto) ∧ (h = none ∨ h = host)
  | [], _, he => by simp [xffChain] at he
  | a :: rest, e, he => by
    rw [xffChain, List.mem_cons] at he
    rcases he with rfl | he
    · refine ⟨a, by simp, _, _, rfl, ?_, ?_⟩ <;> split <;> simp
    · obtain ⟨b, hb, p, h, rfl, hp, hh⟩ := mem_xffChain he
      exact ⟨b, List.mem_cons_of_mem a hb, p, h, rfl, hp, hh⟩

/-- `, ` joins what `split(',')` with `trim` separates: the joined text is the `,`-join of
the texts with a space in front of all but the first. -/
theorem intercalate_comma_space (t : List Char) :
    ∀ rest : List (List Char),
      List.intercalate ", ".toList (t :: rest) = List.intercalate [','] (t :: rest.map (' ' :: ·))
  | [] => by simp
  | u :: rest => by
    rw [List.intercalate_cons_cons, List.map_cons, List.intercalate_cons_cons,
      List.intercalate_cons_cons_left, ← intercalate_comma_space u rest]
    simp

/-- `split(',')`, `trim` and the empty filter give back the texts that `, ` joined. -/
theorem xffTokens_intercalate {texts : List (List Char)} (hne : texts ≠ [])
    (h : ∀ t ∈ texts, t ≠ [] ∧ Trimmed t ∧ ',' ∉ t) :
    (((List.intercalate ", ".toList texts).splitOn ',').map trim).filter (fun s => !s.isEmpty) = texts := by
  obtain ⟨t, rest, rfl⟩ := List.exists_cons_of_ne_nil hne
  have hcomma : ∀ l ∈ t :: rest.map (' ' :: ·), ',' ∉ l := by
    simp only [List.mem_cons, List.mem_map]
    rintro l (rfl | ⟨u, hu, rfl⟩)
    · exact (h l (by simp)).2.2
    · simpa using (h u (by simp [hu])).2.2
  have htrim : (t :: rest.map (' ' :: ·)).map trim = t :: rest := by
    simp only [List.map_cons, List.map_map]
    congr 1
    · exact trim_of_trimmed (h t (by simp)).2.1
    · conv_rhs => rw [← List.map_id rest]
      exact List.map_congr_left fun u hu => @trim_whitespace_append [' '] u (by decide) (h u (by simp [hu])).2.1
  rw [intercalate_comma_space, List.splitOn_intercalate ',' hcomma (by simp), htrim]
  exact List.filter_eq_self.mpr fun u hu => by simpa using (h u hu).1

/-- `parse_x_forwarded_for_header` on headers whose `X-Forwarded-For` is one field-line
listing canonical addresses and whose `X-Forwarded-Proto` is one trimmed value. -/
theorem parseXForwardedForHeader_written {H : HeaderMap} {xff xfp : HeaderValue} {ips : List IpAddr}
    {proto : List Char} (hxff : H.getAll xForwardedForName = [xff])
    (hxffText : xff.toStr = .ok (List.intercalate ", ".toList (ips.map pushIpAddr))) (hne : ips ≠ [])
    (hcanon : ∀ a ∈ ips, canonicalizeIp a = a) (hxfp : H.getAll xForwardedProtoName = [xfp])
    (hproto : xfp.toStr = .ok proto) (hptrim : Trimmed proto) (host : Option (List Char)) :
    parseXForwardedForHeader H host = .ok (xffChain (some proto) host ips) := by
  have hjoin : joinHeaderValues H xForwardedForName =
      .ok (some (List.intercalate ", ".toList (ips.map pushIpAddr))) := by
    simp [joinHeaderValues, hxff, headerValueStr, hxffText]
  have hfirst : firstHeaderValue H xForwardedProtoName = .ok (some proto) := by
    simp [firstHeaderValue, HeaderMap.get, hxfp, headerValueStr, hproto]
  have htokens := @xffTokens_intercalate (ips.map pushIpAddr) (by simpa using hne) (by
    simp only [List.mem_map]
    rintro t ⟨a, -, rfl⟩
    exact ipText_facts a)
  unfold parseXForwardedForHeader
  rw [hjoin]
  simp only [except_bind_ok, hfirst, Option.map_some, trim_of_trimmed hptrim, htokens]
  exact xffEntries_pushIpAddr _ _ hcanon

/-! ### Choosing the chain from the written headers -/

theorem forwardedIsConsistent_xffChain {chain : List ForwardedEntry} {ips : List IpAddr} {proto : List Char}
    (hips : chain.map (·.forNode.ip) = ips.map some) (hne : ips ≠ [])
    (hproto : chain.getLast?.bind (·.proto) = some proto) (hptrim : Trimmed proto) (host : Option (List Char)) :
    forwardedIsConsistent chain (xffChain (some proto) host ips) = true := by
  have hlen : chain.length = (xffChain (some proto) host ips).length := by
    have h1 := congrArg List.length hips
    have h2 := congrArg List.length (xffChain_map_ip (some proto) host ips)
    simp only [List.length_map] at h1 h2
    omega
  simp [forwardedIsConsistent, hlen, hips, xffChain_map_ip, hproto, xffChain_last_proto _ _ hne,
    trim_of_trimmed hptrim, eqIgnoreAsciiCase]

/-- `extract_forwarding_chain_from_headers` on headers whose two forwarding headers agree
picks the `Forwarded` chain, whatever host it is given. -/
theorem extractForwardingChainFromHeaders_written {H : HeaderMap} {xff xfp : HeaderValue} {ips : List IpAddr}
    {proto : List Char} {chain : List ForwardedEntry} (hxff : H.getAll xForwardedForName = [xff])
    (hxffText : xff.toStr = .ok (List.intercalate ", ".toList (ips.map pushIpAddr))) (hne : ips ≠ [])
    (hcanon : ∀ a ∈ ips, canonicalizeIp a = a) (hxfp : H.getAll xForwardedProtoName = [xfp])
    (hproto : xfp.toStr = .ok proto) (hptrim : Trimmed proto) (hkey : H.containsKey forwardedName = true)
    (hfwd : parseForwardedHeader H = .ok chain) (hips : chain.map (·.forNode.ip) = ips.map some)
    (hlast : chain.getLast?.bind (·.proto) = some proto) (host : Option (List Char)) :
    extractForwardingChainFromHeaders H host = .ok (some chain) := by
  have hxffKey : H.containsKey xForwardedForName = true := (containsKey_iff _ _).mpr (by simp [hxff])
  have hcons := forwardedIsConsistent_xffChain hips hne hlast hptrim host
  simp [extractForwardingChainFromHeaders, hxffKey, hkey, hfwd,
    parseXForwardedForHeader_written hxff hxffText hne hcanon hxfp hproto hptrim host, hcons]

/-! ### The chains the headers are written from are well formed -/

theorem xffEntry_good {a : IpAddr} {p h : Option (List Char)} (ha : canonicalizeIp a = a)
    (hp : ∀ t ∈ p, ∀ c ∈ t, isHeaderTextChar c = true) (hh : ∀ t ∈ h, ∀ c ∈ t, isHeaderTextChar c = true) :
    (xffEntry a p h).isWellFormed = true ∧ (xffEntry a p h).hasHeaderText = true :=
  ⟨by simp [xffEntry, ForwardedEntry.isWellFormed, ForwardedNode.isWellFormed, ha],
    (hasHeaderText_iff _).mpr ⟨hp, hh, by simp [xffEntry]⟩⟩

/-- The peer's own hop is well formed once its address is canonical. -/
theorem peerEntry_good {peerIp : IpAddr} (tls : Bool) {host : Option (List Char)}
    (hcanon : canonicalizeIp peerIp = peerIp) (hhost : ∀ t ∈ host, ∀ c ∈ t, isHeaderTextChar c = true) :
    (buildPeerForwardedEntry peerIp tls host).isWellFormed = true ∧
      (buildPeerForwardedEntry peerIp tls host).hasHeaderText = true :=
  xffEntry_good hcanon (by cases tls <;> decide) hhost

theorem parseForwardedIpToken_canonical {t : List Char} {a : IpAddr} (h : parseForwardedIpToken t = .ok a) :
    canonicalizeIp a = a := by
  unfold parseForwardedIpToken at h
  split at h
  · cases h
  · rename_i n hn
    split at h
    · rename_i a' ha'
      cases h
      obtain ⟨-, ⟨b, -, hb, hcanon⟩ | ⟨-, hnone⟩ | ⟨s, -, hnone, -⟩⟩ :=
        isWellFormed_cases (parseForwardedNode_isWellFormed hn)
      · rw [ha', Option.some.injEq] at hb
        exact hb ▸ hcanon
      · rw [ha'] at hnone
        cases hnone
      · rw [ha'] at hnone
        cases hnone
    · cases h

theorem xffEntries_good {xfProto host : Option (List Char)}
    (hp : ∀ t ∈ xfProto, ∀ c ∈ t, isHeaderTextChar c = true) (hh : ∀ t ∈ host, ∀ c ∈ t, isHeaderTextChar c = true) :
    ∀ {tokens : List (List Char)} {chain : List ForwardedEntry}, xffEntries xfProto host tokens = .ok chain →
      ∀ e ∈ chain, e.isWellFormed = true ∧ e.hasHeaderText = true
  | [], chain, h => by
    cases h
    simp
  | t :: rest, chain, h => by
    simp only [xffEntries] at h
    obtain ⟨a, ha, h⟩ := except_bind_eq_ok.mp h
    obtain ⟨tail, htail, h⟩ := except_bind_eq_ok.mp h
    cases h
    intro e he
    rcases List.mem_cons.mp he with rfl | he
    · exact xffEntry_good (parseForwardedIpToken_canonical ha) (by split <;> first | exact hp | simp)
        (by split <;> first | exact hh | simp)
    · exact xffEntries_good hp hh htail e he

theorem firstHeaderValue_chars {m : HeaderMap} {k s : List Char} (h : firstHeaderValue m k = .ok (some s)) :
    ∀ c ∈ s, isHeaderTextChar c = true := by
  unfold firstHeaderValue at h
  split at h
  · cases h
  · obtain ⟨s', hs', hss'⟩ := except_map_eq_ok.mp h
    cases hss'
    exact headerValueStr_chars hs'

theorem parseXForwardedForHeader_good {headers : HeaderMap} {host : Option (List Char)}
    {chain : List ForwardedEntry} (hhost : ∀ t ∈ host, ∀ c ∈ t, isHeaderTextChar c = true)
    (h : parseXForwardedForHeader headers host = .ok chain) :
    ∀ e ∈ chain, e.isWellFormed = true ∧ e.hasHeaderText = true := by
  unfold parseXForwardedForHeader at h
  obtain ⟨o, -, h⟩ := except_bind_eq_ok.mp h
  split at h
  · cases h
  · obtain ⟨first, hfirst, h⟩ := except_bind_eq_ok.mp h
    refine xffEntries_good ?_ hhost h
    intro t ht c hc
    obtain ⟨t', ht', rfl⟩ := Option.mem_map.mp ht
    exact firstHeaderValue_chars (ht' ▸ hfirst) c (mem_of_mem_trim hc)

/-- Whatever chain `extract_forwarding_chain_from_headers` picks is well formed, with
header-text parameters when the host it is given is header text. -/
theorem extractForwardingChainFromHeaders_good {headers : HeaderMap} {host : Option (List Char)}
    {chain : List ForwardedEntry} (hhost : ∀ t ∈ host, ∀ c ∈ t, isHeaderTextChar c = true)
    (h : extractForwardingChainFromHeaders headers host = .ok (some chain)) :
    ∀ e ∈ chain, e.isWellFormed = true ∧ e.hasHeaderText = true := by
  unfold extractForwardingChainFromHeaders at h
  obtain ⟨xffOpt, hxff, h⟩ := except_bind_eq_ok.mp h
  obtain ⟨fwdOpt, hfwd, h⟩ := except_bind_eq_ok.mp h
  have hxffGood : ∀ c ∈ xffOpt, ∀ e ∈ c, e.isWellFormed = true ∧ e.hasHeaderText = true := by
    intro c hc
    split at hxff
    · obtain ⟨c', hc', rfl⟩ := except_map_eq_ok.mp hxff
      cases hc
      exact parseXForwardedForHeader_good hhost hc'
    · cases hxff
      cases hc
  have hfwdGood : ∀ c ∈ fwdOpt, ∀ e ∈ c, e.isWellFormed = true ∧ e.hasHeaderText = true := by
    intro c hc
    split at hfwd
    · split at hfwd
      · rename_i c' hc'
        cases hfwd
        cases hc
        exact parseForwardedHeader_good hc'
      · split at hfwd
        · cases hfwd
          cases hc
        · cases hfwd
    · cases hfwd
      cases hc
  cases fwdOpt with
  | none =>
    cases xffOpt with
    | none => cases h
    | some x =>
      have hx : x = chain := by simpa using h
      exact hx ▸ hxffGood x rfl
  | some f =>
    cases xffOpt with
    | none =>
      have hf : f = chain := by simpa using h
      exact hf ▸ hfwdGood f rfl
    | some x =>
      have hc : (if forwardedIsConsistent f x = true then f else x) = chain := by simpa using h
      rw [← hc]
      split
      · exact hfwdGood f rfl
      · exact hxffGood x rfl

/-! ### Agreement -/

/-- The forwarding headers of `H` agree: `Forwarded` reads back to a chain whose hops are
the addresses `X-Forwarded-For` lists, whose last `proto=` is `X-Forwarded-Proto`, and which
`extract_forwarding_chain_from_headers` picks, whatever host it is given. -/
def ForwardingHeadersAgree (H : HeaderMap) : Prop :=
  ∃ (chain : List ForwardedEntry) (L : List IpAddr) (xff xfp : HeaderValue) (proto : List Char),
    parseForwardedHeader H = .ok chain ∧
    H.getAll xForwardedForName = [xff] ∧ xff.toStr = .ok (List.intercalate ", ".toList (L.map pushIpAddr)) ∧
    chain.map (·.forNode.ip) = L.map some ∧
    H.getAll xForwardedProtoName = [xfp] ∧ xfp.toStr = .ok proto ∧ chain.getLast?.bind (·.proto) = some proto ∧
    ∀ host', extractForwardingChainFromHeaders H host' = .ok (some chain)

/-! ### What `apply_upstream_options_to_header` writes -/

section Trust

variable {Net : Type} (contains : Net → IpAddr → Bool) (trusted : List Net)

theorem overrideHostHeader_getAll_ne {m m' : HeaderMap} {hostHeader : Option HeaderValue} {k : List Char}
    (h : overrideHostHeader m hostHeader = .ok m') (hk : k ≠ hostName) : m'.getAll k = m.getAll k := by
  unfold overrideHostHeader at h
  split at h
  · cases h
  · cases h
    exact getAll_insert_ne m _ hk

/-- The steps of a successful `apply_upstream_options_to_header`: `Host` and
`Upgrade-Insecure-Requests` may change, and `Forwarded` is left alone or, when it is
absent, generated from the chain read back from the headers and cut again. -/
theorem applyUpstreamOptionsToHeader_inv {H H2 : HeaderMap} {host : Option (List Char)}
    {hostHeader : Option HeaderValue} {options : List UpstreamOption}
    (h : applyUpstreamOptionsToHeader contains H host hostHeader options trusted = .ok H2) :
    ∃ H', (∀ k, k ≠ hostName → k ≠ upgradeInsecureRequestsName → H'.getAll k = H.getAll k) ∧
      (H2 = H' ∨ H'.containsKey forwardedName = false ∧ ∃ fc s v,
        extractForwardingChainFromHeaders H' host = .ok (some fc) ∧
        generateForwardedHeader (reduceTrustedProxyChain contains fc trusted) = .ok s ∧
        HeaderValue.fromStr s = .ok v ∧ H2 = H'.insert forwardedName v) := by
  unfold applyUpstreamOptionsToHeader at h
  obtain ⟨H0, h0, h⟩ := except_bind_eq_ok.mp h
  have hH0 : ∀ k, k ≠ hostName → H0.getAll k = H.getAll k := by
    intro k hk
    split at h0
    · exact overrideHostHeader_getAll_ne h0 hk
    · cases h0
      rfl
  dsimp only at h
  generalize hH' : (if options.contains .upgradeInsecureRequests = true then
    H0.orInsert upgradeInsecureRequestsName oneValue else H0) = H' at h
  refine ⟨H', fun k hk hu => ?_, ?_⟩
  · subst hH'
    split
    · rw [getAll_orInsert_ne _ _ hu, hH0 k hk]
    · exact hH0 k hk
  · split at h
    · rename_i hopt
      have hkey : H'.containsKey forwardedName = false := by simp at hopt; exact hopt.2
      obtain ⟨o, ho, h⟩ := except_bind_eq_ok.mp h
      split at h
      · exact Or.inl (Except.ok.inj h).symm
      · rename_i fc
        split at h
        · rename_i s hs
          obtain ⟨v, hv, rfl⟩ := addHeaderEntryOverwriteIfExist_eq_ok.mp h
          exact Or.inr ⟨hkey, fc, s, v, ho, hs, hv, rfl⟩
        · exact Or.inl (Except.ok.inj h).symm
    · exact Or.inl (Except.ok.inj h).symm

/-! ### What `add_forwarding_header` leaves for the agreement -/

/-- The scheme text `add_forwarding_header` writes to `X-Forwarded-Proto`. -/
def protoText (tls : Bool) : List Char := (if tls then "https" else "http").toList

theorem trimmed_protoText (tls : Bool) : Trimmed (protoText tls) := by
  cases tls <;> exact trimmed_of_tokens (by decide)

theorem toStr_protoValue (tls : Bool) : (protoValue tls).toStr = .ok (protoText tls) :=
  toStr_ofHeaderText _

theorem map_ip_eq_chainIps : ∀ {chain : List ForwardedEntry}, (∀ e ∈ chain, e.forNode.ip.isSome) →
    chain.map (·.forNode.ip) = (chainIps chain).map some
  | [], _ => rfl
  | e :: t, hsome => by
    obtain ⟨a, ha⟩ := Option.isSome_iff_exists.mp (hsome e (by simp))
    rw [chainIps_cons t ha, List.map_cons, List.map_cons, ha,
      map_ip_eq_chainIps fun e' he' => hsome e' (List.mem_cons_of_mem e he')]

theorem canonical_of_mem_chainIps {chain : List ForwardedEntry} (hwf : ∀ e ∈ chain, e.isWellFormed = true) :
    ∀ a ∈ chainIps chain, canonicalizeIp a = a := by
  intro a ha
  obtain ⟨e, he, hea⟩ := List.mem_filterMap.mp ha
  obtain ⟨-, ⟨b, -, hb, hcanon⟩ | ⟨-, hnone⟩ | ⟨s, -, hnone, -⟩⟩ := isWellFormed_cases (hwf e he)
  · rw [hea, Option.some.injEq] at hb
    exact hb ▸ hcanon
  · rw [hea] at hnone
    cases hnone
  · rw [hea] at hnone
    cases hnone

/-- What the agreement needs of the headers `H` and the chain `written` their forwarding
headers were written from: a non-empty chain of well-formed address hops with header-text
parameters, trusted after its first hop, whose last `proto=` is the peer's scheme, with
`X-Forwarded-For` listing its addresses and `X-Forwarded-Proto` the scheme. -/
structure ForwardingWritten (H : HeaderMap) (written : List ForwardedEntry) (tls : Bool) : Prop where
  /-- The chain has a hop. -/
  ne_nil : written ≠ []
  /-- Every hop is well formed, with header-text parameters. -/
  good : ∀ e ∈ written, e.isWellFormed = true ∧ e.hasHeaderText = true
  /-- Every hop is an address. -/
  isSome_ip : ∀ e ∈ written, e.forNode.ip.isSome
  /-- Every hop after the first is trusted. -/
  tail_trusted : ∀ q ∈ (chainIps written).tail, isTrustedProxy contains trusted q = true
  /-- The last `proto=` is the peer's scheme. -/
  last_proto : written.getLast?.bind (·.proto) = some (protoText tls)
  /-- `X-Forwarded-For` is one line listing the addresses. -/
  xff : ∃ v, H.getAll xForwardedForName = [v] ∧
    v.toStr = .ok (List.intercalate ", ".toList ((chainIps written).map pushIpAddr))
  /-- `X-Forwarded-Proto` is one line with the scheme. -/
  xfp : H.getAll xForwardedProtoName = [protoValue tls]

namespace ForwardingWritten

variable {contains trusted} {H : HeaderMap} {written : List ForwardedEntry} {tls : Bool}

theorem chainIps_ne_nil (hw : ForwardingWritten contains trusted H written tls) : chainIps written ≠ [] := by
  obtain ⟨e, t, rfl⟩ := List.exists_cons_of_ne_nil hw.ne_nil
  obtain ⟨a, ha⟩ := Option.isSome_iff_exists.mp (hw.isSome_ip e (by simp))
  simp [chainIps_cons t ha]

/-- Steps that write neither `X-Forwarded-For` nor `X-Forwarded-Proto` keep the facts. -/
theorem of_getAll (hw : ForwardingWritten contains trusted H written tls) {H' : HeaderMap}
    (hxff : H'.getAll xForwardedForName = H.getAll xForwardedForName)
    (hxfp : H'.getAll xForwardedProtoName = H.getAll xForwardedProtoName) :
    ForwardingWritten contains trusted H' written tls where
  ne_nil := hw.ne_nil
  good := hw.good
  isSome_ip := hw.isSome_ip
  tail_trusted := hw.tail_trusted
  last_proto := hw.last_proto
  xff := hxff ▸ hw.xff
  xfp := hxfp ▸ hw.xfp

/-- The chain `parse_x_forwarded_for_header` reads back from the written headers has the
same facts. -/
theorem readBack (hw : ForwardingWritten contains trusted H written tls) {host : Option (List Char)}
    (hhost : ∀ t ∈ host, ∀ c ∈ t, isHeaderTextChar c = true) :
    ForwardingWritten contains trusted H
      (ForwardingAgreement.xffChain (some (protoText tls)) host (chainIps written)) tls where
  ne_nil := by
    obtain ⟨a, t, ht⟩ := List.exists_cons_of_ne_nil hw.chainIps_ne_nil
    simp [ht, ForwardingAgreement.xffChain]
  good := by
    intro e he
    obtain ⟨a, ha, p, h, rfl, hp, hh⟩ := mem_xffChain he
    refine xffEntry_good (canonical_of_mem_chainIps (fun e he => (hw.good e he).1) a ha) ?_ ?_
    · rcases hp with rfl | rfl
      · simp
      · cases tls <;> decide
    · rcases hh with rfl | rfl
      · simp
      · exact hhost
  isSome_ip := by
    intro e he
    obtain ⟨a, -, p, h, rfl, -⟩ := mem_xffChain he
    rfl
  tail_trusted := by rw [chainIps_xffChain]; exact hw.tail_trusted
  last_proto := xffChain_last_proto _ _ hw.chainIps_ne_nil
  xff := by rw [chainIps_xffChain]; exact hw.xff
  xfp := hw.xfp

/-- The chain is already cut at its trust boundary, so cutting it again keeps it. -/
theorem reduce_eq (hw : ForwardingWritten contains trusted H written tls) :
    reduceTrustedProxyChain contains written trusted = written := by
  rw [reduceTrustedProxyChain_eq, boundarySuffix_eq_self_iff]
  obtain ⟨e, t, rfl⟩ := List.exists_cons_of_ne_nil hw.ne_nil
  obtain ⟨a, ha⟩ := Option.isSome_iff_exists.mp (hw.isSome_ip e (by simp))
  intro y hy
  obtain ⟨q, hq⟩ := Option.isSome_iff_exists.mp (hw.isSome_ip y (List.mem_cons_of_mem e hy))
  rw [entryIsTrustedProxy_of_ip contains trusted hq]
  refine hw.tail_trusted q ?_
  rw [chainIps_cons t ha, List.tail_cons]
  exact List.mem_filterMap.mpr ⟨y, hy, hq⟩

/-- Without `Forwarded`, `extract_forwarding_chain_from_headers` reads the chain back from
`X-Forwarded-For`. -/
theorem extract_of_no_forwarded (hw : ForwardingWritten contains trusted H written tls)
    (hk : H.containsKey forwardedName = false) (host : Option (List Char)) :
    extractForwardingChainFromHeaders H host =
      .ok (some (ForwardingAgreement.xffChain (some (protoText tls)) host (chainIps written))) := by
  obtain ⟨xff, hxff, hxffText⟩ := hw.xff
  have hxffKey : H.containsKey xForwardedForName = true := (containsKey_iff _ _).mpr (by simp [hxff])
  have hcanon := canonical_of_mem_chainIps fun e he => (hw.good e he).1
  simp [extractForwardingChainFromHeaders, hxffKey, hk,
    parseXForwardedForHeader_written hxff hxffText hw.chainIps_ne_nil hcanon hw.xfp (toStr_protoValue tls)
      (trimmed_protoText tls) host]

/-- The chain's own `Forwarded` text, when it is the header's only field-line, makes the
headers agree. -/
theorem agree (hw : ForwardingWritten contains trusted H written tls) {s : List Char} {v : HeaderValue}
    (hg : generateForwardedHeader written = .ok s) (hv : HeaderValue.fromStr s = .ok v)
    (hm : H.getAll forwardedName = [v]) : ForwardingHeadersAgree H := by
  obtain ⟨s', hs', v', hv', hparse⟩ :=
    forwardedRoundTrips_of_wellFormed hw.ne_nil (fun e he => (hw.good e he).1) (fun e he => (hw.good e he).2)
  rw [hg, Except.ok.injEq] at hs'
  subst hs'
  rw [hv, Except.ok.injEq] at hv'
  subst hv'
  have hfwd := hparse H hm
  obtain ⟨xff, hxff, hxffText⟩ := hw.xff
  have hips := map_ip_eq_chainIps hw.isSome_ip
  have hkey : H.containsKey forwardedName = true := (containsKey_iff _ _).mpr (by simp [hm])
  refine ⟨written, chainIps written, xff, protoValue tls, protoText tls, hfwd, hxff, hxffText, hips, hw.xfp,
    toStr_protoValue tls, hw.last_proto, fun host' => ?_⟩
  exact extractForwardingChainFromHeaders_written hxff hxffText hw.chainIps_ne_nil
    (canonical_of_mem_chainIps fun e he => (hw.good e he).1) hw.xfp (toStr_protoValue tls) (trimmed_protoText tls)
    hkey hfwd hips hw.last_proto host'

end ForwardingWritten

/-- The chain `add_forwarding_header` renders is well formed with header-text parameters,
trusted after its first hop, and ends with the peer's hop. -/
theorem xffView_good {headers : HeaderMap} {peerIp : IpAddr} {tls : Bool} {host : Option (List Char)}
    (hcanon : canonicalizeIp peerIp = peerIp) (hhost : ∀ t ∈ host, ∀ c ∈ t, isHeaderTextChar c = true) :
    let view := xffView peerIp tls host (normalizeForwardingChain contains headers peerIp tls host trusted)
    (∀ e ∈ view.1, e.isWellFormed = true ∧ e.hasHeaderText = true) ∧
      (∀ q ∈ (chainIps view.1).tail, isTrustedProxy contains trusted q = true) ∧
      view.1.getLast? = some (buildPeerForwardedEntry peerIp tls host) := by
  intro view
  have htext := (xffView_spec peerIp tls host (normalizeForwardingChain contains headers peerIp tls host trusted)).1
  rcases @xffView_normalize_cases _ contains trusted headers peerIp tls host with hv | ⟨-, chain, hchain, hv⟩
  · refine ⟨?_, by simp [view, hv], by simp [view, hv]⟩
    simp only [view, hv, List.mem_singleton, forall_eq]
    exact peerEntry_good tls hcanon hhost
  · have hgood := @extractForwardingChainFromHeaders_good headers none chain (by simp) hchain
    refine ⟨fun e he => ?_, ?_, ?_⟩
    · have he' := (boundarySuffix_suffix _).subset (hv ▸ he)
      rcases List.mem_append.mp he' with he' | he'
      · exact hgood e he'
      · rw [List.mem_singleton] at he'
        subst he'
        exact peerEntry_good tls hcanon hhost
    · have hb := (chainIps_boundarySuffix contains trusted (hv ▸ htext.isSome_ip)).2.1
      simpa only [view, hv] using hb
    · simp only [view, hv]
      rw [boundarySuffix_getLast?, List.getLast?_concat]

/-- What a successful `add_forwarding_header` leaves for the agreement: the chain it
rendered, and a `Forwarded` header that is that chain's text when one came in and is absent
otherwise. -/
theorem addForwardingHeader_written {headers H1 : HeaderMap} {clientAddr listenAddr : SocketAddr} {tls : Bool}
    {originalUri : List Char} {host : Option (List Char)} (hhost : ∀ t ∈ host, ∀ c ∈ t, isHeaderTextChar c = true)
    (h : addForwardingHeader contains headers clientAddr listenAddr tls originalUri host trusted = .ok H1) :
    ∃ written, ForwardingWritten contains trusted H1 written tls ∧
      (headers.containsKey forwardedName = true → ∃ s v, generateForwardedHeader written = .ok s ∧
        HeaderValue.fromStr s = .ok v ∧ H1.getAll forwardedName = [v]) ∧
      (headers.containsKey forwardedName = false → H1.getAll forwardedName = []) := by
  obtain ⟨⟨xff, hxffv, hgetXff⟩, -, hgetXfp, xff', H1', hupd, hgetFwd⟩ := addForwardingHeader_spec contains trusted h
  set p := canonicalizeIp clientAddr.toCanonical.ip
  have hgoodv := @xffView_good _ contains trusted headers p tls host (canonicalizeIp_idem _) hhost
  have htext := (xffView_spec p tls host (normalizeForwardingChain contains headers p tls host trusted)).1
  dsimp only at hgoodv
  generalize xffView p tls host (normalizeForwardingChain contains headers p tls host trusted) = view
    at hxffv hupd hgoodv htext
  obtain ⟨written, csv, firstLen⟩ := view
  obtain ⟨hgood, htail, hlast⟩ := hgoodv
  dsimp only at hxffv hupd hgood htail hlast htext
  have hne : written ≠ [] := htext.ne_nil
  refine ⟨written, ⟨hne, hgood, htext.isSome_ip, htail, by rw [hlast]; rfl,
    ⟨xff, hgetXff, htext.toStr_csv hxffv⟩, hgetXfp⟩, fun hk => ?_, fun hk => ?_⟩
  · have hg := generateForwardedHeader_eq hne fun e he => (hgood e he).1
    rw [hk, updateForwarded, if_pos rfl, hg] at hupd
    obtain ⟨v, hv, rfl⟩ := addHeaderEntryOverwriteIfExist_eq_ok.mp hupd
    exact ⟨_, v, hg, hv, by rw [hgetFwd, getAll_insert_self]⟩
  · rw [hk, updateForwarded, if_neg (by decide)] at hupd
    cases hupd
    rw [hgetFwd, getAll_remove_self]

/-- After `add_forwarding_header` and `apply_upstream_options_to_header` succeed with a
header-text authoritative host, a `Forwarded` header, when there is one, agrees with
`X-Forwarded-For` and `X-Forwarded-Proto`. -/
theorem forwarding_headers_agree {headers H1 H2 : HeaderMap} {clientAddr listenAddr : SocketAddr} {tls : Bool}
    {originalUri : List Char} {host : Option (List Char)} {hostHeader : Option HeaderValue}
    {options : List UpstreamOption} (hhost : ∀ t ∈ host, ∀ c ∈ t, isHeaderTextChar c = true)
    (h1 : addForwardingHeader contains headers clientAddr listenAddr tls originalUri host trusted = .ok H1)
    (h2 : applyUpstreamOptionsToHeader contains H1 host hostHeader options trusted = .ok H2)
    (hfwd : H2.containsKey forwardedName = true) : ForwardingHeadersAgree H2 := by
  obtain ⟨written, hw, hcame, hnot⟩ := addForwardingHeader_written contains trusted hhost h1
  obtain ⟨H', hframe, hH2 | ⟨hk', fc, s, v, hfc, hs, hv, rfl⟩⟩ := applyUpstreamOptionsToHeader_inv contains trusted h2
  · subst hH2
    have hw' := hw.of_getAll (hframe _ (by decide) (by decide)) (hframe _ (by decide) (by decide))
    have hfwd' : H1.getAll forwardedName ≠ [] := by
      rw [← hframe _ (by decide) (by decide)]
      exact (containsKey_iff _ _).mp hfwd
    cases hk : headers.containsKey forwardedName with
    | false => exact absurd (hnot hk) hfwd'
    | true =>
      obtain ⟨s, v, hg, hv, hm⟩ := hcame hk
      exact hw'.agree hg hv (by rw [hframe _ (by decide) (by decide), hm])
  · have hw' := @ForwardingWritten.of_getAll _ contains trusted H1 written tls hw H'
      (hframe _ (by decide) (by decide)) (hframe _ (by decide) (by decide))
    rw [hw'.extract_of_no_forwarded hk' host, Except.ok.injEq, Option.some.injEq] at hfc
    subst hfc
    have hx := hw'.readBack hhost
    rw [hx.reduce_eq] at hs
    exact (hx.of_getAll (getAll_insert_ne _ _ (by decide)) (getAll_insert_ne _ _ (by decide))).agree hs hv
      (getAll_insert_self _ _ _)

/-- An untrusted client at `192.0.2.1` over TLS with `ForwardedHeader` set: `Forwarded` is
generated from the `X-Forwarded-For` just written. -/
theorem forwarding_headers_agree_generated :
    ∃ H1 H2, addForwardingHeader (fun (net a : IpAddr) => net == a) .new ⟨.v4 (Ipv4Addr.new 192 0 2 1), 40000⟩
        ⟨.v4 (Ipv4Addr.new 10 0 0 1), 443⟩ true "/".toList (some "example.com".toList) [] = .ok H1 ∧
      applyUpstreamOptionsToHeader (fun (net a : IpAddr) => net == a) H1 (some "example.com".toList) none
        [.forwardedHeader] [] = .ok H2 ∧
      ForwardingHeadersAgree H2 :=
  ⟨_, _, rfl, rfl, @forwarding_headers_agree IpAddr (fun net a => net == a) [] .new _ _
    ⟨.v4 (Ipv4Addr.new 192 0 2 1), 40000⟩ ⟨.v4 (Ipv4Addr.new 10 0 0 1), 443⟩ true "/".toList
    (some "example.com".toList) none [.forwardedHeader] (by decide) rfl rfl rfl⟩

/-- With a host that is not header text the agreement fails: `é` passes `HeaderValue::from_str`
when `Forwarded` is generated from `X-Forwarded-For`, but the reader's `to_str` refuses it. -/
theorem forwarding_headers_disagree_non_ascii_host :
    ∃ H1 H2, addForwardingHeader (fun (net a : IpAddr) => net == a) .new ⟨.v4 (Ipv4Addr.new 192 0 2 1), 40000⟩
        ⟨.v4 (Ipv4Addr.new 10 0 0 1), 80⟩ false "/".toList (some ['é']) [] = .ok H1 ∧
      applyUpstreamOptionsToHeader (fun (net a : IpAddr) => net == a) H1 (some ['é']) none [.forwardedHeader] [] =
        .ok H2 ∧
      H2.containsKey forwardedName = true ∧ parseForwardedHeader H2 = .error ("invalid header value: " ++ toStrErrorText) ∧
      ¬ForwardingHeadersAgree H2 := by
  refine ⟨_, _, rfl, rfl, rfl, rfl, ?_⟩
  rintro ⟨chain, -, -, -, -, hparse, -⟩
  cases hparse

end Trust

end Rpxy.ForwardingAgreement
