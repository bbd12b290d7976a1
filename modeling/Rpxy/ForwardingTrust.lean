import Rpxy.SuffixCut
import Rpxy.ForwardingChain
import Rpxy.ForwardedRoundTrip

/-!
# The trust boundary of the forwarding headers

The right-to-left scan of `reduce_trusted_proxy_chain` computes `boundarySuffix` of the
chain under `entry_is_trusted_proxy`: the last untrusted hop and the trusted hops after
it. From that, the chain that `add_forwarding_header` writes to `X-Forwarded-For` is the
peer alone, or a suffix of the incoming chain extended by the peer in which every hop but
the first is trusted and the first is untrusted or the start of the whole chain; so no
address left of the last untrusted hop reaches `X-Forwarded-For` or `X-Real-IP`.
-/

namespace Rpxy.ForwardingTrust

open RustText RustResult RustIpAddr HttpHeaders HttpHeaders.HeaderMap ForwardedSyntax ForwardedRoundTrip ForwardingChain
  SuffixCut

section Trust

variable {Net : Type} (contains : Net → IpAddr → Bool) (trusted : List Net)

/-! ### The scan -/

/-- The loop index after scanning the first `n` hops is the length of what stays once the
trailing trusted hops of those `n` are dropped. -/
theorem trustScan_eq {chain : List ForwardedEntry} : ∀ {n : Nat}, n ≤ chain.length →
    trustScan contains trusted chain n =
      ((chain.take n).rdropWhile (entryIsTrustedProxy contains trusted)).length
  | 0, _ => by simp [trustScan]
  | n + 1, hn => by
    have hlt : n < chain.length := by omega
    have htake : chain.take (n + 1) = chain.take n ++ [chain[n]] := by
      rw [List.take_add_one, List.getElem?_eq_getElem hlt]
      rfl
    rw [trustScan, List.getElem?_eq_getElem hlt, htake]
    dsimp only
    by_cases ht : entryIsTrustedProxy contains trusted chain[n] = true
    · rw [if_pos ht, List.rdropWhile_concat_pos _ _ _ ht]
      exact trustScan_eq (by omega)
    · rw [if_neg ht, List.rdropWhile_concat_neg _ _ _ ht]
      simp only [List.length_append, List.length_take, List.length_singleton]
      omega

/-- `reduce_trusted_proxy_chain` cuts the chain at its last untrusted hop. -/
theorem reduceTrustedProxyChain_eq (chain : List ForwardedEntry) :
    reduceTrustedProxyChain contains chain trusted =
      boundarySuffix (entryIsTrustedProxy contains trusted) chain := by
  rw [reduceTrustedProxyChain, trustScan_eq contains trusted le_rfl, List.take_length, boundarySuffix_eq_drop]
  simp only [List.length_eq_zero_iff]

/-! ### The normalised chain -/

variable {headers : HeaderMap} {peerIp : IpAddr} {tls : Bool} {host : Option (List Char)}

/-- An untrusted peer starts a new chain. -/
theorem normalizeForwardingChain_of_untrusted (h : isTrustedProxy contains trusted peerIp = false) :
    normalizeForwardingChain contains headers peerIp tls host trusted = [buildPeerForwardedEntry peerIp tls host] := by
  simp [normalizeForwardingChain, h]

/-- A trusted peer either starts a new chain (nothing usable came in) or extends the
incoming chain, cut at its last untrusted hop; the defensive rebuild never fires. -/
theorem normalizeForwardingChain_cases :
    normalizeForwardingChain contains headers peerIp tls host trusted = [buildPeerForwardedEntry peerIp tls host] ∨
      isTrustedProxy contains trusted peerIp = true ∧ ∃ chain,
        extractForwardingChainFromHeaders headers none = .ok (some chain) ∧
        normalizeForwardingChain contains headers peerIp tls host trusted =
          boundarySuffix (entryIsTrustedProxy contains trusted) (chain ++ [buildPeerForwardedEntry peerIp tls host]) := by
  cases htr : isTrustedProxy contains trusted peerIp with
  | false => exact Or.inl (normalizeForwardingChain_of_untrusted contains trusted htr)
  | true =>
    unfold normalizeForwardingChain
    simp only [htr, Bool.not_true, Bool.false_eq_true, if_false]
    split
    · rename_i chain hchain
      split
      · exact Or.inl rfl
      · have hne : boundarySuffix (entryIsTrustedProxy contains trusted)
            (chain ++ [buildPeerForwardedEntry peerIp tls host]) ≠ [] :=
          boundarySuffix_ne_nil (by simp)
        rw [reduceTrustedProxyChain_eq, if_neg (by simpa using hne)]
        exact Or.inr ⟨trivial, chain, hchain, rfl⟩
    · exact Or.inl rfl
    · exact Or.inl rfl

end Trust

/-! ### The addresses of a chain -/

/-- The addresses of a chain's hops, in order; hops that are no address are skipped. -/
def chainIps (chain : List ForwardedEntry) : List IpAddr := chain.filterMap (·.forNode.ip)

@[simp]
theorem chainIps_peer (peerIp : IpAddr) (tls : Bool) (host : Option (List Char)) :
    chainIps [buildPeerForwardedEntry peerIp tls host] = [peerIp] := rfl

theorem chainIps_cons {e : ForwardedEntry} {a : IpAddr} (t : List ForwardedEntry) (he : e.forNode.ip = some a) :
    chainIps (e :: t) = a :: chainIps t :=
  List.filterMap_cons_some he

theorem chainIps_suffix {a b : List ForwardedEntry} (h : a <:+ b) : chainIps a <:+ chainIps b :=
  h.filterMap _

/-- A hop's address is trusted exactly when the hop is. -/
theorem entryIsTrustedProxy_of_ip {Net : Type} (contains : Net → IpAddr → Bool) (trusted : List Net)
    {e : ForwardedEntry} {a : IpAddr} (he : e.forNode.ip = some a) :
    entryIsTrustedProxy contains trusted e = isTrustedProxy contains trusted a := by
  simp [entryIsTrustedProxy, he]

/-! ### The `X-Forwarded-For` text -/

/-- What `X-Forwarded-For` and `X-Real-IP` are written from: every hop of `chain` is an
address, `csv` lists the addresses, and its first `firstLen` characters are the first one. -/
structure XffText (chain : List ForwardedEntry) (csv : List Char) (firstLen : Nat) : Prop where
  /-- Every hop is an address. -/
  isSome_ip : ∀ e ∈ chain, e.forNode.ip.isSome
  /-- The chain has a hop. -/
  ne_nil : chain ≠ []
  /-- `csv` lists the addresses. -/
  csv_eq : csv = List.intercalate ", ".toList ((chainIps chain).map pushIpAddr)
  /-- The first `firstLen` characters are the first address. -/
  take_eq : ∀ first ∈ (chainIps chain).head?, csv.take firstLen = pushIpAddr first

theorem take_intercalate_head (sep a : List Char) (rest : List (List Char)) :
    (List.intercalate sep (a :: rest)).take a.length = a := by
  cases rest with
  | nil => simp
  | cons b rest => rw [List.intercalate_cons_cons, List.append_assoc, List.take_left]

theorem xffCsvFromChain_eq_some {chain : List ForwardedEntry} {csv : List Char} {firstLen : Nat}
    (h : xffCsvFromChain chain = some (csv, firstLen)) : XffText chain csv firstLen := by
  unfold xffCsvFromChain at h
  split at h
  · cases h
  · rename_i hne
    split at h
    · cases h
    · rename_i ips hips
      obtain ⟨hsome, rfl⟩ := option_mapM_eq_some.mp hips
      simp only [Option.some.injEq, Prod.mk.injEq] at h
      obtain ⟨rfl, rfl⟩ := h
      refine ⟨hsome, by simpa using hne, rfl, ?_⟩
      unfold chainIps
      intro first hfirst
      obtain ⟨rest, hrest⟩ := List.head?_eq_some_iff.mp hfirst
      rw [hrest]
      simpa using take_intercalate_head ", ".toList (pushIpAddr first) (rest.map pushIpAddr)

/-- The peer alone, when a hop of the normalised chain is no address. -/
theorem xffText_peer (peerIp : IpAddr) (tls : Bool) (host : Option (List Char)) :
    XffText [buildPeerForwardedEntry peerIp tls host] (pushIpAddr peerIp) (pushIpAddr peerIp).length where
  isSome_ip := by simp [buildPeerForwardedEntry]
  ne_nil := by simp
  csv_eq := by rw [chainIps_peer]; simp
  take_eq := by simp only [chainIps_peer]; simp

/-- What `add_forwarding_header` renders: the normalised chain when every hop is an address,
the peer alone otherwise. -/
theorem xffView_spec (peerIp : IpAddr) (tls : Bool) (host : Option (List Char)) (chain : List ForwardedEntry) :
    XffText (xffView peerIp tls host chain).1 (xffView peerIp tls host chain).2.1 (xffView peerIp tls host chain).2.2 ∧
      ((xffView peerIp tls host chain).1 = chain ∨
        (xffView peerIp tls host chain).1 = [buildPeerForwardedEntry peerIp tls host]) := by
  unfold xffView
  split
  · rename_i csv firstLen hcsv
    exact ⟨xffCsvFromChain_eq_some hcsv, Or.inl rfl⟩
  · exact ⟨xffText_peer peerIp tls host, Or.inr rfl⟩

theorem pushIpAddr_eq_toText (a : IpAddr) : pushIpAddr a = a.toText := by
  cases a <;> rfl

/-- The `X-Forwarded-For` text is header text, so `to_str` reads it back. -/
theorem isHeaderTextChar_of_mem_csv {ips : List IpAddr} {c : Char}
    (hc : c ∈ List.intercalate ", ".toList (ips.map pushIpAddr)) : isHeaderTextChar c = true := by
  rcases mem_intercalate hc with hsep | ⟨t, ht, hct⟩
  · exact (by decide : ∀ x ∈ ", ".toList, isHeaderTextChar x = true) c hsep
  · obtain ⟨a, -, rfl⟩ := List.mem_map.mp ht
    rw [pushIpAddr_eq_toText] at hct
    exact isHeaderTextChar_of_isNodeTextChar (isNodeTextChar_of_isAddrTextChar (isAddrTextChar_of_mem_ipText hct))

theorem toStr_of_fromStr {s : List Char} {v : HeaderValue} (hs : ∀ c ∈ s, isHeaderTextChar c = true)
    (hv : HeaderValue.fromStr s = .ok v) : v.toStr = .ok s := by
  obtain ⟨w, hw, hws⟩ := fromStr_toStr hs
  rw [hw, Except.ok.injEq] at hv
  exact hv ▸ hws

namespace XffText

variable {chain : List ForwardedEntry} {csv : List Char} {firstLen : Nat}

theorem chainIps_ne_nil (ht : XffText chain csv firstLen) : chainIps chain ≠ [] := by
  obtain ⟨e, t, rfl⟩ := List.exists_cons_of_ne_nil ht.ne_nil
  obtain ⟨a, ha⟩ := Option.isSome_iff_exists.mp (ht.isSome_ip e (by simp))
  simp [chainIps_cons t ha]

/-- `to_str` of the `X-Forwarded-For` value gives the addresses back as text. -/
theorem toStr_csv (ht : XffText chain csv firstLen) {xff : HeaderValue} (hv : HeaderValue.fromStr csv = .ok xff) :
    xff.toStr = .ok (List.intercalate ", ".toList ((chainIps chain).map pushIpAddr)) := by
  rw [ht.csv_eq] at hv
  exact toStr_of_fromStr (fun _ hc => isHeaderTextChar_of_mem_csv hc) hv

/-- `to_str` of the `X-Real-IP` value gives the first address. -/
theorem toStr_first (ht : XffText chain csv firstLen) {realIp : HeaderValue}
    (hv : HeaderValue.fromStr (csv.take firstLen) = .ok realIp) :
    ∀ first ∈ (chainIps chain).head?, realIp.toStr = .ok (pushIpAddr first) := by
  intro first hfirst
  rw [ht.take_eq first hfirst] at hv
  refine toStr_of_fromStr (fun c hc => ?_) hv
  exact @isHeaderTextChar_of_mem_csv [first] c (by simpa using hc)

end XffText

/-! ### What the later steps of `add_forwarding_header` leave alone -/

theorem addHeaderEntryOverwriteIfExist_eq_ok {m m' : HeaderMap} {key value : List Char} :
    addHeaderEntryOverwriteIfExist m key value = .ok m' ↔
      ∃ v, HeaderValue.fromStr value = .ok v ∧ m.insert key v = m' :=
  except_map_eq_ok

theorem updateForwarded_getAll_ne {m m' : HeaderMap} {hasForwarded : Bool} {chain : List ForwardedEntry}
    {k : List Char} (h : updateForwarded m hasForwarded chain = .ok m') (hk : k ≠ forwardedName) :
    m'.getAll k = m.getAll k := by
  unfold updateForwarded at h
  split at h
  · split at h
    · obtain ⟨v, -, rfl⟩ := addHeaderEntryOverwriteIfExist_eq_ok.mp h
      exact getAll_insert_ne m v hk
    · cases h
      rfl
  · cases h
    exact getAll_remove_ne m hk

theorem makeCookieSingleLine_getAll_ne {m m' : HeaderMap} {k : List Char} (h : makeCookieSingleLine m = .ok m')
    (hk : k ≠ cookieName) : m'.getAll k = m.getAll k := by
  unfold makeCookieSingleLine at h
  dsimp only at h
  split at h
  · cases h
    rfl
  · obtain ⟨v, -, rfl⟩ := except_map_eq_ok.mp h
    rw [getAll_insert_ne _ v hk, getAll_remove_ne _ hk]

theorem overwriteXForwardedHostFromOriginal_getAll_ne {m m' : HeaderMap} {host : Option (List Char)}
    {k : List Char} (h : overwriteXForwardedHostFromOriginal m host = .ok m') (hk : k ≠ xForwardedHostName) :
    m'.getAll k = m.getAll k := by
  unfold overwriteXForwardedHostFromOriginal at h
  split at h
  · obtain ⟨v, -, rfl⟩ := except_map_eq_ok.mp h
    exact getAll_insert_ne m v hk
  · cases h
    exact getAll_remove_ne m hk

section Trust

variable {Net : Type} (contains : Net → IpAddr → Bool) (trusted : List Net)

/-- The steps of a successful `add_forwarding_header`, one value per `?`. -/
theorem addForwardingHeader_inv {headers headers' : HeaderMap} {clientAddr listenAddr : SocketAddr}
    {tls : Bool} {originalUri : List Char} {host : Option (List Char)}
    (h : addForwardingHeader contains headers clientAddr listenAddr tls originalUri host trusted = .ok headers') :
    let peerIp := canonicalizeIp clientAddr.toCanonical.ip
    let view := xffView peerIp tls host (normalizeForwardingChain contains headers peerIp tls host trusted)
    ∃ realIp xff H1 H2 H3 H4,
      HeaderValue.fromStr (view.2.1.take view.2.2) = .ok realIp ∧
      HeaderValue.fromStr view.2.1 = .ok xff ∧
      updateForwarded (headers.insert xForwardedForName xff) (headers.containsKey forwardedName) view.1 = .ok H1 ∧
      makeCookieSingleLine H1 = .ok H2 ∧
      addHeaderEntryOverwriteIfExist ((((H2.insert xForwardedProtoName (protoValue tls)).insert
        xForwardedPortName (portValue listenAddr.port)).insert xRealIpName realIp).insert
        xForwardedSslName (sslValue tls)) xOriginalUriName originalUri = .ok H3 ∧
      overwriteXForwardedHostFromOriginal H3 host = .ok H4 ∧
      headers' = H4.insert proxyName emptyValue := by
  intro peerIp view
  unfold addForwardingHeader at h
  dsimp only at h
  obtain ⟨realIp, hreal, h⟩ := except_bind_eq_ok.mp h
  obtain ⟨xff, hxff, h⟩ := except_bind_eq_ok.mp h
  obtain ⟨H1, h1, h⟩ := except_bind_eq_ok.mp h
  obtain ⟨H2, h2, h⟩ := except_bind_eq_ok.mp h
  obtain ⟨H3, h3, h⟩ := except_bind_eq_ok.mp h
  obtain ⟨H4, h4, h⟩ := except_bind_eq_ok.mp h
  exact ⟨realIp, xff, H1, H2, H3, H4, hreal, hxff, h1, h2, h3, h4, (Except.ok.inj h).symm⟩

/-- What a successful `add_forwarding_header` leaves in `X-Forwarded-For`, `X-Real-IP`,
`X-Forwarded-Proto` and `Forwarded`. -/
theorem addForwardingHeader_spec {headers headers' : HeaderMap} {clientAddr listenAddr : SocketAddr}
    {tls : Bool} {originalUri : List Char} {host : Option (List Char)}
    (h : addForwardingHeader contains headers clientAddr listenAddr tls originalUri host trusted = .ok headers') :
    let peerIp := canonicalizeIp clientAddr.toCanonical.ip
    let view := xffView peerIp tls host (normalizeForwardingChain contains headers peerIp tls host trusted)
    (∃ xff, HeaderValue.fromStr view.2.1 = .ok xff ∧ headers'.getAll xForwardedForName = [xff]) ∧
    (∃ realIp, HeaderValue.fromStr (view.2.1.take view.2.2) = .ok realIp ∧ headers'.getAll xRealIpName = [realIp]) ∧
    headers'.getAll xForwardedProtoName = [protoValue tls] ∧
    ∃ xff H1, updateForwarded (headers.insert xForwardedForName xff) (headers.containsKey forwardedName) view.1 = .ok H1 ∧
      headers'.getAll forwardedName = H1.getAll forwardedName := by
  intro peerIp view
  obtain ⟨realIp, xff, H1, H2, H3, H4, hreal, hxff, h1, h2, h3, h4, rfl⟩ :=
    addForwardingHeader_inv contains trusted h
  obtain ⟨uri, -, rfl⟩ := addHeaderEntryOverwriteIfExist_eq_ok.mp h3
  have hH4 : ∀ k, k ≠ xForwardedHostName → H4.getAll k = _ := fun k hk =>
    overwriteXForwardedHostFromOriginal_getAll_ne h4 hk
  refine ⟨⟨xff, hxff, ?_⟩, ⟨realIp, hreal, ?_⟩, ?_, xff, H1, h1, ?_⟩
  · rw [getAll_insert_ne _ _ (by decide), hH4 _ (by decide)]
    simp (disch := decide) only [getAll_insert_ne]
    rw [makeCookieSingleLine_getAll_ne h2 (by decide), updateForwarded_getAll_ne h1 (by decide),
      getAll_insert_self]
  · rw [getAll_insert_ne _ _ (by decide), hH4 _ (by decide)]
    simp (disch := decide) only [getAll_insert_ne, getAll_insert_self]
  · rw [getAll_insert_ne _ _ (by decide), hH4 _ (by decide)]
    simp (disch := decide) only [getAll_insert_ne, getAll_insert_self]
  · rw [getAll_insert_ne _ _ (by decide), hH4 _ (by decide)]
    simp (disch := decide) only [getAll_insert_ne]
    rw [makeCookieSingleLine_getAll_ne h2 (by decide)]

/-- The chain `add_forwarding_header` renders is the peer alone, or a trusted peer's
incoming chain extended by the peer and cut at its last untrusted hop. -/
theorem xffView_normalize_cases {headers : HeaderMap} {peerIp : IpAddr} {tls : Bool} {host : Option (List Char)} :
    let view := xffView peerIp tls host (normalizeForwardingChain contains headers peerIp tls host trusted)
    view.1 = [buildPeerForwardedEntry peerIp tls host] ∨
      isTrustedProxy contains trusted peerIp = true ∧ ∃ chain,
        extractForwardingChainFromHeaders headers none = .ok (some chain) ∧
        view.1 = boundarySuffix (entryIsTrustedProxy contains trusted) (chain ++ [buildPeerForwardedEntry peerIp tls host]) := by
  intro view
  rcases (xffView_spec peerIp tls host _).2 with hv | hv
  · rcases @normalizeForwardingChain_cases _ contains trusted headers peerIp tls host with
      hn | ⟨htr, chain, hchain, hn⟩
    · exact Or.inl (hv.trans hn)
    · exact Or.inr ⟨htr, chain, hchain, hv.trans hn⟩
  · exact Or.inl hv

/-- The addresses of a cut chain whose hops are all addresses: a non-empty suffix of the
whole chain's addresses, ending where it ends, trusted after its head, and with a head that
is untrusted or the start of the whole chain. -/
theorem chainIps_boundarySuffix {whole : List ForwardedEntry}
    (hsome : ∀ e ∈ boundarySuffix (entryIsTrustedProxy contains trusted) whole, e.forNode.ip.isSome) :
    let L := chainIps (boundarySuffix (entryIsTrustedProxy contains trusted) whole)
    L <:+ chainIps whole ∧ (∀ q ∈ L.tail, isTrustedProxy contains trusted q = true) ∧
      ∀ first ∈ L.head?, isTrustedProxy contains trusted first = false ∨ (chainIps whole).head? = some first := by
  intro L
  cases hb : boundarySuffix (entryIsTrustedProxy contains trusted) whole with
  | nil => simp [L, hb, chainIps]
  | cons e t =>
    obtain ⟨a, ha⟩ := Option.isSome_iff_exists.mp (hsome e (by simp [hb]))
    have hL : L = a :: chainIps t := by simp only [L, hb, chainIps_cons t ha]
    refine ⟨chainIps_suffix (boundarySuffix_suffix whole), ?_, ?_⟩
    · intro q hq
      rw [hL, List.tail_cons] at hq
      obtain ⟨e', he', hq'⟩ := List.mem_filterMap.mp hq
      have htail := forall_tail_boundarySuffix (p := entryIsTrustedProxy contains trusted) whole
      rw [hb, List.tail_cons] at htail
      rw [← entryIsTrustedProxy_of_ip contains trusted hq']
      exact htail e' he'
    · intro first hfirst
      rw [hL, List.head?_cons, Option.mem_def, Option.some.injEq] at hfirst
      subst hfirst
      rcases head_boundarySuffix (p := entryIsTrustedProxy contains trusted) whole e (by simp [hb]) with hu | hall
      · exact Or.inl (by rwa [entryIsTrustedProxy_of_ip contains trusted ha] at hu)
      · right
        rw [← hall, hb, chainIps_cons t ha, List.head?_cons]

end Trust

end Rpxy.ForwardingTrust