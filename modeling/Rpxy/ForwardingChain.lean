import Rpxy.ForwardedSyntax

/-!
# The forwarding chain and the headers written from it

The rest of `header_ops/forwarding.rs` and the helpers it calls from `common.rs` and
`upstream.rs`: the `X-Forwarded-For` reader, the consistency check between the two
forwarding headers, the choice of the incoming chain, the right-to-left trust scan that
cuts the chain at its last untrusted hop, the normalisation that appends the immediate
peer, and `add_forwarding_header`, which writes `X-Forwarded-For`, `X-Real-IP`,
`Forwarded` and the other `X-Forwarded-*` headers. `apply_upstream_options_to_header`
regenerates `Forwarded` from the headers just written.

`IpNet` of the `ipnet` crate is a parameter: a type `Net` of networks with its `contains`.
A `Uri` is its `Display` text, the only thing the code here reads of it.
-/

namespace Rpxy.ForwardingChain

open RustText RustResult RustIpAddr RustIpParser HttpHeaders ForwardedSyntax

/-! ### Header names -/

/-- `X_FORWARDED_FOR`. -/
def xForwardedForName : List Char := "x-forwarded-for".toList

/-- `X_FORWARDED_PROTO`. -/
def xForwardedProtoName : List Char := "x-forwarded-proto".toList

/-- `X_FORWARDED_PORT`. -/
def xForwardedPortName : List Char := "x-forwarded-port".toList

/-- `X_FORWARDED_SSL`. -/
def xForwardedSslName : List Char := "x-forwarded-ssl".toList

/-- `X_ORIGINAL_URI`. -/
def xOriginalUriName : List Char := "x-original-uri".toList

/-- `X_REAL_IP`. -/
def xRealIpName : List Char := "x-real-ip".toList

/-- `X_FORWARDED_HOST`. -/
def xForwardedHostName : List Char := "x-forwarded-host".toList

/-- `PROXY`. -/
def proxyName : List Char := "proxy".toList

/-- `header::COOKIE`. -/
def cookieName : List Char := "cookie".toList

/-- `header::HOST`. -/
def hostName : List Char := "host".toList

/-- `header::UPGRADE_INSECURE_REQUESTS`. -/
def upgradeInsecureRequestsName : List Char := "upgrade-insecure-requests".toList

/-! ### Reading `X-Forwarded-For` -/

/-- `first_header_value`: the first field-line of a header as text. -/
def firstHeaderValue (headers : HeaderMap) (key : List Char) : Except String (Option (List Char)) :=
  match headers.get key with
  | none => .ok none
  | some first => (headerValueStr first).map some

/-- `parse_forwarded_ip_token`: a node that must be an address. -/
def parseForwardedIpToken (token : List Char) : Except String IpAddr :=
  match parseForwardedNode token with
  | .error e => .error e
  | .ok n =>
    match n.ip with
    | some ip => .ok ip
    | none => .error ("forwarded node `" ++ String.ofList token ++ "` is not an IP address")

/-- An entry of the chain read from `X-Forwarded-For`. -/
def xffEntry (ip : IpAddr) (proto host : Option (List Char)) : ForwardedEntry :=
  ⟨⟨some ip, none, .ip⟩, proto, host, none⟩

/-- The loop of `parse_x_forwarded_for_header`: only the last entry carries the
`X-Forwarded-Proto` value and the authoritative host. -/
def xffEntries (xfProto host : Option (List Char)) : List (List Char) → Except String (List ForwardedEntry)
  | [] => .ok []
  | ip :: rest => do
    let forIp ← parseForwardedIpToken ip
    -- `idx == last_idx`
    let isLast := rest.isEmpty
    let tail ← xffEntries xfProto host rest
    pure (xffEntry forIp (if isLast then xfProto else none) (if isLast then host else none) :: tail)

/-- `parse_x_forwarded_for_header`. -/
def parseXForwardedForHeader (headers : HeaderMap) (authoritativeHost : Option (List Char)) :
    Except String (List ForwardedEntry) := do
  match ← joinHeaderValues headers xForwardedForName with
  | none => .error "x-forwarded-for header missing"
  | some xff =>
    let xfProto := (← firstHeaderValue headers xForwardedProtoName).map trim
    let ips := ((xff.splitOn ',').map trim).filter fun s => !s.isEmpty
    xffEntries xfProto authoritativeHost ips

/-! ### Choosing the incoming chain -/

/-- `forwarded_is_consistent`: same length, same addresses, and the last `proto=` agrees
with `X-Forwarded-Proto` when both are present. -/
def forwardedIsConsistent (forwarded xffChain : List ForwardedEntry) : Bool :=
  forwarded.length == xffChain.length &&
    forwarded.map (·.forNode.ip) == xffChain.map (·.forNode.ip) &&
    match forwarded.getLast?.bind (·.proto), xffChain.getLast?.bind (·.proto) with
    | some forwardedProto, some proto => eqIgnoreAsciiCase forwardedProto (trim proto)
    | _, _ => true

/-- `extract_forwarding_chain_from_headers`: `Forwarded` is preferred when it agrees with
`X-Forwarded-For`; an invalid `Forwarded` is ignored only when `X-Forwarded-For` is there. -/
def extractForwardingChainFromHeaders (headers : HeaderMap) (authoritativeHost : Option (List Char)) :
    Except String (Option (List ForwardedEntry)) := do
  let xffChain ←
    (if headers.containsKey xForwardedForName then
      (parseXForwardedForHeader headers authoritativeHost).map some
    else .ok none)
  let forwardedChain ←
    (if headers.containsKey forwardedName then
      match parseForwardedHeader headers with
      | .ok chain => .ok (some chain)
      | .error e => if xffChain.isSome then .ok none else .error e
    else .ok none)
  match forwardedChain, xffChain with
  | some forwarded, some xff => pure (some (if forwardedIsConsistent forwarded xff then forwarded else xff))
  | some forwarded, none => pure (some forwarded)
  | none, some xff => pure (some xff)
  | none, none => pure none

/-! ### Trust -/

section Trust

variable {Net : Type} (contains : Net → IpAddr → Bool)

/-- `is_trusted_proxy`: the canonical address lies in one of the trusted networks. -/
def isTrustedProxy (trusted : List Net) (ip : IpAddr) : Bool :=
  trusted.any fun net => contains net (canonicalizeIp ip)

/-- `entry_is_trusted_proxy`: only an address hop can be trusted. -/
def entryIsTrustedProxy (trusted : List Net) (entry : ForwardedEntry) : Bool :=
  (entry.forNode.ip.map (isTrustedProxy contains trusted)).getD false

/-- The `while` loop of `reduce_trusted_proxy_chain`: from index `idx`, step left over
trusted hops; the result is the index after the last untrusted hop, or `0`. -/
def trustScan (trusted : List Net) (chain : List ForwardedEntry) : Nat → Nat
  | 0 => 0
  | idx + 1 =>
    match chain[idx]? with
    | some e => if entryIsTrustedProxy contains trusted e then trustScan trusted chain idx else idx + 1
    | none => idx + 1

/-- `reduce_trusted_proxy_chain`: keep the last untrusted hop and the trusted hops after it;
a chain of trusted hops only is kept whole. -/
def reduceTrustedProxyChain (chain : List ForwardedEntry) (trusted : List Net) : List ForwardedEntry :=
  let idx := trustScan contains trusted chain chain.length
  if idx = 0 then chain else chain.drop (idx - 1)

/-- `build_peer_forwarded_entry`: the hop this proxy saw itself. -/
def buildPeerForwardedEntry (peerIp : IpAddr) (tls : Bool) (authoritativeHost : Option (List Char)) :
    ForwardedEntry :=
  ⟨⟨some peerIp, none, .ip⟩, some (if tls then "https" else "http").toList, authoritativeHost, none⟩

/-- `normalize_forwarding_chain`: an untrusted peer starts a new chain; a trusted one has
the incoming chain extended by itself and cut at the trust boundary. -/
def normalizeForwardingChain (headers : HeaderMap) (peerIp : IpAddr) (tls : Bool)
    (authoritativeHost : Option (List Char)) (trusted : List Net) : List ForwardedEntry :=
  let peerEntry := buildPeerForwardedEntry peerIp tls authoritativeHost
  if !isTrustedProxy contains trusted peerIp then [peerEntry]
  else
    match extractForwardingChainFromHeaders headers none with
    | .ok (some chain) =>
      if chain.isEmpty then [peerEntry]
      else
        let normalized := reduceTrustedProxyChain contains (chain ++ [peerEntry]) trusted
        if normalized.isEmpty then [buildPeerForwardedEntry peerIp tls authoritativeHost] else normalized
    | .ok none => [peerEntry]
    | .error _ => [peerEntry]

end Trust

/-! ### Writing the headers -/

/-- `xff_csv_from_chain`: the addresses joined by `, `, and the length of the first; no
value when the chain is empty or has a hop that is no address. -/
def xffCsvFromChain (chain : List ForwardedEntry) : Option (List Char × Nat) :=
  if chain.isEmpty then none
  else
    match chain.mapM (·.forNode.ip) with
    | none => none
    | some ips => some (List.intercalate ", ".toList (ips.map pushIpAddr), ((ips.head?.map pushIpAddr).getD []).length)

/-- `add_header_entry_overwrite_if_exist`: the value is checked as a header value and
replaces every earlier one. -/
def addHeaderEntryOverwriteIfExist (headers : HeaderMap) (key value : List Char) : Except String HeaderMap :=
  (HeaderValue.fromStr value).map (headers.insert key)

/-- The `to_str` of a `Cookie` line in `make_cookie_single_line`, empty when it fails. -/
def cookieLineText (v : HeaderValue) : List Char :=
  match v.toStr with
  | .ok s => s
  | .error _ => []

/-- `make_cookie_single_line`: two or more `Cookie` lines become one, joined by `; `. -/
def makeCookieSingleLine (headers : HeaderMap) : Except String HeaderMap :=
  let lines := headers.getAll cookieName
  if lines.length < 2 then .ok headers
  else
    let joined := List.intercalate "; ".toList (lines.map cookieLineText)
    (HeaderValue.fromBytes (utf8Bytes joined)).map ((headers.remove cookieName).insert cookieName)

/-- `overwrite_x_forwarded_host_from_original`. -/
def overwriteXForwardedHostFromOriginal (headers : HeaderMap) (authoritativeHost : Option (List Char)) :
    Except String HeaderMap :=
  match authoritativeHost with
  | some host => (HeaderValue.fromStr host).map (headers.insert xForwardedHostName)
  | none => .ok (headers.remove xForwardedHostName)

/-- `host_from_uri_or_host_header`: the URI's host, with its port when it has one, else the
text of the `Host` header. The URI is given by what `Uri::host` and `Uri::port_u16` return. -/
def hostFromUriOrHostHeader (uriHost : Option (List Char)) (uriPort : Option UInt16)
    (hostHeaderValue : Option HeaderValue) : Except String (List Char) :=
  match uriHost with
  | some host =>
    match uriPort with
    | some port => .ok (host ++ ':' :: Nat.toDigits 10 port.toNat)
    | none => .ok host
  | none =>
    match hostHeaderValue with
    | some h => h.toStr
    | none => .error "No host found in URI or Host header"

/-- The `Forwarded` step of `add_forwarding_header`: regenerated from the chain when one came
in (left as it was when that fails), removed otherwise. -/
def updateForwarded (headers : HeaderMap) (hasForwarded : Bool) (normalizedChain : List ForwardedEntry) :
    Except String HeaderMap :=
  if hasForwarded then
    match generateForwardedHeader normalizedChain with
    | .ok forwardedValue => addHeaderEntryOverwriteIfExist headers forwardedName forwardedValue
    | .error _ => .ok headers
  else .ok (headers.remove forwardedName)

/-- `HeaderValue::from_static(if tls { "https" } else { "http" })`. -/
def protoValue (tls : Bool) : HeaderValue :=
  HeaderValue.ofHeaderText (if tls then "https" else "http").toList (by cases tls <;> decide)

/-- `HeaderValue::from_static(if tls { "on" } else { "off" })`. -/
def sslValue (tls : Bool) : HeaderValue :=
  HeaderValue.ofHeaderText (if tls then "on" else "off").toList (by cases tls <;> decide)

/-- `HeaderValue::from_static("")`. -/
def emptyValue : HeaderValue := HeaderValue.ofHeaderText [] (by decide)

theorem isHeaderTextChar_of_mem_toDigits {p : UInt16} {c : Char} (hc : c ∈ Nat.toDigits 10 p.toNat) :
    isHeaderTextChar c = true := by
  obtain ⟨d, hd, rfl⟩ := exists_digitChar_of_mem_toDigits (by norm_num) hc
  have h : ∀ d < 10, isHeaderTextChar (Nat.digitChar d) = true := by decide
  exact h d hd

/-- `HeaderValue::from(u16)`: the decimal digits. -/
def portValue (p : UInt16) : HeaderValue :=
  HeaderValue.ofHeaderText (Nat.toDigits 10 p.toNat) fun _ hc => isHeaderTextChar_of_mem_toDigits hc

/-- The `(normalized_chain, xff_csv, xff_first_len)` of `add_forwarding_header`: the chain
with its `X-Forwarded-For` text, or the peer alone when a hop is no address. -/
def xffView (peerIp : IpAddr) (tls : Bool) (authoritativeHost : Option (List Char))
    (normalizedChain : List ForwardedEntry) : List ForwardedEntry × List Char × Nat :=
  match xffCsvFromChain normalizedChain with
  | some (csv, firstLen) => (normalizedChain, csv, firstLen)
  | none =>
    let csv := pushIpAddr peerIp
    ([buildPeerForwardedEntry peerIp tls authoritativeHost], csv, csv.length)

section Trust

variable {Net : Type} (contains : Net → IpAddr → Bool)

/-- `add_forwarding_header`: the normalised chain goes to `X-Forwarded-For` (with a
fallback to the peer alone when a hop is no address) and its first address to
`X-Real-IP`; `Forwarded` is regenerated only when it came in; the remaining headers
state this proxy's own view. -/
def addForwardingHeader (headers : HeaderMap) (clientAddr listenAddr : SocketAddr) (tls : Bool)
    (originalUri : List Char) (authoritativeHost : Option (List Char)) (trusted : List Net) :
    Except String HeaderMap := do
  let peerIp := canonicalizeIp clientAddr.toCanonical.ip
  let hasForwarded := headers.containsKey forwardedName
  let normalizedChain := normalizeForwardingChain contains headers peerIp tls authoritativeHost trusted
  let (normalizedChain, xffCsv, xffFirstLen) := xffView peerIp tls authoritativeHost normalizedChain
  let xRealIpValue ← HeaderValue.fromStr (xffCsv.take xffFirstLen)
  let headers := headers.insert xForwardedForName (← HeaderValue.fromStr xffCsv)
  let headers ← updateForwarded headers hasForwarded normalizedChain
  let headers ← makeCookieSingleLine headers
  let headers := headers.insert xForwardedProtoName (protoValue tls)
  let headers := headers.insert xForwardedPortName (portValue listenAddr.port)
  let headers := headers.insert xRealIpName xRealIpValue
  let headers := headers.insert xForwardedSslName (sslValue tls)
  let headers ← addHeaderEntryOverwriteIfExist headers xOriginalUriName originalUri
  let headers ← overwriteXForwardedHostFromOriginal headers authoritativeHost
  pure (headers.insert proxyName emptyValue)

end Trust

/-! ### Upstream options -/

/-- `UpstreamOption`. -/
inductive UpstreamOption where
  | keepOriginalHost
  | setUpstreamHost
  | upgradeInsecureRequests
  | forceHttp11Upstream
  | forceHttp2Upstream
  | forwardedHeader
  deriving DecidableEq

/-- `override_host_header`. -/
def overrideHostHeader (headers : HeaderMap) (hostHeader : Option HeaderValue) : Except String HeaderMap :=
  match hostHeader with
  | none => .error "No hostname is given"
  | some value => .ok (headers.insert hostName value)

/-- `HeaderValue::from_static("1")`. -/
def oneValue : HeaderValue := HeaderValue.ofHeaderText ['1'] (by decide)

section Trust

variable {Net : Type} (contains : Net → IpAddr → Bool)

/-- `apply_upstream_options_to_header`; the chosen upstream is its pre-rendered `Host`
value. -/
def applyUpstreamOptionsToHeader (headers : HeaderMap) (authoritativeHost : Option (List Char))
    (upstreamHostHeader : Option HeaderValue) (options : List UpstreamOption) (trusted : List Net) :
    Except String HeaderMap := do
  -- `KeepOriginalHost` wins over `SetUpstreamHost`
  let headers ←
    (if options.contains .setUpstreamHost && !options.contains .keepOriginalHost then
      overrideHostHeader headers upstreamHostHeader
    else .ok headers)
  let headers :=
    if options.contains .upgradeInsecureRequests then headers.orInsert upgradeInsecureRequestsName oneValue
    else headers
  if options.contains .forwardedHeader && !headers.containsKey forwardedName then
    match ← extractForwardingChainFromHeaders headers authoritativeHost with
    | none => pure headers
    | some forwardingChain =>
      let normalizedChain := reduceTrustedProxyChain contains forwardingChain trusted
      match generateForwardedHeader normalizedChain with
      | .ok forwardedValue => addHeaderEntryOverwriteIfExist headers forwardedName forwardedValue
      | .error _ => pure headers
  else pure headers

end Trust

end Rpxy.ForwardingChain
