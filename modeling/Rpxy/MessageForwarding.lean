import Rpxy.ClientScheme
import Rpxy.StickyCookieHeaders
import Rpxy.ForwardingAgreement
import Rpxy.StickyCookieSeal
import Rpxy.ConfigBuild

/-!
# The upstream request and the downstream response

`generate_request_forwarded` turns a client's request into the one sent upstream: it strips the
hop-by-hop headers, adds the forwarding headers, re-inserts `TE: trailers` when the client asked
for trailers, fills in a missing `Host` from the URI, takes the sticky cookie out, lets the load
balancer choose an upstream, applies the upstream options and the `default_app` host rewrite,
points the URI at the upstream, and either restores the `Upgrade` pair or fixes the HTTP version
(`update_request_line`). `generate_response_forwarded` strips the response's hop-by-hop headers,
sets `Server` and advertises HTTP/3 in `Alt-Svc` only where `h3_alt_svc_port` allows it.

The model follows the default features (`http3-quinn`, `cache`, `sticky-cookie`). The load
balancer, `UpstreamCandidates::get`, is a parameter (modelled in `Balancers`), and so is
`PathAndQuery::try_from` (as in `PathRouting`). An upstream is its URI and the `Host` value
rendered from it at build time.

The main results are the header contracts: every header the request generation does not write
itself reaches the upstream as the client sent it, unless it is hop-by-hop or listed in the
client's `Connection` line; of the hop-by-hop headers only `TE: trailers` and the `Upgrade`
pair are sent, and only when the client asked for them. The response keeps every header but the
hop-by-hop ones, `Server` and `Alt-Svc`, and carries `Alt-Svc` exactly on a TLS connection to an
application without client authentication. With upstream options that `PathManager::try_from`
accepts, the upstream version does not depend on the iteration order of the options and is
never HTTP/3.
-/

namespace Rpxy.MessageForwarding

open RustText RustResult RustIpAddr HttpHeaders HttpHeaders.HeaderMap ForwardedSyntax ForwardingChain HopHeaders
  AccessLog CacheKey StickyCookieSeal StickyCookies LoadBalancePick StickyCookieHeaders CookieMerge

/-! ### Names and values -/

/-- `header::TE`. -/
def teName : List Char := "te".toList

/-- `header::UPGRADE`. -/
def upgradeName : List Char := "upgrade".toList

/-- `header::CONTENT_TYPE`. -/
def contentTypeName : List Char := "content-type".toList

/-- `header::SERVER`. -/
def serverHeaderName : List Char := "server".toList

/-- `header::ALT_SVC`. -/
def altSvcName : List Char := "alt-svc".toList

/-- `RESPONSE_HEADER_SERVER`. -/
def responseHeaderServer : List Char := "rpxy".toList

/-- `HeaderValue::from_bytes("trailers".as_bytes()).unwrap()`. -/
def trailersValue : HeaderValue := HeaderValue.ofHeaderText "trailers".toList (by decide)

/-- `HeaderValue::from_static("upgrade")`. -/
def upgradeValue : HeaderValue := HeaderValue.ofHeaderText "upgrade".toList (by decide)

def invalidRequestText : String := "Invalid request"
def stickyCipherText : String := "sticky-cookie cipher is not configured"
def failedToGetUpstreamText : String := "Failed to get upstream"
def brokenUpstreamUriText : String := "Upstream uri `scheme` and `authority` is broken"

/-! ### Hop-by-hop helpers -/

/-- `<[u8]>::eq_ignore_ascii_case`. -/
def eqIgnoreAsciiCaseBytes (a b : List UInt8) : Bool := a.map asciiLowerByte == b.map asciiLowerByte

/-- `te_contains_trailers`: a `trailers` token, in any case, among the pieces of the value split
at commas, spaces and tabs. -/
def teContainsTrailers (te : HeaderValue) : Bool :=
  (te.bytes.splitOnP fun v => v == 44 || v == 32 || v == 9).any fun x =>
    eqIgnoreAsciiCaseBytes x (utf8Bytes "trailers".toList)

/-- Whether `Connection` lists `upgrade`: its text, `""` when unreadable, split at commas. -/
def hasUpgradeToken (c : HeaderValue) : Bool :=
  ((c.toStr.toOption.getD []).splitOn ',').any fun w => eqIgnoreAsciiCase (trim w) upgradeName

/-- `extract_upgrade`: the `Upgrade` value when `Connection` lists `upgrade`. -/
def extractUpgrade (headers : HeaderMap) : Option (List Char) :=
  match headers.get connectionName with
  | none => none
  | some c =>
    if hasUpgradeToken c then (headers.get upgradeName).bind fun m => m.toStr.toOption
    else none

/-! ### Upstreams and candidates -/

/-- `Upstream`, by what the request generation reads: its URI and the `Host` value rendered from
it once, at build time. -/
structure Upstream where
  /-- `uri`. -/
  uri : Uri
  /-- `host_header`, the `Host` value rendered from the URI. -/
  hostHeader : Option HeaderValue

/-- `Upstream::from(&UpstreamUri)`: `host` or `host:port`, when that is a header value. -/
def Upstream.fromUri (uri : Uri) : Upstream :=
  ⟨uri, uri.host.bind fun host =>
    (match uri.portU16 with
      | some port => HeaderValue.fromStr (host ++ ':' :: Nat.toDigits 10 port.toNat)
      | none => HeaderValue.fromStr host).toOption⟩

/-- `UpstreamCandidates`, by what the request generation reads; `stickyConfig` is the cookie
configuration of a `LoadBalance::StickyRoundRobin` balancer. -/
structure UpstreamCandidates where
  /-- The path and replacement path. -/
  route : PathRouting.UpstreamCandidates
  /-- `options`, the upstream option set, in its iteration order. -/
  options : List UpstreamOption
  /-- The cookie configuration of a sticky balancer. -/
  stickyConfig : Option StickyCookieConfig

/-- `HandlerContext`: what the response side needs of the request side. -/
structure HandlerContext where
  /-- `context_lb`, the balancer's new context. -/
  contextLb : Option LoadBalanceContext
  /-- Whether the sticky cookie is `Secure`: the client's scheme is `https`. -/
  stickyCookieSecure : Bool
  /-- The cookie configuration of the route's sticky balancer. -/
  stickyCookieConfig : Option StickyCookieConfig

/-! ### The request line -/

/-- The version an upstream option forces. -/
def forceVersion (v : Version) : UpstreamOption → Version
  | .forceHttp11Upstream => .http11
  | .forceHttp2Upstream => .h2
  | _ => v

/-- `update_request_line`: gRPC needs HTTP/2; an `http` upstream gets HTTP/1.1 and an HTTP/3
request HTTP/2; then the options, in the set's iteration order, may force a version. -/
def updateRequestLine (req : Request) (upstreamScheme : Option (List Char)) (options : List UpstreamOption) :
    Request :=
  if (req.headers.get contentTypeName).map (fun v => (utf8Bytes "application/grpc".toList).isPrefixOf v.bytes) ==
      some true then
    { req with version := .h2 }
  else
    let version :=
      if upstreamScheme == some "http".toList then Version.http11
      else if req.version == .h3 then .h2
      else req.version
    { req with version := options.foldl forceVersion version }

/-- With at most one of the two forcing options, the options force the version of the one they
hold, wherever it stands. -/
theorem foldl_forceVersion {options : List UpstreamOption}
    (hvalid : ¬(UpstreamOption.forceHttp11Upstream ∈ options ∧ UpstreamOption.forceHttp2Upstream ∈ options))
    (v : Version) :
    options.foldl forceVersion v =
      if UpstreamOption.forceHttp11Upstream ∈ options then .http11
      else if UpstreamOption.forceHttp2Upstream ∈ options then .h2 else v := by
  induction options generalizing v with
  | nil => rfl
  | cons o rest ih =>
    have hrest : ¬(UpstreamOption.forceHttp11Upstream ∈ rest ∧ UpstreamOption.forceHttp2Upstream ∈ rest) :=
      fun h => hvalid ⟨List.mem_cons_of_mem _ h.1, List.mem_cons_of_mem _ h.2⟩
    rw [List.foldl_cons, ih hrest]
    cases o with
    | forceHttp11Upstream =>
      have h2 : UpstreamOption.forceHttp2Upstream ∉ rest :=
        fun h => hvalid ⟨List.mem_cons_self, List.mem_cons_of_mem _ h⟩
      simp [forceVersion, h2]
    | forceHttp2Upstream =>
      have h11 : UpstreamOption.forceHttp11Upstream ∉ rest :=
        fun h => hvalid ⟨List.mem_cons_of_mem _ h, List.mem_cons_self⟩
      simp [forceVersion, h11]
    | _ => simp [forceVersion]

/-- The version `update_request_line` gives, with at most one forcing option: HTTP/2 for gRPC,
else the forced one, else HTTP/1.1 for an `http` upstream, HTTP/2 for an HTTP/3 request, and the
request's own otherwise. -/
theorem updateRequestLine_version (req : Request) (upstreamScheme : Option (List Char))
    {options : List UpstreamOption}
    (hvalid : ¬(UpstreamOption.forceHttp11Upstream ∈ options ∧ UpstreamOption.forceHttp2Upstream ∈ options)) :
    (updateRequestLine req upstreamScheme options).version =
      if (req.headers.get contentTypeName).map
          (fun v => (utf8Bytes "application/grpc".toList).isPrefixOf v.bytes) = some true then .h2
      else if UpstreamOption.forceHttp11Upstream ∈ options then .http11
      else if UpstreamOption.forceHttp2Upstream ∈ options then .h2
      else if upstreamScheme = some "http".toList then .http11
      else if req.version = .h3 then .h2
      else req.version := by
  unfold updateRequestLine
  split
  · rename_i hgrpc
    rw [if_pos (beq_iff_eq.mp hgrpc)]
  · rename_i hgrpc
    rw [if_neg (fun h => hgrpc (beq_iff_eq.mpr h))]
    dsimp only
    rw [foldl_forceVersion hvalid]
    simp only [beq_iff_eq]

/-! ### `generate_request_forwarded` -/

section Request

variable {Net : Type} (contains : Net → IpAddr → Bool) (trusted : List Net)
  (parsePq : List UInt8 → Except String (List UInt8))

/-- Without an incoming `Host` header, the URI's host becomes one. -/
def insertDefaultHost (headers : HeaderMap) (originalHostHeader : Option HeaderValue) (uriHost : Option (List Char)) :
    Except String HeaderMap :=
  match originalHostHeader with
  | some _ => .ok headers
  | none => do
    let orgHost ← ConfigBuild.okOr uriHost invalidRequestText
    let value ← HeaderValue.fromStr orgHost
    pure (headers.insert hostName value)

/-- The sticky-cookie step: with a sticky balancer, the context its cookie carries, taken out of
the `Cookie` header. -/
def stickyStep (headers : HeaderMap) (stickyConfig : Option StickyCookieConfig) (cipher : Option Aead)
    (now : Int) : Except String (HeaderMap × Option LoadBalanceContext × Option StickyCookieConfig) :=
  match stickyConfig with
  | none => .ok (headers, none, none)
  | some cfg =>
    match cipher with
    | none => .error stickyCipherText
    | some c =>
      (takeoutStickyCookieLbContext headers cfg c now).2.map fun ctx =>
        ((takeoutStickyCookieLbContext headers cfg c now).1, ctx, some cfg)

/-- `apply_default_app_host_rewrite`. -/
def applyDefaultAppHostRewrite (headers : HeaderMap) (authoritativeHost : ServerName) : Except String HeaderMap :=
  (HeaderValue.fromBytes authoritativeHost.inner).map (headers.insert hostName)

/-- The `default_app` rewrite when the request came through the fallback. -/
def fallbackHostStep (headers : HeaderMap) (fallbackHost : Option ServerName) : Except String HeaderMap :=
  match fallbackHost with
  | some host => applyDefaultAppHostRewrite headers host
  | none => .ok headers

/-- The upstream URI: the upstream's scheme and authority with the rebuilt path and query. -/
def upstreamRequestUri (upstreamUri reqUri : Uri) (route : PathRouting.UpstreamCandidates) : Except String Uri :=
  match upstreamUri.scheme, upstreamUri.authority with
  | some scheme, some authority => do
    let pq ← PathRouting.rebuildPathAndQuery parsePq (reqUri.pathAndQuery.map utf8Bytes) route.replacePath route.path
    pure ⟨some scheme, some authority, StickyCookieSeal.fromUtf8 pq, fun _ => rfl⟩
  | _, _ => .error brokenUpstreamUriText

/-- The end of the request generation: the `Upgrade` pair, or else the request line. -/
def upgradeOrRequestLine (req : Request) (upgrade : Option (List Char)) (upstreamScheme : Option (List Char))
    (options : List UpstreamOption) : Except String Request :=
  match upgrade with
  | some v => do
    let value ← HeaderValue.fromStr v
    pure { req with headers := (req.headers.insert upgradeName value).insert connectionName upgradeValue }
  | none => .ok (updateRequestLine req upstreamScheme options)

/-- `generate_request_forwarded`, with the balancer's answer `lbGet` and the clock `now` of the
sticky cookie: the upstream request, the handler context and the client-facing effective URI. -/
def generateRequestForwarded (clientAddr listenAddr : SocketAddr) (req : Request) (upgrade : Option (List Char))
    (candidates : UpstreamCandidates) (lbGet : Option LoadBalanceContext → Option Upstream × Option LoadBalanceContext)
    (cipher : Option Aead) (now : Int) (tls : Bool) (fallbackHost : Option ServerName) :
    Except String (Request × HandlerContext × Option Uri) := do
  let containsTeTrailers := (req.headers.get teName).any teContainsTrailers
  let originalUri := req.uri
  let originalHostHeader := req.headers.get hostName
  let authoritativeHost := authoritativeHost req
  let headers := forwardedHeaders req.headers
  let clientScheme := clientVisibleScheme contains tls clientAddr headers trusted
  let headers ← addForwardingHeader contains headers clientAddr listenAddr tls originalUri.toText authoritativeHost trusted
  let headers := if containsTeTrailers then headers.insert teName trailersValue else headers
  let headers ← insertDefaultHost headers originalHostHeader originalUri.host
  let sticky ← stickyStep headers candidates.stickyConfig cipher now
  let upstreamChosen ← ConfigBuild.okOr (lbGet sticky.2.1).1 failedToGetUpstreamText
  let context : HandlerContext := ⟨(lbGet sticky.2.1).2, clientScheme == .https, sticky.2.2⟩
  let headers ← applyUpstreamOptionsToHeader contains sticky.1 authoritativeHost upstreamChosen.hostHeader
    candidates.options trusted
  let headers ← fallbackHostStep headers fallbackHost
  let uri ← upstreamRequestUri parsePq upstreamChosen.uri originalUri candidates.route
  let req ← upgradeOrRequestLine { req with uri := uri, headers := headers } upgrade upstreamChosen.uri.scheme
    candidates.options
  pure (req, context, buildClientFacingEffectiveUri clientScheme authoritativeHost originalUri)

end Request

/-! ### What each step writes -/

/-- The names `add_forwarding_header` writes. -/
def forwardingHeaderNames : List (List Char) :=
  [xForwardedForName, forwardedName, cookieName, xForwardedProtoName, xForwardedPortName, xRealIpName,
    xForwardedSslName, xOriginalUriName, xForwardedHostName, proxyName]

/-- The names the request generation writes itself, besides `TE` and the `Upgrade` pair. -/
def requestWrittenNames : List (List Char) := forwardingHeaderNames ++ [hostName, upgradeInsecureRequestsName]

/-- What reaches the upstream under a name the request generation does not write itself: a
`TE: trailers` when the client's `TE` asked for trailers, the `Upgrade` pair of an upgrade, no
other hop-by-hop header and nothing the client's `Connection` line lists, and the client's own
lines otherwise. -/
def forwardedHeaderValues (headers : HeaderMap) (upgrade : Option (List Char)) (k : List Char) :
    List HeaderValue :=
  if k = teName then (if (headers.get teName).any teContainsTrailers then [trailersValue] else [])
  else if k = upgradeName then (upgrade.bind fun v => (HeaderValue.fromStr v).toOption).toList
  else if k = connectionName then (if upgrade.isSome then [upgradeValue] else [])
  else if hopHeaders.contains k || (firstConnectionTokens headers).any (fun key => eqIgnoreAsciiCase key k) then []
  else headers.getAll k

/-- The stripped headers: the hop-by-hop ones and those the first `Connection` line lists go, the
others keep their lines. -/
theorem getAll_forwardedHeaders {m : HeaderMap} (hnames : ∀ e ∈ m.entries, IsHeaderName e.1) (k : List Char) :
    (forwardedHeaders m).getAll k =
      if hopHeaders.contains k || (firstConnectionTokens m).any (fun key => eqIgnoreAsciiCase key k) then []
      else m.getAll k := by
  rw [forwardedHeaders, (keeps_strip_of_names hnames).getAll_eq]
  cases hopHeaders.contains k <;> cases (firstConnectionTokens m).any (fun key => eqIgnoreAsciiCase key k) <;> rfl

section Frames

variable {Net : Type} {contains : Net → IpAddr → Bool} {trusted : List Net}

theorem addForwardingHeader_getAll_of_not_mem {headers headers' : HeaderMap} {clientAddr listenAddr : SocketAddr}
    {tls : Bool} {originalUri : List Char} {host : Option (List Char)}
    (h : addForwardingHeader contains headers clientAddr listenAddr tls originalUri host trusted = .ok headers')
    {k : List Char} (hk : k ∉ forwardingHeaderNames) : headers'.getAll k = headers.getAll k := by
  obtain ⟨realIp, xff, H1, H2, H3, H4, -, -, h1, h2, h3, h4, rfl⟩ :=
    ForwardingTrust.addForwardingHeader_inv contains trusted h
  obtain ⟨uri, -, rfl⟩ := ForwardingTrust.addHeaderEntryOverwriteIfExist_eq_ok.mp h3
  simp only [forwardingHeaderNames, List.mem_cons, List.not_mem_nil, or_false, not_or] at hk
  obtain ⟨hxff, hfwd, hcookie, hproto, hport, hreal, hssl, huri, hhost, hproxy⟩ := hk
  rw [getAll_insert_ne _ _ hproxy, ForwardingTrust.overwriteXForwardedHostFromOriginal_getAll_ne h4 hhost,
    getAll_insert_ne _ _ huri, getAll_insert_ne _ _ hssl, getAll_insert_ne _ _ hreal, getAll_insert_ne _ _ hport,
    getAll_insert_ne _ _ hproto, ForwardingTrust.makeCookieSingleLine_getAll_ne h2 hcookie,
    ForwardingTrust.updateForwarded_getAll_ne h1 hfwd, getAll_insert_ne _ _ hxff]

/-- `apply_upstream_options_to_header` in two parts: the `Host` override, then steps that write
`Upgrade-Insecure-Requests` and `Forwarded` only. -/
theorem applyUpstreamOptionsToHeader_hostStep {H H2 : HeaderMap} {host : Option (List Char)}
    {hostHeader : Option HeaderValue} {options : List UpstreamOption}
    (h : applyUpstreamOptionsToHeader contains H host hostHeader options trusted = .ok H2) :
    ∃ H0, (if options.contains .setUpstreamHost && !options.contains .keepOriginalHost then
        overrideHostHeader H hostHeader else .ok H) = .ok H0 ∧
      ∀ k, k ≠ upgradeInsecureRequestsName → k ≠ forwardedName → H2.getAll k = H0.getAll k := by
  unfold applyUpstreamOptionsToHeader at h
  obtain ⟨H0, h0, h⟩ := except_bind_eq_ok.mp h
  refine ⟨H0, h0, fun k hu hf => ?_⟩
  dsimp only at h
  generalize hH' : (if options.contains .upgradeInsecureRequests = true then
    H0.orInsert upgradeInsecureRequestsName oneValue else H0) = H' at h
  have hkH' : H'.getAll k = H0.getAll k := by
    subst hH'
    split
    · exact getAll_orInsert_ne _ _ hu
    · rfl
  rw [← hkH']
  split at h
  · obtain ⟨o, -, h⟩ := except_bind_eq_ok.mp h
    split at h
    · rw [← Except.ok.inj h]
    · split at h
      · obtain ⟨v, -, rfl⟩ := ForwardingTrust.addHeaderEntryOverwriteIfExist_eq_ok.mp h
        exact getAll_insert_ne _ _ hf
      · rw [← Except.ok.inj h]
  · rw [← Except.ok.inj h]

theorem applyUpstreamOptionsToHeader_getAll_of_ne {H H2 : HeaderMap} {host : Option (List Char)}
    {hostHeader : Option HeaderValue} {options : List UpstreamOption}
    (h : applyUpstreamOptionsToHeader contains H host hostHeader options trusted = .ok H2) {k : List Char}
    (hh : k ≠ hostName) (hu : k ≠ upgradeInsecureRequestsName) (hf : k ≠ forwardedName) :
    H2.getAll k = H.getAll k := by
  obtain ⟨H0, h0, hframe⟩ := applyUpstreamOptionsToHeader_hostStep h
  rw [hframe k hu hf]
  split at h0
  · exact ForwardingAgreement.overrideHostHeader_getAll_ne h0 hh
  · rw [← Except.ok.inj h0]

/-- `Host` after the upstream options: the upstream's rendered value with `set_upstream_host` and
no `keep_original_host`, and the lines it had otherwise. -/
theorem applyUpstreamOptionsToHeader_getAll_host {H H2 : HeaderMap} {host : Option (List Char)}
    {hostHeader : Option HeaderValue} {options : List UpstreamOption}
    (h : applyUpstreamOptionsToHeader contains H host hostHeader options trusted = .ok H2) :
    ((options.contains .setUpstreamHost && !options.contains .keepOriginalHost) = true →
        ∃ v, hostHeader = some v ∧ H2.getAll hostName = [v]) ∧
      ((options.contains .setUpstreamHost && !options.contains .keepOriginalHost) = false →
        H2.getAll hostName = H.getAll hostName) := by
  obtain ⟨H0, h0, hframe⟩ := applyUpstreamOptionsToHeader_hostStep h
  rw [hframe _ (by decide) (by decide)]
  split at h0
  · rename_i hset
    refine ⟨fun _ => ?_, fun hunset => by rw [hset] at hunset; cases hunset⟩
    unfold overrideHostHeader at h0
    split at h0
    · cases h0
    · rename_i v
      exact ⟨v, rfl, by rw [← Except.ok.inj h0, getAll_insert_self]⟩
  · rename_i hset
    refine ⟨fun hset' => (hset hset').elim, fun _ => by rw [← Except.ok.inj h0]⟩

end Frames

theorem insertDefaultHost_getAll_ne {headers H : HeaderMap} {o : Option HeaderValue} {uriHost : Option (List Char)}
    (h : insertDefaultHost headers o uriHost = .ok H) {k : List Char} (hk : k ≠ hostName) :
    H.getAll k = headers.getAll k := by
  unfold insertDefaultHost at h
  split at h
  · cases h
    rfl
  · obtain ⟨orgHost, -, h⟩ := except_bind_eq_ok.mp h
    obtain ⟨v, -, h⟩ := except_bind_eq_ok.mp h
    cases h
    exact getAll_insert_ne _ _ hk

/-- `Host` after the default: the URI's host when the client sent none. -/
theorem insertDefaultHost_getAll_host {headers H : HeaderMap} {o : Option HeaderValue} {uriHost : Option (List Char)}
    (h : insertDefaultHost headers o uriHost = .ok H) :
    (o ≠ none → H.getAll hostName = headers.getAll hostName) ∧
      (o = none → ∃ host v, uriHost = some host ∧ HeaderValue.fromStr host = .ok v ∧ H.getAll hostName = [v]) := by
  unfold insertDefaultHost at h
  split at h
  · cases h
    exact ⟨fun _ => rfl, fun hnone => by cases hnone⟩
  · obtain ⟨host, hhost, h⟩ := except_bind_eq_ok.mp h
    obtain ⟨v, hv, h⟩ := except_bind_eq_ok.mp h
    cases h
    exact ⟨fun hsome => (hsome rfl).elim, fun _ => ⟨host, v, ConfigBuild.okOr_eq_ok.mp hhost, hv, getAll_insert_self _ _ _⟩⟩

theorem restoreCookies_getAll_ne {headers H : HeaderMap} {text : List Char}
    (h : restoreCookies headers text = .ok H) {k : List Char} (hk : k ≠ cookieName) :
    H.getAll k = headers.getAll k := by
  unfold restoreCookies at h
  dsimp only at h
  split at h
  · cases h
    exact getAll_remove_ne _ hk
  · obtain ⟨v, -, rfl⟩ := except_map_eq_ok.mp h
    rw [getAll_insert_ne _ _ hk, getAll_remove_ne _ hk]

/-- Taking the sticky cookie out touches the `Cookie` header only. -/
theorem stickyStep_getAll_ne {headers : HeaderMap} {cfg : Option StickyCookieConfig} {cipher : Option Aead}
    {now : Int} {s : HeaderMap × Option LoadBalanceContext × Option StickyCookieConfig}
    (h : stickyStep headers cfg cipher now = .ok s) {k : List Char} (hk : k ≠ cookieName) :
    s.1.getAll k = headers.getAll k := by
  unfold stickyStep at h
  split at h
  · cases h
    rfl
  · split at h
    · cases h
    · rename_i c _ _
      obtain ⟨ctx, -, rfl⟩ := except_map_eq_ok.mp h
      rcases takeout_fst_cases headers c _ now with ⟨heq, -⟩ | hr
      · rw [heq]
      · exact restoreCookies_getAll_ne hr hk

/-- The context the sticky step reads depends only on the `Cookie` lines. -/
theorem stickyStep_context_congr {h₁ h₂ : HeaderMap} (hc : h₁.getAll cookieName = h₂.getAll cookieName)
    {cfg : Option StickyCookieConfig} {cipher : Option Aead} {now : Int}
    {s : HeaderMap × Option LoadBalanceContext × Option StickyCookieConfig}
    (h : stickyStep h₁ cfg cipher now = .ok s) : ∃ s', stickyStep h₂ cfg cipher now = .ok s' ∧ s'.2 = s.2 := by
  unfold stickyStep at h ⊢
  split at h
  · cases h
    exact ⟨_, rfl, rfl⟩
  · split at h
    · cases h
    · rename_i c _ _
      obtain ⟨ctx, hctx, rfl⟩ := except_map_eq_ok.mp h
      rw [takeout_snd_congr hc] at hctx
      rw [hctx]
      exact ⟨_, rfl, rfl⟩

theorem fallbackHostStep_getAll_ne {headers H : HeaderMap} {fallbackHost : Option ServerName}
    (h : fallbackHostStep headers fallbackHost = .ok H) {k : List Char} (hk : k ≠ hostName) :
    H.getAll k = headers.getAll k := by
  unfold fallbackHostStep at h
  split at h
  · obtain ⟨v, -, rfl⟩ := except_map_eq_ok.mp h
    exact getAll_insert_ne _ _ hk
  · cases h
    rfl

/-- `Host` after the `default_app` rewrite: the default app's server name after a fallback. -/
theorem fallbackHostStep_getAll_host {headers H : HeaderMap} {fallbackHost : Option ServerName}
    (h : fallbackHostStep headers fallbackHost = .ok H) :
    (fallbackHost = none → H = headers) ∧
      ∀ d, fallbackHost = some d → ∃ v, HeaderValue.fromBytes d.inner = .ok v ∧ H.getAll hostName = [v] := by
  unfold fallbackHostStep at h
  cases fallbackHost with
  | none =>
    obtain rfl := Except.ok.inj h
    exact ⟨fun _ => rfl, fun d hd => (Option.some_ne_none d hd.symm).elim⟩
  | some d =>
    obtain ⟨v, hv, rfl⟩ := except_map_eq_ok.mp h
    refine ⟨fun hnone => (Option.some_ne_none d hnone).elim, fun d' hd => ?_⟩
    obtain rfl := Option.some.inj hd
    exact ⟨v, hv, getAll_insert_self _ _ _⟩

@[simp] theorem updateRequestLine_headers (req : Request) (upstreamScheme : Option (List Char))
    (options : List UpstreamOption) : (updateRequestLine req upstreamScheme options).headers = req.headers := by
  unfold updateRequestLine
  split <;> rfl

/-- The last step adds the `Upgrade` pair of an upgrade, and leaves the headers alone otherwise. -/
theorem upgradeOrRequestLine_headers {req r : Request} {upgrade : Option (List Char)}
    {upstreamScheme : Option (List Char)} {options : List UpstreamOption}
    (h : upgradeOrRequestLine req upgrade upstreamScheme options = .ok r) :
    (upgrade = none → r.headers = req.headers) ∧
      ∀ v, upgrade = some v → ∃ value, HeaderValue.fromStr v = .ok value ∧
        r.headers = (req.headers.insert upgradeName value).insert connectionName upgradeValue := by
  cases upgrade with
  | none =>
    obtain rfl := Except.ok.inj h
    exact ⟨fun _ => updateRequestLine_headers _ _ _, fun v hv => by cases hv⟩
  | some v =>
    obtain ⟨value, hvalue, h⟩ := except_bind_eq_ok.mp h
    obtain rfl := Except.ok.inj h
    refine ⟨fun hnone => (Option.some_ne_none v hnone).elim, fun v' hv => ?_⟩
    obtain rfl := Option.some.inj hv
    exact ⟨value, hvalue, rfl⟩

theorem upgradeOrRequestLine_getAll_ne {req r : Request} {upgrade : Option (List Char)}
    {upstreamScheme : Option (List Char)} {options : List UpstreamOption}
    (h : upgradeOrRequestLine req upgrade upstreamScheme options = .ok r) {k : List Char} (hu : k ≠ upgradeName)
    (hc : k ≠ connectionName) : r.headers.getAll k = req.headers.getAll k := by
  obtain ⟨hnone, hsome⟩ := upgradeOrRequestLine_headers h
  cases upgrade with
  | none => rw [hnone rfl]
  | some v =>
    obtain ⟨value, -, hheaders⟩ := hsome v rfl
    rw [hheaders, getAll_insert_ne _ _ hc, getAll_insert_ne _ _ hu]

section Spec

variable {Net : Type} {contains : Net → IpAddr → Bool} {trusted : List Net}
  {parsePq : List UInt8 → Except String (List UInt8)}

/-- The steps of a successful request generation, one value per `?`. -/
theorem generateRequestForwarded_eq_ok {clientAddr listenAddr : SocketAddr} {req : Request}
    {upgrade : Option (List Char)} {candidates : UpstreamCandidates}
    {lbGet : Option LoadBalanceContext → Option Upstream × Option LoadBalanceContext} {cipher : Option Aead}
    {now : Int} {tls : Bool} {fallbackHost : Option ServerName} {out : Request × HandlerContext × Option Uri}
    (h : generateRequestForwarded contains trusted parsePq clientAddr listenAddr req upgrade candidates lbGet cipher
      now tls fallbackHost = .ok out) :
    let scheme := clientVisibleScheme contains tls clientAddr (forwardedHeaders req.headers) trusted
    ∃ H1 H3 sticky up H5 H6 uri,
      addForwardingHeader contains (forwardedHeaders req.headers) clientAddr listenAddr tls req.uri.toText
        (authoritativeHost req) trusted = .ok H1 ∧
      insertDefaultHost (if (req.headers.get teName).any teContainsTrailers then H1.insert teName trailersValue
        else H1) (req.headers.get hostName) req.uri.host = .ok H3 ∧
      stickyStep H3 candidates.stickyConfig cipher now = .ok sticky ∧
      (lbGet sticky.2.1).1 = some up ∧
      applyUpstreamOptionsToHeader contains sticky.1 (authoritativeHost req) up.hostHeader candidates.options
        trusted = .ok H5 ∧
      fallbackHostStep H5 fallbackHost = .ok H6 ∧
      upstreamRequestUri parsePq up.uri req.uri candidates.route = .ok uri ∧
      upgradeOrRequestLine { req with uri := uri, headers := H6 } upgrade up.uri.scheme candidates.options =
        .ok out.1 ∧
      out.2 = (⟨(lbGet sticky.2.1).2, scheme == .https, sticky.2.2⟩,
        buildClientFacingEffectiveUri scheme (authoritativeHost req) req.uri) := by
  intro scheme
  unfold generateRequestForwarded at h
  obtain ⟨H1, h1, h⟩ := except_bind_eq_ok.mp h
  obtain ⟨H3, h3, h⟩ := except_bind_eq_ok.mp h
  obtain ⟨sticky, hs, h⟩ := except_bind_eq_ok.mp h
  obtain ⟨up, hup, h⟩ := except_bind_eq_ok.mp h
  obtain ⟨H5, h5, h⟩ := except_bind_eq_ok.mp h
  obtain ⟨H6, h6, h⟩ := except_bind_eq_ok.mp h
  obtain ⟨uri, huri, h⟩ := except_bind_eq_ok.mp h
  obtain ⟨r, hr, h⟩ := except_bind_eq_ok.mp h
  obtain rfl := Except.ok.inj h
  exact ⟨H1, H3, sticky, up, H5, H6, uri, h1, h3, hs, ConfigBuild.okOr_eq_ok.mp hup, h5, h6, huri, hr, rfl⟩

/-- Every header the request generation does not write itself reaches the upstream as
`forwardedHeaderValues` says: the client's lines of an end-to-end header, no hop-by-hop header
and nothing the client's `Connection` line lists, except a `TE: trailers` when the client asked
for trailers and the `Upgrade` pair of an upgrade. -/
theorem forwarded_request_headers {clientAddr listenAddr : SocketAddr} {req : Request}
    (hnames : ∀ e ∈ req.headers.entries, IsHeaderName e.1)
    {upgrade : Option (List Char)} {candidates : UpstreamCandidates}
    {lbGet : Option LoadBalanceContext → Option Upstream × Option LoadBalanceContext} {cipher : Option Aead}
    {now : Int} {tls : Bool} {fallbackHost : Option ServerName} {out : Request × HandlerContext × Option Uri}
    (h : generateRequestForwarded contains trusted parsePq clientAddr listenAddr req upgrade candidates lbGet cipher
      now tls fallbackHost = .ok out) (k : List Char) (hk : k ∉ requestWrittenNames) :
    out.1.headers.getAll k = forwardedHeaderValues req.headers upgrade k := by
  obtain ⟨H1, H3, sticky, up, H5, H6, uri, h1, h3, hs, -, h5, h6, -, hr, -⟩ := generateRequestForwarded_eq_ok h
  have hfwd : k ∉ forwardingHeaderNames := fun hm => hk (List.mem_append_left _ hm)
  simp only [requestWrittenNames, forwardingHeaderNames, List.cons_append, List.nil_append, List.mem_cons,
    List.not_mem_nil, or_false, not_or] at hk
  obtain ⟨-, hforwarded, hcookie, -, -, -, -, -, -, -, hhost, huir⟩ := hk
  have hmid : H6.getAll k = (if (req.headers.get teName).any teContainsTrailers then H1.insert teName trailersValue
      else H1).getAll k := by
    rw [fallbackHostStep_getAll_ne h6 hhost, applyUpstreamOptionsToHeader_getAll_of_ne h5 hhost huir hforwarded,
      stickyStep_getAll_ne hs hcookie, insertDefaultHost_getAll_ne h3 hhost]
  have hH1 : ∀ k', k' ∉ forwardingHeaderNames → H1.getAll k' = (forwardedHeaders req.headers).getAll k' :=
    fun k' hk' => addForwardingHeader_getAll_of_not_mem h1 hk'
  have hhop : ∀ k', hopHeaders.contains k' = true → k' ∉ forwardingHeaderNames → H1.getAll k' = [] := by
    intro k' hk' hk'f
    rw [hH1 k' hk'f, getAll_forwardedHeaders hnames, if_pos (by rw [hk', Bool.true_or])]
  obtain ⟨hnone, hsome⟩ := upgradeOrRequestLine_headers hr
  unfold forwardedHeaderValues
  by_cases hte : k = teName
  · subst hte
    rw [if_pos rfl, upgradeOrRequestLine_getAll_ne hr (by decide) (by decide), hmid]
    split
    · exact getAll_insert_self _ _ _
    · exact hhop teName (by decide) (by decide)
  rw [if_neg hte]
  have hH2 : H6.getAll k = H1.getAll k := by
    rw [hmid]
    split
    · exact getAll_insert_ne _ _ hte
    · rfl
  by_cases hup : k = upgradeName
  · subst hup
    rw [if_pos rfl]
    cases upgrade with
    | none => rw [hnone rfl, hH2, hhop upgradeName (by decide) (by decide), Option.bind_none, Option.toList_none]
    | some v =>
      obtain ⟨value, hvalue, hheaders⟩ := hsome v rfl
      rw [hheaders, getAll_insert_ne _ _ (by decide), getAll_insert_self, Option.bind_some, hvalue]
      rfl
  rw [if_neg hup]
  by_cases hconn : k = connectionName
  · subst hconn
    rw [if_pos rfl]
    cases upgrade with
    | none => rw [hnone rfl, hH2, hhop connectionName (by decide) (by decide), Option.isSome_none, if_neg (by decide)]
    | some v =>
      obtain ⟨value, -, hheaders⟩ := hsome v rfl
      rw [hheaders, getAll_insert_self, Option.isSome_some, if_pos rfl]
  rw [if_neg hconn]
  rw [upgradeOrRequestLine_getAll_ne hr hup hconn, hH2, hH1 k hfwd, getAll_forwardedHeaders hnames]

/-- A client line: a header name and its text. -/
def clientLine (name value : String) (h : ∀ c ∈ value.toList, isHeaderTextChar c = true) : List Char × HeaderValue :=
  (name.toList, HeaderValue.ofHeaderText value.toList h)

/-- The origin-form request `GET /?x` of the cache examples, with the given lines. -/
def exampleRequest (lines : List (List Char × HeaderValue)) : Request :=
  { originFormRequest with headers := .ofEntries lines }

/-- The client at `192.0.2.1`, the listener at `10.0.0.1:80`. -/
def exampleClient : SocketAddr := ⟨.v4 (Ipv4Addr.new 192 0 2 1), 40000⟩
def exampleListen : SocketAddr := ⟨.v4 (Ipv4Addr.new 10 0 0 1), 80⟩

/-- The upstream `http://backend:8080`. -/
def exampleUpstream : Upstream :=
  Upstream.fromUri ⟨some "http".toList, some ⟨"backend:8080".toList, "backend".toList, some 8080, by decide⟩, none,
    fun _ => rfl⟩

/-- The route `/` with the given options and no sticky cookie. -/
def exampleCandidates (options : List UpstreamOption) : UpstreamCandidates := ⟨⟨[47], none⟩, options, none⟩

/-- A plaintext request through the route `/` with the given options, no untrusted proxy, every
path accepted, and the upstream `http://backend:8080` chosen. -/
def exampleGenerate (lines : List (List Char × HeaderValue)) (upgrade : Option (List Char))
    (options : List UpstreamOption) : Except String (Request × HandlerContext × Option Uri) :=
  generateRequestForwarded (fun (net a : IpAddr) => net == a) ([] : List IpAddr) .ok exampleClient exampleListen
    (exampleRequest lines) upgrade (exampleCandidates options) (fun _ => (some exampleUpstream, none)) none 0 false none

/-- The lines of the examples: `Connection: keep-alive, x-secret` with the lines it lists, a
`TE: Trailers` and an end-to-end `Accept`. -/
def hopLines : List (List Char × HeaderValue) :=
  [clientLine "host" "app.example" (by decide), clientLine "connection" "keep-alive, x-secret" (by decide),
    clientLine "keep-alive" "timeout=5" (by decide), clientLine "x-secret" "1" (by decide),
    clientLine "te" "Trailers" (by decide), clientLine "accept" "*/*" (by decide)]

/-- The lines `Connection` lists and `Keep-Alive` stay behind, `Accept` goes through, and `TE`
is sent as `trailers`. -/
theorem forwarded_request_headers_hop_lines :
    ∃ out, exampleGenerate hopLines none [] = .ok out ∧
      out.1.headers.getAll "x-secret".toList = [] ∧ out.1.headers.getAll "keep-alive".toList = [] ∧
      out.1.headers.getAll "accept".toList = [HeaderValue.ofHeaderText "*/*".toList (by decide)] ∧
      out.1.headers.getAll teName = [trailersValue] := by
  obtain ⟨out, h⟩ : ∃ out, exampleGenerate hopLines none [] = .ok out := ⟨_, rfl⟩
  have hnames : ∀ e ∈ (exampleRequest hopLines).headers.entries, IsHeaderName e.1 := by decide
  refine ⟨out, h, ?_, ?_, ?_, ?_⟩
  · rw [forwarded_request_headers hnames h _ (by decide)]
    decide
  · rw [forwarded_request_headers hnames h _ (by decide)]
    decide
  · rw [forwarded_request_headers hnames h _ (by decide)]
    decide
  · rw [forwarded_request_headers hnames h _ (by decide)]
    decide

/-- The `Host` the upstream request carries: after a `default_app` fallback, the default app's
server name; otherwise, with `set_upstream_host` and no `keep_original_host`, the host rendered by
the upstream that the balancer picks for the sticky context of the request's own `Cookie` lines
(as merged into one); otherwise the URI's host when the client sent no `Host`, and else the
client's own `Host` lines, which are gone when its `Connection` line lists `host`. -/
theorem forwarded_request_host {clientAddr listenAddr : SocketAddr} {req : Request}
    (hnames : ∀ e ∈ req.headers.entries, IsHeaderName e.1)
    {upgrade : Option (List Char)} {candidates : UpstreamCandidates}
    {lbGet : Option LoadBalanceContext → Option Upstream × Option LoadBalanceContext} {cipher : Option Aead}
    {now : Int} {tls : Bool} {fallbackHost : Option ServerName} {out : Request × HandlerContext × Option Uri}
    (h : generateRequestForwarded contains trusted parsePq clientAddr listenAddr req upgrade candidates lbGet cipher
      now tls fallbackHost = .ok out) :
    (∀ d, fallbackHost = some d →
      ∃ v, HeaderValue.fromBytes d.inner = .ok v ∧ out.1.headers.getAll hostName = [v]) ∧
    (fallbackHost = none →
      (candidates.options.contains .setUpstreamHost && !candidates.options.contains .keepOriginalHost) = true →
      ∃ merged sticky up v, makeCookieSingleLine (forwardedHeaders req.headers) = .ok merged ∧
        stickyStep merged candidates.stickyConfig cipher now = .ok sticky ∧
        (lbGet sticky.2.1).1 = some up ∧ up.hostHeader = some v ∧ out.1.headers.getAll hostName = [v]) ∧
    (fallbackHost = none →
      (candidates.options.contains .setUpstreamHost && !candidates.options.contains .keepOriginalHost) = false →
      req.headers.get hostName = none →
      ∃ host v, req.uri.host = some host ∧ HeaderValue.fromStr host = .ok v ∧ out.1.headers.getAll hostName = [v]) ∧
    (fallbackHost = none →
      (candidates.options.contains .setUpstreamHost && !candidates.options.contains .keepOriginalHost) = false →
      req.headers.get hostName ≠ none →
      out.1.headers.getAll hostName =
        if (firstConnectionTokens req.headers).any (fun key => eqIgnoreAsciiCase key hostName) then []
        else req.headers.getAll hostName) := by
  obtain ⟨H1, H3, sticky, up, H5, H6, uri, h1, h3, hs, hup, h5, h6, -, hr, -⟩ := generateRequestForwarded_eq_ok h
  have hlast : out.1.headers.getAll hostName = H6.getAll hostName :=
    upgradeOrRequestLine_getAll_ne hr (by decide) (by decide)
  obtain ⟨hfbnone, hfbsome⟩ := fallbackHostStep_getAll_host h6
  obtain ⟨hset, hunset⟩ := applyUpstreamOptionsToHeader_getAll_host h5
  obtain ⟨hkept, hdefault⟩ := insertDefaultHost_getAll_host h3
  have hsticky : sticky.1.getAll hostName = H3.getAll hostName := stickyStep_getAll_ne hs (by decide)
  have hte : ∀ k, k ≠ teName → (if (req.headers.get teName).any teContainsTrailers then
      H1.insert teName trailersValue else H1).getAll k = H1.getAll k := by
    intro k hk
    split
    · exact getAll_insert_ne _ _ hk
    · rfl
  refine ⟨fun d hd => ?_, fun hfb hon => ?_, fun hfb hoff hnone => ?_, fun hfb hoff hsome => ?_⟩
  · obtain ⟨v, hv, hH6⟩ := hfbsome d hd
    exact ⟨v, hv, hlast.trans hH6⟩
  · obtain ⟨v, hv, hH5⟩ := hset hon
    obtain ⟨merged, hm⟩ := makeCookieSingleLine_isOk (forwardedHeaders req.headers)
    have hc : H3.getAll cookieName = merged.getAll cookieName := by
      rw [insertDefaultHost_getAll_ne h3 (by decide), hte _ (by decide),
        addForwardingHeader_getAll_cookie contains trusted h1 hm]
    obtain ⟨sticky', hs', hctx⟩ := stickyStep_context_congr hc hs
    exact ⟨merged, sticky', up, v, hm, hs', by rw [hctx]; exact hup, hv, by rw [hlast, hfbnone hfb, hH5]⟩
  · obtain ⟨host, v, hhost, hv, hH3⟩ := hdefault hnone
    exact ⟨host, v, hhost, hv, by rw [hlast, hfbnone hfb, hunset hoff, hsticky, hH3]⟩
  · rw [hlast, hfbnone hfb, hunset hoff, hsticky, hkept hsome, hte _ (by decide),
      addForwardingHeader_getAll_of_not_mem h1 (by decide), getAll_forwardedHeaders hnames,
      show hopHeaders.contains hostName = false by decide, Bool.false_or]

/-- A client's `Host` with a `Connection` line that lists `host`. -/
def hostListedLines : List (List Char × HeaderValue) :=
  [clientLine "host" "app.example" (by decide), clientLine "connection" "host" (by decide)]

/-- With `Connection: host`, the upstream request goes out without a `Host` header: the client
sent one, so the default step adds none, and no option or fallback writes it. -/
theorem forwarded_request_host_listed :
    ∃ out, exampleGenerate hostListedLines none [] = .ok out ∧ out.1.headers.getAll hostName = [] := by
  obtain ⟨out, h⟩ : ∃ out, exampleGenerate hostListedLines none [] = .ok out := ⟨_, rfl⟩
  refine ⟨out, h, ?_⟩
  rw [(forwarded_request_host (by decide) h).2.2.2 rfl rfl (by decide)]
  decide

end Spec

/-! ### The order of the option set -/

section Order

variable {Net : Type} {contains : Net → IpAddr → Bool} {trusted : List Net}
  {parsePq : List UInt8 → Except String (List UInt8)} {options options' : List UpstreamOption}

theorem contains_eq_of_perm (hperm : options'.Perm options) (o : UpstreamOption) :
    options'.contains o = options.contains o := by
  rw [Bool.eq_iff_iff, List.contains_iff_mem, List.contains_iff_mem, hperm.mem_iff]

/-- `apply_upstream_options_to_header` asks the set for membership only. -/
theorem applyUpstreamOptionsToHeader_perm (hperm : options'.Perm options) (H : HeaderMap)
    (host : Option (List Char)) (hostHeader : Option HeaderValue) :
    applyUpstreamOptionsToHeader contains H host hostHeader options' trusted =
      applyUpstreamOptionsToHeader contains H host hostHeader options trusted := by
  simp only [applyUpstreamOptionsToHeader, contains_eq_of_perm hperm]

/-- With at most one forcing option, the options force the same version in every order. -/
theorem foldl_forceVersion_perm
    (hvalid : ¬(UpstreamOption.forceHttp11Upstream ∈ options ∧ UpstreamOption.forceHttp2Upstream ∈ options))
    (hperm : options'.Perm options) (v : Version) :
    options'.foldl forceVersion v = options.foldl forceVersion v := by
  have hvalid' : ¬(UpstreamOption.forceHttp11Upstream ∈ options' ∧ UpstreamOption.forceHttp2Upstream ∈ options') := by
    rwa [hperm.mem_iff, hperm.mem_iff]
  rw [foldl_forceVersion hvalid', foldl_forceVersion hvalid]
  by_cases h11 : UpstreamOption.forceHttp11Upstream ∈ options
  · rw [if_pos (hperm.mem_iff.mpr h11), if_pos h11]
  · rw [if_neg (fun h => h11 (hperm.mem_iff.mp h)), if_neg h11]
    by_cases h2 : UpstreamOption.forceHttp2Upstream ∈ options
    · rw [if_pos (hperm.mem_iff.mpr h2), if_pos h2]
    · rw [if_neg (fun h => h2 (hperm.mem_iff.mp h)), if_neg h2]

theorem updateRequestLine_perm
    (hvalid : ¬(UpstreamOption.forceHttp11Upstream ∈ options ∧ UpstreamOption.forceHttp2Upstream ∈ options))
    (hperm : options'.Perm options) (req : Request) (upstreamScheme : Option (List Char)) :
    updateRequestLine req upstreamScheme options' = updateRequestLine req upstreamScheme options := by
  unfold updateRequestLine
  split
  · rfl
  · dsimp only
    rw [foldl_forceVersion_perm hvalid hperm]

/-- The upstream options are a set, iterated in an arbitrary order: with options that
`PathManager::try_from` accepts, never both forcing options, the request generation gives the
same upstream request, context and effective URI in every order of the set. -/
theorem request_generation_order_independent {clientAddr listenAddr : SocketAddr} {req : Request}
    {upgrade : Option (List Char)} {candidates : UpstreamCandidates}
    {lbGet : Option LoadBalanceContext → Option Upstream × Option LoadBalanceContext} {cipher : Option Aead}
    {now : Int} {tls : Bool} {fallbackHost : Option ServerName}
    (hvalid : ¬(UpstreamOption.forceHttp11Upstream ∈ candidates.options ∧
      UpstreamOption.forceHttp2Upstream ∈ candidates.options))
    (hperm : options'.Perm candidates.options) :
    generateRequestForwarded contains trusted parsePq clientAddr listenAddr req upgrade
        { candidates with options := options' } lbGet cipher now tls fallbackHost =
      generateRequestForwarded contains trusted parsePq clientAddr listenAddr req upgrade candidates lbGet cipher
        now tls fallbackHost := by
  have hlast : ∀ r scheme, upgradeOrRequestLine r upgrade scheme options' =
      upgradeOrRequestLine r upgrade scheme candidates.options := by
    intro r scheme
    cases upgrade with
    | none => exact congrArg Except.ok (updateRequestLine_perm hvalid hperm r scheme)
    | some v => rfl
  simp only [generateRequestForwarded, applyUpstreamOptionsToHeader_perm hperm, hlast]

/-- The options `force_http2_upstream` and `set_upstream_host` in either order give the same
upstream request. -/
theorem request_generation_order_independent_swap :
    exampleGenerate hopLines none [.setUpstreamHost, .forceHttp2Upstream] =
      exampleGenerate hopLines none [.forceHttp2Upstream, .setUpstreamHost] :=
  @request_generation_order_independent IpAddr (fun net a => net == a) [] .ok
    [.setUpstreamHost, .forceHttp2Upstream] exampleClient exampleListen (exampleRequest hopLines) none
    (exampleCandidates [.forceHttp2Upstream, .setUpstreamHost]) (fun _ => (some exampleUpstream, none)) none 0 false
    none (by decide) (List.Perm.swap _ _ [])

end Order

/-! ### `generate_response_forwarded` -/

/-- `h3_alt_svc_port`: HTTP/3 is advertised on a TLS connection to an application without client
authentication, at the public HTTPS port. -/
def h3AltSvcPort (http3 : Bool) (publicHttpsPort : Option UInt16) (backendMutualTls : Option Bool)
    (isSecureTransport : Bool) : Option UInt16 :=
  if http3 && isSecureTransport && backendMutualTls == some false then publicHttpsPort else none

/-- The pieces of the `Alt-Svc` text of `generate_response_forwarded` around its two numbers. -/
def altSvcProtocolText : List Char := "h3=\":".toList
def altSvcMaxAgeText : List Char := "\"; ma=".toList

/-- The `Alt-Svc` text for a port and a max age. -/
def altSvcText (port : UInt16) (maxAge : Nat) : List Char :=
  altSvcProtocolText ++ Nat.toDigits 10 port.toNat ++ altSvcMaxAgeText ++ Nat.toDigits 10 maxAge

/-- `generate_response_forwarded`, on the response's headers. -/
def generateResponseForwarded (http3 : Bool) (publicHttpsPort : Option UInt16) (h3AltSvcMaxAge : Nat)
    (backendMutualTls : Option Bool) (isSecureTransport : Bool) (headers : HeaderMap) : Except String HeaderMap := do
  let headers := forwardedHeaders headers
  let headers ← addHeaderEntryOverwriteIfExist headers serverHeaderName responseHeaderServer
  match h3AltSvcPort http3 publicHttpsPort backendMutualTls isSecureTransport with
  | some port => addHeaderEntryOverwriteIfExist headers altSvcName (altSvcText port h3AltSvcMaxAge)
  | none => .ok (headers.remove altSvcName)

theorem isHeaderTextChar_of_mem_altSvcText {port : UInt16} {maxAge : Nat} :
    ∀ c ∈ altSvcText port maxAge, isHeaderTextChar c = true := by
  have hdigits : ∀ n, ∀ c ∈ Nat.toDigits 10 n, isHeaderTextChar c = true := by
    intro n c hc
    obtain ⟨d, hd, rfl⟩ := RustIpParser.exists_digitChar_of_mem_toDigits (by norm_num) hc
    have h : ∀ d < 10, isHeaderTextChar (Nat.digitChar d) = true := by decide
    exact h d hd
  intro c hc
  simp only [altSvcText, List.mem_append] at hc
  rcases hc with ((hc | hc) | hc) | hc
  · revert c
    decide
  · exact hdigits _ c hc
  · revert c
    decide
  · exact hdigits _ c hc

/-- `HeaderValue::from_static(RESPONSE_HEADER_SERVER)`. -/
def serverValue : HeaderValue := HeaderValue.ofHeaderText responseHeaderServer (by decide)

/-- The `Alt-Svc` value for a port and a max age. -/
def altSvcValue (port : UInt16) (maxAge : Nat) : HeaderValue :=
  HeaderValue.ofHeaderText (altSvcText port maxAge) isHeaderTextChar_of_mem_altSvcText

theorem h3AltSvcPort_eq (http3 : Bool) (publicHttpsPort : Option UInt16) (backendMutualTls : Option Bool)
    (isSecureTransport : Bool) :
    h3AltSvcPort http3 publicHttpsPort backendMutualTls isSecureTransport =
      if http3 = true ∧ isSecureTransport = true ∧ backendMutualTls = some false then publicHttpsPort else none := by
  unfold h3AltSvcPort
  congr 1
  cases http3 <;> cases isSecureTransport <;> simp

/-- The response keeps every header but the hop-by-hop ones, those the backend's `Connection`
line lists, `Server` and `Alt-Svc`; `Server` is `rpxy`; and `Alt-Svc` advertises HTTP/3 at the
public HTTPS port exactly on a TLS connection to an application without client authentication,
and is absent otherwise. -/
theorem forwarded_response_headers {http3 : Bool} {publicHttpsPort : Option UInt16} {maxAge : Nat}
    {mutualTls : Option Bool} {secure : Bool} {headers out : HeaderMap}
    (hnames : ∀ e ∈ headers.entries, IsHeaderName e.1)
    (h : generateResponseForwarded http3 publicHttpsPort maxAge mutualTls secure headers = .ok out) :
    (∀ k, k ≠ serverHeaderName → k ≠ altSvcName → out.getAll k =
      if hopHeaders.contains k || (firstConnectionTokens headers).any (fun key => eqIgnoreAsciiCase key k) then []
      else headers.getAll k) ∧
    out.getAll serverHeaderName = [serverValue] ∧
    out.getAll altSvcName =
      if http3 = true ∧ secure = true ∧ mutualTls = some false then
        (publicHttpsPort.map fun p => altSvcValue p maxAge).toList
      else [] := by
  unfold generateResponseForwarded at h
  obtain ⟨H, hH, h⟩ := except_bind_eq_ok.mp h
  have hserver : H = (forwardedHeaders headers).insert serverHeaderName serverValue := by
    rw [addHeaderEntryOverwriteIfExist, fromStr_eq_ofHeaderText (by decide)] at hH
    exact (Except.ok.inj hH).symm
  subst hserver
  have hlines : out.getAll altSvcName =
        ((h3AltSvcPort http3 publicHttpsPort mutualTls secure).map fun p => altSvcValue p maxAge).toList ∧
      ∀ k, k ≠ altSvcName → out.getAll k = ((forwardedHeaders headers).insert serverHeaderName serverValue).getAll k := by
    cases hport : h3AltSvcPort http3 publicHttpsPort mutualTls secure with
    | none =>
      rw [hport] at h
      obtain rfl := Except.ok.inj h
      exact ⟨getAll_remove_self _ _, fun k hk => getAll_remove_ne _ hk⟩
    | some port =>
      rw [hport] at h
      dsimp only at h
      rw [addHeaderEntryOverwriteIfExist, fromStr_eq_ofHeaderText isHeaderTextChar_of_mem_altSvcText] at h
      obtain rfl := Except.ok.inj h
      exact ⟨getAll_insert_self _ _ _, fun k hk => getAll_insert_ne _ _ hk⟩
  obtain ⟨halt, hrest⟩ := hlines
  refine ⟨fun k hs ha => ?_, ?_, ?_⟩
  · rw [hrest k ha, getAll_insert_ne _ _ hs, getAll_forwardedHeaders hnames]
  · rw [hrest _ (by decide), getAll_insert_self]
  · rw [halt, h3AltSvcPort_eq]
    split_ifs <;> rfl

/-- A backend response with its own `Server` and an `Alt-Svc`. -/
def backendLines : List (List Char × HeaderValue) :=
  [clientLine "connection" "close" (by decide), clientLine "server" "backend" (by decide),
    clientLine "alt-svc" "h3=\":8443\"" (by decide), clientLine "content-type" "text/html" (by decide)]

/-- For an application with client authentication, HTTP/3 is not advertised over TLS even with
HTTP/3 on: the backend's `Alt-Svc` is dropped and none is added. -/
theorem forwarded_response_headers_mutual_tls :
    ∃ out, generateResponseForwarded true (some 443) 3600 (some true) true (.ofEntries backendLines) = .ok out ∧
      out.getAll altSvcName = [] ∧ out.getAll serverHeaderName = [serverValue] ∧
      out.getAll "content-type".toList = [HeaderValue.ofHeaderText "text/html".toList (by decide)] := by
  obtain ⟨out, h⟩ : ∃ out, generateResponseForwarded true (some 443) 3600 (some true) true (.ofEntries backendLines) = .ok out :=
    ⟨_, rfl⟩
  obtain ⟨hrest, hserver, halt⟩ := forwarded_response_headers (by decide) h
  refine ⟨out, h, ?_, hserver, ?_⟩
  · rw [halt]
    decide
  · rw [hrest _ (by decide) (by decide)]
    decide

end Rpxy.MessageForwarding
