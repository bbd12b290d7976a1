import Rpxy.MessageForwarding

/-!
# The message handler

`handle_request_inner` takes a client's request through the whole handler: it reads the
host, checks it against the SNI name, refuses a declared `Content-Length` over the limit, finds
the app (falling back to `default_app` on plaintext only), answers a plaintext request for an
app with `https_redirection` by a redirect, finds the route, refuses an upgrade over another
version than HTTP/1.1, generates the upstream request, forwards it, puts the sticky cookie on
the reply, and then either generates the response or, on `101 Switching Protocols`, checks that
the backend switched to the protocol the client asked for before it joins the two upgraded
connections. `handle_request` answers every error with a synthetic response of its status, and
closes an HTTP/1.x connection after a `413`.

The forwarder, the balancer, the clock and the sticky cookie's nonce are what one call meets
outside the proxy (`CallEnv`); the access log is modelled on its own in `AccessLog`.

The results are about every request: the handler contacts an upstream only after every
pre-flight check has passed; it joins upgraded connections only when the client asked for an
upgrade over HTTP/1.1 and the backend switched to the same protocol; a request that declares a
body over the limit never reaches an upstream and is answered `400`, `421` or `413`, the last
with `Connection: close` on HTTP/1.x.
-/

namespace Rpxy.MessageHandler

open RustText RustResult RustIpAddr HttpHeaders HttpHeaders.HeaderMap ForwardedSyntax ForwardingChain HopHeaders
  AccessLog StickyCookieSeal StickyCookies StickyCookieHeaders MessageForwarding
open CacheKey hiding HttpError

/-! ### Errors and status codes -/

/-- `HttpError`, with the texts its variants carry. -/
inductive HttpError where
  | invalidHostInRequestHeader
  | sniHostInconsistency
  | noMatchingBackendApp
  | failedToRedirect (msg : String)
  | noUpstreamCandidates
  | failedToGenerateUpstreamRequest (msg : String)
  | failedToGetResponseFromBackend (msg : String)
  | failedToAddSetCookeInResponse (msg : String)
  | failedToGenerateDownstreamResponse (msg : String)
  | failedToUpgrade (msg : String)
  | payloadTooLarge
  | other (msg : String)
  deriving DecidableEq

/-- The errors of the route stage, as `CacheKey` models them. -/
def HttpError.ofRoute : CacheKey.HttpError → HttpError
  | .invalidHostInRequestHeader => .invalidHostInRequestHeader
  | .sniHostInconsistency => .sniHostInconsistency
  | .noMatchingBackendApp => .noMatchingBackendApp
  | .noUpstreamCandidates => .noUpstreamCandidates
  | .payloadTooLarge => .payloadTooLarge

/-- `matches!(e, HttpError::PayloadTooLarge)`. -/
def HttpError.isPayloadTooLarge : HttpError → Bool
  | .payloadTooLarge => true
  | _ => false

def switchingProtocols : StatusCode := ⟨101, some "Switching Protocols".toList⟩
def movedPermanently : StatusCode := ⟨301, some "Moved Permanently".toList⟩
def badRequest : StatusCode := ⟨400, some "Bad Request".toList⟩
def notFound : StatusCode := ⟨404, some "Not Found".toList⟩
def payloadTooLarge : StatusCode := ⟨413, some "Payload Too Large".toList⟩
def misdirectedRequest : StatusCode := ⟨421, some "Misdirected Request".toList⟩
def internalServerError : StatusCode := ⟨500, some "Internal Server Error".toList⟩
def badGateway : StatusCode := ⟨502, some "Bad Gateway".toList⟩
def serviceUnavailable : StatusCode := ⟨503, some "Service Unavailable".toList⟩

/-- `From<HttpError> for StatusCode`. -/
def HttpError.statusCode : HttpError → StatusCode
  | .invalidHostInRequestHeader => badRequest
  | .sniHostInconsistency => misdirectedRequest
  | .noMatchingBackendApp => serviceUnavailable
  | .failedToRedirect _ => internalServerError
  | .noUpstreamCandidates => notFound
  | .failedToGenerateUpstreamRequest _ => internalServerError
  | .failedToAddSetCookeInResponse _ => internalServerError
  | .failedToGenerateDownstreamResponse _ => internalServerError
  | .failedToUpgrade _ => internalServerError
  | .failedToGetResponseFromBackend _ => badGateway
  | .payloadTooLarge => MessageHandler.payloadTooLarge
  | .other _ => internalServerError

/-! ### Responses -/

/-- `http::Response`, by its status and headers. -/
structure Response where
  /-- `Response::status`. -/
  status : StatusCode
  /-- `Response::headers`. -/
  headers : HeaderMap

/-- `synthetic_error_response`: the status and no header. -/
def syntheticErrorResponse (statusCode : StatusCode) : Response := ⟨statusCode, .new⟩

theorem closeText_headerText : ∀ c ∈ "close".toList, isHeaderTextChar c = true := by decide

/-- The value `close` of `Connection`. -/
def closeValue : HeaderValue := HeaderValue.ofHeaderText "close".toList closeText_headerText

/-- `synthetic_error_response_with_close`: on HTTP/1.0 and HTTP/1.1, `Connection: close`. -/
def syntheticErrorResponseWithClose (statusCode : StatusCode) (requestVersion : Version) : Response :=
  if requestVersion = .http10 ∨ requestVersion = .http11 then ⟨statusCode, HeaderMap.new.append connectionName closeValue⟩
  else ⟨statusCode, .new⟩

/-- `Display for ServerName`, `String::from_utf8_lossy` of its bytes. Bytes that are not UTF-8
stand for one U+FFFD here; the only reader, `Authority::try_from`, refuses every non-ASCII
character alike. -/
def serverNameText (n : ServerName) : List Char := (fromUtf8 n.inner).getD ['�']

/-- The authority of the redirect: the server name, with the public HTTPS port unless that is
443 or unset. -/
def redirectAuthority (serverName : List Char) (tlsPort : Option UInt16) : List Char :=
  match tlsPort with
  | some 443 | none => serverName
  | some p => serverName ++ ':' :: Nat.toDigits 10 p.toNat

theorem query_not_mem_of_authorityTryFrom {s : List Char} (h : authorityTryFrom s = true) : '?' ∉ s :=
  (not_mem_of_authorityTryFrom h).2.1

/-- `Uri::builder().scheme("https").path_and_query(pq).authority(authority).build()`. -/
def httpsUri (authority pq : List Char) : Option Uri :=
  if h : authorityTryFrom authority = true then
    (pathAndQueryFromStr pq).map fun pq' =>
      ⟨some "https".toList, some ⟨authority, authorityHost authority, authorityPort authority,
        query_not_mem_of_authorityTryFrom h⟩, some pq', fun _ => rfl⟩
  else none

/-- The text of `http::Error` for a URI that does not build. -/
def invalidUriText : String := "invalid uri"

/-- `header::LOCATION`. -/
def locationName : List Char := "location".toList

/-- `secure_redirection_response`: `301` to the same path and query on `https`. -/
def secureRedirectionResponse (serverName : ServerName) (tlsPort : Option UInt16) (req : Request) :
    Except HttpError Response :=
  match httpsUri (redirectAuthority (serverNameText serverName) tlsPort) (req.uri.pathAndQuery.getD []) with
  | none => .error (.failedToRedirect invalidUriText)
  | some destUri =>
    match HeaderValue.fromStr destUri.toText with
    | .error e => .error (.failedToRedirect e)
    | .ok location => .ok ⟨movedPermanently, HeaderMap.new.append locationName location⟩

/-! ### The handler's inputs -/

/-- What the handler reads of `Globals`, and of each app and route beyond what the route stage's
model holds: the app's `mutual_tls`, and the options, sticky-cookie configuration and balancer of
the route's `UpstreamCandidates`. The handler the entrypoint builds reads these two from its app
manager (`Entrypoint.handlerOf`). -/
structure HandlerConfig (Net : Type) where
  /-- `sni_consistency`. -/
  sniConsistency : Bool
  /-- `request_max_body_size`. -/
  requestMaxBodySize : Option Nat
  /-- `public_https_port`. -/
  publicHttpsPort : Option UInt16
  /-- Whether HTTP/3 is served. -/
  http3 : Bool
  /-- `h3_alt_svc_max_age`. -/
  h3AltSvcMaxAge : Nat
  /-- `trusted_forwarded_proxies`. -/
  trustedForwardedProxies : List Net
  /-- The sticky-cookie cipher, when configured. -/
  stickyCookieCipher : Option Aead
  /-- An app's `mutual_tls`. -/
  mutualTls : BackendApp → Option Bool
  /-- The `UpstreamCandidates` of a route of an app, by what the request generation reads. -/
  candidates : BackendApp → PathRouting.UpstreamCandidates → UpstreamCandidates
  /-- The candidates hold the route the path manager returned. -/
  candidates_route : ∀ app route, (candidates app route).route = route

/-- `HttpMessageHandler`: the globals and the app manager. -/
structure HttpMessageHandler (Net : Type) where
  /-- What the handler reads of `Globals` and of the apps' routes. -/
  globals : HandlerConfig Net
  /-- `app_manager`. -/
  appManager : BackendAppManager

/-- What one call meets outside the proxy: the balancer's answer for a route, the forwarder's
reply to the upstream request and its effective URI, the clock, and the nonce of a sticky
cookie. -/
structure CallEnv where
  /-- The balancer of a route: the upstream it picks for a context, and the new context. -/
  lbGet : UpstreamCandidates → Option LoadBalancePick.LoadBalanceContext →
    Option Upstream × Option LoadBalancePick.LoadBalanceContext
  /-- The forwarder: the backend's reply to the upstream request. -/
  forward : Request → Option Uri → Except String Response
  /-- The clock, in Unix seconds. -/
  now : Int
  /-- The nonce of a new sticky cookie. -/
  nonce : Nonce

/-! ### Up to the upstream request -/

/-- How the handler goes on after the checks: with a redirect, or towards an upstream through an
app, one of its routes, whether the app is the `default_app` fallback, and the upgrade asked for. -/
inductive Prepared where
  | redirected (res : Response)
  | forward (app : BackendApp) (route : PathRouting.UpstreamCandidates) (fallback : Bool)
      (upgrade : Option (List Char))

/-- The message of a refused upgrade version. -/
def unsupportedVersionText (v : Version) : String := "Unsupported HTTP version: " ++ String.ofList v.debugText

section Handler

variable {Net : Type} (contains : Net → IpAddr → Bool) (parsePq : List UInt8 → Except String (List UInt8))
  (formatExpires : Int → Option (List Char))

/-- `handle_request_inner` up to the upstream request: host, SNI, declared length, app,
redirect, route and upgrade. -/
def prepareRequest (cfg : HandlerConfig Net) (mgr : BackendAppManager) (tls : Bool)
    (tlsServerName : Option ServerName) (req : Request) : Except HttpError Prepared :=
  match inspectParseHost req with
  | .error _ => .error .invalidHostInRequestHeader
  | .ok host =>
    let serverName := ServerName.fromBytes host
    if tls && cfg.sniConsistency && serverName != tlsServerName.getD default then .error .sniHostInconsistency
    else
      match checkContentLengthLimit req.headers cfg.requestMaxBodySize with
      | .error e => .error (.ofRoute e)
      | .ok () =>
        match mgr.select serverName tls with
        | .error e => .error (.ofRoute e)
        | .ok (app, fallback) =>
          if !tls && app.httpsRedirection.getD false then
            (secureRedirectionResponse app.serverName cfg.publicHttpsPort req).map .redirected
          else
            match app.pathManager.get (utf8Bytes req.uri.path) with
            | none => .error .noUpstreamCandidates
            | some route =>
              let upgrade := extractUpgrade req.headers
              if upgrade.isSome && req.version != .http11 then
                .error (.failedToUpgrade (unsupportedVersionText req.version))
              else .ok (.forward app route fallback upgrade)

/-! ### The reply -/

def missingStickyConfigText : String := "missing sticky-cookie config"
def missingStickyCipherText : String := "missing sticky-cookie cipher"

/-- The sticky balancer's `Set-Cookie` on the backend's reply. -/
def addStickyCookie (cipher : Option Aead) (context : HandlerContext) (nonce : Nonce) (now : Int)
    (res : Response) : Except HttpError Response :=
  match context.contextLb with
  | none => .ok res
  | some contextFromLb =>
    match context.stickyCookieConfig with
    | none => .error (.failedToAddSetCookeInResponse missingStickyConfigText)
    | some stickyConfig =>
      match cipher with
      | none => .error (.failedToAddSetCookeInResponse missingStickyCipherText)
      | some c =>
        match setStickyCookieLbContext formatExpires res.headers contextFromLb stickyConfig
            context.stickyCookieSecure c nonce now with
        | .error e => .error (.failedToAddSetCookeInResponse e)
        | .ok headers => .ok { res with headers := headers }

/-- `Debug for Option<String>`. -/
def debugOptionText : Option (List Char) → List Char
  | some s => "Some(".toList ++ debugStr s ++ [')']
  | none => "None".toList

/-- The message of a refused protocol switch. -/
def switchRefusedText (upgradeInResponse upgradeInRequest : Option (List Char)) : String :=
  "Backend tried to switch to protocol " ++ String.ofList (debugOptionText upgradeInResponse) ++ " when " ++
    String.ofList (debugOptionText upgradeInRequest) ++ " was requested"

/-- Whether the backend switched to the protocol the client asked for, in any case. -/
def shouldUpgrade (upgradeInRequest upgradeInResponse : Option (List Char)) : Bool :=
  match upgradeInRequest, upgradeInResponse with
  | some uReq, some uRes => eqIgnoreAsciiCase uReq uRes
  | _, _ => false

/-- The end of `handle_request_inner`: the response generation, or on `101` the check of the
switched protocol; `true` when the upgraded connections are joined. -/
def respondForwarded (cfg : HandlerConfig Net) (app : BackendApp) (tls : Bool)
    (upgradeInRequest : Option (List Char)) (res : Response) : Except HttpError (Response × Bool) :=
  if res.status.code != switchingProtocols.code then
    match generateResponseForwarded cfg.http3 cfg.publicHttpsPort cfg.h3AltSvcMaxAge (cfg.mutualTls app) tls
        res.headers with
    | .error e => .error (.failedToGenerateDownstreamResponse e)
    | .ok headers => .ok ({ res with headers := headers }, false)
  else
    let upgradeInResponse := extractUpgrade res.headers
    if shouldUpgrade upgradeInRequest upgradeInResponse then .ok (res, true)
    else .error (.failedToUpgrade (switchRefusedText upgradeInResponse upgradeInRequest))

/-- What follows the forwarder's reply. -/
def handleReply (cfg : HandlerConfig Net) (env : CallEnv) (app : BackendApp) (tls : Bool)
    (upgrade : Option (List Char)) (context : HandlerContext) (reply : Except String Response) :
    Except HttpError (Response × Bool) := do
  let res ← reply.mapError .failedToGetResponseFromBackend
  let res ← addStickyCookie formatExpires cfg.stickyCookieCipher context env.nonce env.now res
  respondForwarded cfg app tls upgrade res

/-! ### `handle_request` -/

/-- `HttpMessageHandler::handle_request_inner`: the request sent upstream, if any, and the
result, with whether the upgraded connections are joined. -/
def HttpMessageHandler.handleRequestInner (h : HttpMessageHandler Net) (env : CallEnv) (req : Request)
    (clientAddr listenAddr : SocketAddr) (tls : Bool) (tlsServerName : Option ServerName) :
    Option Request × Except HttpError (Response × Bool) :=
  match prepareRequest h.globals h.appManager tls tlsServerName req with
  | .error e => (none, .error e)
  | .ok (.redirected res) => (none, .ok (res, false))
  | .ok (.forward app route fallback upgrade) =>
    match generateRequestForwarded contains h.globals.trustedForwardedProxies parsePq clientAddr listenAddr req
        upgrade (h.globals.candidates app route) (env.lbGet (h.globals.candidates app route))
        h.globals.stickyCookieCipher env.now tls (if fallback then some app.serverName else none) with
    | .error e => (none, .error (.failedToGenerateUpstreamRequest e))
    | .ok (upstreamReq, context, effectiveUri) =>
      (some upstreamReq, handleReply formatExpires h.globals env app tls upgrade context
        (env.forward upstreamReq effectiveUri))

/-- `HttpMessageHandler::handle_request`: the request sent upstream, if any, the response the
client receives, and whether the upgraded connections are joined. -/
def HttpMessageHandler.handleRequest (h : HttpMessageHandler Net) (env : CallEnv) (req : Request)
    (clientAddr listenAddr : SocketAddr) (tls : Bool) (tlsServerName : Option ServerName) :
    Option Request × Response × Bool :=
  let handled := h.handleRequestInner contains parsePq formatExpires env req clientAddr listenAddr tls tlsServerName
  match handled.2 with
  | .ok (res, joined) => (handled.1, res, joined)
  | .error e =>
    let code := e.statusCode
    (handled.1, if e.isPayloadTooLarge then syntheticErrorResponseWithClose code req.version
      else syntheticErrorResponse code, false)

/-! ### What each stage can do -/

/-- A declared length over the limit fails the check. -/
theorem checkContentLengthLimit_of_over {headers : HeaderMap} {limit n : Nat} {v : HeaderValue} {s : List Char}
    (hv : headers.get contentLengthName = some v) (hs : v.toStr = .ok s) (hn : u64FromStr s = .ok n)
    (hover : limit < n) : checkContentLengthLimit headers (some limit) = .error .payloadTooLarge := by
  simp [checkContentLengthLimit, hv, hs, hn, hover]

/-- The pre-flight check passes exactly when no readable declared length exceeds the limit. -/
theorem checkContentLengthLimit_eq_ok {headers : HeaderMap} {limit : Option Nat} :
    checkContentLengthLimit headers limit = .ok () ↔
      ∀ l ∈ limit, ∀ v ∈ headers.get contentLengthName, ∀ s n, v.toStr = .ok s → u64FromStr s = .ok n → n ≤ l := by
  constructor
  · intro h l hl v hv s n hs hn
    rw [Option.mem_def] at hl hv
    subst hl
    by_contra hgt
    rw [checkContentLengthLimit_of_over hv hs hn (Nat.lt_of_not_le hgt)] at h
    cases h
  · intro hall
    unfold checkContentLengthLimit
    cases limit with
    | none => rfl
    | some l =>
      cases hv : headers.get contentLengthName with
      | none => rfl
      | some v =>
        cases hs : v.toStr with
        | error e => simp [hs]
        | ok s =>
          cases hn : u64FromStr s with
          | error e => simp [hs, hn]
          | ok n =>
            have hle : n ≤ l := hall l rfl v hv s n hs hn
            simp [hs, hn, Nat.not_lt.mpr hle]

/-- The app of a name: its own, or on plaintext the default app, which marks the fallback. -/
theorem BackendAppManager.select_eq_ok_cases {m : BackendAppManager} {serverName : ServerName} {tls : Bool}
    {app : BackendApp} {fallback : Bool} (h : m.select serverName tls = .ok (app, fallback)) :
    (m.apps.lookup serverName = some app ∧ fallback = false) ∨
      (tls = false ∧ m.apps.lookup serverName = none ∧ fallback = true ∧
        ∃ d, m.defaultServerName = some d ∧ m.apps.lookup d = some app) := by
  unfold BackendAppManager.select at h
  cases hl : m.apps.lookup serverName with
  | some app' =>
    simp only [hl, Except.ok.injEq, Prod.mk.injEq] at h
    exact .inl ⟨by rw [h.1], h.2.symm⟩
  | none =>
    simp only [hl] at h
    cases tls with
    | true => cases h
    | false =>
      simp only [Bool.false_eq_true, if_false] at h
      split at h
      · cases h
      · rename_i d hd
        simp only [Except.ok.injEq, Prod.mk.injEq] at h
        refine .inr ⟨rfl, rfl, h.2.symm, d, hd, ?_⟩
        rw [← h.1, Option.some_get]

section Prepare

variable {cfg : HandlerConfig Net} {mgr : BackendAppManager} {tls : Bool} {tlsServerName : Option ServerName}
  {req : Request}

theorem prepareRequest_of_host_error {e : String} (hi : inspectParseHost req = .error e) :
    prepareRequest cfg mgr tls tlsServerName req = .error .invalidHostInRequestHeader := by
  simp [prepareRequest, hi]

theorem prepareRequest_of_sni_mismatch {host : List UInt8} (hi : inspectParseHost req = .ok host)
    (hsni : tls = true ∧ cfg.sniConsistency = true ∧ ServerName.fromBytes host ≠ tlsServerName.getD default) :
    prepareRequest cfg mgr tls tlsServerName req = .error .sniHostInconsistency := by
  obtain ⟨rfl, hc, hne⟩ := hsni
  simp [prepareRequest, hi, hc, hne]

theorem prepareRequest_of_length_error {host : List UInt8} (hi : inspectParseHost req = .ok host)
    (hsni : ¬(tls = true ∧ cfg.sniConsistency = true ∧ ServerName.fromBytes host ≠ tlsServerName.getD default))
    {e : CacheKey.HttpError} (hcl : checkContentLengthLimit req.headers cfg.requestMaxBodySize = .error e) :
    prepareRequest cfg mgr tls tlsServerName req = .error (.ofRoute e) := by
  have hcond : (tls && cfg.sniConsistency && ServerName.fromBytes host != tlsServerName.getD default) = false := by
    cases tls <;> cases hc : cfg.sniConsistency <;> simp_all
  simp only [prepareRequest, hi, hcond, Bool.false_eq_true, if_false, hcl]

/-- Every check a request passes on its way to an upstream. -/
theorem prepareRequest_eq_forward {app : BackendApp} {route : PathRouting.UpstreamCandidates} {fallback : Bool}
    {upgrade : Option (List Char)}
    (h : prepareRequest cfg mgr tls tlsServerName req = .ok (.forward app route fallback upgrade)) :
    ∃ host, inspectParseHost req = .ok host ∧
      ¬(tls = true ∧ cfg.sniConsistency = true ∧ ServerName.fromBytes host ≠ tlsServerName.getD default) ∧
      checkContentLengthLimit req.headers cfg.requestMaxBodySize = .ok () ∧
      mgr.select (ServerName.fromBytes host) tls = .ok (app, fallback) ∧
      ¬(tls = false ∧ app.httpsRedirection = some true) ∧
      app.pathManager.get (utf8Bytes req.uri.path) = some route ∧
      upgrade = extractUpgrade req.headers ∧ (upgrade.isSome → req.version = .http11) := by
  unfold prepareRequest at h
  cases hi : inspectParseHost req with
  | error e => simp [hi] at h
  | ok host =>
    simp only [hi] at h
    by_cases hsni : (tls && cfg.sniConsistency && ServerName.fromBytes host != tlsServerName.getD default) = true
    · rw [if_pos hsni] at h
      cases h
    rw [if_neg hsni] at h
    cases hcl : checkContentLengthLimit req.headers cfg.requestMaxBodySize with
    | error e => simp [hcl] at h
    | ok u =>
      cases hs : mgr.select (ServerName.fromBytes host) tls with
      | error e => simp [hcl, hs] at h
      | ok p =>
        obtain ⟨app', fallback'⟩ := p
        simp only [hcl, hs] at h
        by_cases hr : (!tls && app'.httpsRedirection.getD false) = true
        · rw [if_pos hr] at h
          obtain ⟨_, -, hmap⟩ := except_map_eq_ok.mp h
          cases hmap
        rw [if_neg hr] at h
        cases hg : app'.pathManager.get (utf8Bytes req.uri.path) with
        | none => simp [hg] at h
        | some route' =>
          simp only [hg] at h
          by_cases hup : ((extractUpgrade req.headers).isSome && req.version != .http11) = true
          · rw [if_pos hup] at h
            cases h
          rw [if_neg hup] at h
          obtain ⟨rfl, rfl, rfl, rfl⟩ := Prepared.forward.inj (Except.ok.inj h)
          refine ⟨host, rfl, ?_, rfl, hs, ?_, hg, rfl, ?_⟩
          · simpa using hsni
          · rintro ⟨rfl, hredir⟩
            simp [hredir] at hr
          · intro hsome
            simpa [hsome] using hup

/-- Where the route stage fails, `prepareRequest` fails with its error, and neither of the other
cases of the refinement arises. -/
theorem routeStage_of_error {e : CacheKey.HttpError} {Q : Prop}
    {R : BackendApp → PathRouting.UpstreamCandidates → Prop} :
    (∀ e', (.error e : Except CacheKey.HttpError Routed) = .error e' →
      (.error (.ofRoute e) : Except HttpError Prepared) = .error (.ofRoute e')) ∧
    ((.error e : Except CacheKey.HttpError Routed) = .ok .redirected → Q) ∧
    (∀ app route, (.error e : Except CacheKey.HttpError Routed) = .ok (.forward app route) → R app route) :=
  ⟨fun _ h => by cases h; rfl, fun h => (nomatch h), fun _ _ h => (nomatch h)⟩

/-- The handler's checks up to the route are the route stage as `CacheKey.routeRequest` models
it: the same errors, a redirect for the app the route stage redirects for, and the app and route
it forwards through, after which only the upgrade check can refuse the request. -/
theorem prepareRequest_refines_routeRequest :
    (∀ e, routeRequest mgr cfg.sniConsistency cfg.requestMaxBodySize tls tlsServerName req = .error e →
      prepareRequest cfg mgr tls tlsServerName req = .error (.ofRoute e)) ∧
    (routeRequest mgr cfg.sniConsistency cfg.requestMaxBodySize tls tlsServerName req = .ok .redirected →
      ∃ host app fallback, inspectParseHost req = .ok host ∧
        mgr.select (ServerName.fromBytes host) tls = .ok (app, fallback) ∧
        prepareRequest cfg mgr tls tlsServerName req =
          (secureRedirectionResponse app.serverName cfg.publicHttpsPort req).map .redirected) ∧
    (∀ app route, routeRequest mgr cfg.sniConsistency cfg.requestMaxBodySize tls tlsServerName req =
        .ok (.forward app route) →
      ∃ fallback, prepareRequest cfg mgr tls tlsServerName req =
        if (extractUpgrade req.headers).isSome && req.version != .http11 then
          .error (.failedToUpgrade (unsupportedVersionText req.version))
        else .ok (.forward app route fallback (extractUpgrade req.headers))) := by
  unfold routeRequest prepareRequest
  cases hi : inspectParseHost req with
  | error _ =>
    dsimp only
    exact routeStage_of_error
  | ok host =>
    dsimp only
    by_cases hsni : (tls && cfg.sniConsistency && ServerName.fromBytes host != tlsServerName.getD default) = true
    · rw [if_pos hsni, if_pos hsni]
      exact routeStage_of_error
    rw [if_neg hsni, if_neg hsni]
    cases hcl : checkContentLengthLimit req.headers cfg.requestMaxBodySize with
    | error _ =>
      dsimp only
      exact routeStage_of_error
    | ok _ =>
      dsimp only
      cases hs : mgr.select (ServerName.fromBytes host) tls with
      | error _ =>
        dsimp only
        exact routeStage_of_error
      | ok p =>
        obtain ⟨app, fallback⟩ := p
        dsimp only
        by_cases hr : (!tls && app.httpsRedirection.getD false) = true
        · rw [if_pos hr, if_pos hr]
          exact ⟨fun _ h => (nomatch h), fun _ => ⟨host, app, fallback, rfl, hs, rfl⟩, fun _ _ h => (nomatch h)⟩
        · rw [if_neg hr, if_neg hr]
          cases hg : app.pathManager.get (utf8Bytes req.uri.path) with
          | none =>
            dsimp only
            exact routeStage_of_error
          | some route =>
            dsimp only
            refine ⟨fun _ h => (nomatch h), fun h => (nomatch h), fun app' route' h => ?_⟩
            cases h
            exact ⟨fallback, rfl⟩

end Prepare

/-! ### The reply -/

theorem shouldUpgrade_eq_true {upgradeInRequest upgradeInResponse : Option (List Char)} :
    shouldUpgrade upgradeInRequest upgradeInResponse = true ↔
      ∃ u u', upgradeInRequest = some u ∧ upgradeInResponse = some u' ∧ eqIgnoreAsciiCase u u' = true := by
  unfold shouldUpgrade
  split <;> simp_all

/-- The upgraded connections are joined only on a `101` whose `Upgrade` the client asked for. -/
theorem respondForwarded_eq_joined {cfg : HandlerConfig Net} {app : BackendApp} {tls : Bool}
    {upgradeInRequest : Option (List Char)} {res res' : Response}
    (h : respondForwarded cfg app tls upgradeInRequest res = .ok (res', true)) :
    res' = res ∧ res.status.code = switchingProtocols.code ∧
      shouldUpgrade upgradeInRequest (extractUpgrade res.headers) = true := by
  unfold respondForwarded at h
  by_cases hcode : (res.status.code != switchingProtocols.code) = true
  · rw [if_pos hcode] at h
    split at h <;> simp at h
  rw [if_neg hcode] at h
  dsimp only at h
  by_cases hup : shouldUpgrade upgradeInRequest (extractUpgrade res.headers) = true
  · rw [if_pos hup] at h
    obtain ⟨rfl, -⟩ := Prod.mk.inj (Except.ok.inj h)
    exact ⟨rfl, by simpa using hcode, hup⟩
  · rw [if_neg hup] at h
    cases h

/-- After the forwarder: the joined connections come from a reply of the backend, with the
sticky cookie added, that switched protocols to the one asked for. -/
theorem handleReply_eq_joined {cfg : HandlerConfig Net} {env : CallEnv} {app : BackendApp} {tls : Bool}
    {upgrade : Option (List Char)} {context : HandlerContext} {reply : Except String Response} {res : Response}
    (h : handleReply formatExpires cfg env app tls upgrade context reply = .ok (res, true)) :
    ∃ res₀, reply = .ok res₀ ∧
      addStickyCookie formatExpires cfg.stickyCookieCipher context env.nonce env.now res₀ = .ok res ∧
      res.status.code = switchingProtocols.code ∧ shouldUpgrade upgrade (extractUpgrade res.headers) = true := by
  obtain ⟨res₀, hreply, h⟩ := except_bind_eq_ok.mp h
  obtain ⟨res₁, hsticky, h⟩ := except_bind_eq_ok.mp h
  obtain ⟨rfl, hcode, hup⟩ := respondForwarded_eq_joined h
  exact ⟨res₀, except_mapError_eq_ok.mp hreply, hsticky, hcode, hup⟩

/-- The upgrade `extract_upgrade` returns is the text of an `Upgrade` line. -/
theorem extractUpgrade_headerText {headers : HeaderMap} {u : List Char} (h : extractUpgrade headers = some u) :
    ∀ c ∈ u, isHeaderTextChar c = true := by
  unfold extractUpgrade at h
  split at h
  · cases h
  · split_ifs at h
    obtain ⟨m, -, hm⟩ := Option.bind_eq_some_iff.mp h
    cases hs : m.toStr with
    | error e => simp [hs, Except.toOption] at hm
    | ok s =>
      simp only [hs, Except.toOption, Option.some.injEq] at hm
      exact hm ▸ toStr_headerText hs

/-- An upgrade goes upstream as its own `Upgrade` line with `Connection: upgrade`. -/
theorem generateRequestForwarded_upgrade {trusted : List Net} {clientAddr listenAddr : SocketAddr} {req : Request}
    {u : List Char} {candidates : UpstreamCandidates}
    {lbGet : Option LoadBalancePick.LoadBalanceContext → Option Upstream × Option LoadBalancePick.LoadBalanceContext}
    {cipher : Option Aead} {now : Int} {tls : Bool} {fallbackHost : Option ServerName}
    {out : Request × HandlerContext × Option Uri}
    (h : generateRequestForwarded contains trusted parsePq clientAddr listenAddr req (some u) candidates lbGet cipher
      now tls fallbackHost = .ok out) (hu : ∀ c ∈ u, isHeaderTextChar c = true) :
    (out.1.headers.getAll upgradeName).map HeaderValue.toStr = [.ok u] ∧
      out.1.headers.getAll connectionName = [upgradeValue] := by
  obtain ⟨_, _, _, _, _, _, _, -, -, -, -, -, -, -, hlast, -⟩ := generateRequestForwarded_eq_ok h
  obtain ⟨value, hvalue, hheaders⟩ := (upgradeOrRequestLine_headers hlast).2 u rfl
  have hne : upgradeName ≠ connectionName := by decide
  rw [hheaders, getAll_insert_self, getAll_insert_ne _ _ hne, getAll_insert_self]
  exact ⟨by simp [ForwardingTrust.toStr_of_fromStr hu hvalue], rfl⟩

/-! ### The handler -/

/-! ### A handler for the examples -/

/-- A header line from its texts. -/
def textLine (name value : String) : List Char × HeaderValue :=
  (name.toList, (HeaderValue.fromStr value.toList).toOption.getD emptyValue)

/-- The app `a.example` of the cache examples, behind a listener with SNI consistency, a body
limit of 10 bytes and HTTP/3 on port 443; every route goes to `http://backend:8080`. -/
def exampleHandler : HttpMessageHandler IpAddr where
  globals :=
    { sniConsistency := true, requestMaxBodySize := some 10, publicHttpsPort := some 443, http3 := true,
      h3AltSvcMaxAge := 3600, trustedForwardedProxies := [], stickyCookieCipher := none,
      mutualTls := fun _ => some false, candidates := fun _ route => ⟨route, [], none⟩,
      candidates_route := fun _ _ => rfl }
  appManager := exampleApps

theorem exampleNonce_length : (List.replicate 12 (0 : UInt8)).length = nonceLen := rfl

/-- A call where the backend answers `reply`. -/
def exampleEnv (reply : Response) : CallEnv :=
  ⟨fun _ _ => (some exampleUpstream, none), fun _ _ => .ok reply, 0, ⟨List.replicate 12 0, exampleNonce_length⟩⟩

/-- `GET /?x` for `a.example` with the given lines after its `Host`. -/
def exampleRequestWith (lines : List (List Char × HeaderValue)) : Request :=
  { originFormRequest with headers := .ofEntries (originFormRequest.headers.entries ++ lines) }

/-- The server name `a.example`. -/
def exampleServerName : ServerName := ServerName.fromBytes (utf8Bytes "a.example".toList)

/-- A `200` without headers, and a `101` to `WebSocket`. -/
def okReply : Response := ⟨⟨200, some "OK".toList⟩, .new⟩
def switchedReply : Response :=
  ⟨switchingProtocols, .ofEntries [(connectionName, upgradeValue), textLine "upgrade" "WebSocket"]⟩

section Run

variable {h : HttpMessageHandler Net} {env : CallEnv} {req : Request} {clientAddr listenAddr : SocketAddr}
  {tls : Bool} {tlsServerName : Option ServerName}

/-- A request sent upstream went through the checks and the request generation, and the result
is what follows the forwarder's reply to it. -/
theorem handleRequestInner_eq_some {up : Request}
    (hup : (h.handleRequestInner contains parsePq formatExpires env req clientAddr listenAddr tls tlsServerName).1 =
      some up) :
    ∃ app route fallback upgrade context effectiveUri,
      prepareRequest h.globals h.appManager tls tlsServerName req = .ok (.forward app route fallback upgrade) ∧
      generateRequestForwarded contains h.globals.trustedForwardedProxies parsePq clientAddr listenAddr req upgrade
        (h.globals.candidates app route) (env.lbGet (h.globals.candidates app route)) h.globals.stickyCookieCipher
        env.now tls (if fallback then some app.serverName else none) = .ok (up, context, effectiveUri) ∧
      (h.handleRequestInner contains parsePq formatExpires env req clientAddr listenAddr tls tlsServerName).2 =
        handleReply formatExpires h.globals env app tls upgrade context (env.forward up effectiveUri) := by
  unfold HttpMessageHandler.handleRequestInner at hup ⊢
  split at hup
  · simp at hup
  · simp at hup
  · rename_i app route fallback upgrade hprep
    cases hgen : generateRequestForwarded contains h.globals.trustedForwardedProxies parsePq clientAddr listenAddr
        req upgrade (h.globals.candidates app route) (env.lbGet (h.globals.candidates app route))
        h.globals.stickyCookieCipher env.now tls (if fallback then some app.serverName else none) with
    | error e => simp [hgen] at hup
    | ok out =>
      obtain ⟨upstreamReq, context, effectiveUri⟩ := out
      simp only [hgen, Option.some.injEq] at hup
      subst hup
      exact ⟨app, route, fallback, upgrade, context, effectiveUri, hprep, hgen, rfl⟩

/-- A failed check ends the call before any upstream. -/
theorem handleRequestInner_of_prepare_error {e : HttpError}
    (he : prepareRequest h.globals h.appManager tls tlsServerName req = .error e) :
    h.handleRequestInner contains parsePq formatExpires env req clientAddr listenAddr tls tlsServerName =
      (none, .error e) := by
  simp [HttpMessageHandler.handleRequestInner, he]

/-- An error of the inner handler becomes the synthetic response of its status, which closes an
HTTP/1.x connection after a `413`. -/
theorem handleRequest_of_error {e : HttpError}
    (he : (h.handleRequestInner contains parsePq formatExpires env req clientAddr listenAddr tls tlsServerName).2 =
      .error e) :
    h.handleRequest contains parsePq formatExpires env req clientAddr listenAddr tls tlsServerName =
      ((h.handleRequestInner contains parsePq formatExpires env req clientAddr listenAddr tls tlsServerName).1,
        if e.isPayloadTooLarge then syntheticErrorResponseWithClose e.statusCode req.version
        else syntheticErrorResponse e.statusCode, false) := by
  simp only [HttpMessageHandler.handleRequest, he]

/-- A failed check ends the call with the synthetic response of its error and no upstream. -/
theorem handleRequest_of_prepare_error {e : HttpError}
    (he : prepareRequest h.globals h.appManager tls tlsServerName req = .error e) :
    h.handleRequest contains parsePq formatExpires env req clientAddr listenAddr tls tlsServerName =
      (none, if e.isPayloadTooLarge then syntheticErrorResponseWithClose e.statusCode req.version
        else syntheticErrorResponse e.statusCode, false) := by
  have hinner : h.handleRequestInner contains parsePq formatExpires env req clientAddr listenAddr tls tlsServerName =
      (none, .error e) :=
    handleRequestInner_of_prepare_error contains parsePq formatExpires he
  rw [handleRequest_of_error contains parsePq formatExpires (by rw [hinner]), hinner]

/-- Joined connections come from a request that was sent upstream. -/
theorem handleRequestInner_forwarded_of_joined {res : Response}
    (hres : (h.handleRequestInner contains parsePq formatExpires env req clientAddr listenAddr tls tlsServerName).2 =
      .ok (res, true)) :
    ∃ up, (h.handleRequestInner contains parsePq formatExpires env req clientAddr listenAddr tls tlsServerName).1 =
      some up := by
  unfold HttpMessageHandler.handleRequestInner at hres ⊢
  split at hres
  · cases hres
  · simp at hres
  · split at hres
    · cases hres
    · exact ⟨_, rfl⟩

/-- The handler sends a request upstream only when its host parses and, on a TLS listener with
`sni_consistency`, names the SNI server; when no readable `Content-Length` exceeds the limit; when
a route of its app matches its path, and that app does not redirect plaintext; and when it asks
for an upgrade only over HTTP/1.1. The app is the one registered under the host, or on plaintext
the `default_app`, and what goes upstream is the request generation's output for that app and
route, with the `Host` forced to the default app's name after the fallback. -/
theorem upstream_request_only_after_checks {up : Request}
    (hup : (h.handleRequestInner contains parsePq formatExpires env req clientAddr listenAddr tls tlsServerName).1 =
      some up) :
    ∃ host app route, inspectParseHost req = .ok host ∧
      (tls = true → h.globals.sniConsistency = true → ServerName.fromBytes host = tlsServerName.getD default) ∧
      (∀ l ∈ h.globals.requestMaxBodySize, ∀ v ∈ req.headers.get contentLengthName, ∀ s n,
        v.toStr = .ok s → u64FromStr s = .ok n → n ≤ l) ∧
      (tls = false → app.httpsRedirection ≠ some true) ∧
      app.pathManager.get (utf8Bytes req.uri.path) = some route ∧
      ((extractUpgrade req.headers).isSome → req.version = .http11) ∧
      ∃ fallbackHost context effectiveUri,
        ((h.appManager.apps.lookup (ServerName.fromBytes host) = some app ∧ fallbackHost = none) ∨
          (tls = false ∧ h.appManager.apps.lookup (ServerName.fromBytes host) = none ∧
            (∃ d, h.appManager.defaultServerName = some d ∧ h.appManager.apps.lookup d = some app) ∧
            fallbackHost = some app.serverName)) ∧
        generateRequestForwarded contains h.globals.trustedForwardedProxies parsePq clientAddr listenAddr req
          (extractUpgrade req.headers) (h.globals.candidates app route) (env.lbGet (h.globals.candidates app route))
          h.globals.stickyCookieCipher env.now tls fallbackHost = .ok (up, context, effectiveUri) := by
  obtain ⟨app, route, fallback, upgrade, context, effectiveUri, hprep, hgen, -⟩ :=
    handleRequestInner_eq_some contains parsePq formatExpires hup
  obtain ⟨host, hi, hsni, hcl, hsel, hredir, hroute, rfl, hver⟩ := prepareRequest_eq_forward hprep
  refine ⟨host, app, route, hi, ?_, checkContentLengthLimit_eq_ok.mp hcl, fun htls hr => hredir ⟨htls, hr⟩,
    hroute, hver, ?_⟩
  · intro htls hc
    by_contra hne
    exact hsni ⟨htls, hc, hne⟩
  · rcases BackendAppManager.select_eq_ok_cases hsel with ⟨hl, rfl⟩ | ⟨htls, hl, rfl, hd⟩
    · rw [if_neg Bool.false_ne_true] at hgen
      exact ⟨none, context, effectiveUri, .inl ⟨hl, rfl⟩, hgen⟩
    · rw [if_pos rfl] at hgen
      exact ⟨some app.serverName, context, effectiveUri, .inr ⟨htls, hl, hd, rfl⟩, hgen⟩

/-- On TLS, a request with a declared length of 5 goes upstream, and its host names the SNI
server. -/
theorem upstream_request_only_after_checks_tls :
    ∃ up, (exampleHandler.handleRequestInner (fun (net a : IpAddr) => net == a) .ok (fun _ => none)
        (exampleEnv okReply) (exampleRequestWith [textLine "content-length" "5"]) exampleClient exampleListen true
        (some exampleServerName)).1 = some up ∧
      ∃ host, inspectParseHost (exampleRequestWith [textLine "content-length" "5"]) = .ok host ∧
        ServerName.fromBytes host = exampleServerName := by
  obtain ⟨up, hup⟩ : ∃ up, (exampleHandler.handleRequestInner (fun (net a : IpAddr) => net == a) .ok (fun _ => none)
      (exampleEnv okReply) (exampleRequestWith [textLine "content-length" "5"]) exampleClient exampleListen true
      (some exampleServerName)).1 = some up := ⟨_, rfl⟩
  obtain ⟨host, -, -, hi, hsni, -⟩ :=
    upstream_request_only_after_checks (fun (net a : IpAddr) => net == a) .ok (fun _ => none) hup
  exact ⟨up, hup, host, hi, hsni rfl rfl⟩

/-- The handler joins the client's and the backend's upgraded connections only when the client
asked for an upgrade over HTTP/1.1, the upstream request carried that `Upgrade` with `Connection:
upgrade`, and the backend answered `101 Switching Protocols` with an `Upgrade` equal to it up to
ASCII case. -/
theorem upgrade_joined_only_when_agreed {res : Response}
    (hres : (h.handleRequestInner contains parsePq formatExpires env req clientAddr listenAddr tls tlsServerName).2 =
      .ok (res, true)) :
    ∃ up u u', (h.handleRequestInner contains parsePq formatExpires env req clientAddr listenAddr tls
        tlsServerName).1 = some up ∧
      extractUpgrade req.headers = some u ∧ req.version = .http11 ∧
      (up.headers.getAll upgradeName).map HeaderValue.toStr = [.ok u] ∧
      up.headers.getAll connectionName = [upgradeValue] ∧
      res.status.code = switchingProtocols.code ∧ extractUpgrade res.headers = some u' ∧
      eqIgnoreAsciiCase u u' = true := by
  obtain ⟨up, hup⟩ := handleRequestInner_forwarded_of_joined contains parsePq formatExpires hres
  obtain ⟨app, route, fallback, upgrade, context, effectiveUri, hprep, hgen, hresult⟩ :=
    handleRequestInner_eq_some contains parsePq formatExpires hup
  obtain ⟨host, -, -, -, -, -, -, rfl, hver⟩ := prepareRequest_eq_forward hprep
  rw [hresult] at hres
  obtain ⟨res₀, -, -, hcode, hagree⟩ := handleReply_eq_joined formatExpires hres
  obtain ⟨u, u', hu, hu', hcase⟩ := shouldUpgrade_eq_true.mp hagree
  rw [hu] at hgen
  obtain ⟨hupgrade, hconnection⟩ := generateRequestForwarded_upgrade contains parsePq hgen (extractUpgrade_headerText hu)
  exact ⟨up, u, u', hup, hu, hver (by simp [hu]), hupgrade, hconnection, hcode, hu', hcase⟩

/-- A WebSocket upgrade that the backend accepts as `WebSocket` joins the connections, and the
upstream request asked for `websocket`. -/
theorem upgrade_joined_only_when_agreed_websocket :
    ∃ res, (exampleHandler.handleRequestInner (fun (net a : IpAddr) => net == a) .ok (fun _ => none)
        (exampleEnv switchedReply) (exampleRequestWith [(connectionName, upgradeValue), textLine "upgrade" "websocket"])
        exampleClient exampleListen false none).2 = .ok (res, true) ∧
      ∃ up, (exampleHandler.handleRequestInner (fun (net a : IpAddr) => net == a) .ok (fun _ => none)
        (exampleEnv switchedReply) (exampleRequestWith [(connectionName, upgradeValue), textLine "upgrade" "websocket"])
        exampleClient exampleListen false none).1 = some up ∧
        (up.headers.getAll upgradeName).map HeaderValue.toStr = [.ok "websocket".toList] := by
  obtain ⟨res, hres⟩ : ∃ res, (exampleHandler.handleRequestInner (fun (net a : IpAddr) => net == a) .ok
      (fun _ => none) (exampleEnv switchedReply)
      (exampleRequestWith [(connectionName, upgradeValue), textLine "upgrade" "websocket"])
      exampleClient exampleListen false none).2 = .ok (res, true) := ⟨_, rfl⟩
  obtain ⟨up, u, u', hup, hu, -, hupgrade, -⟩ :=
    upgrade_joined_only_when_agreed (fun (net a : IpAddr) => net == a) .ok (fun _ => none) hres
  have hws : extractUpgrade (exampleRequestWith [(connectionName, upgradeValue),
      textLine "upgrade" "websocket"]).headers = some "websocket".toList := by decide
  obtain rfl := Option.some.inj (hu.symm.trans hws)
  exact ⟨res, hres, up, hup, hupgrade⟩

end Run

/-- A request that declares a body over the limit never reaches an upstream: it is answered `400`
when its host does not parse, `421` when the host differs from the SNI name on a TLS listener with
`sni_consistency`, and `413` otherwise, which carries `Connection: close` on HTTP/1.0 and
HTTP/1.1 and no header on HTTP/2 and HTTP/3. -/
theorem oversize_request_never_forwarded (h : HttpMessageHandler Net) (env : CallEnv) (req : Request)
    (clientAddr listenAddr : SocketAddr) (tls : Bool) (tlsServerName : Option ServerName)
    {limit n : Nat} {v : HeaderValue} {s : List Char}
    (hlimit : h.globals.requestMaxBodySize = some limit) (hv : req.headers.get contentLengthName = some v)
    (hs : v.toStr = .ok s) (hn : u64FromStr s = .ok n) (hover : limit < n) :
    let out := h.handleRequest contains parsePq formatExpires env req clientAddr listenAddr tls tlsServerName
    out.1 = none ∧ out.2.2 = false ∧
      (∀ e, inspectParseHost req = .error e → out.2.1 = syntheticErrorResponse badRequest) ∧
      (∀ host, inspectParseHost req = .ok host → tls = true → h.globals.sniConsistency = true →
        ServerName.fromBytes host ≠ tlsServerName.getD default → out.2.1 = syntheticErrorResponse misdirectedRequest) ∧
      (∀ host, inspectParseHost req = .ok host →
        ¬(tls = true ∧ h.globals.sniConsistency = true ∧ ServerName.fromBytes host ≠ tlsServerName.getD default) →
        out.2.1.status = payloadTooLarge ∧
          out.2.1.headers.getAll connectionName =
            if req.version = .http10 ∨ req.version = .http11 then [closeValue] else []) := by
  intro out
  have hcl : checkContentLengthLimit req.headers h.globals.requestMaxBodySize = .error .payloadTooLarge := by
    rw [hlimit]
    exact checkContentLengthLimit_of_over hv hs hn hover
  obtain ⟨e, he⟩ : ∃ e, prepareRequest h.globals h.appManager tls tlsServerName req = .error e := by
    cases hi : inspectParseHost req with
    | error e => exact ⟨_, prepareRequest_of_host_error hi⟩
    | ok host =>
      by_cases hsni : tls = true ∧ h.globals.sniConsistency = true ∧
          ServerName.fromBytes host ≠ tlsServerName.getD default
      · exact ⟨_, prepareRequest_of_sni_mismatch hi hsni⟩
      · exact ⟨_, prepareRequest_of_length_error hi hsni hcl⟩
  have hout : out = (none, if e.isPayloadTooLarge then syntheticErrorResponseWithClose e.statusCode req.version
      else syntheticErrorResponse e.statusCode, false) :=
    handleRequest_of_prepare_error contains parsePq formatExpires he
  rw [hout]
  refine ⟨rfl, rfl, ?_, ?_, ?_⟩
  · intro e' hi
    obtain rfl : e = .invalidHostInRequestHeader := Except.error.inj (he.symm.trans (prepareRequest_of_host_error hi))
    rfl
  · intro host hi htls hc hne
    obtain rfl : e = .sniHostInconsistency :=
      Except.error.inj (he.symm.trans (prepareRequest_of_sni_mismatch hi ⟨htls, hc, hne⟩))
    rfl
  · intro host hi hsni
    obtain rfl : e = .payloadTooLarge := Except.error.inj (he.symm.trans (prepareRequest_of_length_error hi hsni hcl))
    simp only [HttpError.isPayloadTooLarge, if_true, HttpError.statusCode]
    unfold syntheticErrorResponseWithClose
    split_ifs <;> simp

/-- A plaintext HTTP/1.1 request declaring 100 bytes against the limit of 10 is answered `413`
with `Connection: close`, and nothing goes upstream. -/
theorem oversize_request_never_forwarded_http11 :
    let out := exampleHandler.handleRequest (fun (net a : IpAddr) => net == a) .ok (fun _ => none) (exampleEnv okReply)
      (exampleRequestWith [textLine "content-length" "100"]) exampleClient exampleListen false none
    out.1 = none ∧ out.2.1.status = payloadTooLarge ∧ out.2.1.headers.getAll connectionName = [closeValue] := by
  obtain ⟨hnone, -, -, -, h413⟩ := oversize_request_never_forwarded (fun (net a : IpAddr) => net == a) .ok
    (fun _ => none) exampleHandler (exampleEnv okReply) (exampleRequestWith [textLine "content-length" "100"])
    exampleClient exampleListen false none rfl rfl rfl rfl (by decide)
  obtain ⟨hstatus, hclose⟩ := h413 _ rfl (by simp)
  exact ⟨hnone, hstatus, by rw [hclose]; rfl⟩

end Handler

end Rpxy.MessageHandler
