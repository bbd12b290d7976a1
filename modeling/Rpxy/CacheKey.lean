import Rpxy.AccessLog
import Rpxy.PathRouting
import Rpxy.HopHeaders
import Rpxy.CookieMerge
import Rpxy.ForwardedRoundTrip

/-!
# Cache keys, server names and routes

`handle_request_inner` takes the server name from `inspect_parse_host`: the `Host` header and
the URI host, each cut at its port by `drop_port`, which must agree, lowercased by
`ServerName::from`. It checks the name against the TLS SNI, bounds a declared
`Content-Length`, finds the backend app (the default app only for plaintext) and then the route
by the URI path. `generate_request_forwarded` captures the client-visible scheme and the
authoritative host (`host_from_uri_or_host_header`), and puts the effective URI
`scheme://authority/path?query` built from them into the request; `Forwarder::request` keys
the cache on its text, and bypasses the cache when there is none.

`Authority::try_from`, `Authority::host`, `Authority::port_u16` and `PathAndQuery::try_from`
of the `http` crate are modelled by the character tables and scans of its parsers; a scheme is
one of the two texts `client_visible_scheme` returns. The handler's steps after the route
lookup (the upgrade check, the header rewrites) only turn more requests away and are left out.

The main result: two origin- or absolute-form requests that are routed and carry effective
URIs with the same text have the same scheme, server name, backend app, path, query and route;
a request without an effective URI never touches the cache. The path-and-query text itself is
not fixed by the key: the absolute-form `http://a.example?x` and the origin-form `/?x` share a
key, and a `replace_path` rewrites them to different upstream paths.
-/

namespace Rpxy.CacheKey

open RustText RustIpAddr RustIpParser HttpHeaders HttpHeaders.HeaderMap ForwardedSyntax
  ForwardingChain AccessLog PathRouting HopHeaders

/-! ### `drop_port` and `inspect_parse_host` -/

/-- The bytes `[`, `]` and `:`. -/
def openBracket : UInt8 := 91
def closeBracket : UInt8 := 93
def colon : UInt8 := 58

/-- `u8::to_ascii_lowercase`. -/
def asciiLowerByte (b : UInt8) : UInt8 := if 65 ≤ b ∧ b ≤ 90 then b + 32 else b

/-- `drop_port`: a bracketed IPv6 literal up to its `]`, a bare IPv6 literal (two `:` or more)
as it is, anything else cut at its first `:` and lowercased. -/
def dropPort (v : List UInt8) : List UInt8 :=
  if v.head? = some openBracket then (v.drop 1).takeWhile (· != closeBracket)
  else if ((v.filter (· == colon)).take 2).length = 2 then v
  else (v.takeWhile (· != colon)).map asciiLowerByte

/-- The `ensure!` message of `inspect_parse_host` when the two hosts differ. -/
def hostMismatchText : String := "Host header and uri host mismatch"

/-- The error of `inspect_parse_host` when there is no host at all. -/
def noHostText : String := "Neither Host header nor uri host is valid"

/-- `inspect_parse_host`: the port-stripped `Host` header and URI host, which must agree when
both are there. -/
def inspectParseHost (req : Request) : Except String (List UInt8) :=
  let headersHost := (req.headers.get hostName).map fun v => dropPort v.bytes
  let uriHost := req.uri.host.map fun h => dropPort (utf8Bytes h)
  match headersHost, uriHost with
  | some hh, some hu => if hh = hu then .ok hh else .error hostMismatchText
  | some hh, none => .ok hh
  | none, some hu => .ok hu
  | none, none => .error noHostText

/-- `ServerName`: lowercase bytes; the default is empty. -/
structure ServerName where
  /-- The name's bytes. -/
  inner : List UInt8
  deriving DecidableEq, Inhabited

/-- `ServerName::from(Vec<u8>)`. -/
def ServerName.fromBytes (b : List UInt8) : ServerName := ⟨b.map asciiLowerByte⟩

/-! ### Backend apps and the route stage of `handle_request_inner` -/

/-- `BackendApp`, by the fields the handler reads. -/
structure BackendApp where
  /-- `server_name`. -/
  serverName : ServerName
  /-- `path_manager`, as route selection reads it. -/
  pathManager : PathManager
  /-- `https_redirection`, for a TLS app. -/
  httpsRedirection : Option Bool

/-- `BackendAppManager`, its map given by its entries. -/
structure BackendAppManager where
  /-- `apps`, the map from server names to applications. -/
  apps : List (ServerName × BackendApp)
  /-- `default_server_name`. -/
  defaultServerName : Option ServerName
  /-- `try_from` takes the default's name from an app it registered, so the handler's
  `unwrap` cannot fail. -/
  default_mem : ∀ d, defaultServerName = some d → (apps.lookup d).isSome

/-- The `HttpError`s of the route stage. -/
inductive HttpError where
  | invalidHostInRequestHeader
  | sniHostInconsistency
  | noMatchingBackendApp
  | noUpstreamCandidates
  | payloadTooLarge
  deriving DecidableEq, Repr

/-- The app for a server name, and whether it is the default app: an unknown name falls back
to the default only on a plaintext listener. -/
def BackendAppManager.select (m : BackendAppManager) (serverName : ServerName) (tls : Bool) :
    Except HttpError (BackendApp × Bool) :=
  match m.apps.lookup serverName with
  | some app => .ok (app, false)
  | none =>
    if tls then .error .noMatchingBackendApp
    else
      match h : m.defaultServerName with
      | none => .error .noMatchingBackendApp
      | some d => .ok ((m.apps.lookup d).get (m.default_mem d h), true)

/-- `u64::MAX`. -/
def u64Max : Nat := 2 ^ 64 - 1

/-- The digit loop of `u64::from_str_radix(_, 10)`. -/
def u64DigitsLoop : Nat → List Char → Except String Nat
  | acc, [] => .ok acc
  | acc, c :: cs =>
    match toDigit 10 c with
    | none => .error invalidDigitErrorText
    | some d =>
      if u64Max < acc * 10 + d then .error posOverflowErrorText
      else u64DigitsLoop (acc * 10 + d) cs

/-- `u64::from_str`. -/
def u64FromStr : List Char → Except String Nat
  | [] => .error emptyIntErrorText
  | ['+'] | ['-'] => .error invalidDigitErrorText
  | '+' :: rest => u64DigitsLoop 0 rest
  | s => u64DigitsLoop 0 s

/-- `header::CONTENT_LENGTH`. -/
def contentLengthName : List Char := "content-length".toList

/-- `check_content_length_limit`: only a readable declared length over the limit is refused. -/
def checkContentLengthLimit (headers : HeaderMap) (limit : Option Nat) : Except HttpError Unit :=
  match limit, headers.get contentLengthName with
  | some limit, some value =>
    match value.toStr with
    | .ok s =>
      match u64FromStr s with
      | .ok n => if limit < n then .error .payloadTooLarge else .ok ()
      | .error _ => .ok ()
    | .error _ => .ok ()
  | _, _ => .ok ()

/-- How the route stage ends when it does not fail. -/
inductive Routed where
  /-- `secure_redirection_response`: answered without forwarding. -/
  | redirected
  /-- Forwarded through this app and this route's candidates. -/
  | forward (app : BackendApp) (candidates : UpstreamCandidates)

/-- `handle_request_inner` up to the route lookup. -/
def routeRequest (mgr : BackendAppManager) (sniConsistency : Bool) (maxBodySize : Option Nat)
    (tls : Bool) (tlsServerName : Option ServerName) (req : Request) : Except HttpError Routed :=
  match inspectParseHost req with
  | .error _ => .error .invalidHostInRequestHeader
  | .ok host =>
    let serverName := ServerName.fromBytes host
    if tls && sniConsistency && serverName != tlsServerName.getD default then .error .sniHostInconsistency
    else
      match checkContentLengthLimit req.headers maxBodySize with
      | .error e => .error e
      | .ok () =>
        match mgr.select serverName tls with
        | .error e => .error e
        | .ok (app, _) =>
          if !tls && app.httpsRedirection.getD false then .ok .redirected
          else
            match app.pathManager.get (utf8Bytes req.uri.path) with
            | none => .error .noUpstreamCandidates
            | some candidates => .ok (.forward app candidates)

/-! ### `client_visible_scheme` -/

/-- The two schemes `client_visible_scheme` returns. -/
inductive Scheme where
  | http
  | https
  deriving DecidableEq, Repr

/-- The scheme's text. -/
def Scheme.text : Scheme → List Char
  | .http => "http".toList
  | .https => "https".toList

/-- `xforwarded_proto_first`: the first comma-separated element of `X-Forwarded-Proto`,
trimmed; an unreadable header is an error. -/
def xforwardedProtoFirst (headers : HeaderMap) : Except Unit (Option (List Char)) :=
  match joinHeaderValues headers xForwardedProtoName with
  | .error _ => .error ()
  | .ok none => .ok none
  | .ok (some raw) =>
    let first := trim ((raw.splitOn ',').head?.getD [])
    if first.isEmpty then .ok none else .ok (some first)

/-- The parameter loop of `forwarded_first_proto`: the first `proto=` parameter decides. -/
def protoParam : List (List Char) → Except Unit (Option (List Char))
  | [] => .ok none
  | param :: rest =>
    match splitOnce '=' param with
    | none => protoParam rest
    | some (key, value) =>
      if !eqIgnoreAsciiCase (trim key) "proto".toList then protoParam rest
      else
        match unquoteHttpValue (trim value) with
        | .ok v => if v.isEmpty then .ok none else .ok (some v)
        | .error _ => .error ()

/-- `forwarded_first_proto`: the `proto=` parameter of the first non-empty `Forwarded`
entry. -/
def forwardedFirstProto (headers : HeaderMap) : Except Unit (Option (List Char)) :=
  match joinHeaderValues headers forwardedName with
  | .error _ => .error ()
  | .ok none => .ok none
  | .ok (some raw) =>
    match (splitRespectingQuotes raw ',').find? (fun e => !e.isEmpty) with
    | none => .ok none
    | some firstEntry => protoParam ((splitRespectingQuotes firstEntry ';').filter fun p => !p.isEmpty)

section Scheme

variable {Net : Type} (contains : Net → IpAddr → Bool)

/-- `client_visible_scheme`: `https` on TLS; otherwise a trusted peer's first forwarded
protocol, where only `https` in any case counts and an unreadable header counts as `http`. -/
def clientVisibleScheme (tls : Bool) (clientAddr : SocketAddr) (headers : HeaderMap)
    (trusted : List Net) : Scheme :=
  if tls then .https
  else
    let peerIp := canonicalizeIp clientAddr.toCanonical.ip
    if !isTrustedProxy contains trusted peerIp then .http
    else
      let scheme : Except Unit (Option (List Char)) :=
        match xforwardedProtoFirst headers with
        | .error _ => .error ()
        | .ok (some s) => .ok (some s)
        | .ok none => forwardedFirstProto headers
      match scheme with
      | .ok (some s) => if eqIgnoreAsciiCase s "https".toList then .https else .http
      | _ => .http

end Scheme

/-! ### The `http` crate's authority and path-and-query parsers -/

/-- The characters of `URI_CHARS` that are not zero: letters, digits and
`! # $ & ' ( ) * + , - . / : ; = ? @ [ ] _ ~`. -/
def isUriChar (c : Char) : Bool := c.isAlphanum || "!#$&'()*+,-./:;=?@[]_~".toList.contains c

/-- The state of `Authority::parse`. -/
structure AuthorityScan where
  /-- `colon_cnt`. -/
  colonCnt : Nat := 0
  /-- `start_bracket`. -/
  startBracket : Bool := false
  /-- `end_bracket`. -/
  endBracket : Bool := false
  /-- `has_percent`. -/
  hasPercent : Bool := false
  /-- `at_sign_pos`. -/
  atSignPos : Option Nat := none

/-- `MAX_COLONS`. -/
def maxColons : Nat := 8

/-- One character of `Authority::parse`. `none` is an error, or the end of the authority at
`/`, `?` or `#`, which `try_from` refuses since the authority must be the whole text. -/
def authorityStep (scan : Option AuthorityScan) (ci : Char × Nat) : Option AuthorityScan :=
  scan.bind fun st =>
    let (c, i) := ci
    if c = '/' ∨ c = '?' ∨ c = '#' then none
    else if c = ':' then
      if maxColons ≤ st.colonCnt then none else some { st with colonCnt := st.colonCnt + 1 }
    else if c = '[' then
      if st.hasPercent || st.startBracket then none else some { st with startBracket := true }
    else if c = ']' then
      if !st.startBracket || st.endBracket then none
      else some { st with endBracket := true, colonCnt := 0, hasPercent := false }
    else if c = '@' then some { st with atSignPos := some i, colonCnt := 0, hasPercent := false }
    else if c = '%' then some { st with hasPercent := true }
    else if isUriChar c then some st
    else none

/-- `Authority::try_from(&str)`: a non-empty text that `parse` takes whole. -/
def authorityTryFrom (s : List Char) : Bool :=
  match s.zipIdx.foldl authorityStep (some {}) with
  | none => false
  | some st =>
    !s.isEmpty && st.startBracket == st.endBracket && st.colonCnt ≤ 1 &&
      st.atSignPos != some (s.length - 1) && !st.hasPercent

/-- `Authority::host`: after the last `@`, a bracketed literal up to its `]`, else up to the
first `:`. -/
def authorityHost (text : List Char) : List Char :=
  let hostPort := (text.splitOn '@').getLast?.getD []
  if hostPort.head? = some '[' then hostPort.take (hostPort.idxOf ']' + 1)
  else hostPort.takeWhile (· != ':')

/-- `Authority::port_u16`: the text after the last `:`, when it reads as a `u16`. -/
def authorityPort (text : List Char) : Option UInt16 :=
  if ':' ∈ text then (u16FromStr ((text.splitOn ':').getLast?.getD [])).toOption else none

/-- The bytes `PathAndQuery::from_shared` accepts in a path: `! $ … ;`, `=`, `@ … _`, `a … z`,
`|`, `~`, `"`, `{`, `}` and every byte of a non-ASCII character. -/
def isPathChar (c : Char) : Bool :=
  let n := c.toNat
  n == 0x21 || (0x24 ≤ n && n ≤ 0x3B) || n == 0x3D || (0x40 ≤ n && n ≤ 0x5F) ||
    (0x61 ≤ n && n ≤ 0x7A) || n == 0x7C || 0x7E ≤ n || n == 0x22 || n == 0x7B || n == 0x7D

/-- The bytes `PathAndQuery::from_shared` accepts in a query. -/
def isQueryChar (c : Char) : Bool :=
  let n := c.toNat
  n == 0x21 || (0x24 ≤ n && n ≤ 0x3B) || n == 0x3D || 0x3F ≤ n

/-- `PathAndQuery::try_from(&str)`, by `as_str` of the result: the fragment is dropped, and an
empty path-and-query reads as `/`. -/
def pathAndQueryFromStr (s : List Char) : Option (List Char) :=
  let data := s.takeWhile (· != '#')
  let path := data.takeWhile (· != '?')
  let query := (data.dropWhile (· != '?')).drop 1
  if path.all isPathChar && query.all isQueryChar then some (if data.isEmpty then ['/'] else data)
  else none

theorem foldl_authorityStep_none (l : List (Char × Nat)) : l.foldl authorityStep none = none := by
  induction l with
  | nil => rfl
  | cons _ _ ih => exact ih

theorem ne_of_authorityStep_eq_some {scan : Option AuthorityScan} {c : Char} {i : Nat} {st : AuthorityScan}
    (h : authorityStep scan (c, i) = some st) : c ≠ '/' ∧ c ≠ '?' ∧ c ≠ '#' := by
  cases scan with
  | none => cases h
  | some st =>
    simp only [authorityStep, Option.bind_some] at h
    by_cases hc : c = '/' ∨ c = '?' ∨ c = '#'
    · rw [if_pos hc] at h
      cases h
    · simpa [not_or] using hc

/-- A scan that does not fail saw no `/`, `?` or `#`. -/
theorem not_mem_of_foldl_authorityStep : ∀ (l : List (Char × Nat)) (scan : Option AuthorityScan)
    {st : AuthorityScan}, l.foldl authorityStep scan = some st → ∀ ci ∈ l, ci.1 ≠ '/' ∧ ci.1 ≠ '?' ∧ ci.1 ≠ '#'
  | [], _, _, _ => by simp
  | (c, i) :: l, scan, st, h => by
    cases hstep : authorityStep scan (c, i) with
    | none => rw [List.foldl_cons, hstep, foldl_authorityStep_none] at h; cases h
    | some st' =>
      rw [List.foldl_cons, hstep] at h
      intro ci hci
      rcases List.mem_cons.mp hci with rfl | hci
      · exact ne_of_authorityStep_eq_some hstep
      · exact not_mem_of_foldl_authorityStep l _ h ci hci

theorem not_mem_of_authorityTryFrom {s : List Char} (h : authorityTryFrom s = true) :
    '/' ∉ s ∧ '?' ∉ s ∧ '#' ∉ s := by
  unfold authorityTryFrom at h
  split at h
  · cases h
  · rename_i st hst
    have hall := not_mem_of_foldl_authorityStep _ _ hst
    have hmem : ∀ c ∈ s, c ≠ '/' ∧ c ≠ '?' ∧ c ≠ '#' := by
      intro c hc
      obtain ⟨i, hi⟩ := List.mem_iff_getElem.mp hc
      exact hall (c, i) (by rw [List.mem_zipIdx_iff_getElem?]; simp [← hi.2, hi.1])
    exact ⟨fun hc => (hmem _ hc).1 rfl, fun hc => (hmem _ hc).2.1 rfl, fun hc => (hmem _ hc).2.2 rfl⟩

/-! ### The effective URI and the cache key -/

/-- `build_client_facing_effective_uri`: `scheme://authority` and the original
path-and-query, or `/`; `None` without an authority or when a part does not parse. -/
def buildClientFacingEffectiveUri (scheme : Scheme) (authority : Option (List Char))
    (originalUri : Uri) : Option Uri :=
  match authority with
  | none => none
  | some a =>
    let pathAndQuery := originalUri.pathAndQuery.getD ['/']
    if h : authorityTryFrom a = true then
      (pathAndQueryFromStr pathAndQuery).map fun pq =>
        ⟨some scheme.text, some ⟨a, authorityHost a, authorityPort a, (not_mem_of_authorityTryFrom h).2.1⟩,
          some pq, fun _ => rfl⟩
    else none

/-- The headers `client_visible_scheme` reads: the request's, after the hop-by-hop headers
are removed. -/
def forwardedHeaders (headers : HeaderMap) : HeaderMap := removeHopHeader (removeConnectionHeader headers)

section Effective

variable {Net : Type} (contains : Net → IpAddr → Bool) (trusted : List Net)

/-- The authority `generate_request_forwarded` captures: `host_from_uri_or_host_header(..).ok()`. -/
def authoritativeHost (req : Request) : Option (List Char) :=
  (hostFromUriOrHostHeader req.uri.host req.uri.portU16 (req.headers.get hostName)).toOption

/-- `insert_client_facing_effective_uri`: the effective URI the request carries to the
forwarder, if any. -/
def clientFacingEffectiveUri (tls : Bool) (clientAddr : SocketAddr) (req : Request) : Option Uri :=
  buildClientFacingEffectiveUri (clientVisibleScheme contains tls clientAddr (forwardedHeaders req.headers) trusted)
    (authoritativeHost req) req.uri

end Effective

/-- `derive_cache_key_from_effective_uri`. -/
def cacheKey (effectiveUri : Uri) : List Char := effectiveUri.toText

/-- A cache access of `Forwarder::request`. -/
inductive CacheOp where
  /-- `RpxyCache::get` under a key. -/
  | get (key : List Char)
  /-- `RpxyCache::put` under a key. -/
  | put (key : List Char)
  deriving DecidableEq

/-- The key of a cache access. -/
def CacheOp.key : CacheOp → List Char
  | .get key => key
  | .put key => key

/-- The cache accesses of `Forwarder::request`: with a cache and an effective URI, a read under
its key, and on a miss a write of a cacheable response under the same key. `fresh` says which
keys hold a fresh response, `cacheable` whether the upstream response may be stored. -/
def forwarderCacheOps (cacheEnabled : Bool) (effectiveUri : Option Uri) (fresh : List Char → Bool)
    (cacheable : Bool) : List CacheOp :=
  if cacheEnabled then
    match effectiveUri with
    | none => []
    | some u =>
      if fresh (cacheKey u) then [.get (cacheKey u)]
      else .get (cacheKey u) :: if cacheable then [.put (cacheKey u)] else []
  else []

theorem forwarderCacheOps_none (cacheEnabled : Bool) (fresh : List Char → Bool) (cacheable : Bool) :
    forwarderCacheOps cacheEnabled none fresh cacheable = [] := by
  cases cacheEnabled <;> rfl

theorem key_of_mem_forwarderCacheOps {cacheEnabled : Bool} {u : Uri} {fresh : List Char → Bool} {cacheable : Bool}
    {op : CacheOp} (h : op ∈ forwarderCacheOps cacheEnabled (some u) fresh cacheable) : op.key = cacheKey u := by
  have hops : forwarderCacheOps cacheEnabled (some u) fresh cacheable ⊆ [.get (cacheKey u), .put (cacheKey u)] := by
    unfold forwarderCacheOps
    dsimp only
    split_ifs <;> simp
  rcases List.mem_pair.mp (hops h) with rfl | rfl <;> rfl

/-! ### What the server name reads of the authority -/

/-- What `http`'s parser guarantees of the host of an authority, as bytes: a bracketed IPv6
literal, or a name that does not start with `[` and holds no `:`. -/
def HostForm (host : List UInt8) : Prop :=
  (∃ inner, host = openBracket :: inner ++ [closeBracket] ∧ closeBracket ∉ inner) ∨
    (host.head? ≠ some openBracket ∧ colon ∉ host)

/-- A port after a host of the right form changes nothing `drop_port` keeps. -/
theorem dropPort_append_port {hb db : List UInt8} (hform : HostForm hb) (hdb : colon ∉ db) :
    dropPort (hb ++ colon :: db) = dropPort hb := by
  rcases hform with ⟨inner, rfl, hinner⟩ | ⟨hhead, hcolon⟩
  · have hkeep : ∀ b ∈ inner, (b != closeBracket) = true := by
      intro b hb
      rw [bne_iff_ne]
      rintro rfl
      exact hinner hb
    simp [dropPort, List.takeWhile_append_of_pos hkeep, List.takeWhile_cons_of_neg]
  · have hkeep : ∀ b ∈ hb, (b != colon) = true := by
      intro b hb'
      rw [bne_iff_ne]
      rintro rfl
      exact hcolon hb'
    have hnone : hb.filter (· == colon) = [] :=
      List.filter_eq_nil_iff.mpr fun b hb' heq => hcolon (beq_iff_eq.mp heq ▸ hb')
    have hnone' : db.filter (· == colon) = [] :=
      List.filter_eq_nil_iff.mpr fun b hb' heq => hdb (beq_iff_eq.mp heq ▸ hb')
    have hhead' : (hb ++ colon :: db).head? ≠ some openBracket := by
      cases hb with
      | nil => simp only [List.nil_append, List.head?_cons, ne_eq, Option.some.injEq]; decide
      | cons b bs => simpa using hhead
    have htake : hb.takeWhile (· != colon) = hb := by
      simpa using @List.takeWhile_append_of_pos _ _ hb [] hkeep
    unfold dropPort
    rw [if_neg hhead', if_neg hhead, if_neg (by simp [List.filter_append, hnone, hnone']),
      if_neg (by simp [hnone]), List.takeWhile_append_of_pos hkeep, List.takeWhile_cons_of_neg (by simp),
      List.append_nil, htake]

theorem utf8Bytes_append_colon (h d : List Char) :
    utf8Bytes (h ++ ':' :: d) = utf8Bytes h ++ colon :: utf8Bytes d := by
  simp only [utf8Bytes, List.flatMap_append, List.flatMap_cons]
  rfl

theorem colon_not_mem_utf8Bytes_port (p : UInt16) : colon ∉ utf8Bytes (Nat.toDigits 10 p.toNat) := by
  rw [utf8Bytes_of_headerText fun _ hc => isHeaderTextChar_of_mem_toDigits hc]
  intro hmem
  obtain ⟨c, hc, hceq⟩ := List.mem_map.mp hmem
  have hdigits : ∀ c ∈ Nat.toDigits 10 p.toNat, UInt8.ofNat c.toNat ≠ colon :=
    ForwardedRoundTrip.forall_mem_toDigits (fun c => UInt8.ofNat c.toNat ≠ colon) (by decide) (by norm_num)
      (by norm_num)
  exact hdigits c hc hceq

theorem utf8Bytes_of_toStr {v : HeaderValue} {s : List Char} (h : v.toStr = .ok s) : utf8Bytes s = v.bytes := by
  unfold HeaderValue.toStr at h
  split at h
  · rename_i hall
    cases h
    exact CookieMerge.utf8Bytes_map_ofNat (List.all_eq_true.mp hall)
  · cases h

/-- `inspect_parse_host` answers the URI host when there is one. -/
theorem inspectParseHost_of_uriHost {req : Request} {h : List Char} (hu : req.uri.host = some h)
    {host : List UInt8} (hi : inspectParseHost req = .ok host) : host = dropPort (utf8Bytes h) := by
  unfold inspectParseHost at hi
  rw [hu] at hi
  cases hv : req.headers.get hostName with
  | none => simp only [hv, Option.map_some, Option.map_none, Except.ok.injEq] at hi; exact hi.symm
  | some v =>
    simp only [hv, Option.map_some] at hi
    split_ifs at hi with heq
    · cases hi
      exact heq

/-- Without a URI host, `inspect_parse_host` answers the `Host` header. -/
theorem inspectParseHost_of_hostHeader {req : Request} (hu : req.uri.host = none) {v : HeaderValue}
    (hv : req.headers.get hostName = some v) {host : List UInt8} (hi : inspectParseHost req = .ok host) :
    host = dropPort v.bytes := by
  unfold inspectParseHost at hi
  simp only [hu, hv, Option.map_some, Option.map_none, Except.ok.injEq] at hi
  exact hi.symm

/-- The server name is read off the authority the effective URI is built from. -/
theorem inspectParseHost_eq_dropPort {req : Request} (hhost : ∀ h ∈ req.uri.host, HostForm (utf8Bytes h))
    {host : List UInt8} (hi : inspectParseHost req = .ok host) {a : List Char}
    (ha : authoritativeHost req = some a) : host = dropPort (utf8Bytes a) := by
  unfold authoritativeHost hostFromUriOrHostHeader at ha
  cases hu : req.uri.host with
  | some h =>
    rw [inspectParseHost_of_uriHost hu hi]
    simp only [hu] at ha
    cases hp : req.uri.portU16 with
    | none => simp only [hp, Except.toOption, Option.some.injEq] at ha; rw [ha]
    | some p =>
      simp only [hp, Except.toOption, Option.some.injEq] at ha
      rw [← ha, utf8Bytes_append_colon, dropPort_append_port (hhost h hu) (colon_not_mem_utf8Bytes_port p)]
  | none =>
    simp only [hu] at ha
    cases hv : req.headers.get hostName with
    | none => simp [hv, Except.toOption] at ha
    | some v =>
      rw [inspectParseHost_of_hostHeader hu hv hi]
      simp only [hv] at ha
      cases hs : v.toStr with
      | error e => simp [hs, Except.toOption] at ha
      | ok s =>
        simp only [hs, Except.toOption, Option.some.injEq] at ha
        rw [← ha, utf8Bytes_of_toStr hs]

/-! ### What the key fixes of the path and query -/

theorem not_mem_of_splitOnce_eq_none {sep : Char} {s : List Char} (h : splitOnce sep s = none) : sep ∉ s := by
  induction s with
  | nil => simp
  | cons c cs ih =>
    by_cases hc : c = sep
    · simp [splitOnce, hc] at h
    · simp only [splitOnce, hc, if_false, Option.map_eq_none_iff] at h
      simpa [Ne.symm hc] using ih h

theorem not_mem_pathOf (pq : List Char) : '?' ∉ pathOf pq := by
  unfold pathOf
  intro hmem
  dsimp only at hmem
  split_ifs at hmem
  · simp at hmem
  · cases h : splitOnce '?' pq with
    | none =>
      simp only [h] at hmem
      exact not_mem_of_splitOnce_eq_none h hmem
    | some p =>
      obtain ⟨path, query⟩ := p
      simp only [h] at hmem
      exact (splitOnce_eq_some h).2 hmem

/-- The written path-and-query splits at its first `?` into the path and the query. -/
theorem splitOnce_pathAndQueryText (pq : List Char) :
    splitOnce '?' (pathAndQueryText pq) = ((splitOnce '?' pq).map Prod.snd).map fun q => (pathOf pq, q) := by
  cases h : splitOnce '?' pq with
  | none =>
    simp only [pathAndQueryText, h, Option.map_none, Option.getD_none, List.append_nil]
    exact splitOnce_of_not_mem (not_mem_pathOf pq)
  | some p => simp [pathAndQueryText, h, splitOnce_append (not_mem_pathOf pq)]

/-- The written path-and-query gives back the path and the query. -/
theorem pathOf_eq_of_pathAndQueryText_eq {pq₁ pq₂ : List Char} (h : pathAndQueryText pq₁ = pathAndQueryText pq₂) :
    pathOf pq₁ = pathOf pq₂ ∧ (splitOnce '?' pq₁).map Prod.snd = (splitOnce '?' pq₂).map Prod.snd := by
  have hsplit := splitOnce_pathAndQueryText pq₁
  rw [h, splitOnce_pathAndQueryText pq₂] at hsplit
  cases hq₁ : (splitOnce '?' pq₁).map Prod.snd with
  | none =>
    cases hq₂ : (splitOnce '?' pq₂).map Prod.snd with
    | none =>
      simp only [pathAndQueryText, hq₁, hq₂, Option.map_none, Option.getD_none, List.append_nil] at h
      exact ⟨h, rfl⟩
    | some q₂ => simp [hq₁, hq₂] at hsplit
  | some q₁ =>
    cases hq₂ : (splitOnce '?' pq₂).map Prod.snd with
    | none => simp [hq₁, hq₂] at hsplit
    | some q₂ =>
      simp only [hq₁, hq₂, Option.map_some, Option.some.injEq, Prod.mk.injEq] at hsplit
      exact ⟨hsplit.1.symm, by rw [hsplit.2]⟩

/-- A path-and-query that starts with `/` or `?` is written starting with `/`. -/
theorem head_pathAndQueryText {pq : List Char} (hhead : pq.head? = some '/' ∨ pq.head? = some '?') :
    (pathAndQueryText pq).head? = some '/' := by
  have hpath : (pathOf pq).head? = some '/' := by
    rcases pq with _ | ⟨c, rest⟩
    · simp at hhead
    · simp only [List.head?_cons, Option.some.injEq] at hhead
      rcases hhead with rfl | rfl
      · unfold pathOf
        cases h : splitOnce '?' rest with
        | none => simp [splitOnce, h]
        | some p => simp [splitOnce, h]
      · simp [pathOf, splitOnce]
  unfold pathAndQueryText
  cases hp : pathOf pq with
  | nil => simp [hp] at hpath
  | cons c cs => simpa [hp] using hpath

/-- `PathAndQuery::try_from` gives back a path-and-query as `http` parses one. -/
theorem pathAndQueryFromStr_eq_of_form {pq pq' : List Char} (hhead : pq.head? = some '/' ∨ pq.head? = some '?')
    (hfrag : '#' ∉ pq) (h : pathAndQueryFromStr pq = some pq') : pq' = pq := by
  have hkeep : ∀ c ∈ pq, (c != '#') = true := by
    intro c hc
    rw [bne_iff_ne]
    rintro rfl
    exact hfrag hc
  have hdata : pq.takeWhile (· != '#') = pq := by
    simpa using @List.takeWhile_append_of_pos _ _ pq [] hkeep
  have hne : pq.isEmpty = false := by
    cases pq with
    | nil => simp at hhead
    | cons _ _ => rfl
  simp only [pathAndQueryFromStr, hdata, hne, Bool.false_eq_true, if_false] at h
  split_ifs at h
  · cases h
    rfl

/-- The key `scheme://authority` followed by a written path: the authority has no `/` and the
path starts with one, so the key gives all three back. -/
theorem effectiveKey_inj {s₁ s₂ : Scheme} {a₁ a₂ t₁ t₂ : List Char} (ha₁ : '/' ∉ a₁) (ha₂ : '/' ∉ a₂)
    (ht₁ : t₁.head? = some '/') (ht₂ : t₂.head? = some '/')
    (h : s₁.text ++ "://".toList ++ a₁ ++ t₁ = s₂.text ++ "://".toList ++ a₂ ++ t₂) :
    s₁ = s₂ ∧ a₁ = a₂ ∧ t₁ = t₂ := by
  have hs : s₁ = s₂ := by
    cases s₁ <;> cases s₂ <;> simp_all [Scheme.text]
  subst hs
  have hrest : a₁ ++ t₁ = a₂ ++ t₂ := by
    simpa only [List.append_assoc, List.append_cancel_left_eq] using h
  have hauthority : ∀ {a t : List Char}, '/' ∉ a → t.head? = some '/' → (a ++ t).takeWhile (· != '/') = a := by
    intro a t ha ht
    have hkeep : ∀ c ∈ a, (c != '/') = true := by
      intro c hc
      rw [bne_iff_ne]
      rintro rfl
      exact ha hc
    obtain ⟨t', rfl⟩ : ∃ t', t = '/' :: t' := by
      cases t with
      | nil => simp at ht
      | cons c t' => simp only [List.head?_cons, Option.some.injEq] at ht; exact ⟨t', by rw [ht]⟩
    rw [List.takeWhile_append_of_pos hkeep, List.takeWhile_cons_of_neg (by simp), List.append_nil]
  have ha : a₁ = a₂ := by
    rw [← hauthority ha₁ ht₁, hrest, hauthority ha₂ ht₂]
  subst ha
  exact ⟨rfl, rfl, List.append_cancel_left hrest⟩

/-! ### Routing and the cache key -/

/-- A selected app is the name's registered app or, for an unregistered name, the default. -/
theorem BackendAppManager.select_eq_ok {m : BackendAppManager} {serverName : ServerName} {tls : Bool}
    {app : BackendApp} {fallback : Bool} (h : m.select serverName tls = .ok (app, fallback)) :
    m.apps.lookup serverName = some app ∨
      (m.apps.lookup serverName = none ∧ ∃ d, m.defaultServerName = some d ∧ m.apps.lookup d = some app) := by
  unfold BackendAppManager.select at h
  cases hl : m.apps.lookup serverName with
  | some app' =>
    simp only [hl, Except.ok.injEq, Prod.mk.injEq] at h
    exact .inl (by rw [h.1])
  | none =>
    simp only [hl] at h
    split_ifs at h
    split at h
    · cases h
    · rename_i d hd
      simp only [Except.ok.injEq, Prod.mk.injEq] at h
      exact .inr ⟨rfl, d, hd, by rw [← h.1, Option.some_get]⟩

/-- A server name selects one app, whatever the listener: a TLS listener finds it registered,
and the default app serves only names that are not. -/
theorem BackendAppManager.select_app_eq {m : BackendAppManager} {serverName : ServerName} {tls₁ tls₂ : Bool}
    {app₁ app₂ : BackendApp} {fallback₁ fallback₂ : Bool} (h₁ : m.select serverName tls₁ = .ok (app₁, fallback₁))
    (h₂ : m.select serverName tls₂ = .ok (app₂, fallback₂)) : app₁ = app₂ := by
  rcases select_eq_ok h₁ with h₁ | ⟨hnone, d₁, hd₁, h₁⟩ <;>
    rcases select_eq_ok h₂ with h₂ | ⟨hnone₂, d₂, hd₂, h₂⟩
  · exact Option.some.inj (h₁.symm.trans h₂)
  · rw [h₁] at hnone₂
    cases hnone₂
  · rw [h₂] at hnone
    cases hnone
  · rw [hd₁, Option.some.injEq] at hd₂
    subst hd₂
    exact Option.some.inj (h₁.symm.trans h₂)

/-- A forwarded request passed host inspection, found its app and found its route by the
URI path. -/
theorem routeRequest_eq_forward {mgr : BackendAppManager} {sniConsistency : Bool} {maxBodySize : Option Nat}
    {tls : Bool} {tlsServerName : Option ServerName} {req : Request} {app : BackendApp} {c : UpstreamCandidates}
    (h : routeRequest mgr sniConsistency maxBodySize tls tlsServerName req = .ok (.forward app c)) :
    ∃ host fallback, inspectParseHost req = .ok host ∧
      mgr.select (ServerName.fromBytes host) tls = .ok (app, fallback) ∧
      app.pathManager.get (utf8Bytes req.uri.path) = some c := by
  unfold routeRequest at h
  cases hi : inspectParseHost req with
  | error e => simp [hi] at h
  | ok host =>
    simp only [hi] at h
    split_ifs at h
    cases hcl : checkContentLengthLimit req.headers maxBodySize with
    | error e => simp [hcl] at h
    | ok u =>
      cases hs : mgr.select (ServerName.fromBytes host) tls with
      | error e => simp [hcl, hs] at h
      | ok p =>
        obtain ⟨app', fallback⟩ := p
        simp only [hcl, hs] at h
        by_cases hr : (!tls && app'.httpsRedirection.getD false) = true
        · simp [hr] at h
        · simp only [hr] at h
          cases hg : app'.pathManager.get (utf8Bytes req.uri.path) with
          | none => simp [hg] at h
          | some c' =>
            simp only [hg] at h
            obtain ⟨rfl, rfl⟩ := Routed.forward.inj (Except.ok.inj h)
            exact ⟨host, fallback, rfl, hs, hg⟩

/-- An effective URI is written `scheme://authority` and the parsed path-and-query. -/
theorem cacheKey_of_build {scheme : Scheme} {authority : Option (List Char)} {uri u : Uri}
    (h : buildClientFacingEffectiveUri scheme authority uri = some u) :
    ∃ a pq, authority = some a ∧ authorityTryFrom a = true ∧
      pathAndQueryFromStr (uri.pathAndQuery.getD ['/']) = some pq ∧
      cacheKey u = scheme.text ++ "://".toList ++ a ++ pathAndQueryText pq := by
  unfold buildClientFacingEffectiveUri at h
  cases authority with
  | none => cases h
  | some a =>
    simp only at h
    split_ifs at h with ha
    obtain ⟨pq, hpq, rfl⟩ := Option.map_eq_some_iff.mp h
    refine ⟨a, pq, rfl, ha, hpq, ?_⟩
    simp [cacheKey, Uri.toText_eq]

/-- An origin-form or absolute-form request target, by what `http`'s parser guarantees of one:
its host has the right form, and its path-and-query has no `#` and starts with `/`, or with `?`
right after an authority. -/
structure OriginOrAbsoluteForm (u : Uri) : Prop where
  /-- The host has the form `http` accepts. -/
  host_form : ∀ h ∈ u.host, HostForm (utf8Bytes h)
  /-- The path-and-query starts with `/` or `?` and has no `#`. -/
  path_and_query : ∃ pq, u.pathAndQuery = some pq ∧ (pq.head? = some '/' ∨ pq.head? = some '?') ∧ '#' ∉ pq

section Effective

variable {Net : Type} (contains : Net → IpAddr → Bool) (trusted : List Net)

/-- The key of an origin- or absolute-form request: its scheme, its authoritative host, and
its own path-and-query written as `Display` writes it. -/
theorem cacheKey_of_effectiveUri {tls : Bool} {addr : SocketAddr} {req : Request} {u : Uri}
    (hform : OriginOrAbsoluteForm req.uri) (h : clientFacingEffectiveUri contains trusted tls addr req = some u) :
    ∃ a pq, authoritativeHost req = some a ∧ '/' ∉ a ∧ req.uri.pathAndQuery = some pq ∧
      (pathAndQueryText pq).head? = some '/' ∧
      cacheKey u = (clientVisibleScheme contains tls addr (forwardedHeaders req.headers) trusted).text ++
        "://".toList ++ a ++ pathAndQueryText pq := by
  obtain ⟨a, pq', ha, hvalid, hparse, hkey⟩ := cacheKey_of_build h
  obtain ⟨pq, hpq, hhead, hfrag⟩ := hform.path_and_query
  rw [hpq, Option.getD_some] at hparse
  obtain rfl := pathAndQueryFromStr_eq_of_form hhead hfrag hparse
  exact ⟨a, pq', ha, (not_mem_of_authorityTryFrom hvalid).1, hpq, head_pathAndQueryText hhead, hkey⟩

end Effective

theorem cache_key_respects_routing {Net : Type} (contains : Net → IpAddr → Bool) (trusted : List Net)
    (mgr : BackendAppManager) (sniConsistency : Bool) (maxBodySize : Option Nat) :
    (∀ (tls₁ tls₂ : Bool) (sni₁ sni₂ : Option ServerName) (addr₁ addr₂ : SocketAddr) (r₁ r₂ : Request)
        (app₁ app₂ : BackendApp) (c₁ c₂ : UpstreamCandidates) (u₁ u₂ : Uri),
      OriginOrAbsoluteForm r₁.uri → OriginOrAbsoluteForm r₂.uri →
      routeRequest mgr sniConsistency maxBodySize tls₁ sni₁ r₁ = .ok (.forward app₁ c₁) →
      routeRequest mgr sniConsistency maxBodySize tls₂ sni₂ r₂ = .ok (.forward app₂ c₂) →
      clientFacingEffectiveUri contains trusted tls₁ addr₁ r₁ = some u₁ →
      clientFacingEffectiveUri contains trusted tls₂ addr₂ r₂ = some u₂ →
      cacheKey u₁ = cacheKey u₂ →
      clientVisibleScheme contains tls₁ addr₁ (forwardedHeaders r₁.headers) trusted =
          clientVisibleScheme contains tls₂ addr₂ (forwardedHeaders r₂.headers) trusted ∧
        (inspectParseHost r₁).map ServerName.fromBytes = (inspectParseHost r₂).map ServerName.fromBytes ∧
        app₁ = app₂ ∧ r₁.uri.path = r₂.uri.path ∧ r₁.uri.query = r₂.uri.query ∧ c₁ = c₂) ∧
    ∀ (tls : Bool) (addr : SocketAddr) (r : Request) (cacheEnabled : Bool) (fresh : List Char → Bool)
      (cacheable : Bool),
      (clientFacingEffectiveUri contains trusted tls addr r = none →
        forwarderCacheOps cacheEnabled (clientFacingEffectiveUri contains trusted tls addr r) fresh cacheable = []) ∧
      ∀ u, clientFacingEffectiveUri contains trusted tls addr r = some u →
        ∀ op ∈ forwarderCacheOps cacheEnabled (clientFacingEffectiveUri contains trusted tls addr r) fresh cacheable,
          op.key = cacheKey u := by
  refine ⟨?_, fun tls addr r cacheEnabled fresh cacheable => ⟨fun hnone => ?_, fun u hu op hop => ?_⟩⟩
  · intro tls₁ tls₂ sni₁ sni₂ addr₁ addr₂ r₁ r₂ app₁ app₂ c₁ c₂ u₁ u₂ hform₁ hform₂ hroute₁ hroute₂ heff₁ heff₂ hkey
    obtain ⟨a₁, pq₁, ha₁, hslash₁, hpq₁, hhead₁, hkey₁⟩ := cacheKey_of_effectiveUri contains trusted hform₁ heff₁
    obtain ⟨a₂, pq₂, ha₂, hslash₂, hpq₂, hhead₂, hkey₂⟩ := cacheKey_of_effectiveUri contains trusted hform₂ heff₂
    obtain ⟨hscheme, rfl, htext⟩ := effectiveKey_inj hslash₁ hslash₂ hhead₁ hhead₂ (hkey₁.symm.trans (hkey.trans hkey₂))
    obtain ⟨hpath, hquery⟩ := pathOf_eq_of_pathAndQueryText_eq htext
    obtain ⟨host₁, fallback₁, hi₁, hs₁, hg₁⟩ := routeRequest_eq_forward hroute₁
    obtain ⟨host₂, fallback₂, hi₂, hs₂, hg₂⟩ := routeRequest_eq_forward hroute₂
    have hhost : host₁ = host₂ :=
      (inspectParseHost_eq_dropPort hform₁.host_form hi₁ ha₁).trans
        (inspectParseHost_eq_dropPort hform₂.host_form hi₂ ha₂).symm
    subst hhost
    have happ : app₁ = app₂ := BackendAppManager.select_app_eq hs₁ hs₂
    subst happ
    have hpath' : r₁.uri.path = r₂.uri.path := by simp [Uri.path, hpq₁, hpq₂, hpath]
    have hquery' : r₁.uri.query = r₂.uri.query := by simpa [Uri.query, hpq₁, hpq₂] using hquery
    refine ⟨hscheme, by rw [hi₁, hi₂], rfl, hpath', hquery', ?_⟩
    rw [hpath'] at hg₁
    exact Option.some.inj (hg₁.symm.trans hg₂)
  · rw [hnone]
    exact forwarderCacheOps_none cacheEnabled fresh cacheable
  · rw [hu] at hop
    exact key_of_mem_forwarderCacheOps hop

/-- The route `/`, sent upstream under `/v1/`. -/
def exampleRoute : UpstreamCandidates := ⟨[47], some [47, 118, 49, 47]⟩

/-- The app `a.example` with `exampleRoute` alone. -/
def exampleApp : BackendApp :=
  ⟨⟨utf8Bytes "a.example".toList⟩, ⟨[([47], exampleRoute)], by decide, by decide⟩, none⟩

/-- `exampleApp` alone, with no default app. -/
def exampleApps : BackendAppManager where
  apps := [(exampleApp.serverName, exampleApp)]
  defaultServerName := none
  default_mem := fun _ h => by cases h

/-- `GET http://a.example?x` without a `Host` header: absolute-form with an empty path. -/
def absoluteFormRequest : Request :=
  ⟨"GET".toList, ⟨some "http".toList, some ⟨"a.example".toList, "a.example".toList, none, by decide⟩,
    some "?x".toList, fun _ => rfl⟩, .http11, .new⟩

/-- `GET /?x` with `Host: a.example`. -/
def originFormRequest : Request :=
  ⟨"GET".toList, ⟨none, none, some "/?x".toList, fun h => by cases h⟩, .http11,
    .ofEntries [(hostName, HeaderValue.ofHeaderText "a.example".toList (by decide))]⟩

/-- The effective URI both requests carry on a plaintext listener. -/
def exampleEffectiveUri (pq : List Char) : Uri :=
  ⟨some "http".toList, some ⟨"a.example".toList, "a.example".toList, none, by decide⟩, some pq, fun _ => rfl⟩

theorem absoluteFormRequest_form : OriginOrAbsoluteForm absoluteFormRequest.uri where
  host_form := by
    intro h hh
    cases hh
    exact .inr (by decide)
  path_and_query := ⟨"?x".toList, rfl, .inr rfl, by decide⟩

theorem originFormRequest_form : OriginOrAbsoluteForm originFormRequest.uri where
  host_form := fun _ hh => by cases hh
  path_and_query := ⟨"/?x".toList, rfl, .inl rfl, by decide⟩

/-- The two requests route alike and share a key, so they have one path and one query; a
request without a `Host` header or a URI host has no effective URI and never touches the cache. -/
theorem cache_key_respects_routing_absolute_origin :
    absoluteFormRequest.uri.path = originFormRequest.uri.path ∧
      absoluteFormRequest.uri.query = originFormRequest.uri.query ∧
      forwarderCacheOps true (clientFacingEffectiveUri (fun (_ : Unit) _ => false) [] false
        ⟨.v4 (Ipv4Addr.new 192 0 2 1), 50000⟩ ⟨"GET".toList, ⟨none, none, some "/".toList, fun h => by cases h⟩, .http11, .new⟩)
        (fun _ => false) true = [] := by
  have h := (cache_key_respects_routing (fun (_ : Unit) _ => false) [] exampleApps true none).1 false false none none
    ⟨.v4 (Ipv4Addr.new 192 0 2 1), 50000⟩ ⟨.v4 (Ipv4Addr.new 192 0 2 1), 50000⟩ absoluteFormRequest originFormRequest
    exampleApp exampleApp exampleRoute exampleRoute (exampleEffectiveUri "?x".toList) (exampleEffectiveUri "/?x".toList)
    absoluteFormRequest_form originFormRequest_form rfl rfl rfl rfl (by decide)
  exact ⟨h.2.2.2.1, h.2.2.2.2.1, ((cache_key_respects_routing (fun (_ : Unit) _ => false) [] exampleApps true none).2
    false ⟨.v4 (Ipv4Addr.new 192 0 2 1), 50000⟩ _ true (fun _ => false) true).1 rfl⟩

/-- The absolute-form `http://a.example?x` and the origin-form `/?x` are routed alike and
share the key `http://a.example/?x`, but their path-and-query texts differ, and the route's
`replace_path` sends them upstream as `/v1/x` and `/v1/?x`. -/
theorem absolute_form_shares_key :
    clientFacingEffectiveUri (fun (_ : Unit) _ => false) [] false ⟨.v4 (Ipv4Addr.new 192 0 2 1), 50000⟩
        absoluteFormRequest = some (exampleEffectiveUri "?x".toList) ∧
      clientFacingEffectiveUri (fun (_ : Unit) _ => false) [] false ⟨.v4 (Ipv4Addr.new 192 0 2 1), 50000⟩
        originFormRequest = some (exampleEffectiveUri "/?x".toList) ∧
      cacheKey (exampleEffectiveUri "?x".toList) = cacheKey (exampleEffectiveUri "/?x".toList) ∧
      routeRequest exampleApps true none false none absoluteFormRequest = .ok (.forward exampleApp exampleRoute) ∧
      routeRequest exampleApps true none false none originFormRequest = .ok (.forward exampleApp exampleRoute) ∧
      absoluteFormRequest.uri.pathAndQuery ≠ originFormRequest.uri.pathAndQuery ∧
      rebuildPathAndQuery .ok (absoluteFormRequest.uri.pathAndQuery.map utf8Bytes) exampleRoute.replacePath
          exampleRoute.path ≠
        rebuildPathAndQuery .ok (originFormRequest.uri.pathAndQuery.map utf8Bytes) exampleRoute.replacePath
          exampleRoute.path :=
  ⟨rfl, rfl, by decide, rfl, rfl, by decide, by decide⟩

end Rpxy.CacheKey
