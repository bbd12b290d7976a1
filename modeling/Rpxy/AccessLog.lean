import Rpxy.ForwardingChain

/-!
# Access-log records and query redaction

`http_log.rs`: `HttpMessageLog::new` captures a request for the access log, the setters
`client_addr`, `status_code`, `xff` and `upstream` fill in the rest, and `Display` writes the
line. With `redact_query` set, the request's path-and-query and the upstream URI are masked by
`redact_query_values` when they are captured: each `&`-separated query segment keeps its key and
`=` and has its value replaced by `<redacted>`, a segment without `=` is replaced whole, and an
empty segment stays empty.

An `http::Uri` is modelled by the parts the log reads: `scheme_str`, the authority (its text,
host and port) and `path_and_query`. `Method`, `Version` and `StatusCode` are given by what their
`Display` or `Debug` writes.

The main result: two requests whose URIs differ only in query values, with every segment keeping
its key and staying empty or non-empty, give the same log line after any sequence of setter
calls whose upstream URIs differ in the same way. An empty segment and a non-empty one without
`=` are told apart.
-/

namespace Rpxy.AccessLog

open RustText HttpHeaders RustIpAddr ForwardedSyntax ForwardingChain

/-! ### The `http` types, by what the log reads of them -/

/-- `http::uri::Authority`. -/
structure Authority where
  /-- `Authority::as_str`. -/
  text : List Char
  /-- `Authority::host`. -/
  host : List Char
  /-- `Authority::port_u16`. -/
  port : Option UInt16
  /-- The parser ends an authority at `?`. -/
  no_query : '?' ∉ text

/-- `http::Uri`, by `scheme_str()`, `authority()` and `path_and_query().as_str()`. -/
structure Uri where
  /-- `Uri::scheme_str`. -/
  scheme : Option (List Char)
  /-- `Uri::authority`. -/
  authority : Option Authority
  /-- `Uri::path_and_query`, as its text. -/
  pathAndQuery : Option (List Char)
  /-- A URI with a scheme has an authority. -/
  scheme_authority : scheme.isSome → authority.isSome

/-- `PathAndQuery::path`: the text before the first `?`, or `/` when that is empty. -/
def pathOf (pq : List Char) : List Char :=
  let path := match splitOnce '?' pq with
    | some (path, _) => path
    | none => pq
  if path.isEmpty then ['/'] else path

/-- `Uri::path`. -/
def Uri.path (u : Uri) : List Char := (u.pathAndQuery.map pathOf).getD []

/-- `Uri::query`: the text after the first `?`. -/
def Uri.query (u : Uri) : Option (List Char) :=
  u.pathAndQuery.bind fun pq => (splitOnce '?' pq).map Prod.snd

/-- `Uri::host`. -/
def Uri.host (u : Uri) : Option (List Char) := u.authority.map (·.host)

/-- `Uri::port_u16`. -/
def Uri.portU16 (u : Uri) : Option UInt16 := u.authority.bind (·.port)

/-- `Display for Uri`. -/
def Uri.toText (u : Uri) : List Char :=
  (u.scheme.map (· ++ "://".toList)).getD [] ++ (u.authority.map (·.text)).getD [] ++ u.path ++
    (u.query.map ('?' :: ·)).getD []

/-- `http::Version`. -/
inductive Version where
  | http09 | http10 | http11 | h2 | h3
  deriving DecidableEq, Repr

/-- `Debug for Version`. -/
def Version.debugText : Version → List Char
  | .http09 => "HTTP/0.9".toList
  | .http10 => "HTTP/1.0".toList
  | .http11 => "HTTP/1.1".toList
  | .h2 => "HTTP/2.0".toList
  | .h3 => "HTTP/3.0".toList

/-- `http::StatusCode`, by its number and `canonical_reason()`. -/
structure StatusCode where
  /-- `StatusCode::as_u16`. -/
  code : UInt16
  /-- `StatusCode::canonical_reason`. -/
  canonicalReason : Option (List Char)
  deriving DecidableEq

/-- `Display for StatusCode`. -/
def StatusCode.toText (s : StatusCode) : List Char :=
  Nat.toDigits 10 s.code.toNat ++ ' ' :: s.canonicalReason.getD "<unknown status code>".toList

/-- `Display for SocketAddr`; the model has no IPv6 scope, which `Display` writes only when it
is not zero. -/
def SocketAddr.toText (a : SocketAddr) : List Char :=
  match a.ip with
  | .v4 v4 => v4.toText ++ ':' :: Nat.toDigits 10 a.port.toNat
  | .v6 v6 => '[' :: v6.toText ++ ']' :: ':' :: Nat.toDigits 10 a.port.toNat

/-- `http::Request`, by what the log reads; a `Method` is its text. -/
structure Request where
  /-- `Request::method`, as its text. -/
  method : List Char
  /-- `Request::uri`. -/
  uri : Uri
  /-- `Request::version`. -/
  version : Version
  /-- `Request::headers`. -/
  headers : HeaderMap

/-- `header::USER_AGENT`. -/
def userAgentName : List Char := "user-agent".toList

/-! ### `redact_query_values` -/

/-- `REDACTED`. -/
def redactedText : List Char := "<redacted>".toList

theorem redactedText_ne_nil : redactedText ≠ [] := by decide

/-- The masked form of a non-empty segment: `key=<redacted>`, or `<redacted>` without `=`. -/
def maskSegment (segment : List Char) : List Char :=
  match splitOnce '=' segment with
  | some (key, _) => key ++ '=' :: redactedText
  | none => redactedText

/-- One turn of the loop over the enumerated segments: `&` before all but the first, then the
masked segment unless it is empty. -/
def pushSegment (out : List Char) (entry : List Char × Nat) : List Char :=
  let out := if 0 < entry.2 then out ++ ['&'] else out
  if entry.1.isEmpty then out else out ++ maskSegment entry.1

/-- `redact_query_values`. -/
def redactQueryValues (pathAndQuery : List Char) : List Char :=
  match splitOnce '?' pathAndQuery with
  | none => pathAndQuery
  | some (path, query) =>
    if query.isEmpty then pathAndQuery
    else ((query.splitOn '&').zipIdx).foldl pushSegment (path ++ ['?'])

/-- A segment's key: the text before its first `=`, when it has one. -/
def segmentKey (segment : List Char) : Option (List Char) := (splitOnce '=' segment).map Prod.fst

/-- What the loop writes of one segment. -/
def redactSegment (segment : List Char) : List Char :=
  if segment.isEmpty then [] else maskSegment segment

/-- The masked query: the segments' masked forms joined by `&`. -/
def maskQuery (query : List Char) : List Char :=
  List.intercalate ['&'] ((query.splitOn '&').map redactSegment)

theorem maskSegment_eq (segment : List Char) :
    maskSegment segment = match segmentKey segment with
      | some key => key ++ '=' :: redactedText
      | none => redactedText := by
  unfold maskSegment segmentKey
  cases splitOnce '=' segment <;> rfl

theorem pushSegment_zero (out segment : List Char) :
    pushSegment out (segment, 0) = out ++ redactSegment segment := by
  unfold pushSegment redactSegment
  by_cases hs : segment = [] <;> simp [hs]

theorem pushSegment_succ (out segment : List Char) (k : Nat) :
    pushSegment out (segment, k + 1) = out ++ '&' :: redactSegment segment := by
  unfold pushSegment redactSegment
  by_cases hs : segment = [] <;> simp [hs]

theorem foldl_pushSegment_succ (k : Nat) : ∀ (segments : List (List Char)) (out : List Char),
    (segments.zipIdx (k + 1)).foldl pushSegment out = out ++ segments.flatMap ('&' :: redactSegment ·)
  | [], out => by simp
  | segment :: segments, out => by
    rw [List.zipIdx_cons, List.foldl_cons, pushSegment_succ, foldl_pushSegment_succ (k + 1)]
    simp

theorem intercalate_singleton_cons (c : Char) (a : List Char) : ∀ as : List (List Char),
    List.intercalate [c] (a :: as) = a ++ as.flatMap (c :: ·)
  | [] => by simp
  | b :: bs => by
    rw [List.intercalate_cons_cons, intercalate_singleton_cons c b bs]
    simp

/-- The loop writes the masked segments joined by `&`. -/
theorem foldl_pushSegment {segments : List (List Char)} (hne : segments ≠ []) (out : List Char) :
    segments.zipIdx.foldl pushSegment out = out ++ List.intercalate ['&'] (segments.map redactSegment) := by
  obtain ⟨segment, rest, rfl⟩ := List.exists_cons_of_ne_nil hne
  rw [List.zipIdx_cons, List.foldl_cons, pushSegment_zero, foldl_pushSegment_succ, List.map_cons,
    intercalate_singleton_cons, List.flatMap_map, List.append_assoc]

/-- Text without `?` is left as it is. -/
theorem redactQueryValues_of_not_mem {pq : List Char} (h : '?' ∉ pq) : redactQueryValues pq = pq := by
  simp [redactQueryValues, splitOnce_of_not_mem h]

/-- Everything up to the first `?` is kept and the query is masked. -/
theorem redactQueryValues_append {path : List Char} (h : '?' ∉ path) (query : List Char) :
    redactQueryValues (path ++ '?' :: query) = path ++ '?' :: maskQuery query := by
  rw [redactQueryValues, splitOnce_append h]
  cases query with
  | nil => simp [maskQuery, redactSegment]
  | cons c cs =>
    simp only [List.isEmpty_cons, Bool.false_eq_true, if_false]
    rw [foldl_pushSegment (List.splitOn_ne_nil _ _), maskQuery]
    simp

/-! ### What the masked query keeps -/

theorem not_mem_redactSegment {c : Char} (hc : c ∉ redactedText) (hc' : c ≠ '=') {segment : List Char}
    (h : c ∉ segment) : c ∉ redactSegment segment := by
  unfold redactSegment
  split
  · simp
  · rw [maskSegment_eq]
    cases hkey : segmentKey segment with
    | none => exact hc
    | some key =>
      obtain ⟨⟨key', v⟩, hsplit, rfl⟩ := Option.map_eq_some_iff.mp hkey
      obtain ⟨rfl, -⟩ := splitOnce_eq_some hsplit
      simp only [List.mem_append, List.mem_cons, not_or] at h ⊢
      exact ⟨h.1, hc', hc⟩

/-- Splitting the masked query at `&` gives back the masked segments. -/
theorem splitOn_maskQuery (query : List Char) :
    (maskQuery query).splitOn '&' = (query.splitOn '&').map redactSegment := by
  apply List.splitOn_intercalate
  · intro l hl
    obtain ⟨segment, hseg, rfl⟩ := List.mem_map.mp hl
    exact not_mem_redactSegment (by decide) (by decide) fun h => (mem_splitOn hseg h).2 rfl
  · simp

theorem segmentKey_redactSegment (segment : List Char) :
    segmentKey (redactSegment segment) = segmentKey segment := by
  unfold redactSegment
  split
  · next hempty => rw [List.isEmpty_iff.mp hempty]
  · rw [maskSegment_eq]
    cases hkey : segmentKey segment with
    | none => rfl
    | some key =>
      obtain ⟨⟨key', v⟩, hsplit, rfl⟩ := Option.map_eq_some_iff.mp hkey
      simp [segmentKey, splitOnce_append (splitOnce_eq_some hsplit).2]

theorem redactSegment_redactSegment (segment : List Char) :
    redactSegment (redactSegment segment) = redactSegment segment := by
  unfold redactSegment
  split
  · simp
  · have hne : (maskSegment segment).isEmpty = false := by
      rw [maskSegment_eq]
      split
      · simp
      · exact List.isEmpty_eq_false_iff.mpr redactedText_ne_nil
    have hkey := segmentKey_redactSegment segment
    unfold redactSegment at hkey
    simp only [hne, Bool.false_eq_true, if_false, ‹¬segment.isEmpty = true›] at hkey ⊢
    rw [maskSegment_eq, hkey, ← maskSegment_eq]

theorem maskQuery_maskQuery (query : List Char) : maskQuery (maskQuery query) = maskQuery query := by
  rw [maskQuery, splitOn_maskQuery, List.map_map]
  simp only [Function.comp_def, redactSegment_redactSegment]
  rfl

/-- `redact_query_values` is idempotent. -/
theorem redactQueryValues_redactQueryValues (pq : List Char) :
    redactQueryValues (redactQueryValues pq) = redactQueryValues pq := by
  cases hsplit : splitOnce '?' pq with
  | none =>
    have h : redactQueryValues pq = pq := by simp [redactQueryValues, hsplit]
    rw [h, h]
  | some parts =>
    obtain ⟨path, query⟩ := parts
    obtain ⟨rfl, hpath⟩ := splitOnce_eq_some hsplit
    rw [redactQueryValues_append hpath, redactQueryValues_append hpath, maskQuery_maskQuery]

/-! ### Queries that differ only in their values -/

/-- Two segments with the same key, or both without `=`, that are both empty or both not. -/
def SameSegmentShape (s t : List Char) : Prop := segmentKey s = segmentKey t ∧ s.isEmpty = t.isEmpty

instance : DecidableRel SameSegmentShape := fun _ _ => inferInstanceAs (Decidable (_ ∧ _))

/-- Two queries whose segments pair up with the same shapes. -/
def SameQueryShape (q₁ q₂ : List Char) : Prop := List.Forall₂ SameSegmentShape (q₁.splitOn '&') (q₂.splitOn '&')

instance : DecidableRel SameQueryShape := fun _ _ => inferInstanceAs (Decidable (List.Forall₂ _ _ _))

/-- Two path-and-query texts that are equal, or share the path and have queries of the same
shape. -/
def QueryValuesVary (pq₁ pq₂ : List Char) : Prop :=
  pq₁ = pq₂ ∨ ∃ path q₁ q₂, '?' ∉ path ∧ pq₁ = path ++ '?' :: q₁ ∧ pq₂ = path ++ '?' :: q₂ ∧ SameQueryShape q₁ q₂

/-- Two URIs that differ only in the values of their queries. -/
def UriValuesVary (u₁ u₂ : Uri) : Prop :=
  u₁.scheme = u₂.scheme ∧ u₁.authority = u₂.authority ∧ Option.Rel QueryValuesVary u₁.pathAndQuery u₂.pathAndQuery

theorem redactSegment_eq_of_shape {s t : List Char} (h : SameSegmentShape s t) :
    redactSegment s = redactSegment t := by
  unfold redactSegment
  rw [maskSegment_eq, maskSegment_eq, h.1, h.2]

theorem map_redactSegment_eq_of_shape {l₁ l₂ : List (List Char)} (h : List.Forall₂ SameSegmentShape l₁ l₂) :
    l₁.map redactSegment = l₂.map redactSegment := by
  induction h with
  | nil => rfl
  | cons hst _ ih => rw [List.map_cons, List.map_cons, redactSegment_eq_of_shape hst, ih]

theorem maskQuery_eq_of_shape {q₁ q₂ : List Char} (h : SameQueryShape q₁ q₂) : maskQuery q₁ = maskQuery q₂ := by
  unfold maskQuery
  rw [map_redactSegment_eq_of_shape h]

/-- A function of an optional path-and-query that does not see query values takes one value
on two related ones. -/
theorem eq_of_rel_vary {β : Type} (g : Option (List Char) → β)
    (hg : ∀ pq₁ pq₂, QueryValuesVary pq₁ pq₂ → g (some pq₁) = g (some pq₂)) {p₁ p₂ : Option (List Char)}
    (h : Option.Rel QueryValuesVary p₁ p₂) : g p₁ = g p₂ := by
  cases h with
  | none => rfl
  | some hvary => exact hg _ _ hvary

theorem redactQueryValues_eq_of_vary {pq₁ pq₂ : List Char} (h : QueryValuesVary pq₁ pq₂) :
    redactQueryValues pq₁ = redactQueryValues pq₂ := by
  rcases h with rfl | ⟨path, q₁, q₂, hpath, rfl, rfl, hshape⟩
  · rfl
  · rw [redactQueryValues_append hpath, redactQueryValues_append hpath, maskQuery_eq_of_shape hshape]

theorem pathOf_append {path : List Char} (h : '?' ∉ path) (query : List Char) :
    pathOf (path ++ '?' :: query) = if path.isEmpty then ['/'] else path := by
  simp only [pathOf, splitOnce_append h]

theorem pathOf_eq_of_vary {pq₁ pq₂ : List Char} (h : QueryValuesVary pq₁ pq₂) : pathOf pq₁ = pathOf pq₂ := by
  rcases h with rfl | ⟨path, q₁, q₂, hpath, rfl, rfl, -⟩
  · rfl
  · rw [pathOf_append hpath, pathOf_append hpath]

theorem Uri.path_eq_of_vary {u₁ u₂ : Uri} (h : UriValuesVary u₁ u₂) : u₁.path = u₂.path :=
  eq_of_rel_vary (fun pq => (pq.map pathOf).getD []) (fun _ _ hvary => by simp [pathOf_eq_of_vary hvary]) h.2.2

/-- The path and query that `Display for Uri` writes after the authority. -/
def pathAndQueryText (pq : List Char) : List Char :=
  pathOf pq ++ (((splitOnce '?' pq).map Prod.snd).map ('?' :: ·)).getD []

theorem Uri.toText_eq (u : Uri) :
    u.toText = (u.scheme.map (· ++ "://".toList)).getD [] ++ (u.authority.map (·.text)).getD [] ++
      (u.pathAndQuery.map pathAndQueryText).getD [] := by
  unfold Uri.toText Uri.path Uri.query
  cases u.pathAndQuery with
  | none => simp
  | some pq => simp [pathAndQueryText]

/-- Behind a text without `?`, the written path and query are masked alike when their
queries have the same shape. -/
theorem redactQueryValues_pathAndQueryText {lead pq₁ pq₂ : List Char} (hlead : '?' ∉ lead)
    (h : QueryValuesVary pq₁ pq₂) :
    redactQueryValues (lead ++ pathAndQueryText pq₁) = redactQueryValues (lead ++ pathAndQueryText pq₂) := by
  rcases h with rfl | ⟨path, q₁, q₂, hpath, rfl, rfl, hshape⟩
  · rfl
  · have hwritten : '?' ∉ lead ++ pathOf (path ++ '?' :: q₁) := by
      rw [pathOf_append hpath, List.mem_append, not_or]
      exact ⟨hlead, by split <;> simp [hpath]⟩
    have htext : ∀ q, lead ++ pathAndQueryText (path ++ '?' :: q) = (lead ++ pathOf (path ++ '?' :: q₁)) ++ '?' :: q := by
      intro q
      simp [pathAndQueryText, splitOnce_append hpath, pathOf_append hpath]
    rw [htext, htext, redactQueryValues_append hwritten, redactQueryValues_append hwritten,
      maskQuery_eq_of_shape hshape]

/-! ### The log record -/

/-- `redact_upstream`. -/
def redactUpstream (upstream : Uri) : List Char :=
  match upstream.scheme, upstream.authority with
  | some scheme, some authority =>
    scheme ++ "://".toList ++ authority.text ++ (upstream.pathAndQuery.map redactQueryValues).getD []
  | _, _ => redactQueryValues upstream.toText

theorem redactUpstream_eq_of_vary {u₁ u₂ : Uri} (h : UriValuesVary u₁ u₂) :
    redactUpstream u₁ = redactUpstream u₂ := by
  obtain ⟨hscheme, hauth, hpq⟩ := h
  have hmasked : (u₁.pathAndQuery.map redactQueryValues).getD [] = (u₂.pathAndQuery.map redactQueryValues).getD [] :=
    eq_of_rel_vary (fun pq => (pq.map redactQueryValues).getD [])
      (fun _ _ hvary => by simp [redactQueryValues_eq_of_vary hvary]) hpq
  cases hs : u₂.scheme with
  | some scheme =>
    obtain ⟨authority, ha⟩ := Option.isSome_iff_exists.mp (u₂.scheme_authority (by simp [hs]))
    simp only [redactUpstream, hscheme, hauth, hs, ha, hmasked]
  | none =>
    have hlead : '?' ∉ (u₂.authority.map (·.text)).getD [] := by
      cases u₂.authority with
      | none => simp
      | some a => exact a.no_query
    have hrender : redactQueryValues u₁.toText = redactQueryValues u₂.toText := by
      rw [Uri.toText_eq, Uri.toText_eq, hscheme, hauth, hs]
      exact eq_of_rel_vary (fun pq => redactQueryValues ([] ++ _ ++ (pq.map pathAndQueryText).getD []))
        (fun _ _ hvary => by simpa using redactQueryValues_pathAndQueryText hlead hvary) hpq
    simp only [redactUpstream, hscheme, hauth, hs]
    cases u₂.authority <;> exact hrender

/-- `LoggedUri`. -/
inductive LoggedUri where
  | verbatim (uri : Uri)
  | redacted (host pAndQ target : List Char)

/-- `LoggedUpstream`. -/
inductive LoggedUpstream where
  | verbatim (uri : Uri)
  | redacted (text : List Char)

/-- `HttpMessageLog`. -/
structure HttpMessageLog where
  /-- `client_addr`, the peer of the connection. -/
  clientAddr : Option SocketAddr
  /-- `method` of the request. -/
  method : List Char
  /-- `version` of the request. -/
  version : Version
  /-- `host_header`, the `Host` the URI falls back to when it has no authority. -/
  hostHeader : Option HeaderValue
  /-- `ua`, the `User-Agent` header. -/
  ua : Option HeaderValue
  /-- `xff`, the `X-Forwarded-For` header. -/
  xff : Option HeaderValue
  /-- `forwarded`, the `Forwarded` header. -/
  forwarded : Option HeaderValue
  /-- `status` of the response, once set. -/
  status : Option StatusCode
  /-- `uri`, verbatim or with its query values masked. -/
  uri : LoggedUri
  /-- `upstream`, the upstream URI once set. -/
  upstream : Option LoggedUpstream
  /-- `redact_query`: whether query values are masked. -/
  redactQuery : Bool

/-- The request target of the log line: `scheme://host` and the path, or the path alone. -/
def requestTarget (scheme host path : List Char) : List Char :=
  if !scheme.isEmpty && !host.isEmpty then scheme ++ "://".toList ++ host ++ path else path

/-- `HttpMessageLog::new`. -/
def HttpMessageLog.new (req : Request) (redactQuery : Bool) : HttpMessageLog :=
  let uri :=
    if redactQuery then
      let host := (hostFromUriOrHostHeader req.uri.host req.uri.portU16 (req.headers.get hostName)).toOption.getD []
      let pAndQ := redactQueryValues (req.uri.pathAndQuery.getD [])
      .redacted host pAndQ (requestTarget (req.uri.scheme.getD []) host req.uri.path)
    else .verbatim req.uri
  { clientAddr := none, method := req.method, version := req.version,
    hostHeader := req.headers.get hostName, ua := req.headers.get userAgentName,
    xff := req.headers.get xForwardedForName, forwarded := req.headers.get forwardedName,
    status := none, uri := uri, upstream := none, redactQuery := redactQuery }

/-- `HttpMessageLog::render_request_uri`: host, path-and-query and target. -/
def HttpMessageLog.renderRequestUri (l : HttpMessageLog) : List Char × List Char × List Char :=
  match l.uri with
  | .verbatim uri =>
    let host := (hostFromUriOrHostHeader uri.host uri.portU16 l.hostHeader).toOption.getD []
    (host, uri.pathAndQuery.getD [], requestTarget (uri.scheme.getD []) host uri.path)
  | .redacted host pAndQ target => (host, pAndQ, target)

/-- A logged header's text, or nothing when it is absent or not visible ASCII. -/
def loggedHeaderText (h : Option HeaderValue) : List Char := (h.bind fun v => v.toStr.toOption).getD []

/-- `Display for HttpMessageLog`. -/
def HttpMessageLog.toText (l : HttpMessageLog) : List Char :=
  let (host, pAndQ, target) := l.renderRequestUri
  let forwarded := loggedHeaderText l.forwarded
  let forwardedPart := if !forwarded.isEmpty then " \"".toList ++ forwarded ++ ['"'] else []
  let clientAddr := (l.clientAddr.map SocketAddr.toText).getD []
  let status := (l.status.map StatusCode.toText).getD []
  let upstream := match l.upstream with
    | none => []
    | some (.verbatim u) => u.toText
    | some (.redacted s) => s
  host ++ " <- ".toList ++ clientAddr ++ " -- ".toList ++ l.method ++ ' ' :: pAndQ ++ ' ' :: l.version.debugText ++
    " -- ".toList ++ status ++ " -- ".toList ++ target ++ " \"".toList ++ loggedHeaderText l.ua ++
    "\", \"".toList ++ loggedHeaderText l.xff ++ ['"'] ++ forwardedPart ++ " \"".toList ++ upstream ++ ['"']

/-- `HttpMessageLog::client_addr`. -/
def HttpMessageLog.setClientAddr (l : HttpMessageLog) (clientAddr : SocketAddr) : HttpMessageLog :=
  { l with clientAddr := some clientAddr.toCanonical }

/-- `HttpMessageLog::status_code`. -/
def HttpMessageLog.setStatusCode (l : HttpMessageLog) (statusCode : StatusCode) : HttpMessageLog :=
  { l with status := some statusCode }

/-- `HttpMessageLog::xff`. -/
def HttpMessageLog.setXff (l : HttpMessageLog) (xff : Option HeaderValue) : HttpMessageLog :=
  { l with xff := xff }

/-- `HttpMessageLog::upstream`. -/
def HttpMessageLog.setUpstream (l : HttpMessageLog) (upstream : Uri) : HttpMessageLog :=
  { l with upstream := some (if l.redactQuery then .redacted (redactUpstream upstream) else .verbatim upstream) }

/-- A call of one of the setters. -/
inductive LogCall where
  | clientAddr (addr : SocketAddr)
  | statusCode (code : StatusCode)
  | xff (value : Option HeaderValue)
  | upstream (uri : Uri)

/-- Apply one setter call. -/
def HttpMessageLog.call (l : HttpMessageLog) : LogCall → HttpMessageLog
  | .clientAddr addr => l.setClientAddr addr
  | .statusCode code => l.setStatusCode code
  | .xff value => l.setXff value
  | .upstream uri => l.setUpstream uri

/-- Apply setter calls in order. -/
def HttpMessageLog.callAll (l : HttpMessageLog) (calls : List LogCall) : HttpMessageLog :=
  calls.foldl HttpMessageLog.call l

@[simp]
theorem HttpMessageLog.call_redactQuery (l : HttpMessageLog) (c : LogCall) :
    (l.call c).redactQuery = l.redactQuery := by
  cases c <;> rfl

/-! ### Two requests that differ only in query values -/

/-- The request headers the log reads. -/
def loggedHeaderNames : List (List Char) := [hostName, userAgentName, xForwardedForName, forwardedName]

/-- Two requests with the same method, version and logged headers, whose URIs differ only in
query values. -/
def RequestValuesVary (r₁ r₂ : Request) : Prop :=
  r₁.method = r₂.method ∧ r₁.version = r₂.version ∧
    (∀ name ∈ loggedHeaderNames, r₁.headers.get name = r₂.headers.get name) ∧ UriValuesVary r₁.uri r₂.uri

/-- Two setter calls that are the same, or set upstream URIs that differ only in query values. -/
def CallValuesVary : LogCall → LogCall → Prop
  | .upstream u₁, .upstream u₂ => UriValuesVary u₁ u₂
  | c₁, c₂ => c₁ = c₂

/-- With redaction on, the record captured from a request does not depend on its query values. -/
theorem HttpMessageLog.new_eq_of_vary {r₁ r₂ : Request} (h : RequestValuesVary r₁ r₂) :
    HttpMessageLog.new r₁ true = HttpMessageLog.new r₂ true := by
  obtain ⟨hmethod, hversion, hheaders, huri⟩ := h
  have hget : ∀ name ∈ loggedHeaderNames, r₁.headers.get name = r₂.headers.get name := hheaders
  have hhost : r₁.uri.host = r₂.uri.host := by simp [Uri.host, huri.2.1]
  have hport : r₁.uri.portU16 = r₂.uri.portU16 := by simp [Uri.portU16, huri.2.1]
  have hpq : redactQueryValues (r₁.uri.pathAndQuery.getD []) = redactQueryValues (r₂.uri.pathAndQuery.getD []) :=
    eq_of_rel_vary (fun pq => redactQueryValues (pq.getD [])) (fun _ _ => redactQueryValues_eq_of_vary) huri.2.2
  simp only [HttpMessageLog.new, if_true, hmethod, hversion, hhost, hport, hpq, huri.1, Uri.path_eq_of_vary huri,
    hget hostName (by simp [loggedHeaderNames]), hget userAgentName (by simp [loggedHeaderNames]),
    hget xForwardedForName (by simp [loggedHeaderNames]), hget forwardedName (by simp [loggedHeaderNames])]

/-- With redaction on, one setter call keeps two equal records equal. -/
theorem HttpMessageLog.call_eq_of_vary (l : HttpMessageLog) (hredact : l.redactQuery = true) :
    ∀ {c₁ c₂ : LogCall}, CallValuesVary c₁ c₂ → l.call c₁ = l.call c₂
  | .upstream u₁, .upstream u₂, h => by
    simp only [HttpMessageLog.call, HttpMessageLog.setUpstream, hredact, if_true, redactUpstream_eq_of_vary h]
  | .clientAddr _, _, h | .statusCode _, _, h | .xff _, _, h => by
    cases h
    rfl

/-- With redaction on, setter calls that differ only in query values keep the record the same. -/
theorem HttpMessageLog.callAll_eq_of_vary {calls₁ calls₂ : List LogCall}
    (h : List.Forall₂ CallValuesVary calls₁ calls₂) :
    ∀ l : HttpMessageLog, l.redactQuery = true → l.callAll calls₁ = l.callAll calls₂ := by
  induction h with
  | nil => intro l _; rfl
  | cons hc _ ih =>
    intro l hredact
    simp only [HttpMessageLog.callAll, List.foldl_cons] at ih ⊢
    rw [HttpMessageLog.call_eq_of_vary l hredact hc]
    exact ih _ (by simp [hredact])

theorem redacted_log_hides_query_values :
    (∀ (r₁ r₂ : Request) (calls₁ calls₂ : List LogCall), RequestValuesVary r₁ r₂ →
      List.Forall₂ CallValuesVary calls₁ calls₂ →
      ((HttpMessageLog.new r₁ true).callAll calls₁).toText = ((HttpMessageLog.new r₂ true).callAll calls₂).toText) ∧
    (∀ pq : List Char, '?' ∉ pq → redactQueryValues pq = pq) ∧
    (∀ path query : List Char, '?' ∉ path → ∃ masked, redactQueryValues (path ++ '?' :: query) = path ++ '?' :: masked ∧
      (masked.splitOn '&').length = (query.splitOn '&').length ∧
      (masked.splitOn '&').map segmentKey = (query.splitOn '&').map segmentKey) ∧
    (∀ pq : List Char, redactQueryValues (redactQueryValues pq) = redactQueryValues pq) := by
  refine ⟨fun r₁ r₂ calls₁ calls₂ hreq hcalls => ?_, fun _ h => redactQueryValues_of_not_mem h,
    fun path query hpath => ⟨maskQuery query, redactQueryValues_append hpath query, ?_, ?_⟩,
    redactQueryValues_redactQueryValues⟩
  · rw [HttpMessageLog.new_eq_of_vary hreq, HttpMessageLog.callAll_eq_of_vary hcalls _ rfl]
  · rw [splitOn_maskQuery, List.length_map]
  · rw [splitOn_maskQuery, List.map_map]
    exact List.map_congr_left fun segment _ => segmentKey_redactSegment segment

/-- `/a?k=1&x` and `/a?k=22&yy`, forwarded to `http://b/a?k=1` and `http://b/a?k=2`, give one
log line. -/
theorem redacted_log_hides_query_values_example :
    let uri₁ : Uri := ⟨none, none, some "/a?k=1&x".toList, by decide⟩
    let uri₂ : Uri := ⟨none, none, some "/a?k=22&yy".toList, by decide⟩
    let authority : Authority := ⟨['b'], ['b'], none, by decide⟩
    let up₁ : Uri := ⟨some "http".toList, some authority, some "/a?k=1".toList, by decide⟩
    let up₂ : Uri := ⟨some "http".toList, some authority, some "/a?k=2".toList, by decide⟩
    ((HttpMessageLog.new ⟨"GET".toList, uri₁, .http11, .new⟩ true).callAll [.upstream up₁]).toText =
      ((HttpMessageLog.new ⟨"GET".toList, uri₂, .http11, .new⟩ true).callAll [.upstream up₂]).toText ∧
    redactQueryValues "/a".toList = "/a".toList ∧
    (∃ masked, redactQueryValues ("/a".toList ++ '?' :: "k=1".toList) = "/a".toList ++ '?' :: masked ∧
      (masked.splitOn '&').length = ("k=1".toList.splitOn '&').length ∧
      (masked.splitOn '&').map segmentKey = ("k=1".toList.splitOn '&').map segmentKey) :=
  ⟨redacted_log_hides_query_values.1 _ _ [.upstream _] [.upstream _]
      ⟨rfl, rfl, fun _ _ => rfl, rfl, rfl,
        .some (Or.inr ⟨"/a".toList, "k=1&x".toList, "k=22&yy".toList, by decide, by decide, by decide, by decide⟩)⟩
      (.cons ⟨rfl, rfl, .some (Or.inr ⟨"/a".toList, "k=1".toList, "k=2".toList, by decide, by decide, by decide,
        by decide⟩)⟩ .nil),
    redacted_log_hides_query_values.2.1 _ (by decide),
    redacted_log_hides_query_values.2.2.1 _ _ (by decide)⟩

/-- `/a?&k=1` and `/a?x&k=1` differ only in a segment without `=`, empty in one and `x` in the
other; the first keeps the empty segment and the second masks it, so the lines differ. -/
theorem empty_query_segment_distinguished :
    segmentKey [] = segmentKey ['x'] ∧
    redactQueryValues "/a?&k=1".toList = "/a?&k=<redacted>".toList ∧
    redactQueryValues "/a?x&k=1".toList = "/a?<redacted>&k=<redacted>".toList ∧
    (HttpMessageLog.new ⟨"GET".toList, ⟨none, none, some "/a?&k=1".toList, by decide⟩, .http11, .new⟩ true).toText ≠
      (HttpMessageLog.new ⟨"GET".toList, ⟨none, none, some "/a?x&k=1".toList, by decide⟩, .http11, .new⟩ true).toText := by
  decide

end Rpxy.AccessLog
