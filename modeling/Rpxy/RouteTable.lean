import Rpxy.MessageForwarding
import Rpxy.Balancers

/-!
# The route table of an application

`PathManager::try_from` builds an application's routes from its `reverse_proxy` entries. For each
entry it builds the upstreams, with a fresh health state when the entry has a health check, and
then the `UpstreamCandidates`: the path (`/` by default), the replacement path, the balancer that
`load_balance` names (a sticky one needs a cookie configuration, which can fail), and the set of
the upstream options it knows. It inserts the candidates under their path, so that a later entry
with the same path replaces an earlier one. After the loop it refuses two entries without a path,
and candidates with both forcing options.

The table carries its invariants as fields: distinct keys, each the path of its candidates, and no
candidates that force both HTTP versions. The iteration orders of the `HashMap` and of the
options' `HashSet`, and SHA-256, are parameters.

The results: the table is built exactly when every sticky entry can have its cookie configured, at
most one entry lacks a path, and no entry that stays in the table forces both versions (an entry
that a later one replaces is never checked); a request goes to the candidates of the last entry
whose path is the longest route that matches it; the sticky cookie of those candidates is scoped to
a path that the request path matches; and read by route selection only, the table is the
`PathRouting` model.
-/

namespace Rpxy.RouteTable

open RustText RustResult HttpHeaders HashMapModel ConfigBuild StickyCookies StickyLoadBalance Balancers ForwardingChain
open AccessLog (Uri)
open PathRouting (maxByKey maxByKeyStep routeMatches RouteMatch routeMatches_iff maxByKey_eq_some maxByKey_eq_none
  eq_of_routeMatch slash)

/-! ### The configuration -/

/-- The variants of `RpxyError` that building a route table raises: those of the sticky-cookie
configuration, and three of its own. -/
inductive RpxyError
  | stickyCookie (e : StickyCookieSeal.RpxyError)
  | unsupportedUpstreamOption
  | invalidReverseProxyConfig
  | invalidUpstreamOptionSetting

/-- The `Display` text of each variant. -/
def RpxyError.toString : RpxyError → String
  | .stickyCookie e => e.toString
  | .unsupportedUpstreamOption => "Unsupported upstream option"
  | .invalidReverseProxyConfig => "Invalid reverse proxy setting"
  | .invalidUpstreamOptionSetting => "Invalid upstream option setting"

/-- `ReverseProxyConfig`, with the health check's settings of type `HC`, which the table stores
and does not read. -/
structure ReverseProxyConfig (HC : Type) where
  /-- `path`. -/
  path : Option (List Char)
  /-- `replace_path`. -/
  replacePath : Option (List Char)
  /-- `upstream`, the upstream URIs. -/
  upstream : List Uri
  /-- `upstream_options`, by name. -/
  upstreamOptions : Option (List (List Char))
  /-- `load_balance`, by name. -/
  loadBalance : Option (List Char)
  /-- `health_check`. -/
  healthCheck : Option HC

/-- `load_balance_options`. -/
def fixToFirstName : List Char := "none".toList
def roundRobinName : List Char := "round_robin".toList
def randomName : List Char := "random".toList
def stickyRoundRobinName : List Char := "sticky".toList
def primaryBackupName : List Char := "primary_backup".toList

/-- `STICKY_COOKIE_NAME` and `STICKY_COOKIE_DURATION_SECS`. -/
def stickyCookieName : List Char := "rpxy_sticky_token".toList
def stickyCookieDurationSecs : Int := 300

/-- The names that `UpstreamOption::try_from` matches. -/
def upstreamOptionNames : List (List Char × UpstreamOption) :=
  [("keep_original_host".toList, .keepOriginalHost), ("set_upstream_host".toList, .setUpstreamHost),
    ("upgrade_insecure_requests".toList, .upgradeInsecureRequests),
    ("force_http11_upstream".toList, .forceHttp11Upstream), ("force_http2_upstream".toList, .forceHttp2Upstream),
    ("forwarded_header".toList, .forwardedHeader)]

/-- `UpstreamOption::try_from(&str)`. -/
def upstreamOptionTryFrom (s : List Char) : Except RpxyError UpstreamOption :=
  match upstreamOptionNames.lookup s with
  | some o => .ok o
  | none => .error .unsupportedUpstreamOption

/-! ### The builder -/

/-- `Upstream`: the URI, its `Host` value rendered once, and the health state it shares with the
health checker. -/
structure Upstream where
  /-- `uri`. -/
  uri : Uri
  /-- `host_header`, rendered from the URI at build time. -/
  hostHeader : Option HeaderValue
  /-- The health state shared with the health checker. -/
  health : Option Bool

/-- The upstream as the balancers read it: its URI as `Display` prints it, and its health. -/
def Upstream.forBalancer (u : Upstream) : LoadBalancePick.Upstream := ⟨u.uri.toText, u.health⟩

/-- `Upstream::from(&UpstreamUri)`, with the health state `try_from` then sets: a new
`UpstreamHealth`, which starts healthy, when the entry has a health check. -/
def upstreamOf {HC : Type} (healthCheck : Option HC) (uri : Uri) : Upstream :=
  ⟨uri, (MessageForwarding.Upstream.fromUri uri).hostHeader, healthCheck.map fun _ => true⟩

/-- `UpstreamCandidatesBuilder::path`: the bytes of the path, which `to_path_name` does not
lowercase, and `/` by default. -/
def pathName : Option (List Char) → List UInt8
  | some p => utf8Bytes p
  | none => utf8Bytes "/".toList

/-- `UpstreamCandidates`. -/
structure UpstreamCandidates (HC : Type) where
  /-- `inner`, the upstreams. -/
  inner : List Upstream
  /-- `path`, the route. -/
  path : List UInt8
  /-- `replace_path`. -/
  replacePath : Option (List UInt8)
  /-- `load_balance`. -/
  loadBalance : LoadBalance
  /-- `options`, the upstream option set, in its iteration order. -/
  options : List UpstreamOption
  /-- `health_check_config`. -/
  healthCheckConfig : Option HC

section Builder

variable {HC : Type} (sha256 : List UInt8 → List UInt8) (optionOrder : IterationOrder UpstreamOption)

/-- `UpstreamCandidatesBuilder::load_balance`: a name it does not know gives the default,
`FixToFirst`. -/
def buildLoadBalance (v : Option (List Char)) (upstreamVec : List Upstream) (serverName : List Char)
    (pathOpt : Option (List Char)) : Except RpxyError LoadBalance :=
  match v with
  | none => .ok .fixToFirst
  | some x =>
    if x = fixToFirstName then .ok .fixToFirst
    else if x = randomName then .ok .random
    else if x = roundRobinName then .ok (.roundRobin ⟨0⟩)
    else if x = stickyRoundRobinName then do
      let stickyConfig ← (StickyCookieConfig.tryNew stickyCookieName serverName pathOpt
        stickyCookieDurationSecs).mapError .stickyCookie
      pure (.stickyRoundRobin ⟨0, stickyConfig, upstreamMaps sha256 (upstreamVec.map Upstream.forBalancer)⟩)
    else if x = primaryBackupName then .ok .primaryBackup
    else .ok .fixToFirst

/-- `UpstreamCandidatesBuilder::options`: the options among the names that `try_from` accepts,
as a `HashSet` in its iteration order. -/
def optionSet (v : Option (List (List Char))) : List UpstreamOption :=
  match v with
  | none => []
  | some opts => optionOrder.order (opts.filterMap fun s => (upstreamOptionTryFrom s).toOption).dedup

/-- The `UpstreamCandidatesBuilder` calls of `try_from` for one entry. `build` cannot fail: the
upstreams are set and every other field has a default. -/
def buildCandidates (serverName : List Char) (rpc : ReverseProxyConfig HC) :
    Except RpxyError (UpstreamCandidates HC) := do
  let upstreamVec := rpc.upstream.map (upstreamOf rpc.healthCheck)
  let lb ← buildLoadBalance sha256 rpc.loadBalance upstreamVec serverName rpc.path
  pure ⟨upstreamVec, pathName rpc.path, rpc.replacePath.map utf8Bytes, lb, optionSet optionOrder rpc.upstreamOptions,
    rpc.healthCheck⟩

end Builder

/-! ### The table -/

/-- The `HashMap<PathName, UpstreamCandidates>` that `try_from` fills: distinct keys, each the
path of its candidates. -/
structure PathMap (HC : Type) where
  /-- The entries, in insertion order. -/
  entries : List (List UInt8 × UpstreamCandidates HC)
  /-- Each path once. -/
  keys_nodup : (entries.map Prod.fst).Nodup
  /-- Each key is the path of its candidates. -/
  key_eq_path : ∀ e ∈ entries, e.2.path = e.1

theorem key_eq_path_nil {HC : Type} : ∀ e ∈ ([] : List (List UInt8 × UpstreamCandidates HC)), e.2.path = e.1 :=
  fun _ he => nomatch he

theorem key_eq_path_insert {HC : Type} {m : List (List UInt8 × UpstreamCandidates HC)}
    (hm : ∀ e ∈ m, e.2.path = e.1) (c : UpstreamCandidates HC) : ∀ e ∈ insert m c.path c, e.2.path = e.1 := by
  intro e he
  rcases mem_insert he with rfl | he
  · rfl
  · exact hm e he

/-- The empty map. -/
def PathMap.empty {HC : Type} : PathMap HC := ⟨[], List.nodup_nil, key_eq_path_nil⟩

/-- `inner.insert(elem.path.clone(), elem)`. -/
def PathMap.insert {HC : Type} (m : PathMap HC) (elem : UpstreamCandidates HC) : PathMap HC :=
  ⟨HashMapModel.insert m.entries elem.path elem, nodup_keys_insert m.keys_nodup _ _,
    key_eq_path_insert m.key_eq_path elem⟩

/-- The closure of the last check of `try_from`: not both forcing options. -/
def forceExclusive {HC : Type} (c : UpstreamCandidates HC) : Bool :=
  !(c.options.contains .forceHttp11Upstream && c.options.contains .forceHttp2Upstream)

/-- `PathManager`: the entries of its map in iteration order. The keys are distinct, each is the
path of its candidates, and no candidates force both HTTP versions. -/
structure PathManager (HC : Type) where
  /-- The entries, in iteration order. -/
  inner : List (List UInt8 × UpstreamCandidates HC)
  /-- Each path once. -/
  keys_nodup : (inner.map Prod.fst).Nodup
  /-- Each key is the path of its candidates. -/
  key_eq_path : ∀ e ∈ inner, e.2.path = e.1
  /-- No candidates force both HTTP versions. -/
  force_exclusive : ∀ e ∈ inner, forceExclusive e.2 = true

section Order

variable {HC : Type} (order : IterationOrder (List UInt8 × UpstreamCandidates HC))

theorem keys_nodup_order (m : PathMap HC) : ((order.order m.entries).map Prod.fst).Nodup :=
  ((order.perm m.entries).map Prod.fst).nodup_iff.mpr m.keys_nodup

theorem key_eq_path_order (m : PathMap HC) : ∀ e ∈ order.order m.entries, e.2.path = e.1 :=
  fun e he => m.key_eq_path e ((order.perm m.entries).subset he)

theorem force_exclusive_order {m : PathMap HC} (h : m.entries.all (fun e => forceExclusive e.2) = true) :
    ∀ e ∈ order.order m.entries, forceExclusive e.2 = true :=
  fun e he => List.all_eq_true.mp h e ((order.perm m.entries).subset he)

/-- The map, iterated in `order`, once its candidates pass the last check. -/
def PathMap.toPathManager (m : PathMap HC) (h : m.entries.all (fun e => forceExclusive e.2) = true) :
    PathManager HC :=
  ⟨order.order m.entries, keys_nodup_order order m, key_eq_path_order order m, force_exclusive_order order h⟩

end Order

section TryFrom

variable {HC : Type} (sha256 : List UInt8 → List UInt8) (optionOrder : IterationOrder UpstreamOption)
  (mapOrder : IterationOrder (List UInt8 × UpstreamCandidates HC))

/-- One turn of the loop of `try_from`. -/
def insertEntry (serverName : List Char) (inner : PathMap HC) (rpc : ReverseProxyConfig HC) :
    Except RpxyError (PathMap HC) := do
  let elem ← buildCandidates sha256 optionOrder serverName rpc
  pure (inner.insert elem)

/-- `PathManager::try_from(&AppConfig)`; the last check `if !(..all..) { return Err(..) }` is
written with its branches swapped. -/
def PathManager.tryFrom (ac : AppConfig (List (ReverseProxyConfig HC))) : Except RpxyError (PathManager HC) := do
  let inner ← ac.reverseProxy.foldlM (insertEntry sha256 optionOrder ac.serverName) PathMap.empty
  if 2 ≤ (ac.reverseProxy.filter fun rpc => rpc.path.isNone).length then .error .invalidReverseProxyConfig
  else if h : inner.entries.all (fun e => forceExclusive e.2) = true then .ok (inner.toPathManager mapOrder h)
  else .error .invalidUpstreamOptionSetting

end TryFrom

/-- `PathManager::get`, on the bytes of the request path. -/
def PathManager.get {HC : Type} (pm : PathManager HC) (path : List UInt8) : Option (UpstreamCandidates HC) :=
  (maxByKey (·.1.length) (pm.inner.filter fun e => routeMatches e.1 path)).map (·.2)

/-- The candidates as route selection and rewriting read them. -/
def UpstreamCandidates.route {HC : Type} (c : UpstreamCandidates HC) : PathRouting.UpstreamCandidates :=
  ⟨c.path, c.replacePath⟩

/-- The cookie configuration of a sticky balancer, which the handler reads with
`if let LoadBalance::StickyRoundRobin(lb)`. -/
def UpstreamCandidates.stickyConfig {HC : Type} (c : UpstreamCandidates HC) : Option StickyCookieConfig :=
  match c.loadBalance with
  | .stickyRoundRobin lb => some lb.stickyConfig
  | _ => none

/-- The entry whose candidates a path keeps: the last one stored under it. -/
def keptEntry {HC : Type} (rps : List (ReverseProxyConfig HC)) (k : List UInt8) : Option (ReverseProxyConfig HC) :=
  ((rps.map fun rpc => (pathName rpc.path, rpc)).reverse).lookup k

/-! ### Route selection over whole candidates -/

section Select

variable {α β : Type}

/-- `max_by_key` commutes with a map of the elements. -/
theorem maxByKey_map (f : β → Nat) (g : α → β) (l : List α) :
    maxByKey f (l.map g) = (maxByKey (f ∘ g) l).map g := by
  suffices h : ∀ best : Option α,
      (l.map g).foldl (maxByKeyStep f) (best.map g) = (l.foldl (maxByKeyStep (f ∘ g)) best).map g from h none
  induction l with
  | nil => exact fun _ => rfl
  | cons x rest ih =>
    intro best
    have hstep : maxByKeyStep f (best.map g) (g x) = (maxByKeyStep (f ∘ g) best x).map g := by
      cases best with
      | none => rfl
      | some b =>
        by_cases hb : f (g b) ≤ f (g x)
        · simp [maxByKeyStep, hb]
        · simp [maxByKeyStep, hb]
    rw [List.map_cons, List.foldl_cons, List.foldl_cons, hstep, ih]

/-- Route selection over entries with distinct keys, whatever they carry: the entry of the
longest route that matches. -/
theorem selectRoute_eq_some_iff {l : List (List UInt8 × α)} (hnodup : (l.map Prod.fst).Nodup) {path : List UInt8}
    {e : List UInt8 × α} :
    maxByKey (·.1.length) (l.filter fun e => routeMatches e.1 path) = some e ↔
      e ∈ l ∧ RouteMatch e.1 path ∧ ∀ e' ∈ l, RouteMatch e'.1 path → e'.1.length ≤ e.1.length := by
  constructor
  · intro h
    obtain ⟨hmem, hle⟩ := maxByKey_eq_some _ h
    rw [List.mem_filter] at hmem
    exact ⟨hmem.1, routeMatches_iff.mp hmem.2,
      fun e' he' hm => hle e' (List.mem_filter.mpr ⟨he', routeMatches_iff.mpr hm⟩)⟩
  · rintro ⟨hmem, hmatch, hlongest⟩
    have hfilter : e ∈ l.filter fun e => routeMatches e.1 path := List.mem_filter.mpr ⟨hmem, routeMatches_iff.mpr hmatch⟩
    cases hsel : maxByKey (·.1.length) (l.filter fun e => routeMatches e.1 path) with
    | none => exact absurd hfilter (by rw [(maxByKey_eq_none _).mp hsel]; simp)
    | some e' =>
      obtain ⟨hmem', hle'⟩ := maxByKey_eq_some _ hsel
      rw [List.mem_filter] at hmem'
      have hmatch' := routeMatches_iff.mp hmem'.2
      have hkey : e'.1 = e.1 :=
        eq_of_routeMatch hmatch' hmatch (Nat.le_antisymm (hlongest e' hmem'.1 hmatch') (hle' e hfilter))
      rw [List.inj_on_of_nodup_map hnodup hmem'.1 hmem hkey]

end Select

section Get

variable {HC : Type}

theorem PathManager.get_eq_some_iff {pm : PathManager HC} {path : List UInt8} {c : UpstreamCandidates HC} :
    pm.get path = some c ↔
      ∃ r, (r, c) ∈ pm.inner ∧ RouteMatch r path ∧ ∀ e ∈ pm.inner, RouteMatch e.1 path → e.1.length ≤ r.length := by
  rw [PathManager.get, Option.map_eq_some_iff]
  constructor
  · rintro ⟨⟨r, c⟩, hsel, rfl⟩
    exact ⟨r, (selectRoute_eq_some_iff pm.keys_nodup).mp hsel⟩
  · rintro ⟨r, hsel⟩
    exact ⟨(r, c), (selectRoute_eq_some_iff pm.keys_nodup).mpr hsel, rfl⟩

theorem PathManager.get_eq_none_iff {pm : PathManager HC} {path : List UInt8} :
    pm.get path = none ↔ ∀ e ∈ pm.inner, ¬RouteMatch e.1 path := by
  rw [PathManager.get, Option.map_eq_none_iff, maxByKey_eq_none, List.filter_eq_nil_iff]
  simp only [Bool.not_eq_true, ← routeMatches_iff]

theorem route_key_eq_path (pm : PathManager HC) :
    ∀ e ∈ pm.inner.map (fun e => (e.1, e.2.route)), e.2.path = e.1 := by
  intro e he
  obtain ⟨e', he', rfl⟩ := List.mem_map.mp he
  exact pm.key_eq_path e' he'

theorem route_keys_nodup (pm : PathManager HC) : ((pm.inner.map fun e => (e.1, e.2.route)).map Prod.fst).Nodup := by
  rw [List.map_map]
  exact pm.keys_nodup

/-- The table as route selection reads it. -/
def PathManager.routes (pm : PathManager HC) : PathRouting.PathManager :=
  ⟨pm.inner.map fun e => (e.1, e.2.route), route_keys_nodup pm, route_key_eq_path pm⟩

/-- Route selection on the whole candidates is route selection on what `PathRouting` models of
them: the `PathRouting` model is this table read through `route`. -/
theorem PathManager.get_route (pm : PathManager HC) (path : List UInt8) :
    (pm.get path).map UpstreamCandidates.route = pm.routes.get path := by
  simp only [PathManager.get, PathRouting.PathManager.get, PathManager.routes, List.filter_map, Option.map_map]
  rw [maxByKey_map, Option.map_map]
  rfl

end Get

/-! ### What the builder builds -/

section BuilderSpec

variable {HC : Type} {sha256 : List UInt8 → List UInt8} {optionOrder : IterationOrder UpstreamOption}

theorem pathName_eq (v : Option (List Char)) : pathName v = utf8Bytes (v.getD "/".toList) := by
  cases v <;> rfl

theorem stickyCookieName_no_nul : (0 : UInt8) ∉ utf8Bytes stickyCookieName := by decide

theorem buildLoadBalance_of_ne_sticky {x : List Char} {upstreamVec : List Upstream} {serverName : List Char}
    {pathOpt : Option (List Char)} (hx : x ≠ stickyRoundRobinName) :
    ∃ lb, buildLoadBalance sha256 (some x) upstreamVec serverName pathOpt = .ok lb := by
  simp only [buildLoadBalance, hx, if_false]
  split_ifs <;> exact ⟨_, rfl⟩

/-- The sticky balancer of the sticky name: its cookie configuration is that of the entry. -/
theorem buildLoadBalance_sticky {upstreamVec : List Upstream} {serverName : List Char} {pathOpt : Option (List Char)} :
    buildLoadBalance sha256 (some stickyRoundRobinName) upstreamVec serverName pathOpt =
      (StickyCookieConfig.tryNew stickyCookieName serverName pathOpt stickyCookieDurationSecs).mapError .stickyCookie
        >>= fun cfg => pure (.stickyRoundRobin ⟨0, cfg, upstreamMaps sha256 (upstreamVec.map Upstream.forBalancer)⟩) := by
  rw [buildLoadBalance, if_neg (by decide), if_neg (by decide), if_neg (by decide), if_pos rfl]

/-- Only a sticky balancer can fail to build: when its cookie cannot be configured. -/
theorem buildLoadBalance_isOk_iff {v : Option (List Char)} {upstreamVec : List Upstream} {serverName : List Char}
    {pathOpt : Option (List Char)} :
    (∃ lb, buildLoadBalance sha256 v upstreamVec serverName pathOpt = .ok lb) ↔
      (v = some stickyRoundRobinName →
        (0 : UInt8) ∉ utf8Bytes (toAsciiLowercase serverName) ∧ (0 : UInt8) ∉ utf8Bytes (pathOpt.getD "/".toList)) := by
  rcases v with _ | x
  · exact ⟨fun _ h => (nomatch h), fun _ => ⟨_, rfl⟩⟩
  by_cases hx : x = stickyRoundRobinName
  · subst hx
    rw [buildLoadBalance_sticky]
    constructor
    · rintro ⟨lb, hlb⟩ -
      obtain ⟨cfg, hcfg, -⟩ := except_bind_eq_ok.mp hlb
      obtain ⟨-, -, hdomain, hpath⟩ := tryNew_isOk_iff.mp ⟨cfg, except_mapError_eq_ok.mp hcfg⟩
      exact ⟨hdomain, hpath⟩
    · intro h
      obtain ⟨hdomain, hpath⟩ := h rfl
      obtain ⟨cfg, hcfg⟩ := tryNew_isOk_iff.mpr ⟨(by decide : (0 : Int) < stickyCookieDurationSecs), stickyCookieName_no_nul, hdomain, hpath⟩
      exact ⟨_, by rw [hcfg]; rfl⟩
  · exact ⟨fun _ h => absurd (Option.some.inj h) hx, fun _ => buildLoadBalance_of_ne_sticky hx⟩

/-- A balancer that comes out sticky has the cookie configuration of the entry. -/
theorem tryNew_of_buildLoadBalance {v : Option (List Char)} {upstreamVec : List Upstream} {serverName : List Char}
    {pathOpt : Option (List Char)} {lb : LoadBalanceSticky}
    (h : buildLoadBalance sha256 v upstreamVec serverName pathOpt = .ok (.stickyRoundRobin lb)) :
    StickyCookieConfig.tryNew stickyCookieName serverName pathOpt stickyCookieDurationSecs = .ok lb.stickyConfig := by
  rcases v with _ | x
  · cases h
  by_cases hx : x = stickyRoundRobinName
  · subst hx
    rw [buildLoadBalance_sticky] at h
    obtain ⟨cfg, hcfg, h⟩ := except_bind_eq_ok.mp h
    cases h
    exact except_mapError_eq_ok.mp hcfg
  · simp only [buildLoadBalance, hx, if_false] at h
    split_ifs at h <;> cases h

theorem buildCandidates_eq_ok {serverName : List Char} {rpc : ReverseProxyConfig HC} {c : UpstreamCandidates HC} :
    buildCandidates sha256 optionOrder serverName rpc = .ok c ↔
      ∃ lb, buildLoadBalance sha256 rpc.loadBalance (rpc.upstream.map (upstreamOf rpc.healthCheck)) serverName
          rpc.path = .ok lb ∧
        c = ⟨rpc.upstream.map (upstreamOf rpc.healthCheck), pathName rpc.path, rpc.replacePath.map utf8Bytes, lb,
          optionSet optionOrder rpc.upstreamOptions, rpc.healthCheck⟩ := by
  rw [buildCandidates, except_bind_eq_ok]
  exact exists_congr fun lb => and_congr_right fun _ => ⟨fun h => (Except.ok.inj h).symm, fun h => h ▸ rfl⟩

/-- The candidates of an entry lie under its path, with its options. -/
theorem buildCandidates_path_options {serverName : List Char} {rpc : ReverseProxyConfig HC} {c : UpstreamCandidates HC}
    (h : buildCandidates sha256 optionOrder serverName rpc = .ok c) :
    c.path = pathName rpc.path ∧ c.options = optionSet optionOrder rpc.upstreamOptions := by
  obtain ⟨lb, -, rfl⟩ := buildCandidates_eq_ok.mp h
  exact ⟨rfl, rfl⟩

/-- An entry builds its candidates exactly when its balancer builds. -/
theorem buildCandidates_isOk_iff {serverName : List Char} {rpc : ReverseProxyConfig HC} :
    (∃ c, buildCandidates sha256 optionOrder serverName rpc = .ok c) ↔
      (rpc.loadBalance = some stickyRoundRobinName →
        (0 : UInt8) ∉ utf8Bytes (toAsciiLowercase serverName) ∧ (0 : UInt8) ∉ utf8Bytes (rpc.path.getD "/".toList)) := by
  rw [← buildLoadBalance_isOk_iff]
  constructor
  · rintro ⟨c, hc⟩
    obtain ⟨lb, hlb, -⟩ := buildCandidates_eq_ok.mp hc
    exact ⟨lb, hlb⟩
  · rintro ⟨lb, hlb⟩
    exact ⟨_, buildCandidates_eq_ok.mpr ⟨lb, hlb, rfl⟩⟩

/-- The cookie configuration of sticky candidates is that of their entry. -/
theorem tryNew_of_buildCandidates {serverName : List Char} {rpc : ReverseProxyConfig HC} {c : UpstreamCandidates HC}
    {cfg : StickyCookieConfig} (h : buildCandidates sha256 optionOrder serverName rpc = .ok c)
    (hsticky : c.stickyConfig = some cfg) :
    StickyCookieConfig.tryNew stickyCookieName serverName rpc.path stickyCookieDurationSecs = .ok cfg := by
  obtain ⟨lb, hlb, rfl⟩ := buildCandidates_eq_ok.mp h
  cases lb with
  | stickyRoundRobin lb =>
    cases hsticky
    exact tryNew_of_buildLoadBalance hlb
  | _ => cases hsticky

theorem toOption_eq_some {ε α : Type} {x : Except ε α} {a : α} : x.toOption = some a ↔ x = .ok a := by
  cases x <;> simp [Except.toOption]

theorem upstreamOptionTryFrom_eq_ok {s : List Char} {o : UpstreamOption} :
    upstreamOptionTryFrom s = .ok o ↔ (s, o) ∈ upstreamOptionNames := by
  have hnodup : (upstreamOptionNames.map Prod.fst).Nodup := by decide
  unfold upstreamOptionTryFrom
  constructor
  · intro h
    split at h
    · cases h
      exact mem_of_lookup_eq_some ‹_›
    · cases h
  · intro h
    rw [lookup_eq_some_of_nodup hnodup h]

theorem mem_optionSet {v : Option (List (List Char))} {o : UpstreamOption} :
    o ∈ optionSet optionOrder v ↔ ∃ names, v = some names ∧ ∃ s ∈ names, (s, o) ∈ upstreamOptionNames := by
  cases v with
  | none => simp [optionSet]
  | some names =>
    rw [optionSet, (optionOrder.perm _).mem_iff, List.mem_dedup, List.mem_filterMap]
    simp only [toOption_eq_some, upstreamOptionTryFrom_eq_ok, Option.some.injEq, exists_eq_left']

theorem forceExclusive_eq_true {c : UpstreamCandidates HC} :
    forceExclusive c = true ↔
      ¬(UpstreamOption.forceHttp11Upstream ∈ c.options ∧ UpstreamOption.forceHttp2Upstream ∈ c.options) := by
  simp [forceExclusive, ← not_and_or]

/-- An option that one name gives is in the set exactly when the entry lists that name. -/
theorem mem_optionSet_iff_name {v : Option (List (List Char))} {o : UpstreamOption} {s : List Char}
    (hname : ∀ s', (s', o) ∈ upstreamOptionNames ↔ s' = s) :
    o ∈ optionSet optionOrder v ↔ ∃ names, v = some names ∧ s ∈ names := by
  simp only [mem_optionSet, hname, exists_eq_right]

/-- An entry's candidates pass the last check exactly when the entry does not list both forcing
options. -/
theorem forceExclusive_iff {serverName : List Char} {rpc : ReverseProxyConfig HC} {c : UpstreamCandidates HC}
    (h : buildCandidates sha256 optionOrder serverName rpc = .ok c) :
    forceExclusive c = true ↔ ∀ names, rpc.upstreamOptions = some names →
      ¬("force_http11_upstream".toList ∈ names ∧ "force_http2_upstream".toList ∈ names) := by
  have h11 : ∀ s', (s', UpstreamOption.forceHttp11Upstream) ∈ upstreamOptionNames ↔ s' = "force_http11_upstream".toList := by
    simp [upstreamOptionNames]
  have h2 : ∀ s', (s', UpstreamOption.forceHttp2Upstream) ∈ upstreamOptionNames ↔ s' = "force_http2_upstream".toList := by
    simp [upstreamOptionNames]
  rw [forceExclusive_eq_true, (buildCandidates_path_options h).2, mem_optionSet_iff_name h11, mem_optionSet_iff_name h2]
  cases rpc.upstreamOptions with
  | none => simp
  | some names => simp

end BuilderSpec

/-! ### What `try_from` builds -/

section TryFromSpec

variable {HC : Type} {sha256 : List UInt8 → List UInt8} {optionOrder : IterationOrder UpstreamOption}
  {mapOrder : IterationOrder (List UInt8 × UpstreamCandidates HC)}

/-- A run of the loop of `try_from`: when it succeeds, every entry built its candidates, and the
map holds them inserted in turn. -/
theorem foldlM_insertEntry_eq_ok {serverName : List Char} :
    ∀ {rps : List (ReverseProxyConfig HC)} {m inner : PathMap HC},
      rps.foldlM (insertEntry sha256 optionOrder serverName) m = .ok inner →
      ∃ cs, List.Forall₂ (fun rpc c => buildCandidates sha256 optionOrder serverName rpc = .ok c) rps cs ∧
        inner.entries = (cs.map fun c => (c.path, c)).foldl (fun m e => insert m e.1 e.2) m.entries
  | [], m, inner, h => by
    have : inner = m := by simpa [eq_comm] using h
    exact ⟨[], .nil, by rw [this]; rfl⟩
  | rpc :: rps, m, inner, h => by
    rw [List.foldlM_cons, except_bind_eq_ok] at h
    obtain ⟨m₁, h₁, h⟩ := h
    obtain ⟨c, hc, h₁⟩ := except_bind_eq_ok.mp h₁
    have hm₁ : m₁ = m.insert c := by simpa [eq_comm] using h₁
    obtain ⟨cs, hcs, hinner⟩ := foldlM_insertEntry_eq_ok h
    refine ⟨c :: cs, .cons hc hcs, ?_⟩
    rw [hinner, hm₁]
    rfl

/-- The loop of `try_from` succeeds when every entry builds its candidates. -/
theorem foldlM_insertEntry_isOk {serverName : List Char} :
    ∀ {rps : List (ReverseProxyConfig HC)},
      (∀ rpc ∈ rps, ∃ c, buildCandidates sha256 optionOrder serverName rpc = .ok c) →
      ∀ m, ∃ inner, rps.foldlM (insertEntry sha256 optionOrder serverName) m = .ok inner
  | [], _, m => ⟨m, rfl⟩
  | rpc :: rps, h, m => by
    obtain ⟨c, hc⟩ := h rpc List.mem_cons_self
    obtain ⟨inner, hinner⟩ := foldlM_insertEntry_isOk (fun r hr => h r (List.mem_cons_of_mem _ hr)) (m.insert c)
    refine ⟨inner, ?_⟩
    rw [List.foldlM_cons, insertEntry, hc]
    exact hinner

/-- The loop of `try_from`, from the empty map, collects the candidates of the entries. -/
theorem foldlM_insertEntry_empty {serverName : List Char} {rps : List (ReverseProxyConfig HC)} {inner : PathMap HC}
    (h : rps.foldlM (insertEntry sha256 optionOrder serverName) PathMap.empty = .ok inner) :
    ∃ cs, List.Forall₂ (fun rpc c => buildCandidates sha256 optionOrder serverName rpc = .ok c) rps cs ∧
      inner.entries = ofEntries (cs.map fun c => (c.path, c)) :=
  foldlM_insertEntry_eq_ok h

/-- `try_from` succeeds exactly when its loop does, fewer than two entries lack a path, and the
candidates in the map pass the last check. -/
theorem tryFrom_eq_ok_iff {ac : AppConfig (List (ReverseProxyConfig HC))} {pm : PathManager HC} :
    PathManager.tryFrom sha256 optionOrder mapOrder ac = .ok pm ↔
      ∃ inner, ac.reverseProxy.foldlM (insertEntry sha256 optionOrder ac.serverName) PathMap.empty = .ok inner ∧
        (ac.reverseProxy.filter fun rpc => rpc.path.isNone).length < 2 ∧
        ∃ hall : inner.entries.all (fun e => forceExclusive e.2) = true, pm = inner.toPathManager mapOrder hall := by
  rw [PathManager.tryFrom, except_bind_eq_ok]
  refine exists_congr fun inner => and_congr_right fun _ => ?_
  by_cases hcount : 2 ≤ (ac.reverseProxy.filter fun rpc => rpc.path.isNone).length
  · rw [if_pos hcount]
    exact ⟨fun h => (nomatch h), fun h => absurd h.1 (Nat.not_lt.mpr hcount)⟩
  · rw [if_neg hcount]
    by_cases hall : inner.entries.all (fun e => forceExclusive e.2) = true
    · rw [dif_pos hall]
      exact ⟨fun h => ⟨Nat.lt_of_not_le hcount, hall, (Except.ok.inj h).symm⟩,
        fun ⟨_, _, h⟩ => by rw [h]⟩
    · rw [dif_neg hall]
      exact ⟨fun h => (nomatch h), fun ⟨_, h, _⟩ => absurd h hall⟩

/-- Two entries without a path make `try_from` fail. -/
theorem tryFrom_of_pathless {ac : AppConfig (List (ReverseProxyConfig HC))}
    (h : 2 ≤ (ac.reverseProxy.filter fun rpc => rpc.path.isNone).length) :
    ∃ e, PathManager.tryFrom sha256 optionOrder mapOrder ac = .error e := by
  cases hpm : PathManager.tryFrom sha256 optionOrder mapOrder ac with
  | error e => exact ⟨e, rfl⟩
  | ok pm =>
    obtain ⟨_, _, hcount, _⟩ := tryFrom_eq_ok_iff.mp hpm
    omega

/-- A table that `try_from` built holds, in some order, the candidates built for its entries,
collected under their paths. -/
theorem tryFrom_entries {ac : AppConfig (List (ReverseProxyConfig HC))} {pm : PathManager HC}
    (h : PathManager.tryFrom sha256 optionOrder mapOrder ac = .ok pm) :
    ∃ cs, List.Forall₂ (fun rpc c => buildCandidates sha256 optionOrder ac.serverName rpc = .ok c) ac.reverseProxy cs ∧
      pm.inner.Perm (ofEntries (cs.map fun c => (c.path, c))) := by
  obtain ⟨inner, hloop, -, hall, rfl⟩ := tryFrom_eq_ok_iff.mp h
  obtain ⟨cs, hcs, hentries⟩ := foldlM_insertEntry_empty hloop
  exact ⟨cs, hcs, hentries ▸ mapOrder.perm inner.entries⟩

end TryFromSpec

/-! ### The entry a path keeps -/

section Kept

variable {HC : Type} {build : ReverseProxyConfig HC → Except RpxyError (UpstreamCandidates HC)}

/-- The candidates a key finds in the collected map are those built for the entry it keeps. -/
theorem lookup_ofEntries_kept {rps : List (ReverseProxyConfig HC)} {cs : List (UpstreamCandidates HC)}
    (hcs : List.Forall₂ (fun rpc c => build rpc = .ok c) rps cs)
    (hpath : ∀ rpc c, build rpc = .ok c → c.path = pathName rpc.path) (k : List UInt8) :
    Option.Rel (fun rpc c => build rpc = .ok c) (keptEntry rps k)
      ((ofEntries (cs.map fun c => (c.path, c))).lookup k) := by
  rw [lookup_ofEntries, keptEntry, ← List.map_reverse, ← List.map_reverse]
  exact lookup_map_rel (fun rpc c hc => (hpath rpc c hc).symm) (List.forall₂_reverse_iff.mpr hcs) k

theorem eq_some_of_rel {a : Option (ReverseProxyConfig HC)} {b : Option (UpstreamCandidates HC)}
    (hrel : Option.Rel (fun rpc c => build rpc = .ok c) a b) (c : UpstreamCandidates HC) :
    b = some c ↔ ∃ rpc, a = some rpc ∧ build rpc = .ok c := by
  cases hrel with
  | none => simp
  | @some rpc c' hc' =>
    simp only [Option.some.injEq, exists_eq_left']
    exact ⟨fun h => h ▸ hc', fun h => Except.ok.inj (hc'.symm.trans h)⟩

theorem exists_of_rel {a : Option (ReverseProxyConfig HC)} {b : Option (UpstreamCandidates HC)}
    (hrel : Option.Rel (fun rpc c => build rpc = .ok c) a b) {rpc : ReverseProxyConfig HC} (ha : a = some rpc) :
    ∃ c, b = some c ∧ build rpc = .ok c := by
  subst ha
  cases hrel with
  | some hc => exact ⟨_, rfl, hc⟩

end Kept

section Content

variable {HC : Type} {sha256 : List UInt8 → List UInt8} {optionOrder : IterationOrder UpstreamOption}
  {mapOrder : IterationOrder (List UInt8 × UpstreamCandidates HC)}

/-- The keys of a built table are the paths of its entries. -/
theorem mem_keys_of_tryFrom {ac : AppConfig (List (ReverseProxyConfig HC))} {pm : PathManager HC}
    (h : PathManager.tryFrom sha256 optionOrder mapOrder ac = .ok pm) (k : List UInt8) :
    k ∈ pm.inner.map Prod.fst ↔ ∃ rpc ∈ ac.reverseProxy, pathName rpc.path = k := by
  obtain ⟨cs, hcs, hperm⟩ := tryFrom_entries h
  have hkeys : ac.reverseProxy.map (fun rpc => pathName rpc.path) = cs.map (·.path) :=
    Forall₂.map_eq (fun rpc c (hc : buildCandidates sha256 optionOrder ac.serverName rpc = .ok c) =>
      (buildCandidates_path_options hc).1.symm) hcs
  rw [(hperm.map Prod.fst).mem_iff, mem_keys_ofEntries, List.map_map]
  change k ∈ cs.map (·.path) ↔ _
  rw [← hkeys, List.mem_map]

/-- What holds of every route of a built table is what holds of the path of every entry. -/
theorem forall_keys_of_tryFrom {ac : AppConfig (List (ReverseProxyConfig HC))} {pm : PathManager HC}
    (h : PathManager.tryFrom sha256 optionOrder mapOrder ac = .ok pm) (P : List UInt8 → Prop) :
    (∀ e ∈ pm.inner, P e.1) ↔ ∀ rpc ∈ ac.reverseProxy, P (pathName rpc.path) := by
  constructor
  · intro hall rpc hrpc
    obtain ⟨e, he, hk⟩ := List.mem_map.mp ((mem_keys_of_tryFrom h _).mpr ⟨rpc, hrpc, rfl⟩)
    exact hk ▸ hall e he
  · intro hall e he
    obtain ⟨rpc, hrpc, hk⟩ := (mem_keys_of_tryFrom h e.1).mp (List.mem_map_of_mem he)
    exact hk ▸ hall rpc hrpc

/-- The candidates a built table holds under a path are those built for the entry that the path
keeps. -/
theorem mem_of_tryFrom {ac : AppConfig (List (ReverseProxyConfig HC))} {pm : PathManager HC}
    (h : PathManager.tryFrom sha256 optionOrder mapOrder ac = .ok pm) (k : List UInt8) (c : UpstreamCandidates HC) :
    (k, c) ∈ pm.inner ↔
      ∃ rpc, keptEntry ac.reverseProxy k = some rpc ∧ buildCandidates sha256 optionOrder ac.serverName rpc = .ok c := by
  obtain ⟨cs, hcs, hperm⟩ := tryFrom_entries h
  have hnodup := nodup_keys_ofEntries (cs.map fun c => (c.path, c))
  have hlookup : (k, c) ∈ ofEntries (cs.map fun c => (c.path, c)) ↔
      (ofEntries (cs.map fun c => (c.path, c))).lookup k = some c :=
    ⟨lookup_eq_some_of_nodup hnodup, mem_of_lookup_eq_some⟩
  rw [hperm.mem_iff, hlookup]
  exact eq_some_of_rel (lookup_ofEntries_kept hcs (fun rpc c hc => (buildCandidates_path_options hc).1) k) c

/-- The candidates in the collected map pass the last check of `try_from` exactly when no entry
that keeps its path lists both forcing options. -/
theorem all_forceExclusive_iff {ac : AppConfig (List (ReverseProxyConfig HC))} {cs : List (UpstreamCandidates HC)}
    (hcs : List.Forall₂ (fun rpc c => buildCandidates sha256 optionOrder ac.serverName rpc = .ok c) ac.reverseProxy cs) :
    (ofEntries (cs.map fun c => (c.path, c))).all (fun e => forceExclusive e.2) = true ↔
      ∀ k rpc names, keptEntry ac.reverseProxy k = some rpc → rpc.upstreamOptions = some names →
        ¬("force_http11_upstream".toList ∈ names ∧ "force_http2_upstream".toList ∈ names) := by
  have hrel := lookup_ofEntries_kept hcs (fun rpc c hc => (buildCandidates_path_options hc).1)
  rw [List.all_eq_true,
    forall_mem_iff_lookup (nodup_keys_ofEntries _) (P := fun _ c => forceExclusive c = true)]
  constructor
  · intro hall k rpc names hkept hnames
    obtain ⟨c, hlookup, hc⟩ := exists_of_rel (hrel k) hkept
    exact (forceExclusive_iff hc).mp (hall k c hlookup) names hnames
  · intro hforce k c hlookup
    obtain ⟨rpc, hkept, hc⟩ := (eq_some_of_rel (hrel k) c).mp hlookup
    exact (forceExclusive_iff hc).mpr fun names => hforce k rpc names hkept

end Content

/-! ### Applications -/

/-- The upstream URI of the examples. -/
def exampleUri : Uri := MessageForwarding.exampleUpstream.uri

/-- A default route, and two routes at `/api`: the first lists both forcing options and is
replaced by the second, which rewrites to `/v1`. -/
def exampleAppConfig : AppConfig (List (ReverseProxyConfig Unit)) :=
  ⟨"app".toList, "app.example".toList,
    [⟨none, none, [exampleUri], none, none, none⟩,
      ⟨some "/api".toList, none, [exampleUri], some ["force_http11_upstream".toList, "force_http2_upstream".toList],
        some "random".toList, none⟩,
      ⟨some "/api".toList, some "/v1".toList, [exampleUri], some ["set_upstream_host".toList],
        some "round_robin".toList, some ()⟩], none⟩

/-- An application whose one route, `/app`, is sticky. -/
def exampleStickyConfig : AppConfig (List (ReverseProxyConfig Unit)) :=
  ⟨"app".toList, "App.Example".toList, [⟨some "/app".toList, none, [exampleUri], none, some "sticky".toList, none⟩],
    none⟩

/-- The table without routes. -/
def emptyTable : PathManager Unit := PathMap.empty.toPathManager (IterationOrder.given _) rfl

/-- The table `try_from` builds of an application, hashing with the identity and iterating in
the order of insertion. -/
def tableOf (ac : AppConfig (List (ReverseProxyConfig Unit))) : PathManager Unit :=
  ((PathManager.tryFrom id (IterationOrder.given _) (IterationOrder.given _) ac).toOption).getD emptyTable

theorem exampleAppConfig_built :
    PathManager.tryFrom id (IterationOrder.given _) (IterationOrder.given _) exampleAppConfig =
      .ok (tableOf exampleAppConfig) := rfl

theorem exampleStickyConfig_built :
    PathManager.tryFrom id (IterationOrder.given _) (IterationOrder.given _) exampleStickyConfig =
      .ok (tableOf exampleStickyConfig) := rfl

/-! ### The route table of an application -/

section Results

variable {HC : Type} (sha256 : List UInt8 → List UInt8) (optionOrder : IterationOrder UpstreamOption)
  (mapOrder : IterationOrder (List UInt8 × UpstreamCandidates HC))

/-- `PathManager::try_from` builds a table exactly when every sticky entry's server name and path
can go into the cookie's associated data (no NUL byte), at most one entry lacks a path, and no
entry that keeps its path lists both forcing options: an entry that a later one with the same path
replaces is dropped unchecked. -/
theorem route_table_built_iff (ac : AppConfig (List (ReverseProxyConfig HC))) :
    (∃ pm, PathManager.tryFrom sha256 optionOrder mapOrder ac = .ok pm) ↔
      (∀ rpc ∈ ac.reverseProxy, rpc.loadBalance = some stickyRoundRobinName →
        (0 : UInt8) ∉ utf8Bytes (toAsciiLowercase ac.serverName) ∧ (0 : UInt8) ∉ utf8Bytes (rpc.path.getD "/".toList)) ∧
      (ac.reverseProxy.filter fun rpc => rpc.path.isNone).length < 2 ∧
      ∀ k rpc names, keptEntry ac.reverseProxy k = some rpc → rpc.upstreamOptions = some names →
        ¬("force_http11_upstream".toList ∈ names ∧ "force_http2_upstream".toList ∈ names) := by
  constructor
  · rintro ⟨pm, h⟩
    obtain ⟨inner, hloop, hcount, hall, -⟩ := tryFrom_eq_ok_iff.mp h
    obtain ⟨cs, hcs, hentries⟩ := foldlM_insertEntry_empty hloop
    refine ⟨fun rpc hrpc => ?_, hcount, (all_forceExclusive_iff hcs).mp (hentries ▸ hall)⟩
    obtain ⟨c, -, hc⟩ := Forall₂.exists_of_mem_left hcs hrpc
    exact buildCandidates_isOk_iff.mp ⟨c, hc⟩
  · rintro ⟨hsticky, hcount, hforce⟩
    obtain ⟨inner, hloop⟩ := foldlM_insertEntry_isOk
      (fun rpc hrpc => buildCandidates_isOk_iff.mpr (hsticky rpc hrpc)) PathMap.empty
    obtain ⟨cs, hcs, hentries⟩ := foldlM_insertEntry_empty hloop
    have hall : inner.entries.all (fun e => forceExclusive e.2) = true := by
      rw [hentries]
      exact (all_forceExclusive_iff hcs).mpr hforce
    exact ⟨_, tryFrom_eq_ok_iff.mpr ⟨inner, hloop, hcount, hall, rfl⟩⟩

/-- The second entry of the application lists both forcing options and is refused alone; behind
the third, which replaces it, the table is built. -/
example : (PathManager.tryFrom id (IterationOrder.given _) (IterationOrder.given _)
    { exampleAppConfig with reverseProxy := exampleAppConfig.reverseProxy.take 2 }).toOption.isNone = true ∧
    (PathManager.tryFrom id (IterationOrder.given _) (IterationOrder.given _) exampleAppConfig).toOption.isSome = true :=
  by decide

/-- A request goes to the candidates of the last entry whose path is the longest route that
matches the request path, and to none when no entry's path matches. -/
theorem request_routed_to_last_longest_entry {ac : AppConfig (List (ReverseProxyConfig HC))} {pm : PathManager HC}
    (h : PathManager.tryFrom sha256 optionOrder mapOrder ac = .ok pm) (path : List UInt8) :
    (pm.get path = none ↔ ∀ rpc ∈ ac.reverseProxy, ¬RouteMatch (pathName rpc.path) path) ∧
    ∀ c, pm.get path = some c ↔
      ∃ rpc, keptEntry ac.reverseProxy c.path = some rpc ∧
        buildCandidates sha256 optionOrder ac.serverName rpc = .ok c ∧ RouteMatch c.path path ∧
        ∀ rpc' ∈ ac.reverseProxy, RouteMatch (pathName rpc'.path) path → (pathName rpc'.path).length ≤ c.path.length := by
  refine ⟨?_, fun c => ?_⟩
  · rw [PathManager.get_eq_none_iff]
    exact forall_keys_of_tryFrom h (fun k => ¬RouteMatch k path)
  · have hlongest := forall_keys_of_tryFrom h (fun k => RouteMatch k path → k.length ≤ c.path.length)
    rw [PathManager.get_eq_some_iff]
    constructor
    · rintro ⟨r, hrc, hmatch, hle⟩
      have hr : c.path = r := pm.key_eq_path _ hrc
      subst hr
      obtain ⟨rpc, hkept, hc⟩ := (mem_of_tryFrom h _ c).mp hrc
      exact ⟨rpc, hkept, hc, hmatch, hlongest.mp hle⟩
    · rintro ⟨rpc, hkept, hc, hmatch, hle⟩
      exact ⟨c.path, (mem_of_tryFrom h _ c).mpr ⟨rpc, hkept, hc⟩, hmatch, hlongest.mpr hle⟩

/-- A request for `/api/x` goes to the third entry's candidates, which rewrite to `/v1`. -/
theorem request_routed_to_last_longest_entry_api :
    ∃ c, (tableOf exampleAppConfig).get (utf8Bytes "/api/x".toList) = some c ∧
      c.replacePath = some (utf8Bytes "/v1".toList) ∧
      ∃ rpc, keptEntry exampleAppConfig.reverseProxy c.path = some rpc ∧ RouteMatch c.path (utf8Bytes "/api/x".toList) := by
  refine ⟨_, rfl, rfl, ?_⟩
  obtain ⟨rpc, hkept, -, hmatch, -⟩ :=
    ((request_routed_to_last_longest_entry id _ _ exampleAppConfig_built (utf8Bytes "/api/x".toList)).2 _).mp rfl
  exact ⟨rpc, hkept, hmatch⟩

/-- RFC 6265's path-match (§5.1.4), on bytes: the cookie path is the request path, or a prefix of
it that ends with `/` or is followed by `/` in it. -/
def CookiePathMatch (cookiePath requestPath : List UInt8) : Prop :=
  cookiePath = requestPath ∨
    cookiePath <+: requestPath ∧ (cookiePath.getLast? = some slash ∨ requestPath[cookiePath.length]? = some slash)

/-- A route that matches a path beginning with `/` path-matches it as a cookie path. -/
theorem cookiePathMatch_of_routeMatch {r path : List UInt8} (h : RouteMatch r path) (hslash : path.head? = some slash) :
    CookiePathMatch r path := by
  obtain ⟨hpre, hone | hlen | hnext⟩ := h
  · obtain ⟨b, rfl⟩ := List.length_eq_one_iff.mp hone
    obtain ⟨t, rfl⟩ := hpre
    have hb : b = slash := by simpa using hslash
    exact .inr ⟨List.prefix_append _ _, .inl (by rw [hb]; rfl)⟩
  · exact .inl (hpre.eq_of_length hlen.symm)
  · exact .inr ⟨hpre, .inr hnext⟩

/-- The sticky cookie of the candidates a request goes to is the application's: named
`rpxy_sticky_token`, for the lowercased server name, for 300 seconds, and with a path that the
request path matches as RFC 6265 matches cookie paths, so that the client sends it back on the
route that set it. -/
theorem sticky_cookie_scoped_to_route {ac : AppConfig (List (ReverseProxyConfig HC))} {pm : PathManager HC}
    (h : PathManager.tryFrom sha256 optionOrder mapOrder ac = .ok pm) {path : List UInt8} {c : UpstreamCandidates HC}
    {cfg : StickyCookieConfig} (hget : pm.get path = some c) (hsticky : c.stickyConfig = some cfg)
    (hslash : path.head? = some slash) :
    cfg.name = stickyCookieName ∧ cfg.domain = toAsciiLowercase ac.serverName ∧
      cfg.duration = stickyCookieDurationSecs ∧ CookiePathMatch (utf8Bytes cfg.path) path := by
  obtain ⟨r, hrc, hmatch, -⟩ := PathManager.get_eq_some_iff.mp hget
  obtain ⟨rpc, -, hc⟩ := (mem_of_tryFrom h r c).mp hrc
  obtain ⟨hname, hdomain, hpath, hduration⟩ := tryNew_eq_ok (tryNew_of_buildCandidates hc hsticky)
  have hroute : utf8Bytes cfg.path = r := by
    rw [hpath, ← pathName_eq, ← (buildCandidates_path_options hc).1, pm.key_eq_path _ hrc]
  exact ⟨hname, hdomain, hduration, hroute ▸ cookiePathMatch_of_routeMatch hmatch hslash⟩

/-- The cookie of the sticky route `/app` is for `app.example`, and `/app/x` path-matches its path. -/
theorem sticky_cookie_scoped_to_route_app :
    ∃ c cfg, (tableOf exampleStickyConfig).get (utf8Bytes "/app/x".toList) = some c ∧ c.stickyConfig = some cfg ∧
      cfg.domain = "app.example".toList ∧ CookiePathMatch (utf8Bytes cfg.path) (utf8Bytes "/app/x".toList) := by
  refine ⟨_, _, rfl, rfl, ?_⟩
  obtain ⟨-, hdomain, -, hmatch⟩ := @sticky_cookie_scoped_to_route Unit id (IterationOrder.given _)
    (IterationOrder.given _) exampleStickyConfig _ exampleStickyConfig_built (utf8Bytes "/app/x".toList) _ _ rfl rfl
    (by decide)
  exact ⟨hdomain, hmatch⟩

end Results

end Rpxy.RouteTable
