import Rpxy.MessageHandler
import Rpxy.RouteTable

/-!
# The handler the entrypoint builds

`entrypoint` builds the applications with `BackendAppManager::try_from`, each with the route table
of `PathManager::try_from`, and gives them to the `HttpMessageHandler` builder with the globals.
`handle_request_inner` then finds a request's app in that map, and its route with
`path_manager.get`, whose `UpstreamCandidates` carry the options and the balancer that the upstream
request is generated with.

The handler's model reads an app through what its route stage needs (`CacheKey.BackendApp`, whose
route table is the one `PathRouting` models) and the rest of a route's candidates, and an app's
`mutual_tls`, through `HandlerConfig`. Here all of it comes from the built manager: the route
stage's table is the manager's map with each route table read through `PathManager.routes`, its
default app is present because `try_from` takes the default's name from the map, and the
candidates of a route are the entry of the app's route table under the route's path.

The result: in the handler built from any application list, a request that the handler forwards
goes through the app the manager stores under its server name, and through the candidates that
this app's `PathManager::get` returns for the request path.
-/

namespace Rpxy.Entrypoint

open HttpHeaders HashMapModel MessageHandler
open CacheKey (ServerName Routed)
open ForwardingChain (UpstreamOption)

variable {HC : Type}

/-! ### The route stage's view of the manager -/

/-- An application as the route stage reads it. -/
def BackendApp.forRoute (b : ConfigBuild.BackendApp (RouteTable.PathManager HC)) : CacheKey.BackendApp :=
  ⟨b.serverName, b.pathManager.routes, b.httpsRedirection⟩

/-- The manager as the route stage reads it, given that its default names one of its apps. -/
def BackendAppManager.forRoute (mgr : ConfigBuild.BackendAppManager (RouteTable.PathManager HC))
    (h : ∀ d, mgr.defaultServerName = some d → (mgr.apps.lookup d).isSome) : CacheKey.BackendAppManager :=
  ⟨mgr.apps.map fun e => (e.1, BackendApp.forRoute e.2), mgr.defaultServerName, fun d hd => by
    rw [lookup_map_snd, Option.isSome_map]
    exact h d hd⟩

/-- What the request generation reads of a route's candidates. -/
def UpstreamCandidates.forRequest (c : RouteTable.UpstreamCandidates HC) : MessageForwarding.UpstreamCandidates :=
  ⟨c.route, c.options, c.stickyConfig⟩

/-- The candidates of a route of an app: the entry of the app's route table under the route's
path. A route that no table holds has neither options nor a balancer; the handler asks only for
routes that `get` returned. -/
def candidatesOf (mgr : ConfigBuild.BackendAppManager (RouteTable.PathManager HC)) (app : CacheKey.BackendApp)
    (route : PathRouting.UpstreamCandidates) : MessageForwarding.UpstreamCandidates :=
  match (mgr.apps.lookup app.serverName).bind fun b => b.pathManager.inner.lookup route.path with
  | some c => ⟨route, c.options, c.stickyConfig⟩
  | none => ⟨route, [], none⟩

theorem candidatesOf_route (mgr : ConfigBuild.BackendAppManager (RouteTable.PathManager HC))
    (app : CacheKey.BackendApp) (route : PathRouting.UpstreamCandidates) :
    (candidatesOf mgr app route).route = route := by
  unfold candidatesOf
  split <;> rfl

/-- The `mutual_tls` of an app, read from the manager. -/
def mutualTlsOf (mgr : ConfigBuild.BackendAppManager (RouteTable.PathManager HC)) (app : CacheKey.BackendApp) :
    Option Bool :=
  (mgr.apps.lookup app.serverName).bind (·.mutualTls)

/-! ### The builder -/

section Build

variable {Net : Type}

/-- The handler the builder makes of the globals in `cfg` and the manager: the route stage reads
the manager's apps, and the candidates and `mutual_tls` of an app come from its entry. -/
def handlerOf (cfg : HandlerConfig Net) (mgr : ConfigBuild.BackendAppManager (RouteTable.PathManager HC))
    (h : ∀ d, mgr.defaultServerName = some d → (mgr.apps.lookup d).isSome) : HttpMessageHandler Net :=
  ⟨{ cfg with mutualTls := mutualTlsOf mgr, candidates := candidatesOf mgr, candidates_route := candidatesOf_route mgr },
    BackendAppManager.forRoute mgr h⟩

variable (sha256 : List UInt8 → List UInt8) (optionOrder : HashMapModel.IterationOrder UpstreamOption)
  (mapOrder : HashMapModel.IterationOrder (List UInt8 × RouteTable.UpstreamCandidates HC))
  (appOrder : HashMapModel.IterationOrder (ServerName × ConfigBuild.BackendApp (RouteTable.PathManager HC)))

/-- The route tables of `PathManager::try_from`, with the error's `Display` text. -/
def pathManagerOf (ac : ConfigBuild.AppConfig (List (RouteTable.ReverseProxyConfig HC))) :
    Except String (RouteTable.PathManager HC) :=
  (RouteTable.PathManager.tryFrom sha256 optionOrder mapOrder ac).mapError RouteTable.RpxyError.toString

/-- `entrypoint` up to the message handler: `BackendAppManager::try_from`, then the builder. -/
def buildHandler (list : ConfigBuild.AppConfigList (List (RouteTable.ReverseProxyConfig HC)))
    (cfg : HandlerConfig Net) : Except String (HttpMessageHandler Net) :=
  match h : ConfigBuild.BackendAppManager.tryFrom (pathManagerOf sha256 optionOrder mapOrder) appOrder list with
  | .ok mgr => .ok (handlerOf cfg mgr (ConfigBuild.BackendAppManager.tryFrom_default_mem h))
  | .error e => .error e

theorem buildHandler_eq_ok {list : ConfigBuild.AppConfigList (List (RouteTable.ReverseProxyConfig HC))}
    {cfg : HandlerConfig Net} {handler : HttpMessageHandler Net}
    (hb : buildHandler sha256 optionOrder mapOrder appOrder list cfg = .ok handler) :
    ∃ mgr, ∃ hdef : ∀ d, mgr.defaultServerName = some d → (mgr.apps.lookup d).isSome,
      ConfigBuild.BackendAppManager.tryFrom (pathManagerOf sha256 optionOrder mapOrder) appOrder list = .ok mgr ∧
      handler = handlerOf cfg mgr hdef := by
  unfold buildHandler at hb
  split at hb
  · rename_i mgr hmgr
    cases hb
    exact ⟨mgr, _, hmgr, rfl⟩
  · cases hb

end Build

/-! ### What the built handler reads -/

/-- In a manager that stores each app under its own server name, the app the route stage selects
is the route stage's view of the app stored under its name. -/
theorem BackendAppManager.forRoute_select {mgr : ConfigBuild.BackendAppManager (RouteTable.PathManager HC)}
    (hkeys : ∀ e ∈ mgr.apps, e.1 = e.2.serverName)
    {hdef : ∀ d, mgr.defaultServerName = some d → (mgr.apps.lookup d).isSome} {n : ServerName} {tls : Bool}
    {app : CacheKey.BackendApp} {fallback : Bool}
    (hs : (BackendAppManager.forRoute mgr hdef).select n tls = .ok (app, fallback)) :
    ∃ b, mgr.apps.lookup app.serverName = some b ∧ app = BackendApp.forRoute b := by
  obtain ⟨k, hk⟩ : ∃ k, (BackendAppManager.forRoute mgr hdef).apps.lookup k = some app := by
    rcases BackendAppManager.select_eq_ok_cases hs with ⟨hl, -⟩ | ⟨-, -, -, d, -, hl⟩
    · exact ⟨n, hl⟩
    · exact ⟨d, hl⟩
  rw [BackendAppManager.forRoute, lookup_map_snd, Option.map_eq_some_iff] at hk
  obtain ⟨b, hb, rfl⟩ := hk
  have hkey : k = b.serverName := hkeys (k, b) (mem_of_lookup_eq_some hb)
  subst hkey
  exact ⟨b, hb, rfl⟩

/-- A route that route selection finds is the route of the candidates `get` returns, and those
candidates are the table's entry under the route's path. -/
theorem get_of_routes_get {pm : RouteTable.PathManager HC} {path : List UInt8} {route : PathRouting.UpstreamCandidates}
    (h : pm.routes.get path = some route) :
    ∃ c, pm.get path = some c ∧ c.route = route ∧ pm.inner.lookup route.path = some c := by
  rw [← RouteTable.PathManager.get_route, Option.map_eq_some_iff] at h
  obtain ⟨c, hc, rfl⟩ := h
  obtain ⟨r, hmem, -, -⟩ := RouteTable.PathManager.get_eq_some_iff.mp hc
  have hr : r = c.path := (pm.key_eq_path _ hmem).symm
  subst hr
  exact ⟨c, hc, rfl, lookup_eq_some_of_nodup pm.keys_nodup hmem⟩

theorem candidatesOf_eq {mgr : ConfigBuild.BackendAppManager (RouteTable.PathManager HC)} {app : CacheKey.BackendApp}
    {route : PathRouting.UpstreamCandidates} {b : ConfigBuild.BackendApp (RouteTable.PathManager HC)}
    {c : RouteTable.UpstreamCandidates HC} (hb : mgr.apps.lookup app.serverName = some b)
    (hc : b.pathManager.inner.lookup route.path = some c) (hroute : c.route = route) :
    candidatesOf mgr app route = UpstreamCandidates.forRequest c := by
  rw [candidatesOf, hb, Option.bind_some, hc, UpstreamCandidates.forRequest, hroute]

section Built

variable {Net : Type} {sha256 : List UInt8 → List UInt8} {optionOrder : HashMapModel.IterationOrder UpstreamOption}
  {mapOrder : HashMapModel.IterationOrder (List UInt8 × RouteTable.UpstreamCandidates HC)}
  {appOrder : HashMapModel.IterationOrder (ServerName × ConfigBuild.BackendApp (RouteTable.PathManager HC))}

/-- In a handler that the entrypoint builds, a request that passes the checks goes through the app
the manager stores under its server name, and through the candidates that this app's
`PathManager::get` returns for the request path: the upstream request is generated with their
options and sticky-cookie configuration, and the response with the app's `mutual_tls`. -/
theorem built_handler_routes {list : ConfigBuild.AppConfigList (List (RouteTable.ReverseProxyConfig HC))}
    {cfg : HandlerConfig Net} {handler : HttpMessageHandler Net}
    (hb : buildHandler sha256 optionOrder mapOrder appOrder list cfg = .ok handler) {tls : Bool}
    {tlsServerName : Option ServerName} {req : AccessLog.Request} {app : CacheKey.BackendApp}
    {route : PathRouting.UpstreamCandidates} {fallback : Bool} {upgrade : Option (List Char)}
    (hp : prepareRequest handler.globals handler.appManager tls tlsServerName req =
      .ok (.forward app route fallback upgrade)) :
    ∃ mgr b c, ConfigBuild.BackendAppManager.tryFrom (pathManagerOf sha256 optionOrder mapOrder) appOrder list =
        .ok mgr ∧
      mgr.apps.lookup app.serverName = some b ∧ app = BackendApp.forRoute b ∧
      b.pathManager.get (utf8Bytes req.uri.path) = some c ∧ route = c.route ∧
      handler.globals.candidates app route = UpstreamCandidates.forRequest c ∧
      handler.globals.mutualTls app = b.mutualTls := by
  obtain ⟨mgr, hdef, hmgr, rfl⟩ := buildHandler_eq_ok sha256 optionOrder mapOrder appOrder hb
  obtain ⟨host, -, -, -, hs, -, hg, -⟩ := prepareRequest_eq_forward hp
  have hs' : (BackendAppManager.forRoute mgr hdef).select (ServerName.fromBytes host) tls = .ok (app, fallback) := hs
  obtain ⟨b, hlookup, rfl⟩ := BackendAppManager.forRoute_select (ConfigBuild.BackendAppManager.tryFrom_keys hmgr).2 hs'
  obtain ⟨c, hc, hroute, hentry⟩ := get_of_routes_get hg
  refine ⟨mgr, b, c, hmgr, hlookup, rfl, hc, hroute.symm, candidatesOf_eq hlookup hentry hroute, ?_⟩
  show mutualTlsOf mgr (BackendApp.forRoute b) = b.mutualTls
  rw [mutualTlsOf, hlookup]
  rfl

end Built

end Rpxy.Entrypoint
