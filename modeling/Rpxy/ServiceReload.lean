import Rpxy.RouteTable
import Rpxy.Reachability

/-!
# Reloading the configuration

`rpxy_service` builds an `RpxyService` from the first configuration the watcher delivers, then
races the running service against the next configuration. A configuration that
`RpxyService::new` rejects is logged and the running service restarts as it was; one that it
accepts replaces the service. When the service's `start` returns, the loop returns what it
returned, and rpxy exits, with code 1 on an error.

`RpxyService::new` checks the settings (`build_settings`, whose reverse-proxy settings come from
`TryInto<Vec<ReverseProxyConfig>> for &Application` and `validate_lb_health_check`), the
sticky-cookie secret, the certificate manager and the ACME manager. The route tables are built
later, by the entrypoint that `start` runs: `BackendAppManager::try_from` calls
`PathManager::try_from`, which refuses two entries without a path and both forcing options, two
checks that `RpxyService::new` does not make.

The loop is a step function over `running` and `exited` with two events: a configuration arrives,
or the running service's `start` returns. `tokio::select!` takes whichever comes first, so every
order of events is a run. Parsing upstream URIs and health-check tables, `ProxyConfig::try_from`,
the sticky-cookie secret and cipher, ACME, and what the entrypoint does once the backends are
built are parameters, gathered in `Components`.

The receiver is modelled by what it holds after a change: a configuration, or nothing, on which
`rpxy_service` returns "Something wrong in config reloader receiver"; an error of the first
`changed()` is given by its text. `hot_reload`'s reloader sends only the configurations it has
loaded, so after a change the receiver holds one, and the runs of `rpxy_service` are then the runs
of the loop over the configurations it delivers (`receiver_run`).

The results: along every run, the loop runs the service of the last configuration that
`RpxyService::new` accepted, and it exits only with the first configuration's error or with what
that service's `start` returned; and a reloaded configuration that `RpxyService::new` accepts, in
which an application lists two entries without a path, stops rpxy.
-/

namespace Rpxy.ServiceReload

open RustText RustResult HttpHeaders HashMapModel CacheKey ConfigBuild RouteTable Reachability
open AccessLog (Uri)

/-! ### The loop of `rpxy_service` -/

/-- Where the loop of `rpxy_service` is: running a service, or returned with a result. -/
inductive LoopState (Svc : Type)
  | running (service : Svc)
  | exited (result : Except String Unit)

/-- What the `tokio::select!` of the loop takes: a configuration from the watcher, or the return
of the running service's `start`. -/
inductive LoopEvent (Cfg : Type)
  | configChanged (config : Cfg)
  | serviceReturned

/-- The configuration an event delivers. -/
def LoopEvent.config {Cfg : Type} : LoopEvent Cfg → Option Cfg
  | .configChanged c => some c
  | .serviceReturned => none

section Loop

variable {Cfg Svc : Type} (newService : Cfg → Except String Svc) (startResult : Svc → Option (Except String Unit))

/-- The initial loading, `RpxyService::new(&config_toml, ..).await?`. -/
def initialLoad (c : Cfg) : LoopState Svc :=
  match newService c with
  | .ok svc => .running svc
  | .error e => .exited (.error e)

/-- One turn of the loop. A configuration that `RpxyService::new` rejects leaves the service as
it was, to be restarted; `start` returns only when `startResult` says so. -/
def loopStep : LoopState Svc → LoopEvent Cfg → Option (LoopState Svc)
  | .running svc, .configChanged c =>
    match newService c with
    | .ok newSvc => some (.running newSvc)
    | .error _ => some (.running svc)
  | .running svc, .serviceReturned => (startResult svc).map .exited
  | .exited _, _ => none

/-- The service of the last configuration that `RpxyService::new` accepted. -/
def lastAccepted (cs : List Cfg) : Option Svc :=
  (cs.filterMap fun c => (newService c).toOption).getLast?

theorem lastAccepted_append_singleton (cs : List Cfg) (c : Cfg) :
    lastAccepted newService (cs ++ [c]) = (newService c).toOption.or (lastAccepted newService cs) := by
  unfold lastAccepted
  rw [List.filterMap_append]
  cases h : newService c with
  | error e => simp [h, Except.toOption]
  | ok svc => simp [h, Except.toOption]

theorem loopStep_configChanged (svc : Svc) (c : Cfg) :
    loopStep newService startResult (.running svc) (.configChanged c) =
      some (.running ((newService c).toOption.getD svc)) := by
  simp only [loopStep]
  cases newService c <;> rfl

/-- Once returned, the loop takes no more events. -/
theorem run_exited (r : Except String Unit) :
    ∀ {evs : List (LoopEvent Cfg)} {s : LoopState Svc},
      run (loopStep newService startResult) (.exited r) evs = some s → evs = [] ∧ s = .exited r
  | [], s, h => ⟨rfl, (Option.some.inj h).symm⟩
  | ev :: evs, s, h => by
    rw [run_cons] at h
    cases h

/-- A run from a running service: the service running at its end is that of the last accepted
configuration, and the loop returns only on the return of the service running then. -/
theorem run_running :
    ∀ {evs : List (LoopEvent Cfg)} {hist : List Cfg} {svc : Svc} {s : LoopState Svc},
      lastAccepted newService hist = some svc → run (loopStep newService startResult) (.running svc) evs = some s →
      (∀ svc', s = .running svc' → lastAccepted newService (hist ++ evs.filterMap LoopEvent.config) = some svc') ∧
      (∀ r, s = .exited r → ∃ pre svc', evs = pre ++ [.serviceReturned] ∧
        lastAccepted newService (hist ++ pre.filterMap LoopEvent.config) = some svc' ∧ startResult svc' = some r)
  | [], hist, svc, s, hsvc, h => by
    cases h
    exact ⟨fun svc' hs => by cases hs; simpa using hsvc, fun r hs => (nomatch hs)⟩
  | .configChanged c :: evs, hist, svc, s, hsvc, h => by
    rw [run_cons, loopStep_configChanged] at h
    have hlast : lastAccepted newService (hist ++ [c]) = some ((newService c).toOption.getD svc) := by
      rw [lastAccepted_append_singleton, hsvc]
      cases (newService c).toOption <;> rfl
    obtain ⟨hrun, hexit⟩ := run_running hlast h
    refine ⟨fun svc' hs => ?_, fun r hs => ?_⟩
    · simpa [LoopEvent.config] using hrun svc' hs
    · obtain ⟨pre, svc', rfl, hpre, hstart⟩ := hexit r hs
      exact ⟨.configChanged c :: pre, svc', rfl, by simpa [LoopEvent.config] using hpre, hstart⟩
  | .serviceReturned :: evs, hist, svc, s, hsvc, h => by
    rw [run_cons] at h
    cases hstart : startResult svc with
    | none => simp [loopStep, hstart] at h
    | some r =>
      simp only [loopStep, hstart, Option.map_some, Option.bind_some] at h
      obtain ⟨rfl, rfl⟩ := run_exited newService startResult r h
      refine ⟨fun svc' hs => (nomatch hs), fun r' hs => ?_⟩
      cases hs
      exact ⟨[], svc, rfl, by simpa using hsvc, hstart⟩

/-- Along every run, the loop runs the service of the last configuration that `RpxyService::new`
accepted, the first one included, so that a rejected configuration never changes it; and it
returns only when the first configuration is rejected, or with what the running service's
`start` returned. -/
theorem reload_runs_last_accepted_config {c0 : Cfg} {evs : List (LoopEvent Cfg)} {s : LoopState Svc}
    (h : run (loopStep newService startResult) (initialLoad newService c0) evs = some s) :
    (∀ svc, s = .running svc → lastAccepted newService (c0 :: evs.filterMap LoopEvent.config) = some svc) ∧
    ∀ r, s = .exited r →
      (evs = [] ∧ ∃ e, newService c0 = .error e ∧ r = .error e) ∨
      ∃ pre svc, evs = pre ++ [.serviceReturned] ∧
        lastAccepted newService (c0 :: pre.filterMap LoopEvent.config) = some svc ∧ startResult svc = some r := by
  unfold initialLoad at h
  cases h0 : newService c0 with
  | error e =>
    rw [h0] at h
    obtain ⟨rfl, rfl⟩ := run_exited newService startResult _ h
    exact ⟨fun svc hs => (nomatch hs), fun r hs => .inl ⟨rfl, e, rfl, by cases hs; rfl⟩⟩
  | ok svc0 =>
    rw [h0] at h
    have hfirst : lastAccepted newService [c0] = some svc0 := by simp [lastAccepted, h0, Except.toOption]
    obtain ⟨hrun, hexit⟩ := run_running newService startResult hfirst h
    exact ⟨hrun, fun r hs => .inr (hexit r hs)⟩

/-! ### The receiver -/

/-- The error of `rpxy_service` when the receiver holds no configuration. -/
def receiverErrorText : String := "Something wrong in config reloader receiver"

/-- What the `tokio::select!` of `rpxy_service` takes, with what the receiver holds: after a change
notification, the value of `config_rx.get()`; or the return of the running service's `start`. -/
inductive ReceiverEvent (Cfg : Type)
  | changed (value : Option Cfg)
  | serviceReturned

/-- A loop event as the receiver delivers it: a configuration arrives as the value it holds. -/
def ReceiverEvent.ofLoop {Cfg : Type} : LoopEvent Cfg → ReceiverEvent Cfg
  | .configChanged c => .changed (some c)
  | .serviceReturned => .serviceReturned

/-- The initial loading of `rpxy_service`: `config_rx.changed().await?`, whose error is given by
its text, then the value that `borrow()` reads, then `RpxyService::new`. -/
def receiverInit : Except String (Option Cfg) → LoopState Svc
  | .error e => .exited (.error e)
  | .ok none => .exited (.error receiverErrorText)
  | .ok (some c) => initialLoad newService c

/-- One turn of the loop of `rpxy_service`: a change after which the receiver is empty returns the
receiver error, and every other turn is `loopStep`. -/
def receiverStep : LoopState Svc → ReceiverEvent Cfg → Option (LoopState Svc)
  | s, .changed (some c) => loopStep newService startResult s (.configChanged c)
  | s, .serviceReturned => loopStep newService startResult s .serviceReturned
  | .running _, .changed none => some (.exited (.error receiverErrorText))
  | .exited _, .changed none => none

theorem receiverStep_ofLoop (s : LoopState Svc) (ev : LoopEvent Cfg) :
    receiverStep newService startResult s (.ofLoop ev) = loopStep newService startResult s ev := by
  cases ev <;> cases s <;> rfl

/-- Where the receiver holds a configuration at every change, `rpxy_service` runs the loop. -/
theorem run_receiverStep_ofLoop (evs : List (LoopEvent Cfg)) (s : LoopState Svc) :
    run (receiverStep newService startResult) s (evs.map ReceiverEvent.ofLoop) =
      run (loopStep newService startResult) s evs := by
  induction evs generalizing s with
  | nil => rfl
  | cons ev evs ih =>
    rw [List.map_cons, run_cons, run_cons, receiverStep_ofLoop]
    simp only [ih]

/-- An exited service takes no more events. -/
theorem receiverStep_exited (r : Except String Unit) (ev : ReceiverEvent Cfg) :
    receiverStep newService startResult (.exited r) ev = none := by
  cases ev with
  | changed v => cases v <;> rfl
  | serviceReturned => rfl

/-- A list of receiver events is a list of loop events, or one up to a first empty receiver. -/
theorem receiverEvents_cases :
    ∀ evs : List (ReceiverEvent Cfg), (∃ les : List (LoopEvent Cfg), evs = les.map ReceiverEvent.ofLoop) ∨
      ∃ (les : List (LoopEvent Cfg)) (post : List (ReceiverEvent Cfg)), evs = les.map ReceiverEvent.ofLoop ++ .changed none :: post
  | [] => .inl ⟨[], rfl⟩
  | .changed none :: evs => .inr ⟨[], evs, rfl⟩
  | .changed (some c) :: evs => (receiverEvents_cases evs).imp
      (fun ⟨les, h⟩ => ⟨.configChanged c :: les, by rw [h]; rfl⟩)
      (fun ⟨les, post, h⟩ => ⟨.configChanged c :: les, post, by rw [h]; rfl⟩)
  | .serviceReturned :: evs => (receiverEvents_cases evs).imp
      (fun ⟨les, h⟩ => ⟨.serviceReturned :: les, by rw [h]; rfl⟩)
      (fun ⟨les, post, h⟩ => ⟨.serviceReturned :: les, post, by rw [h]; rfl⟩)

/-- Every run of `rpxy_service` is a run of the loop over the configurations the receiver
delivered, or such a run of a service followed by a change after which the receiver is empty,
where it returns the receiver error and takes no more events. `hot_reload`'s reloader sends only
the configurations it has loaded, so with it the receiver is never empty after a change, and the
runs are those of `reload_runs_last_accepted_config`. -/
theorem receiver_run {s0 s : LoopState Svc} {evs : List (ReceiverEvent Cfg)}
    (h : run (receiverStep newService startResult) s0 evs = some s) :
    (∃ les : List (LoopEvent Cfg), evs = les.map ReceiverEvent.ofLoop ∧
      run (loopStep newService startResult) s0 les = some s) ∨
    ∃ (les : List (LoopEvent Cfg)) (svc : Svc), evs = les.map ReceiverEvent.ofLoop ++ [.changed none] ∧
      run (loopStep newService startResult) s0 les = some (.running svc) ∧ s = .exited (.error receiverErrorText) := by
  rcases receiverEvents_cases evs with ⟨les, rfl⟩ | ⟨les, post, rfl⟩
  · exact .inl ⟨les, rfl, by rwa [run_receiverStep_ofLoop] at h⟩
  · rw [run_append, run_receiverStep_ofLoop] at h
    cases hles : run (loopStep newService startResult) s0 les with
    | none => simp [hles] at h
    | some s1 =>
      rw [hles, Option.bind_some, run_cons] at h
      cases s1 with
      | exited r => rw [receiverStep_exited, Option.bind_none] at h; cases h
      | running svc =>
        cases post with
        | nil =>
          cases h
          exact .inr ⟨les, svc, rfl, hles, rfl⟩
        | cons ev post =>
          rw [receiverStep, Option.bind_some, run_cons, receiverStep_exited, Option.bind_none] at h
          cases h

end Loop

/-! ### The reverse-proxy settings of the configuration file -/

/-- `ReverseProxyOption`: an entry of an application's `reverse_proxy` list, with upstream
parameters of type `UP` and a health-check table of type `HO`. -/
structure ReverseProxyOption (UP HO : Type) where
  /-- `path`. -/
  path : Option (List Char)
  /-- `replace_path`. -/
  replacePath : Option (List Char)
  /-- `upstream`. -/
  upstream : List UP
  /-- `upstream_options`. -/
  upstreamOptions : Option (List (List Char))
  /-- `load_balance`. -/
  loadBalance : Option (List Char)
  /-- `health_check`. -/
  healthCheck : Option HO

/-- The `reverse_proxy` list of an application, when it has one. -/
abbrev ReverseProxyOptions (UP HO : Type) : Type := Option (List (ReverseProxyOption UP HO))

def missingReverseProxyText : String := "Missing reverse_proxy"

/-- The `[server_name]` that begins the messages of the checks below. -/
def serverNameTag (serverName : List Char) : String := "[" ++ String.ofList serverName ++ "]"

def noUpstreamText : String := " At least one upstream must be specified"
def invalidUpstreamText : String := " Upstream uri is invalid"
def primaryBackupText : String := " load_balance = \"primary_backup\" requires health_check to be enabled"

/-- `validate_lb_health_check`. -/
def validateLbHealthCheck {HC : Type} (serverName : List Char) (rpc : ReverseProxyConfig HC) : Except String Unit :=
  if rpc.loadBalance = some primaryBackupName ∧ rpc.healthCheck.isNone then
    .error (serverNameTag serverName ++ primaryBackupText)
  else .ok ()

/-! ### The service -/

/-- `RpxyService`, by the settings it was built with. -/
structure RpxyService (HC : Type) where
  /-- The `ProxyConfig` of the settings. -/
  proxyConf : ProxyConfig
  /-- The `AppConfigList` of the settings. -/
  appConf : AppConfigList (List (ReverseProxyConfig HC))

/-- The parts of rpxy that the reload loop reaches and the model takes as given. -/
structure Components (UP HO HC : Type) where
  /-- `ProxyConfig::try_from(&ConfigToml)`. -/
  proxyConfigOf : ConfigToml (ReverseProxyOptions UP HO) → Except String ProxyConfig
  /-- `TryInto<UpstreamUri> for &UpstreamParams`. -/
  upstreamUriOf : UP → Except String Uri
  /-- `build_health_check_config`, for the server name of the application. -/
  healthCheckConfigOf : HO → List Char → Except String (Option HC)
  /-- `build_sticky_cookie_secret`, by whether it succeeds. -/
  stickyCookieSecretOf : ConfigToml (ReverseProxyOptions UP HO) → Except String Unit
  /-- `DirCache::cached_cert_file_name`. -/
  cachedCertFileName : List (List Char) → List Char → List Char
  /-- The iteration order of the certificate sources. -/
  certOrder : IterationOrder (List Char × CryptoFileSource)
  /-- `build_acme_manager`, by whether it succeeds. -/
  acmeManagerOf : ConfigToml (ReverseProxyOptions UP HO) → Except String Unit
  /-- `build_sticky_cookie_cipher`, the first step of the entrypoint. -/
  stickyCipherOf : RpxyService HC → Except String Unit
  /-- SHA-256, which the sticky balancer's upstream ids use. -/
  sha256 : List UInt8 → List UInt8
  /-- The iteration orders of the options' sets, the route tables and the applications' map. -/
  optionOrder : IterationOrder UpstreamOption
  /-- The iteration order of the route tables. -/
  mapOrder : IterationOrder (List UInt8 × UpstreamCandidates HC)
  /-- The iteration order of the applications' map. -/
  appOrder : IterationOrder (ServerName × BackendApp (PathManager HC))
  /-- What the entrypoint ends with once the backends are built; `none` while it serves. -/
  serve : RpxyService HC → BackendAppManager (PathManager HC) → Option (Except String Unit)

def invalidConfigurationText : String := "Invalid configuration: "
def invalidStickyCookieText : String := "Invalid sticky-cookie configuration: "
def invalidCertText : String := "Invalid cert configuration: "

section Service

variable {UP HO HC : Type} (k : Components UP HO HC)

/-- The health check of an entry, `health_check.as_ref().map(..).transpose()?.flatten()`. -/
def healthCheckOf (serverName : List Char) : Option HO → Except String (Option HC)
  | none => .ok none
  | some hc => k.healthCheckConfigOf hc serverName

/-- The body of the loop of `TryInto<Vec<ReverseProxyConfig>> for &Application`: one entry. -/
def ReverseProxyOption.toConfig (serverName : List Char) (rpo : ReverseProxyOption UP HO) :
    Except String (ReverseProxyConfig HC) :=
  if rpo.upstream.isEmpty then .error (serverNameTag serverName ++ noUpstreamText)
  else
    let upstreamRes := rpo.upstream.map fun v => (k.upstreamUriOf v).toOption
    if !(upstreamRes.all Option.isSome) then .error (serverNameTag serverName ++ invalidUpstreamText)
    else do
      let healthCheck ← healthCheckOf k serverName rpo.healthCheck
      pure ⟨rpo.path, rpo.replacePath, upstreamRes.filterMap id, rpo.upstreamOptions, rpo.loadBalance, healthCheck⟩

/-- `TryInto<Vec<ReverseProxyConfig>> for &Application`. -/
def reverseProxyConfigs (app : Application (ReverseProxyOptions UP HO)) :
    Except String (List (ReverseProxyConfig HC)) := do
  let serverName ← okOr app.serverName missingServerNameText
  let rpSettings ← okOr app.reverseProxy missingReverseProxyText
  rpSettings.mapM (ReverseProxyOption.toConfig k serverName)

/-- The reverse-proxy settings `build_app_config` makes of an application: the conversion, then
`validate_lb_health_check` on each entry, for the server name it has already read. -/
def reverseProxySettings (app : Application (ReverseProxyOptions UP HO)) :
    Except String (List (ReverseProxyConfig HC)) := do
  let rpcs ← reverseProxyConfigs k app
  rpcs.forM (validateLbHealthCheck (app.serverName.getD []))
  pure rpcs

/-- `RpxyService::new`. -/
def RpxyService.new (conf : ConfigToml (ReverseProxyOptions UP HO)) : Except String (RpxyService HC) := do
  let settings ← (conf.validateAndBuildSettings k.proxyConfigOf (reverseProxySettings k)).mapError
    (invalidConfigurationText ++ ·)
  (k.stickyCookieSecretOf conf).mapError (invalidStickyCookieText ++ ·)
  let _ ← (buildCertManager k.cachedCertFileName k.certOrder conf).mapError (invalidCertText ++ ·)
  k.acmeManagerOf conf
  pure ⟨settings.1, settings.2⟩

/-- What `RpxyService::start` returns when nothing cancels it, `none` while rpxy serves: the
entrypoint builds the sticky-cookie cipher, then the backends, each with the route table of
`PathManager::try_from`, and then serves. -/
def RpxyService.start (svc : RpxyService HC) : Option (Except String Unit) :=
  match k.stickyCipherOf svc with
  | .error e => some (.error e)
  | .ok () =>
    match BackendAppManager.tryFrom
        (fun ac => (PathManager.tryFrom k.sha256 k.optionOrder k.mapOrder ac).mapError RpxyError.toString)
        k.appOrder svc.appConf with
    | .error e => some (.error e)
    | .ok mgr => k.serve svc mgr

end Service

section ServiceSpec

variable {UP HO HC : Type} {k : Components UP HO HC}

/-- A converted entry keeps its path. -/
theorem toConfig_path {serverName : List Char} {rpo : ReverseProxyOption UP HO} {rpc : ReverseProxyConfig HC}
    (h : ReverseProxyOption.toConfig k serverName rpo = .ok rpc) : rpc.path = rpo.path := by
  unfold ReverseProxyOption.toConfig at h
  split at h
  · cases h
  · dsimp only at h
    split at h
    · cases h
    · obtain ⟨hc, -, h⟩ := except_bind_eq_ok.mp h
      cases h
      rfl

/-- The settings of an application come from its `reverse_proxy` list, entry by entry. -/
theorem reverseProxySettings_eq_ok {app : Application (ReverseProxyOptions UP HO)} {rpcs : List (ReverseProxyConfig HC)}
    (h : reverseProxySettings k app = .ok rpcs) :
    ∃ serverName rpos, app.reverseProxy = some rpos ∧
      List.Forall₂ (fun rpo rpc => ReverseProxyOption.toConfig k serverName rpo = .ok rpc) rpos rpcs := by
  unfold reverseProxySettings at h
  obtain ⟨rpcs', hconf, h⟩ := except_bind_eq_ok.mp h
  obtain ⟨_, -, h⟩ := except_bind_eq_ok.mp h
  have hrpcs : rpcs = rpcs' := by simpa [eq_comm] using h
  subst hrpcs
  unfold reverseProxyConfigs at hconf
  obtain ⟨serverName, -, hconf⟩ := except_bind_eq_ok.mp hconf
  obtain ⟨rpos, hrpos, hconf⟩ := except_bind_eq_ok.mp hconf
  exact ⟨serverName, rpos, okOr_eq_ok.mp hrpos, forall₂_of_mapM_eq_ok hconf⟩

/-- Converting the entries keeps how many have no path. -/
theorem pathless_count_eq {serverName : List Char} {rpos : List (ReverseProxyOption UP HO)}
    {rpcs : List (ReverseProxyConfig HC)}
    (h : List.Forall₂ (fun rpo rpc => ReverseProxyOption.toConfig k serverName rpo = .ok rpc) rpos rpcs) :
    (rpcs.filter fun rpc => rpc.path.isNone).length = (rpos.filter fun rpo => rpo.path.isNone).length := by
  have hpaths : rpos.map (·.path) = rpcs.map (·.path) :=
    Forall₂.map_eq (fun rpo rpc (hc : ReverseProxyOption.toConfig k serverName rpo = .ok rpc) =>
      (toConfig_path hc).symm) h
  rw [← List.countP_eq_length_filter, ← List.countP_eq_length_filter]
  have hcount := congrArg (List.countP Option.isNone) hpaths
  simp only [List.countP_map] at hcount
  exact hcount.symm

/-- A service that `RpxyService::new` built holds the settings of `build_settings`. -/
theorem RpxyService.new_eq_ok {conf : ConfigToml (ReverseProxyOptions UP HO)} {svc : RpxyService HC}
    (h : RpxyService.new k conf = .ok svc) :
    conf.validateAndBuildSettings k.proxyConfigOf (reverseProxySettings k) = .ok (svc.proxyConf, svc.appConf) := by
  unfold RpxyService.new at h
  obtain ⟨settings, hsettings, h⟩ := except_bind_eq_ok.mp h
  obtain ⟨_, -, h⟩ := except_bind_eq_ok.mp h
  obtain ⟨_, -, h⟩ := except_bind_eq_ok.mp h
  obtain ⟨_, -, h⟩ := except_bind_eq_ok.mp h
  have hsvc : svc = ⟨settings.1, settings.2⟩ := by simpa [eq_comm] using h
  rw [hsvc]
  exact except_mapError_eq_ok.mp hsettings

/-- A service with an application whose route table cannot be built fails to start. -/
theorem RpxyService.start_of_route_error {svc : RpxyService HC} (hcipher : k.stickyCipherOf svc = .ok ())
    {ac : AppConfig (List (ReverseProxyConfig HC))} (hac : ac ∈ svc.appConf.inner) {e : RouteTable.RpxyError}
    (he : PathManager.tryFrom k.sha256 k.optionOrder k.mapOrder ac = .error e) :
    ∃ e', RpxyService.start k svc = some (.error e') := by
  have hroute : (fun ac => (PathManager.tryFrom k.sha256 k.optionOrder k.mapOrder ac).mapError RpxyError.toString) ac =
      .error e.toString := by
    simp only [he]
    rfl
  have hmgr : ∃ e', BackendAppManager.tryFrom
      (fun ac => (PathManager.tryFrom k.sha256 k.optionOrder k.mapOrder ac).mapError RpxyError.toString)
      k.appOrder svc.appConf = .error e' := BackendAppManager.tryFrom_of_mem_error hac hroute
  obtain ⟨e', he'⟩ := hmgr
  refine ⟨e', ?_⟩
  rw [RpxyService.start, hcipher]
  simp only [he']

/-- A reloaded configuration that `RpxyService::new` accepts, but in which an application lists two
`reverse_proxy` entries without a path, replaces the running service; that service's `start` then
fails in `PathManager::try_from`, the loop returns the error, and rpxy exits. A configuration that
`RpxyService::new` rejects would have left the running service in place. -/
theorem reload_with_pathless_entries_stops_rpxy {svc svc' : RpxyService HC} {conf : ConfigToml (ReverseProxyOptions UP HO)}
    (hnew : RpxyService.new k conf = .ok svc') (hcipher : k.stickyCipherOf svc' = .ok ())
    {apps : Apps (ReverseProxyOptions UP HO)} (happs : conf.apps = some apps) {key : List Char}
    {app : Application (ReverseProxyOptions UP HO)} (happ : (key, app) ∈ apps.entries)
    {rpos : List (ReverseProxyOption UP HO)} (hrpos : app.reverseProxy = some rpos)
    (hpathless : 2 ≤ (rpos.filter fun rpo => rpo.path.isNone).length) :
    loopStep (RpxyService.new k) (RpxyService.start k) (.running svc) (.configChanged conf) = some (.running svc') ∧
    ∃ e, loopStep (RpxyService.new k) (RpxyService.start k) (.running svc') .serviceReturned = some (.exited (.error e)) := by
  refine ⟨by rw [loopStep_configChanged, hnew]; rfl, ?_⟩
  obtain ⟨apps', happs', hall, -⟩ := validateAndBuildSettings_eq_ok (RpxyService.new_eq_ok hnew)
  rw [happs, Option.some.injEq] at happs'
  subst happs'
  obtain ⟨ac, hac, hbuild⟩ := Forall₂.exists_of_mem_left hall happ
  obtain ⟨serverName, rpos', hrpos', hconv⟩ := reverseProxySettings_eq_ok (buildAppConfig_reverseProxy hbuild)
  rw [hrpos, Option.some.injEq] at hrpos'
  subst hrpos'
  have hcount : 2 ≤ (ac.reverseProxy.filter fun rpc => rpc.path.isNone).length := by
    rw [pathless_count_eq hconv]
    exact hpathless
  have hroute : ∃ e, PathManager.tryFrom k.sha256 k.optionOrder k.mapOrder ac = .error e := tryFrom_of_pathless hcount
  obtain ⟨e, he⟩ := hroute
  obtain ⟨e', hstart⟩ := RpxyService.start_of_route_error hcipher hac he
  exact ⟨e', by simp [loopStep, hstart]⟩

end ServiceSpec

/-! ### Reloads -/

/-- Components that accept every table, with a plaintext port, and serve once the backends are
built. -/
def exampleComponents : Components Unit Unit Unit where
  proxyConfigOf := fun _ => .ok ⟨some 80, none, none⟩
  upstreamUriOf := fun _ => .ok exampleUri
  healthCheckConfigOf := fun _ _ => .ok none
  stickyCookieSecretOf := fun _ => .ok ()
  cachedCertFileName := fun _ _ => []
  certOrder := IterationOrder.given _
  acmeManagerOf := fun _ => .ok ()
  stickyCipherOf := fun _ => .ok ()
  sha256 := id
  optionOrder := IterationOrder.given _
  mapOrder := IterationOrder.given _
  appOrder := IterationOrder.given _
  serve := fun _ _ => none

/-- An entry without a path to the example upstream, and one without an upstream. -/
def pathlessEntry : ReverseProxyOption Unit Unit := ⟨none, none, [()], none, none, none⟩
def noUpstreamEntry : ReverseProxyOption Unit Unit := ⟨none, none, [], none, none, none⟩

/-- A configuration whose one application, `app.example`, has the given `reverse_proxy` list. -/
def exampleConfig (rpos : List (ReverseProxyOption Unit Unit)) : ConfigToml (ReverseProxyOptions Unit Unit) :=
  ⟨none, some ⟨[("app".toList, ⟨some "app.example".toList, some rpos, none⟩)], List.nodup_singleton _⟩, none, none⟩

/-- The service a configuration gives with the example components, when it gives one. -/
def serviceOf (conf : ConfigToml (ReverseProxyOptions Unit Unit)) : RpxyService Unit :=
  ((RpxyService.new exampleComponents conf).toOption).getD ⟨⟨none, none, none⟩, ⟨[], none⟩⟩

/-- After a reload to a configuration without an upstream, which `RpxyService::new` rejects, the
loop still runs the service of the first configuration. -/
theorem reload_runs_last_accepted_config_example :
    ∃ svc, run (loopStep (RpxyService.new exampleComponents) (RpxyService.start exampleComponents))
        (initialLoad (RpxyService.new exampleComponents) (exampleConfig [pathlessEntry]))
        [.configChanged (exampleConfig [noUpstreamEntry])] = some (.running svc) ∧
      svc = serviceOf (exampleConfig [pathlessEntry]) := by
  obtain ⟨svc, hrun⟩ : ∃ svc, run (loopStep (RpxyService.new exampleComponents) (RpxyService.start exampleComponents))
      (initialLoad (RpxyService.new exampleComponents) (exampleConfig [pathlessEntry]))
      [.configChanged (exampleConfig [noUpstreamEntry])] = some (.running svc) := ⟨_, rfl⟩
  have hlast : lastAccepted (RpxyService.new exampleComponents) [exampleConfig [pathlessEntry], exampleConfig [noUpstreamEntry]] =
      some (serviceOf (exampleConfig [pathlessEntry])) := rfl
  exact ⟨svc, hrun, Option.some.inj (((reload_runs_last_accepted_config _ _ hrun).1 svc rfl).symm.trans hlast)⟩

/-- A reload from one entry without a path to two stops rpxy. -/
theorem reload_with_pathless_entries_stops_rpxy_example :
    ∃ e, run (loopStep (RpxyService.new exampleComponents) (RpxyService.start exampleComponents))
      (.running (serviceOf (exampleConfig [pathlessEntry])))
      [.configChanged (exampleConfig [pathlessEntry, pathlessEntry]), .serviceReturned] = some (.exited (.error e)) := by
  have hnew : RpxyService.new exampleComponents (exampleConfig [pathlessEntry, pathlessEntry]) =
      .ok (serviceOf (exampleConfig [pathlessEntry, pathlessEntry])) := rfl
  obtain ⟨hchange, e, hreturn⟩ := reload_with_pathless_entries_stops_rpxy hnew rfl rfl (List.mem_singleton_self _) rfl
    (by decide)
  refine ⟨e, ?_⟩
  rw [run_cons, hchange, Option.bind_some, run_cons, hreturn]
  rfl

end Rpxy.ServiceReload
