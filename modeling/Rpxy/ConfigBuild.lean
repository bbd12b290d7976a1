import Rpxy.CacheKey
import Rpxy.HashMapModel

/-!
# From the configuration file to the application maps

`validate_and_build_settings` checks the `apps` table of the TOML file and turns each entry into
an `AppConfig`, lowercasing the table key into the app name and `default_app` likewise.
`BackendAppManager::try_from` then inserts one `BackendApp` per `AppConfig` into a map keyed by
the lowercased server name, and takes as default server name the first application, in the
map's iteration order, whose name is `default_app`. Apart from both, `build_cert_manager` inserts
the certificate sources of the TLS applications into a map keyed by the server name as written,
and `build_cert_reloader` rekeys that map by lowercased bytes.

All three maps are filled by inserts where a later entry replaces an earlier one under the same
key, and the tables they read are `HashMap`s, whose iteration order the hasher fixes. The table
is taken in its iteration order; the two other orders are `IterationOrder`s.

`ProxyConfig::try_from`, the reverse-proxy settings of an application with their checks, and
`PathManager::try_from` are parameters; so is `DirCache::cached_cert_file_name`, a hash. The
reloader service is modelled by the sources it is given; reading the files is outside the model.
A panic of `unwrap` is an error here.

The main result: when no two applications have server names, or table keys, equal up to ASCII
case, a configuration that all three builders accept gives each application its own entry in the
router's map, the certificate reloader serves each TLS server name with the material of the
application the router picks for it, and the default server name is that of the application
`default_app` names; none of this depends on an iteration order. Without that condition these
fail, as the configurations of two applications at the end show.
-/

namespace Rpxy.ConfigBuild

open RustText RustResult HttpHeaders CacheKey HashMapModel

/-! ### The TOML file -/

/-- `TlsOption`: the `tls` table of an application. -/
structure TlsOption where
  /-- `tls_cert_path`. -/
  tlsCertPath : Option (List Char)
  /-- `tls_cert_key_path`. -/
  tlsCertKeyPath : Option (List Char)
  /-- `https_redirection`. -/
  httpsRedirection : Option Bool
  /-- `client_ca_cert_path`. -/
  clientCaCertPath : Option (List Char)
  /-- `acme`. -/
  acme : Option Bool
  deriving DecidableEq

/-- `Application`: an entry of the `apps` table, with its `reverse_proxy` options of type `RP`. -/
structure Application (RP : Type) where
  /-- `server_name`. -/
  serverName : Option (List Char)
  /-- `reverse_proxy`. -/
  reverseProxy : RP
  /-- `tls`. -/
  tls : Option TlsOption

/-- `Apps`: the `apps` table in its iteration order. A TOML table has each key once. -/
structure Apps (RP : Type) where
  /-- The entries of the table, in its iteration order. -/
  entries : List (List Char × Application RP)
  /-- Each key once. -/
  nodup_keys : (entries.map Prod.fst).Nodup

/-- `AcmeOption`, by the fields `build_cert_manager` reads. -/
structure AcmeOption where
  /-- `dir_url`. -/
  dirUrl : Option (List Char)
  /-- `registry_path`. -/
  registryPath : Option (List Char)

/-- `ConfigToml`, by the fields the builders below read; the rest reaches them through
`ProxyConfig::try_from`. -/
structure ConfigToml (RP : Type) where
  /-- `listen_port_tls`. -/
  listenPortTls : Option UInt16
  /-- `apps`. -/
  apps : Option (Apps RP)
  /-- `default_app`. -/
  defaultApp : Option (List Char)
  /-- `experimental.acme`. -/
  acme : Option AcmeOption

/-- `ProxyConfig`, by the ports `validate_and_build_settings` checks. -/
structure ProxyConfig where
  /-- `http_port`. -/
  httpPort : Option UInt16
  /-- `https_port`. -/
  httpsPort : Option UInt16
  /-- `public_https_port`. -/
  publicHttpsPort : Option UInt16

/-- `TlsConfig` of an `AppConfig`. -/
structure TlsConfig where
  /-- `mutual_tls`: a client CA is configured. -/
  mutualTls : Bool
  /-- `https_redirection`. -/
  httpsRedirection : Bool
  /-- `acme`. -/
  acme : Bool
  deriving DecidableEq

/-- `AppConfig`, with reverse-proxy settings of type `RPC`. -/
structure AppConfig (RPC : Type) where
  /-- `app_name`, the key of the `apps` table. -/
  appName : List Char
  /-- `server_name`. -/
  serverName : List Char
  /-- `reverse_proxy`. -/
  reverseProxy : RPC
  /-- `tls`, for a TLS application. -/
  tls : Option TlsConfig

/-- `AppConfigList`. -/
structure AppConfigList (RPC : Type) where
  /-- `inner`, one `AppConfig` per application. -/
  inner : List (AppConfig RPC)
  /-- `default_app`. -/
  defaultApp : Option (List Char)

/-! ### `ensure!` and `ok_or` -/

/-- `ensure!(c, e)`. -/
def ensure (c : Bool) (e : String) : Except String Unit :=
  if c then .ok () else .error e

/-- `Option::ok_or(e)`. -/
def okOr {α : Type} (o : Option α) (e : String) : Except String α :=
  match o with
  | some a => .ok a
  | none => .error e

@[simp]
theorem ensure_eq_ok {c : Bool} {e : String} {u : Unit} : ensure c e = .ok u ↔ c = true := by
  unfold ensure
  cases c <;> simp

@[simp]
theorem okOr_eq_ok {α : Type} {o : Option α} {e : String} {a : α} : okOr o e = .ok a ↔ o = some a := by
  unfold okOr
  cases o <;> simp

/-- A step that returns nothing and succeeds leaves the rest of the computation to run. -/
theorem bind_unit_eq_ok {β : Type} {x : Except String Unit} {k : Unit → Except String β} {b : β}
    (h : x >>= k = .ok b) : k () = .ok b := by
  obtain ⟨u, -, hk⟩ := except_bind_eq_ok.mp h
  exact hk

/-! ### `validate_server_name` -/

/-- `u8::is_ascii_alphanumeric`. -/
def isAsciiAlphanumeric (c : Char) : Bool := c.isAlphanum

/-- The messages of `validate_server_name`, with the name and the label they quote. -/
def serverNameLengthText (serverName : List Char) : String :=
  "Invalid server_name " ++ String.ofList (debugStr serverName) ++
    ": length must be between 1 and 253 characters"

def serverNameAsciiText (serverName : List Char) : String :=
  "Invalid server_name " ++ String.ofList (debugStr serverName) ++
    ": must be ASCII (use punycode for internationalized names)"

def labelLengthText (serverName : List Char) : String :=
  "Invalid server_name " ++ String.ofList (debugStr serverName) ++
    ": each dot-separated label must be between 1 and 63 characters"

def labelEndsText (serverName label : List Char) : String :=
  "Invalid server_name " ++ String.ofList (debugStr serverName) ++ ": label " ++ String.ofList (debugStr label) ++
    " must start and end with an alphanumeric character"

def labelCharsText (serverName label : List Char) : String :=
  "Invalid server_name " ++ String.ofList (debugStr serverName) ++ ": label " ++ String.ofList (debugStr label) ++
    " may contain only alphanumerics and \x27-\x27"

/-- The checks of `validate_server_name` on one dot-separated label of `serverName`. -/
def checkLabel (serverName label : List Char) : Except String Unit :=
  if label.isEmpty || 63 < (utf8Bytes label).length then .error (labelLengthText serverName)
  else if !(label.head?.all isAsciiAlphanumeric && label.getLast?.all isAsciiAlphanumeric) then
    .error (labelEndsText serverName label)
  else if !label.all (fun c => isAsciiAlphanumeric c || c == '-') then .error (labelCharsText serverName label)
  else .ok ()

/-- `validate_server_name`: a length in bytes, ASCII, and labels of letters, digits and `-`. -/
def validateServerName (serverName : List Char) : Except String Unit :=
  if serverName.isEmpty || 253 < (utf8Bytes serverName).length then .error (serverNameLengthText serverName)
  else if !serverName.all (fun c => c.toNat < 128) then .error (serverNameAsciiText serverName)
  else (serverName.splitOn '.').forM (checkLabel serverName)

example : validateServerName "a.example".toList = .ok () := by decide
example : validateServerName "a_b.example".toList = .error (labelCharsText "a_b.example".toList "a_b".toList) := by
  decide

/-! ### `validate_and_build_settings` -/

def missingServerNameText : String := "Missing server_name"
def acmePathsText : String :=
  "Condition failed: tls.tls_cert_key_path.is_none() && tls.tls_cert_path.is_none()"
def certPathsText : String :=
  "Condition failed: tls.tls_cert_key_path.is_some() && tls.tls_cert_path.is_some()"
def missingAppSpecText : String := "Missing application spec"
def wrongAppSpecText : String := "Wrong application spec."
def plaintextAppsText : String := "Some apps serve only plaintext HTTP"
def publicHttpsPortText : String :=
  "public_https_port can only be set when the TLS listener listen_port_tls is configured"
def httpsRedirectionText : String :=
  "https_redirection can be specified only when both http_port and https_port are specified. Just remove https_redirection settings in each app."
def noServerNameText : String := "No server name"

/-- The `TlsConfig` of a `tls` table: mutual TLS exactly when a client CA is given, and HTTPS
redirection unless it is turned off. -/
def TlsOption.tlsConfig (tls : TlsOption) : TlsConfig :=
  ⟨tls.clientCaCertPath.isSome, tls.httpsRedirection.getD true, tls.acme.getD false⟩

/-- An application whose `tls` table does not set `https_redirection`. -/
def noHttpsRedirection {RP : Type} (app : Application RP) : Bool :=
  match app.tls with
  | some tls => tls.httpsRedirection.isNone
  | none => true

section Settings

variable {RP RPC : Type} (proxyConfigOf : ConfigToml RP → Except String ProxyConfig)
  (reverseProxyConfigOf : Application RP → Except String RPC)

/-- The checks of a `tls` table in `build_app_config`, with the `acme` feature. -/
def checkTlsPaths (tls : TlsOption) : Except String Unit :=
  if tls.acme.getD false then ensure (tls.tlsCertKeyPath.isNone && tls.tlsCertPath.isNone) acmePathsText
  else ensure (tls.tlsCertKeyPath.isSome && tls.tlsCertPath.isSome) certPathsText

/-- The `tls_config` of `build_app_config`. -/
def buildTlsConfig (tls : Option TlsOption) : Except String (Option TlsConfig) :=
  match tls with
  | none => pure none
  | some tls => do
    checkTlsPaths tls
    pure (some tls.tlsConfig)

/-- `Application::build_app_config`. -/
def Application.buildAppConfig (app : Application RP) (appName : List Char) :
    Except String (AppConfig RPC) := do
  let serverName ← okOr app.serverName missingServerNameText
  validateServerName serverName
  let reverseProxy ← reverseProxyConfigOf app
  let tls ← buildTlsConfig app.tls
  pure ⟨appName, serverName, reverseProxy, tls⟩

/-- The checks of `validate_and_build_settings` on the table and the listening ports: at least one
application, TLS for all when there is no plaintext port, a public HTTPS port only with a TLS
port, and `https_redirection` only with both ports. -/
def checkAppsAndPorts (proxyConfig : ProxyConfig) (apps : Apps RP) : Except String Unit := do
  ensure (!apps.entries.isEmpty) wrongAppSpecText
  let allAppsHaveTls := apps.entries.all fun e => e.2.tls.isSome
  let allAppsNoHttpsRedirection := apps.entries.all fun e => noHttpsRedirection e.2
  if proxyConfig.httpPort.isNone then ensure allAppsHaveTls plaintextAppsText
  if proxyConfig.publicHttpsPort.isSome then ensure proxyConfig.httpsPort.isSome publicHttpsPortText
  if !(proxyConfig.httpsPort.isSome && proxyConfig.httpPort.isSome) then
    ensure allAppsNoHttpsRedirection httpsRedirectionText

/-- `ConfigToml::validate_and_build_settings`. -/
def ConfigToml.validateAndBuildSettings (conf : ConfigToml RP) :
    Except String (ProxyConfig × AppConfigList RPC) := do
  let proxyConfig ← proxyConfigOf conf
  let apps ← okOr conf.apps missingAppSpecText
  checkAppsAndPorts proxyConfig apps
  let inner ← apps.entries.mapM fun e => do
    let _ ← okOr e.2.serverName noServerNameText
    e.2.buildAppConfig reverseProxyConfigOf (toAsciiLowercase e.1)
  pure (proxyConfig, ⟨inner, conf.defaultApp.map toAsciiLowercase⟩)

end Settings

/-! ### `BackendAppManager::try_from` -/

/-- `to_server_name` of a `&str`: its bytes, lowercased. -/
def toServerName (s : List Char) : ServerName := ServerName.fromBytes (utf8Bytes s)

/-- `BackendApp`, with a path manager of type `PM`. -/
structure BackendApp (PM : Type) where
  /-- `app_name`. -/
  appName : List Char
  /-- `server_name`. -/
  serverName : ServerName
  /-- `path_manager`. -/
  pathManager : PM
  /-- `https_redirection`, for a TLS app. -/
  httpsRedirection : Option Bool
  /-- `mutual_tls`, for a TLS app. -/
  mutualTls : Option Bool

/-- `BackendAppManager`: the map from server names to applications, by its entries. -/
structure BackendAppManager (PM : Type) where
  /-- `apps`, the map from server names to applications. -/
  apps : List (ServerName × BackendApp PM)
  /-- `default_server_name`. -/
  defaultServerName : Option ServerName

section Manager

variable {RPC PM : Type} (pathManagerOf : AppConfig RPC → Except String PM)

/-- `BackendApp::try_from(&AppConfig)`: the TLS settings are set only for a TLS application. -/
def BackendApp.tryFrom (ac : AppConfig RPC) : Except String (BackendApp PM) := do
  let pathManager ← pathManagerOf ac
  pure ⟨ac.appName, toServerName ac.serverName, pathManager,
    ac.tls.map (·.httpsRedirection), ac.tls.map (·.mutualTls)⟩

/-- The server name of the first application named `defaultAppName` in the iteration order of
the map: `default_server_name[0]`. -/
def defaultServerNameOf (order : IterationOrder (ServerName × BackendApp PM))
    (apps : List (ServerName × BackendApp PM)) (defaultAppName : List Char) : Option ServerName :=
  (((order.order apps).filter fun e => e.2.appName == defaultAppName).map fun e => e.2.serverName).head?

/-- `BackendAppManager::try_from(&AppConfigList)`. -/
def BackendAppManager.tryFrom (order : IterationOrder (ServerName × BackendApp PM))
    (list : AppConfigList RPC) : Except String (BackendAppManager PM) := do
  let apps ← list.inner.foldlM (fun apps ac => do
    let backend ← BackendApp.tryFrom pathManagerOf ac
    pure (insert apps (toServerName ac.serverName) backend)) []
  pure ⟨apps, list.defaultApp.bind (defaultServerNameOf order apps)⟩

end Manager

/-! ### `build_cert_manager` and `build_cert_reloader` -/

/-- `CryptoFileSource`: where the certificate, key and client CA of a server name are read. -/
structure CryptoFileSource where
  /-- `tls_cert_path`. -/
  tlsCertPath : List Char
  /-- `tls_cert_key_path`. -/
  tlsCertKeyPath : List Char
  /-- `client_ca_cert_path`. -/
  clientCaCertPath : Option (List Char)
  deriving DecidableEq

def acmeDirUrl : List Char := "https://acme-v02.api.letsencrypt.org/directory".toList
def acmeRegistryPath : List Char := "./acme_registry".toList
def noAppsText : String := "No apps"
def acmeOptionText : String :=
  "Condition failed: acme_option.is_some() && tls.tls_cert_key_path.is_none() && tls.tls_cert_path.is_none()"
def unwrapNoneText : String := "called Option::unwrap() on a None value"

/-- The ACME registry path of a configuration, or its default. -/
def ConfigToml.registryPath {RP : Type} (conf : ConfigToml RP) : List Char :=
  (conf.acme.bind (·.registryPath)).getD acmeRegistryPath

/-- The ACME directory URL of a configuration, or its default. -/
def ConfigToml.dirUrl {RP : Type} (conf : ConfigToml RP) : List Char :=
  (conf.acme.bind (·.dirUrl)).getD acmeDirUrl

section Certs

variable {RP : Type} (cachedCertFileName : List (List Char) → List Char → List Char)

/-- `build_tls_for_app_acme`: an ACME application reads its certificate and key from the
registry, under its lowercased server name. -/
def buildTlsForAppAcme (tls : TlsOption) (acmeOption : Option AcmeOption) (serverName : List Char)
    (registryPath dirUrl : List Char) : Except String TlsOption :=
  if tls.acme = some true then do
    ensure (acmeOption.isSome && tls.tlsCertKeyPath.isNone && tls.tlsCertPath.isNone) acmeOptionText
    validateServerName serverName
    let subdir := registryPath ++ '/' :: toAsciiLowercase serverName
    let fileName := cachedCertFileName [toAsciiLowercase serverName] (toAsciiLowercase dirUrl)
    let certPath := subdir ++ '/' :: fileName
    pure { tls with tlsCertKeyPath := some certPath, tlsCertPath := some certPath }
  else pure tls

/-- The entry of one application in the `crypto_source_map`: none without a `tls` table. -/
def cryptoSourceEntry (conf : ConfigToml RP) (app : Application RP) :
    Except String (Option (List Char × CryptoFileSource)) :=
  match app.tls with
  | none => pure none
  | some tls => do
    let serverName ← okOr app.serverName noServerNameText
    let tls ← buildTlsForAppAcme cachedCertFileName tls conf.acme serverName
      conf.registryPath conf.dirUrl
    let tlsCertPath ← okOr tls.tlsCertPath unwrapNoneText
    let tlsCertKeyPath ← okOr tls.tlsCertKeyPath unwrapNoneText
    pure (some (serverName, ⟨tlsCertPath, tlsCertKeyPath, tls.clientCaCertPath⟩))

/-- `build_cert_reloader`, by the sources it hands to the reloader service: the map rekeyed by
lowercased bytes, collected in the map's iteration order. -/
def buildCertReloader (order : IterationOrder (List Char × CryptoFileSource))
    (cryptoSourceMap : List (List Char × CryptoFileSource)) : List (List UInt8 × CryptoFileSource) :=
  ofEntries ((order.order cryptoSourceMap).map fun e => ((toServerName e.1).inner, e.2))

/-- `build_cert_manager`: no reloader without a TLS port. -/
def buildCertManager (order : IterationOrder (List Char × CryptoFileSource)) (conf : ConfigToml RP) :
    Except String (Option (List (List UInt8 × CryptoFileSource))) := do
  let apps ← okOr conf.apps noAppsText
  if conf.listenPortTls.isNone then pure none
  else do
    let cryptoSourceMap ← apps.entries.foldlM (fun m e => do
      let entry ← cryptoSourceEntry cachedCertFileName conf e.2
      pure (entry.elim m fun (p : List Char × CryptoFileSource) => insert m p.1 p.2)) []
    pure (some (buildCertReloader order cryptoSourceMap))

end Certs

/-! ### What each builder makes -/

section Specs

variable {RP RPC PM : Type} {proxyConfigOf : ConfigToml RP → Except String ProxyConfig}
  {reverseProxyConfigOf : Application RP → Except String RPC}
  {pathManagerOf : AppConfig RPC → Except String PM}
  {cachedCertFileName : List (List Char) → List Char → List Char}

theorem buildTlsConfig_eq_ok {tlsOpt : Option TlsOption} {tls : Option TlsConfig}
    (h : buildTlsConfig tlsOpt = .ok tls) : tls = tlsOpt.map TlsOption.tlsConfig := by
  cases tlsOpt with
  | none => simpa [buildTlsConfig, eq_comm] using h
  | some t =>
    have h := bind_unit_eq_ok h
    simpa [eq_comm] using h

/-- A built `AppConfig` has the app name it was given, the server name of its table entry and
the `TlsConfig` of its `tls` table. -/
theorem buildAppConfig_eq_ok {app : Application RP} {appName : List Char} {ac : AppConfig RPC}
    (h : app.buildAppConfig reverseProxyConfigOf appName = .ok ac) :
    ac.appName = appName ∧ app.serverName = some ac.serverName ∧
      ac.tls = app.tls.map TlsOption.tlsConfig := by
  unfold Application.buildAppConfig at h
  obtain ⟨serverName, hname, h⟩ := except_bind_eq_ok.mp h
  obtain ⟨rp, -, h⟩ := except_bind_eq_ok.mp (bind_unit_eq_ok h)
  obtain ⟨tls, htls, h⟩ := except_bind_eq_ok.mp h
  have hac : ac = ⟨appName, serverName, rp, tls⟩ := by simpa [eq_comm] using h
  subst hac
  exact ⟨rfl, okOr_eq_ok.mp hname, buildTlsConfig_eq_ok htls⟩

/-- A built `AppConfig` holds the reverse-proxy settings of its table entry. -/
theorem buildAppConfig_reverseProxy {app : Application RP} {appName : List Char} {ac : AppConfig RPC}
    (h : app.buildAppConfig reverseProxyConfigOf appName = .ok ac) : reverseProxyConfigOf app = .ok ac.reverseProxy := by
  unfold Application.buildAppConfig at h
  obtain ⟨serverName, -, h⟩ := except_bind_eq_ok.mp h
  obtain ⟨rp, hrp, h⟩ := except_bind_eq_ok.mp (bind_unit_eq_ok h)
  obtain ⟨tls, -, h⟩ := except_bind_eq_ok.mp h
  have hac : ac = ⟨appName, serverName, rp, tls⟩ := by simpa [eq_comm] using h
  rw [hac]
  exact hrp

/-- A successful `validate_and_build_settings` builds one `AppConfig` per table entry, in the
order of the table, and lowercases `default_app`. -/
theorem validateAndBuildSettings_eq_ok {conf : ConfigToml RP} {p : ProxyConfig}
    {list : AppConfigList RPC}
    (h : conf.validateAndBuildSettings proxyConfigOf reverseProxyConfigOf = .ok (p, list)) :
    ∃ apps, conf.apps = some apps ∧
      List.Forall₂ (fun e ac => e.2.buildAppConfig reverseProxyConfigOf (toAsciiLowercase e.1) = .ok ac)
        apps.entries list.inner ∧
      list.defaultApp = conf.defaultApp.map toAsciiLowercase := by
  unfold ConfigToml.validateAndBuildSettings at h
  obtain ⟨p', -, h⟩ := except_bind_eq_ok.mp h
  obtain ⟨apps, happs, h⟩ := except_bind_eq_ok.mp h
  obtain ⟨inner, hinner, h⟩ := except_bind_eq_ok.mp (bind_unit_eq_ok h)
  have hlist : list = ⟨inner, conf.defaultApp.map toAsciiLowercase⟩ := by
    simpa [eq_comm] using (Prod.mk.inj (Except.ok.inj h)).2
  subst hlist
  refine ⟨apps, okOr_eq_ok.mp happs, ?_, rfl⟩
  refine (forall₂_of_mapM_eq_ok hinner).imp fun e ac hac => ?_
  obtain ⟨_, -, hac⟩ := except_bind_eq_ok.mp hac
  exact hac

/-- A `BackendApp` keeps the app name, and carries the server name lowercased and the mutual-TLS
flag of its `AppConfig`. -/
theorem BackendApp.tryFrom_eq_ok {ac : AppConfig RPC} {b : BackendApp PM}
    (h : BackendApp.tryFrom pathManagerOf ac = .ok b) :
    b.appName = ac.appName ∧ b.serverName = toServerName ac.serverName ∧
      b.mutualTls = ac.tls.map (·.mutualTls) := by
  obtain ⟨pm, -, h⟩ := except_bind_eq_ok.mp h
  have hb : b = ⟨ac.appName, toServerName ac.serverName, pm,
      ac.tls.map (·.httpsRedirection), ac.tls.map (·.mutualTls)⟩ := by
    simpa [eq_comm] using h
  subst hb
  exact ⟨rfl, rfl, rfl⟩

/-- A successful `BackendAppManager::try_from` collects one entry per `AppConfig`, in order, and
takes the default server name from the map it built. -/
theorem BackendAppManager.tryFrom_eq_ok {order : IterationOrder (ServerName × BackendApp PM)}
    {list : AppConfigList RPC} {mgr : BackendAppManager PM}
    (h : BackendAppManager.tryFrom pathManagerOf order list = .ok mgr) :
    ∃ es, List.Forall₂ (fun ac p => p.1 = toServerName ac.serverName ∧
        BackendApp.tryFrom pathManagerOf ac = .ok p.2) list.inner es ∧
      mgr.apps = ofEntries es ∧
      mgr.defaultServerName = list.defaultApp.bind (defaultServerNameOf order mgr.apps) := by
  obtain ⟨apps, happs, h⟩ := except_bind_eq_ok.mp h
  have hmgr : mgr = ⟨apps, list.defaultApp.bind (defaultServerNameOf order apps)⟩ := by
    simpa [eq_comm] using h
  subst hmgr
  obtain ⟨es, hes, rfl⟩ := foldlM_insert_eq_ok happs
  exact ⟨es, hes, rfl, rfl⟩

/-- A built manager stores every application under its own server name, each name once. -/
theorem BackendAppManager.tryFrom_keys {order : IterationOrder (ServerName × BackendApp PM)}
    {list : AppConfigList RPC} {mgr : BackendAppManager PM}
    (h : BackendAppManager.tryFrom pathManagerOf order list = .ok mgr) :
    (mgr.apps.map Prod.fst).Nodup ∧ ∀ e ∈ mgr.apps, e.1 = e.2.serverName := by
  obtain ⟨es, hes, happs, -⟩ := BackendAppManager.tryFrom_eq_ok h
  rw [happs]
  refine ⟨nodup_keys_ofEntries es, fun e he => ?_⟩
  obtain ⟨ac, -, hkey, hb⟩ := Forall₂.exists_of_mem_right hes (mem_of_mem_ofEntries he)
  rw [hkey, (BackendApp.tryFrom_eq_ok hb).2.1]

/-- The default server name of a built manager names one of its applications, so the handler's
`unwrap` of the default app cannot fail. -/
theorem BackendAppManager.tryFrom_default_mem {order : IterationOrder (ServerName × BackendApp PM)}
    {list : AppConfigList RPC} {mgr : BackendAppManager PM}
    (h : BackendAppManager.tryFrom pathManagerOf order list = .ok mgr) :
    ∀ d, mgr.defaultServerName = some d → (mgr.apps.lookup d).isSome := by
  obtain ⟨hnd, hkey⟩ := BackendAppManager.tryFrom_keys h
  obtain ⟨-, -, -, hdef⟩ := BackendAppManager.tryFrom_eq_ok h
  intro d hd
  rw [hdef] at hd
  obtain ⟨name, -, hname⟩ := Option.bind_eq_some_iff.mp hd
  obtain ⟨e, he, rfl⟩ : ∃ e ∈ order.order mgr.apps, e.2.serverName = d := by
    have hmem := List.mem_of_mem_head? hname
    simp only [List.mem_map, List.mem_filter] at hmem
    obtain ⟨e, ⟨he, -⟩, rfl⟩ := hmem
    exact ⟨e, he, rfl⟩
  have he' : e ∈ mgr.apps := (order.perm _).subset he
  rw [← hkey e he', lookup_eq_some_of_nodup hnd he']
  rfl

/-- An application whose path manager cannot be built makes the whole manager fail. -/
theorem BackendAppManager.tryFrom_of_mem_error {order : IterationOrder (ServerName × BackendApp PM)}
    {list : AppConfigList RPC} {ac : AppConfig RPC} (hac : ac ∈ list.inner) {e : String}
    (he : pathManagerOf ac = .error e) : ∃ e', BackendAppManager.tryFrom pathManagerOf order list = .error e' := by
  have hfail : ∀ apps : List (ServerName × BackendApp PM), ∃ e',
      (BackendApp.tryFrom pathManagerOf ac >>= fun backend =>
        pure (insert apps (toServerName ac.serverName) backend)) = .error e' := by
    intro apps
    refine ⟨e, ?_⟩
    rw [BackendApp.tryFrom, he]
    rfl
  obtain ⟨e', he'⟩ := foldlM_isError_of_mem (f := fun apps ac => BackendApp.tryFrom pathManagerOf ac >>= fun backend =>
    pure (insert apps (toServerName ac.serverName) backend)) hfail hac []
  refine ⟨e', ?_⟩
  rw [BackendAppManager.tryFrom, he']
  rfl

/-- The ACME settings change the certificate and key paths only. -/
theorem buildTlsForAppAcme_clientCaCertPath {tls tls' : TlsOption} {acmeOption : Option AcmeOption}
    {serverName registryPath dirUrl : List Char}
    (h : buildTlsForAppAcme cachedCertFileName tls acmeOption serverName registryPath dirUrl = .ok tls') :
    tls'.clientCaCertPath = tls.clientCaCertPath := by
  unfold buildTlsForAppAcme at h
  split at h
  · have h := bind_unit_eq_ok (bind_unit_eq_ok h)
    rw [← Except.ok.inj h]
  · rw [← Except.ok.inj h]

/-- An application has an entry in the `crypto_source_map` exactly when it has a `tls` table; the
entry is keyed by its server name as written and keeps its client CA. -/
theorem cryptoSourceEntry_eq_ok {conf : ConfigToml RP} {app : Application RP}
    {o : Option (List Char × CryptoFileSource)} (h : cryptoSourceEntry cachedCertFileName conf app = .ok o) :
    (app.tls = none → o = none) ∧
    ∀ p, o = some p → ∃ tls, app.tls = some tls ∧ app.serverName = some p.1 ∧
      p.2.clientCaCertPath = tls.clientCaCertPath := by
  unfold cryptoSourceEntry at h
  cases htls : app.tls with
  | none =>
    rw [htls] at h
    have ho : o = none := by simpa [eq_comm] using h
    exact ⟨fun _ => ho, fun p hp => by rw [ho] at hp; cases hp⟩
  | some tls =>
    rw [htls] at h
    obtain ⟨serverName, hname, h⟩ := except_bind_eq_ok.mp h
    obtain ⟨tls', htls', h⟩ := except_bind_eq_ok.mp h
    obtain ⟨certPath, -, h⟩ := except_bind_eq_ok.mp h
    obtain ⟨keyPath, -, h⟩ := except_bind_eq_ok.mp h
    have ho : o = some (serverName, ⟨certPath, keyPath, tls'.clientCaCertPath⟩) := by
      simpa [eq_comm] using h
    refine ⟨fun h => (by cases h), fun p hp => ?_⟩
    rw [ho, Option.some.injEq] at hp
    subst hp
    exact ⟨tls, rfl, okOr_eq_ok.mp hname, buildTlsForAppAcme_clientCaCertPath htls'⟩

/-- A successful `build_cert_manager`: nothing without a TLS port, and otherwise the reloader
of the sources of the table's entries, collected in the order of the table. -/
theorem buildCertManager_eq_ok {order : IterationOrder (List Char × CryptoFileSource)}
    {conf : ConfigToml RP} {certs : Option (List (List UInt8 × CryptoFileSource))}
    (h : buildCertManager cachedCertFileName order conf = .ok certs) :
    ∃ apps, conf.apps = some apps ∧ (conf.listenPortTls = none → certs = none) ∧
      (conf.listenPortTls ≠ none → ∃ os, List.Forall₂
        (fun e o => cryptoSourceEntry cachedCertFileName conf e.2 = .ok o) apps.entries os ∧
        certs = some (buildCertReloader order (ofEntries (os.filterMap id)))) := by
  obtain ⟨apps, happs, h⟩ := except_bind_eq_ok.mp h
  refine ⟨apps, okOr_eq_ok.mp happs, ?_⟩
  cases hport : conf.listenPortTls with
  | none =>
    rw [hport] at h
    have hcerts : certs = none := by simpa [eq_comm] using h
    exact ⟨fun _ => hcerts, fun hne => absurd rfl hne⟩
  | some port =>
    rw [hport] at h
    obtain ⟨cmap, hcmap, h⟩ := except_bind_eq_ok.mp h
    have hcerts : certs = some (buildCertReloader order cmap) := by simpa [eq_comm] using h
    obtain ⟨os, hos, rfl⟩ := foldlM_insert_some_eq_ok hcmap
    exact ⟨fun h => (by cases h), fun _ => ⟨os, hos, hcerts⟩⟩

end Specs

/-! ### Accepted configurations -/

/-- `default_app` names the table key `key`: both are compared lowercased. -/
def NamesApp (defaultApp : Option (List Char)) (key : List Char) : Prop :=
  defaultApp.map toAsciiLowercase = some (toAsciiLowercase key)

/-- No two applications of the table have server names, or keys, equal up to ASCII case. -/
structure Apps.CaseDistinct {RP : Type} (apps : Apps RP) : Prop where
  /-- Server names are distinct up to ASCII case. -/
  server_names : (apps.entries.map fun e => e.2.serverName.map toServerName).Nodup
  /-- Keys are distinct up to ASCII case. -/
  keys : (apps.entries.map fun e => toAsciiLowercase e.1).Nodup

/-- A configuration whose table, if any, is `CaseDistinct`. -/
def ConfigToml.CaseDistinct {RP : Type} (conf : ConfigToml RP) : Prop :=
  ∀ apps, conf.apps = some apps → apps.CaseDistinct

/-- Two configurations that differ at most in the iteration order of their tables. -/
structure ConfigToml.SameUpToOrder {RP : Type} (conf conf' : ConfigToml RP) : Prop where
  /-- The same `listen_port_tls`. -/
  listen_port_tls : conf'.listenPortTls = conf.listenPortTls
  /-- The same `default_app`. -/
  default_app : conf'.defaultApp = conf.defaultApp
  /-- The same ACME settings. -/
  acme : conf'.acme = conf.acme
  /-- The same applications, in another order. -/
  apps : ∃ apps apps', conf.apps = some apps ∧ conf'.apps = some apps' ∧ apps'.entries.Perm apps.entries

section Runs

variable {RP RPC PM : Type} (proxyConfigOf : ConfigToml RP → Except String ProxyConfig)
  (reverseProxyConfigOf : Application RP → Except String RPC)
  (pathManagerOf : AppConfig RPC → Except String PM)
  (cachedCertFileName : List (List Char) → List Char → List Char)

/-- The entry of the router's map that the builders make of a table entry. -/
def ManagerEntryOf (e : List Char × Application RP) (p : ServerName × BackendApp PM) : Prop :=
  ∃ ac, e.2.buildAppConfig reverseProxyConfigOf (toAsciiLowercase e.1) = .ok ac ∧
    p.1 = toServerName ac.serverName ∧ BackendApp.tryFrom pathManagerOf ac = .ok p.2

/-- The entry of the `crypto_source_map` that `build_cert_manager` makes of a table entry. -/
def SourceEntryOf (conf : ConfigToml RP) (e : List Char × Application RP)
    (p : List Char × CryptoFileSource) : Prop :=
  cryptoSourceEntry cachedCertFileName conf e.2 = .ok (some p)

/-- The entry of the certificate reloader that the builders make of a table entry. -/
def ReloaderEntryOf (conf : ConfigToml RP) (e : List Char × Application RP)
    (q : List UInt8 × CryptoFileSource) : Prop :=
  ∃ s, SourceEntryOf cachedCertFileName conf e (s, q.2) ∧ q.1 = (toServerName s).inner

/-- A configuration that `validate_and_build_settings`, `BackendAppManager::try_from` and
`build_cert_manager` all accept, with the iteration orders of the two maps read back. -/
structure AcceptedRun (conf : ConfigToml RP) where
  /-- The iteration order of the applications' map. -/
  appsOrder : IterationOrder (ServerName × BackendApp PM)
  /-- The iteration order of the certificate sources. -/
  sourcesOrder : IterationOrder (List Char × CryptoFileSource)
  /-- The settings' `ProxyConfig`. -/
  proxyConfig : ProxyConfig
  /-- The settings' `AppConfigList`. -/
  appConfigList : AppConfigList RPC
  /-- The built `BackendAppManager`. -/
  manager : BackendAppManager PM
  /-- The certificate sources, when any application has TLS. -/
  certs : Option (List (List UInt8 × CryptoFileSource))
  /-- `validate_and_build_settings` accepts the configuration. -/
  settings_ok : conf.validateAndBuildSettings proxyConfigOf reverseProxyConfigOf = .ok (proxyConfig, appConfigList)
  /-- `BackendAppManager::try_from` accepts the settings. -/
  manager_ok : BackendAppManager.tryFrom pathManagerOf appsOrder appConfigList = .ok manager
  /-- `build_cert_manager` accepts the configuration. -/
  certs_ok : buildCertManager cachedCertFileName sourcesOrder conf = .ok certs

end Runs

section RunFacts

variable {RP RPC PM : Type} {proxyConfigOf : ConfigToml RP → Except String ProxyConfig}
  {reverseProxyConfigOf : Application RP → Except String RPC}
  {pathManagerOf : AppConfig RPC → Except String PM}
  {cachedCertFileName : List (List Char) → List Char → List Char}

theorem ManagerEntryOf.key {e : List Char × Application RP} {p : ServerName × BackendApp PM}
    (h : ManagerEntryOf reverseProxyConfigOf pathManagerOf e p) :
    e.2.serverName.map toServerName = some p.1 ∧ p.2.appName = toAsciiLowercase e.1 ∧
      p.2.serverName = p.1 := by
  obtain ⟨ac, hac, hkey, hb⟩ := h
  obtain ⟨hname, hserver, -⟩ := buildAppConfig_eq_ok hac
  obtain ⟨happ, hbserver, -⟩ := BackendApp.tryFrom_eq_ok hb
  exact ⟨by rw [hserver, hkey]; rfl, happ.trans hname, hbserver.trans hkey.symm⟩

theorem ManagerEntryOf.unique {e : List Char × Application RP} {p p' : ServerName × BackendApp PM}
    (h : ManagerEntryOf reverseProxyConfigOf pathManagerOf e p)
    (h' : ManagerEntryOf reverseProxyConfigOf pathManagerOf e p') : p = p' := by
  obtain ⟨ac, hac, hkey, hb⟩ := h
  obtain ⟨ac', hac', hkey', hb'⟩ := h'
  have hacs : ac = ac' := Except.ok.inj (hac.symm.trans hac')
  subst hacs
  exact Prod.ext (hkey.trans hkey'.symm) (Except.ok.inj (hb.symm.trans hb'))

/-- The mutual-TLS flag of an application's entry says whether its `tls` table has a client CA. -/
theorem ManagerEntryOf.mutualTls {e : List Char × Application RP} {p : ServerName × BackendApp PM}
    (h : ManagerEntryOf reverseProxyConfigOf pathManagerOf e p) :
    p.2.mutualTls = e.2.tls.map fun tls => tls.clientCaCertPath.isSome := by
  obtain ⟨ac, hac, -, hb⟩ := h
  obtain ⟨-, -, htls⟩ := buildAppConfig_eq_ok hac
  obtain ⟨-, -, hmutual⟩ := BackendApp.tryFrom_eq_ok hb
  rw [hmutual, htls, Option.map_map]
  rfl

theorem SourceEntryOf.unique {conf : ConfigToml RP} {e : List Char × Application RP}
    {p p' : List Char × CryptoFileSource} (h : SourceEntryOf cachedCertFileName conf e p)
    (h' : SourceEntryOf cachedCertFileName conf e p') : p = p' :=
  Option.some.inj (Except.ok.inj (h.symm.trans h'))

theorem SourceEntryOf.key {conf : ConfigToml RP} {e : List Char × Application RP}
    {p : List Char × CryptoFileSource} (h : SourceEntryOf cachedCertFileName conf e p) :
    ∃ tls, e.2.tls = some tls ∧ e.2.serverName = some p.1 ∧
      p.2.clientCaCertPath = tls.clientCaCertPath :=
  (cryptoSourceEntry_eq_ok h).2 p rfl

theorem ReloaderEntryOf.unique {conf : ConfigToml RP} {e : List Char × Application RP}
    {q q' : List UInt8 × CryptoFileSource} (h : ReloaderEntryOf cachedCertFileName conf e q)
    (h' : ReloaderEntryOf cachedCertFileName conf e q') : q = q' := by
  obtain ⟨s, hs, hq⟩ := h
  obtain ⟨s', hs', hq'⟩ := h'
  have hp := SourceEntryOf.unique hs hs'
  rw [Prod.mk.injEq] at hp
  obtain ⟨rfl, hsrc⟩ := hp
  exact Prod.ext (hq.trans hq'.symm) hsrc

/-- In a `CaseDistinct` table, entries whose server names are equal up to ASCII case are one entry. -/
theorem eq_of_serverName_eq {apps : Apps RP} (hd : apps.CaseDistinct)
    {e e' : List Char × Application RP} (he : e ∈ apps.entries) (he' : e' ∈ apps.entries)
    (h : e.2.serverName.map toServerName = e'.2.serverName.map toServerName) : e = e' :=
  List.inj_on_of_nodup_map hd.server_names he he' h

/-- In a `CaseDistinct` table, `default_app` names at most one entry. -/
theorem eq_of_namesApp {apps : Apps RP} (hd : apps.CaseDistinct) {defaultApp : Option (List Char)}
    {e e' : List Char × Application RP} (he : e ∈ apps.entries) (he' : e' ∈ apps.entries)
    (hn : NamesApp defaultApp e.1) (hn' : NamesApp defaultApp e'.1) : e = e' := by
  have hkeys : toAsciiLowercase e.1 = toAsciiLowercase e'.1 :=
    Option.some.inj (hn.symm.trans hn')
  exact List.inj_on_of_nodup_map hd.keys he he' hkeys

end RunFacts

/-! ### The maps of an accepted run -/

section RunMaps

variable {RP RPC PM : Type} {proxyConfigOf : ConfigToml RP → Except String ProxyConfig}
  {reverseProxyConfigOf : Application RP → Except String RPC}
  {pathManagerOf : AppConfig RPC → Except String PM}
  {cachedCertFileName : List (List Char) → List Char → List Char}
  {conf : ConfigToml RP}

/-- The router's map of an accepted run: one entry per table entry, collected in the order of
the table, and the default server name read from it. -/
theorem AcceptedRun.manager_eq
    (run : AcceptedRun proxyConfigOf reverseProxyConfigOf pathManagerOf cachedCertFileName conf) :
    ∃ apps es, conf.apps = some apps ∧
      List.Forall₂ (ManagerEntryOf reverseProxyConfigOf pathManagerOf) apps.entries es ∧
      run.manager.apps = ofEntries es ∧
      run.manager.defaultServerName = (conf.defaultApp.map toAsciiLowercase).bind
        (defaultServerNameOf run.appsOrder run.manager.apps) := by
  obtain ⟨apps, happs, hinner, hdefault⟩ := validateAndBuildSettings_eq_ok run.settings_ok
  obtain ⟨es, hes, hmgr, hmdefault⟩ := BackendAppManager.tryFrom_eq_ok run.manager_ok
  refine ⟨apps, es, happs, (Forall₂.comp hinner hes).imp ?_, hmgr, by rw [hmdefault, hdefault]⟩
  rintro e p ⟨ac, hac, hkey, hb⟩
  exact ⟨ac, hac, hkey, hb⟩

/-- With distinct server names, the router's map sends a server name to an application exactly
when the builders make that entry of a table entry. -/
theorem AcceptedRun.lookup_manager_apps
    (run : AcceptedRun proxyConfigOf reverseProxyConfigOf pathManagerOf cachedCertFileName conf)
    {apps : Apps RP} (happs : conf.apps = some apps) (hd : apps.CaseDistinct)
    (n : ServerName) (b : BackendApp PM) :
    run.manager.apps.lookup n = some b ↔
      ∃ e ∈ apps.entries, ManagerEntryOf reverseProxyConfigOf pathManagerOf e (n, b) := by
  obtain ⟨apps', es, happs', hes, hmgr, -⟩ := run.manager_eq
  obtain rfl : apps = apps' := Option.some.inj (happs.symm.trans happs')
  rw [hmgr]
  refine lookup_ofEntries_iff (fun q hq => Forall₂.exists_of_mem_right hes hq) ?_
    (fun _ _ _ => ManagerEntryOf.unique) ?_ n b
  · intro e he q hq
    obtain ⟨p, hp, hep⟩ := Forall₂.exists_of_mem_left hes he
    rwa [ManagerEntryOf.unique hq hep]
  · intro e he e' he' q q' hq hq' hkey
    apply eq_of_serverName_eq hd he he'
    rw [(ManagerEntryOf.key hq).1, (ManagerEntryOf.key hq').1, hkey]

section Sources

variable {apps : Apps RP} {os : List (Option (List Char × CryptoFileSource))}

theorem sourceEntryOf_of_mem (hos : List.Forall₂
      (fun e o => cryptoSourceEntry cachedCertFileName conf e.2 = .ok o) apps.entries os)
    {p : List Char × CryptoFileSource} (hp : p ∈ os.filterMap id) :
    ∃ e ∈ apps.entries, SourceEntryOf cachedCertFileName conf e p := by
  obtain ⟨o, ho, hop⟩ := List.mem_filterMap.mp hp
  obtain ⟨e, he, heo⟩ := Forall₂.exists_of_mem_right hos ho
  refine ⟨e, he, ?_⟩
  rw [SourceEntryOf, heo]
  rw [show o = some p from hop]

theorem mem_of_sourceEntryOf (hos : List.Forall₂
      (fun e o => cryptoSourceEntry cachedCertFileName conf e.2 = .ok o) apps.entries os)
    {e : List Char × Application RP} (he : e ∈ apps.entries) {p : List Char × CryptoFileSource}
    (hp : SourceEntryOf cachedCertFileName conf e p) : p ∈ os.filterMap id := by
  obtain ⟨o, ho, heo⟩ := Forall₂.exists_of_mem_left hos he
  have hop : o = some p := Except.ok.inj (heo.symm.trans hp)
  exact List.mem_filterMap.mpr ⟨o, ho, hop⟩

/-- With distinct server names, the `crypto_source_map` sends a server name as written to a
source exactly when a table entry gives that entry. -/
theorem lookup_cryptoSourceMap (hd : apps.CaseDistinct) (hos : List.Forall₂
      (fun e o => cryptoSourceEntry cachedCertFileName conf e.2 = .ok o) apps.entries os)
    (s : List Char) (src : CryptoFileSource) :
    (ofEntries (os.filterMap id)).lookup s = some src ↔
      ∃ e ∈ apps.entries, SourceEntryOf cachedCertFileName conf e (s, src) := by
  refine lookup_ofEntries_iff (fun q hq => sourceEntryOf_of_mem hos hq)
    (fun e he q hq => mem_of_sourceEntryOf hos he hq) (fun _ _ _ => SourceEntryOf.unique) ?_ s src
  intro e he e' he' q q' hq hq' hkey
  obtain ⟨_, -, hname, -⟩ := hq.key
  obtain ⟨_, -, hname', -⟩ := hq'.key
  apply eq_of_serverName_eq hd he he'
  rw [hname, hname', hkey]

/-- With distinct server names, the certificate reloader sends lowercased bytes to a source
exactly when a table entry gives that entry, whatever the iteration order of the source map. -/
theorem lookup_buildCertReloader (hd : apps.CaseDistinct) (hos : List.Forall₂
      (fun e o => cryptoSourceEntry cachedCertFileName conf e.2 = .ok o) apps.entries os)
    (order : IterationOrder (List Char × CryptoFileSource)) (n : List UInt8) (src : CryptoFileSource) :
    (buildCertReloader order (ofEntries (os.filterMap id))).lookup n = some src ↔
      ∃ e ∈ apps.entries, ReloaderEntryOf cachedCertFileName conf e (n, src) := by
  unfold buildCertReloader
  refine lookup_ofEntries_iff (κ := List UInt8) (R := ReloaderEntryOf cachedCertFileName conf) ?_ ?_
    (fun _ _ _ => ReloaderEntryOf.unique) ?_ n src
  · intro q hq
    obtain ⟨p, hp, rfl⟩ := List.mem_map.mp hq
    have hp' : p ∈ os.filterMap id := mem_of_mem_ofEntries ((order.perm _).mem_iff.mp hp)
    obtain ⟨e, he, hep⟩ := sourceEntryOf_of_mem hos hp'
    exact ⟨e, he, p.1, hep, rfl⟩
  · rintro e he q ⟨s, hs, hq⟩
    have hlookup : (ofEntries (os.filterMap id)).lookup s = some q.2 :=
      (lookup_cryptoSourceMap hd hos s q.2).mpr ⟨e, he, hs⟩
    have hmem : (s, q.2) ∈ order.order (ofEntries (os.filterMap id)) :=
      (order.perm _).mem_iff.mpr (mem_of_lookup_eq_some hlookup)
    refine List.mem_map.mpr ⟨(s, q.2), hmem, ?_⟩
    exact Prod.ext hq.symm rfl
  · rintro e he e' he' q q' ⟨s, hs, hq⟩ ⟨s', hs', hq'⟩ hkey
    have hinner : (toServerName s).inner = (toServerName s').inner := hq.symm.trans (hkey.trans hq')
    have hserver : toServerName s = toServerName s' := by
      show ServerName.mk (toServerName s).inner = ServerName.mk (toServerName s').inner
      rw [hinner]
    obtain ⟨_, -, hname, -⟩ := hs.key
    obtain ⟨_, -, hname', -⟩ := hs'.key
    apply eq_of_serverName_eq hd he he'
    rw [hname, hname']
    exact congrArg some hserver

end Sources

/-- The certificate reloader of an accepted run exists exactly when there is a TLS port. -/
theorem AcceptedRun.certs_eq_none_iff
    (run : AcceptedRun proxyConfigOf reverseProxyConfigOf pathManagerOf cachedCertFileName conf) :
    run.certs = none ↔ conf.listenPortTls = none := by
  obtain ⟨apps, -, hnone, hsome⟩ := buildCertManager_eq_ok run.certs_ok
  constructor
  · intro hcerts
    by_contra hport
    obtain ⟨os, -, hc⟩ := hsome hport
    rw [hcerts] at hc
    cases hc
  · exact hnone

/-- With distinct server names, the certificate reloader of an accepted run sends lowercased
bytes to a source exactly when a table entry gives that entry. -/
theorem AcceptedRun.lookup_certs
    (run : AcceptedRun proxyConfigOf reverseProxyConfigOf pathManagerOf cachedCertFileName conf)
    {apps : Apps RP} (happs : conf.apps = some apps) (hd : apps.CaseDistinct)
    {reloader : List (List UInt8 × CryptoFileSource)} (hc : run.certs = some reloader)
    (n : List UInt8) (src : CryptoFileSource) :
    reloader.lookup n = some src ↔ ∃ e ∈ apps.entries, ReloaderEntryOf cachedCertFileName conf e (n, src) := by
  obtain ⟨apps', happs', -, hsome⟩ := buildCertManager_eq_ok run.certs_ok
  obtain rfl : apps = apps' := Option.some.inj (happs.symm.trans happs')
  have hport : conf.listenPortTls ≠ none := fun h => by
    rw [← run.certs_eq_none_iff, hc] at h
    cases h
  obtain ⟨os, hos, hcerts⟩ := hsome hport
  rw [hc, Option.some.injEq] at hcerts
  rw [hcerts]
  exact lookup_buildCertReloader hd hos run.sourcesOrder n src

/-- Every entry of the router's map is the entry of some application of the table. -/
theorem AcceptedRun.exists_of_mem_manager_apps
    (run : AcceptedRun proxyConfigOf reverseProxyConfigOf pathManagerOf cachedCertFileName conf)
    {apps : Apps RP} (happs : conf.apps = some apps) {q : ServerName × BackendApp PM}
    (hq : q ∈ run.manager.apps) : ∃ e ∈ apps.entries, ManagerEntryOf reverseProxyConfigOf pathManagerOf e q := by
  obtain ⟨apps', es, happs', hes, hmgr, -⟩ := run.manager_eq
  obtain rfl : apps = apps' := Option.some.inj (happs.symm.trans happs')
  rw [hmgr] at hq
  exact Forall₂.exists_of_mem_right hes (mem_of_mem_ofEntries hq)

/-- With distinct server names and keys, the search for `default_app` in the router's map finds
the entry of the application it names, in every iteration order of the map. -/
theorem AcceptedRun.defaultServerNameOf_of_namesApp
    (run : AcceptedRun proxyConfigOf reverseProxyConfigOf pathManagerOf cachedCertFileName conf)
    {apps : Apps RP} (happs : conf.apps = some apps) (hd : apps.CaseDistinct) {a : List Char}
    {e : List Char × Application RP} (he : e ∈ apps.entries) (hn : NamesApp (some a) e.1)
    {p : ServerName × BackendApp PM} (hep : ManagerEntryOf reverseProxyConfigOf pathManagerOf e p) :
    defaultServerNameOf run.appsOrder run.manager.apps (toAsciiLowercase a) = some p.1 := by
  have hlow : toAsciiLowercase a = toAsciiLowercase e.1 := Option.some.inj hn
  have hmem : p ∈ run.manager.apps :=
    mem_of_lookup_eq_some ((run.lookup_manager_apps happs hd p.1 p.2).mpr ⟨e, he, hep⟩)
  have hfirst : ((run.appsOrder.order run.manager.apps).filter
      fun q => q.2.appName == toAsciiLowercase a).head? = some p := by
    refine head?_filter_of_unique (run.appsOrder.perm _) hmem ?_ ?_
    · rw [(ManagerEntryOf.key hep).2.1, hlow]
      exact beq_self_eq_true _
    · intro q hq hqname
      obtain ⟨e', he', heq⟩ := run.exists_of_mem_manager_apps happs hq
      have hn' : NamesApp (some a) e'.1 := by
        rw [NamesApp, Option.map_some, ← (ManagerEntryOf.key heq).2.1, beq_iff_eq.mp hqname]
      obtain rfl := eq_of_namesApp hd he he' hn hn'
      exact ManagerEntryOf.unique heq hep
  rw [defaultServerNameOf, List.head?_map, hfirst, Option.map_some, (ManagerEntryOf.key hep).2.2]

/-- The search for a `default_app` that names no application finds nothing. -/
theorem AcceptedRun.defaultServerNameOf_eq_none
    (run : AcceptedRun proxyConfigOf reverseProxyConfigOf pathManagerOf cachedCertFileName conf)
    {apps : Apps RP} (happs : conf.apps = some apps) {a : List Char}
    (hnamed : ¬∃ e ∈ apps.entries, NamesApp (some a) e.1) :
    defaultServerNameOf run.appsOrder run.manager.apps (toAsciiLowercase a) = none := by
  rw [defaultServerNameOf, List.head?_map, head?_filter_eq_none]
  · rfl
  intro q hq
  obtain ⟨e', he', heq⟩ := run.exists_of_mem_manager_apps happs ((run.appsOrder.perm _).mem_iff.mp hq)
  rw [beq_eq_false_iff_ne, (ManagerEntryOf.key heq).2.1]
  intro hlow
  exact hnamed ⟨e', he', by rw [NamesApp, Option.map_some, hlow]⟩

/-- With distinct server names and keys, the default server name of an accepted run is that of
the application `default_app` names, and there is none when it names none. -/
theorem AcceptedRun.defaultServerName_eq_some
    (run : AcceptedRun proxyConfigOf reverseProxyConfigOf pathManagerOf cachedCertFileName conf)
    {apps : Apps RP} (happs : conf.apps = some apps) (hd : apps.CaseDistinct) (d : ServerName) :
    run.manager.defaultServerName = some d ↔
      ∃ e ∈ apps.entries, NamesApp conf.defaultApp e.1 ∧
        ∃ p, ManagerEntryOf reverseProxyConfigOf pathManagerOf e p ∧ p.1 = d := by
  obtain ⟨apps', es, happs', hes, -, hdef⟩ := run.manager_eq
  obtain rfl : apps = apps' := Option.some.inj (happs.symm.trans happs')
  rw [hdef]
  cases ha : conf.defaultApp with
  | none =>
    constructor
    · intro h
      cases h
    · rintro ⟨e, -, hn, -⟩
      cases hn
  | some a =>
    rw [Option.map_some, Option.bind_some]
    by_cases hnamed : ∃ e ∈ apps.entries, NamesApp (some a) e.1
    · obtain ⟨e, he, hn⟩ := hnamed
      obtain ⟨p, -, hep⟩ := Forall₂.exists_of_mem_left hes he
      rw [run.defaultServerNameOf_of_namesApp happs hd he hn hep]
      constructor
      · intro h
        exact ⟨e, he, hn, p, hep, Option.some.inj h⟩
      · rintro ⟨e', he', hn', p', hp', rfl⟩
        obtain rfl := eq_of_namesApp hd he he' hn hn'
        rw [ManagerEntryOf.unique hep hp']
    · rw [run.defaultServerNameOf_eq_none happs hnamed]
      constructor
      · intro h
        cases h
      · rintro ⟨e, he, hn, -⟩
        exact absurd ⟨e, he, hn⟩ hnamed

theorem Apps.CaseDistinct.perm {apps apps' : Apps RP} (hd : apps.CaseDistinct)
    (hp : apps'.entries.Perm apps.entries) : apps'.CaseDistinct :=
  ⟨(hp.map _).nodup_iff.mpr hd.server_names, (hp.map _).nodup_iff.mpr hd.keys⟩

/-- The entries `build_cert_manager` makes read the ACME settings of the configuration only. -/
theorem reloaderEntryOf_congr {conf' : ConfigToml RP} (h : conf'.acme = conf.acme) :
    ReloaderEntryOf cachedCertFileName conf' = ReloaderEntryOf cachedCertFileName conf := by
  have hentry : cryptoSourceEntry cachedCertFileName conf' = cryptoSourceEntry cachedCertFileName conf := by
    funext app
    unfold cryptoSourceEntry ConfigToml.registryPath ConfigToml.dirUrl
    rw [h]
  funext e q
  unfold ReloaderEntryOf SourceEntryOf
  rw [hentry]

/-- With distinct server names and keys, two accepted runs of configurations that differ only in
the order of their tables have the same router map, default server name and certificate
reloader, whatever the iteration orders of their maps. -/
theorem AcceptedRun.eq_of_sameUpToOrder
    (run : AcceptedRun proxyConfigOf reverseProxyConfigOf pathManagerOf cachedCertFileName conf)
    {conf' : ConfigToml RP}
    (run' : AcceptedRun proxyConfigOf reverseProxyConfigOf pathManagerOf cachedCertFileName conf')
    (hd : conf.CaseDistinct) (hsame : conf.SameUpToOrder conf') :
    (∀ n, run'.manager.apps.lookup n = run.manager.apps.lookup n) ∧
      run'.manager.defaultServerName = run.manager.defaultServerName ∧
      ∀ n, run'.certs.map (List.lookup n) = run.certs.map (List.lookup n) := by
  obtain ⟨apps, apps', happs, happs', hperm⟩ := hsame.apps
  have hd₁ : apps.CaseDistinct := hd apps happs
  have hd' : apps'.CaseDistinct := hd₁.perm hperm
  have hmem : ∀ P : List Char × Application RP → Prop,
      (∃ e ∈ apps'.entries, P e) ↔ ∃ e ∈ apps.entries, P e := fun P =>
    ⟨fun ⟨e, he, h⟩ => ⟨e, hperm.mem_iff.mp he, h⟩, fun ⟨e, he, h⟩ => ⟨e, hperm.mem_iff.mpr he, h⟩⟩
  refine ⟨fun n => Option.ext fun b => ?_, Option.ext fun d => ?_, fun n => ?_⟩
  · rw [run'.lookup_manager_apps happs' hd', run.lookup_manager_apps happs hd₁]
    exact hmem _
  · rw [run'.defaultServerName_eq_some happs' hd', run.defaultServerName_eq_some happs hd₁,
      hsame.default_app]
    exact hmem _
  · cases hc : run.certs with
    | none =>
      have hc' : run'.certs = none :=
        run'.certs_eq_none_iff.mpr (hsame.listen_port_tls.trans (run.certs_eq_none_iff.mp hc))
      rw [hc']
    | some r =>
      cases hc' : run'.certs with
      | none =>
        have hnone : run.certs = none :=
          run.certs_eq_none_iff.mpr (hsame.listen_port_tls.symm.trans (run'.certs_eq_none_iff.mp hc'))
        rw [hc] at hnone
        cases hnone
      | some r' =>
        rw [Option.map_some, Option.map_some, Option.some.injEq]
        refine Option.ext fun src => ?_
        rw [run'.lookup_certs happs' hd' hc' n src, run.lookup_certs happs hd₁ hc n src,
          reloaderEntryOf_congr hsame.acme]
        exact hmem _

end RunMaps

/-! ### Unambiguous configurations -/

section Unambiguous

variable {RP RPC PM : Type} {proxyConfigOf : ConfigToml RP → Except String ProxyConfig}
  {reverseProxyConfigOf : Application RP → Except String RPC}
  {pathManagerOf : AppConfig RPC → Except String PM}
  {cachedCertFileName : List (List Char) → List Char → List Char}
  {conf : ConfigToml RP}

theorem accepted_config_unambiguous
    (run : AcceptedRun proxyConfigOf reverseProxyConfigOf pathManagerOf cachedCertFileName conf)
    (hd : conf.CaseDistinct) :
    ∃ apps, conf.apps = some apps ∧
      (∀ e ∈ apps.entries, ∃ p, ManagerEntryOf reverseProxyConfigOf pathManagerOf e p ∧
        run.manager.apps.lookup p.1 = some p.2) ∧
      (∀ reloader, run.certs = some reloader →
        ∀ (n : ServerName) (src : CryptoFileSource) (b : BackendApp PM),
          reloader.lookup n.inner = some src → run.manager.apps.lookup n = some b →
          ∃ e ∈ apps.entries, ReloaderEntryOf cachedCertFileName conf e (n.inner, src) ∧
            ManagerEntryOf reverseProxyConfigOf pathManagerOf e (n, b) ∧
            b.mutualTls = some src.clientCaCertPath.isSome) ∧
      (∀ d, run.manager.defaultServerName = some d ↔
        ∃ e ∈ apps.entries, NamesApp conf.defaultApp e.1 ∧
          ∃ p, ManagerEntryOf reverseProxyConfigOf pathManagerOf e p ∧ p.1 = d) ∧
      (∀ e ∈ apps.entries, ∀ e' ∈ apps.entries,
        NamesApp conf.defaultApp e.1 → NamesApp conf.defaultApp e'.1 → e = e') ∧
      (∀ (conf' : ConfigToml RP)
          (run' : AcceptedRun proxyConfigOf reverseProxyConfigOf pathManagerOf cachedCertFileName conf'),
        conf.SameUpToOrder conf' →
        (∀ n, run'.manager.apps.lookup n = run.manager.apps.lookup n) ∧
          run'.manager.defaultServerName = run.manager.defaultServerName ∧
          ∀ n, run'.certs.map (List.lookup n) = run.certs.map (List.lookup n)) := by
  obtain ⟨apps, es, happs, hes, -, -⟩ := run.manager_eq
  have hd₁ : apps.CaseDistinct := hd apps happs
  refine ⟨apps, happs, ?_, ?_, run.defaultServerName_eq_some happs hd₁, ?_, ?_⟩
  · intro e he
    obtain ⟨p, -, hep⟩ := Forall₂.exists_of_mem_left hes he
    exact ⟨p, hep, (run.lookup_manager_apps happs hd₁ p.1 p.2).mpr ⟨e, he, hep⟩⟩
  · intro reloader hc n src b hsrc hb
    obtain ⟨e, he, s, hs, hinner⟩ := (run.lookup_certs happs hd₁ hc n.inner src).mp hsrc
    obtain ⟨e', he', hme⟩ := (run.lookup_manager_apps happs hd₁ n b).mp hb
    obtain ⟨tls, htls, hname, hca⟩ := hs.key
    have hserver : toServerName s = n := by
      show ServerName.mk (toServerName s).inner = ServerName.mk n.inner
      rw [← hinner]
    have hee' : e = e' := by
      apply eq_of_serverName_eq hd₁ he he'
      rw [hname, (ManagerEntryOf.key hme).1, Option.map_some, hserver]
    subst hee'
    refine ⟨e, he, ⟨s, hs, hinner⟩, hme, ?_⟩
    rw [ManagerEntryOf.mutualTls hme, htls, Option.map_some, hca]
  · intro e he e' he' hn hn'
    exact eq_of_namesApp hd₁ he he' hn hn'
  · intro conf' run' hsame
    exact run.eq_of_sameUpToOrder run' hd hsame

end Unambiguous

/-! ### Configurations of two applications -/

/-- The ports of the examples: plaintext HTTP on 80 and TLS on 443. -/
def exampleProxyConfig (_ : ConfigToml Unit) : Except String ProxyConfig :=
  .ok ⟨some 80, some 443, none⟩

/-- Reverse-proxy settings that build. -/
def exampleReverseProxy (_ : Application Unit) : Except String Unit := .ok ()

/-- Path managers that build. -/
def examplePathManager (_ : AppConfig Unit) : Except String Unit := .ok ()

/-- A fixed file name for ACME certificates. -/
def exampleCertFileName (_ : List (List Char)) (_ : List Char) : List Char := "cached_cert".toList

/-- A TLS application with its own certificate and key and, if given, a client CA. -/
def tlsApp (serverName cert : String) (clientCa : Option String) : Application Unit :=
  ⟨some serverName.toList, (), some ⟨some (cert ++ ".crt").toList, some (cert ++ ".key").toList, none,
    clientCa.map String.toList, none⟩⟩

/-- A plaintext application. -/
def plainApp (serverName : String) : Application Unit := ⟨some serverName.toList, (), none⟩

/-- A configuration with a TLS port, the given table and `default_app`. -/
def exampleConf (entries : List (List Char × Application Unit)) (h : (entries.map Prod.fst).Nodup)
    (defaultApp : Option String) : ConfigToml Unit :=
  ⟨some 443, some ⟨entries, h⟩, defaultApp.map String.toList, none⟩

/-- Two TLS applications, one with a client CA, and `default_app` naming the first. -/
def distinctConf : ConfigToml Unit :=
  exampleConf [("x".toList, tlsApp "a.example" "x" (some "ca.pem")), ("y".toList, tlsApp "b.example" "y" none)]
    (by decide) (some "X")

def distinctRun : AcceptedRun exampleProxyConfig exampleReverseProxy examplePathManager
    exampleCertFileName distinctConf :=
  ⟨.given _, .given _, _, _, _, _, rfl, rfl, rfl⟩

theorem accepted_config_unambiguous_default :
    distinctConf.CaseDistinct ∧
      distinctRun.manager.defaultServerName = some (toServerName "a.example".toList) := by
  have hd : distinctConf.CaseDistinct := by
    intro apps happs
    obtain rfl := Option.some.inj happs
    exact ⟨by decide, by decide⟩
  obtain ⟨apps, happs, -, -, hdefault, -, -⟩ := accepted_config_unambiguous distinctRun hd
  obtain rfl := Option.some.inj happs
  refine ⟨hd, (hdefault _).mpr ⟨("x".toList, tlsApp "a.example" "x" (some "ca.pem")), List.mem_cons_self,
    rfl, (toServerName "a.example".toList, ⟨"x".toList, toServerName "a.example".toList, (), some true,
      some true⟩), ⟨_, rfl, rfl, rfl⟩, rfl⟩⟩

/-- The `BackendApp` the examples build of a TLS application. -/
def exampleBackend (appName serverName : String) (mutualTls : Bool) : BackendApp Unit :=
  ⟨appName.toList, toServerName serverName.toList, (), some true, some mutualTls⟩

/-- Two TLS applications whose server names differ in case only, the first without a client CA. -/
def collidingConf : ConfigToml Unit :=
  exampleConf [("y".toList, tlsApp "a.example" "y" none), ("x".toList, tlsApp "A.example" "x" (some "ca.pem"))]
    (by decide) none

def collidingRun : AcceptedRun exampleProxyConfig exampleReverseProxy examplePathManager
    exampleCertFileName collidingConf :=
  ⟨.given _, .given _, _, _, _, _, rfl, rfl, rfl⟩

/-- The same table in the other order. -/
def reorderedConf : ConfigToml Unit :=
  exampleConf [("x".toList, tlsApp "A.example" "x" (some "ca.pem")), ("y".toList, tlsApp "a.example" "y" none)]
    (by decide) none

def reorderedRun : AcceptedRun exampleProxyConfig exampleReverseProxy examplePathManager
    exampleCertFileName reorderedConf :=
  ⟨.given _, .given _, _, _, _, _, rfl, rfl, rfl⟩

/-- Two plaintext applications whose keys differ in case only, and `default_app` naming both. -/
def sharedNameConf : ConfigToml Unit :=
  exampleConf [("App".toList, plainApp "a.example"), ("app".toList, plainApp "b.example")] (by decide) (some "app")

def sharedNameRun (appsOrder : IterationOrder (ServerName × BackendApp Unit)) :
    AcceptedRun exampleProxyConfig exampleReverseProxy examplePathManager exampleCertFileName sharedNameConf :=
  ⟨appsOrder, .given _, _, _, _, _, rfl, rfl, rfl⟩

theorem case_variant_server_names_ambiguous :
    ManagerEntryOf exampleReverseProxy examplePathManager ("y".toList, tlsApp "a.example" "y" none)
        (toServerName "a.example".toList, exampleBackend "y" "a.example" false) ∧
      collidingRun.manager.apps.lookup (toServerName "a.example".toList) =
        some (exampleBackend "x" "A.example" true) ∧
      collidingRun.certs.bind (List.lookup (toServerName "a.example".toList).inner) =
        some ⟨"y.crt".toList, "y.key".toList, none⟩ ∧
      reorderedRun.manager.apps.lookup (toServerName "a.example".toList) =
        some (exampleBackend "y" "a.example" false) ∧
      (sharedNameRun (.given _)).manager.defaultServerName = some (toServerName "b.example".toList) ∧
      (sharedNameRun (.reversed _)).manager.defaultServerName = some (toServerName "a.example".toList) :=
  ⟨⟨_, rfl, rfl, rfl⟩, rfl, rfl, rfl, rfl, rfl⟩

end Rpxy.ConfigBuild
