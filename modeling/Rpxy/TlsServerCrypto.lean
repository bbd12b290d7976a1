import Rpxy.CacheKey
import Rpxy.HashMapModel

/-!
# Per-SNI TLS configurations and the handshake

`ServerCryptoBase` holds, per lowercased server name, the certificates, private keys and client
CA certificates the reloader read. `build_individual_server_crypto_map` turns each into a rustls
`ServerConfig`: without client CA certificates one with no client authentication that resumes
sessions by the shared ticketer only; with them one whose client-certificate verifier holds the
trust anchors of the CA list, and that keeps no session. An entry whose key does not parse, whose
CA list gives no anchor or whose verifier cannot be built is left out. The QUIC listener uses the
one configuration of `build_aggregated_server_crypto`, whose resolver takes the certificates of
the names without client CA certificates only. `serve_tls_handshake` picks the configuration of a
ClientHello: the ACME challenge configuration for a TLS-ALPN challenge, and otherwise the per-SNI
configuration of its server name.

What rustls, webpki and x509-parser compute from the raw material is given: the signing key of
a private key, the trust anchor and the Subject Key Identifier of a CA certificate, whether the
resolver takes a certified key for a name, and whether a handshake with a configuration
completes. A `ServerConfig` is modelled by its client authentication, resolver, ALPN protocols,
ticketer and session storage, with the defaults of the rustls builder; the provider lookup and the
shared ticketer, which fail only for the whole process, are a `CryptoEnv`, and the protocol
versions of the default provider are taken to be accepted. The ACME challenge configuration of
a domain comes from rustls-acme and is a parameter.

The main result: once the configurations are built, a ClientHello that is not an ACME challenge
completes a handshake for a name with client CA certificates only with a configuration whose
verifier holds the trust anchors derived from that name's CA list and that cannot resume a
session, and the QUIC configuration resolves no certificate for that name; a ClientHello without
a server name completes no handshake, one that is not an ACME challenge completes only with the
configuration built for its name, and a connection after an ACME handshake is closed; a request
on a served TLS connection reaches only the application of the connection's server name. An ACME
challenge for a name with client CA certificates completes with the challenge configuration.
-/

namespace Rpxy.TlsServerCrypto

open RustResult HttpHeaders CacheKey HashMapModel

/-- `RpxyCertError`, by the variants the builders return. -/
inductive RpxyCertError
  | invalidCertificateAndKey
  | noClientCert
  | serverNameBytesToString
  | rustlsError
  | noDefaultCryptoProvider
  deriving DecidableEq, Repr

/-- `SingleServerCertsKeys`: the raw certificates, private keys and client CA certificates of a
server name. -/
structure SingleServerCertsKeys (Cert Key : Type) where
  /-- `certs`. -/
  certs : List Cert
  /-- `cert_keys`. -/
  certKeys : List Key
  /-- `client_ca_certs`. -/
  clientCaCerts : Option (List Cert)

/-- `is_mutual_tls`: client CA certificates are given. -/
def SingleServerCertsKeys.isMutualTls {Cert Key : Type} (ck : SingleServerCertsKeys Cert Key) : Bool :=
  ck.clientCaCerts.isSome

/-- `ServerCryptoBase`: the material of each server name, keyed by its lowercased bytes, each
key once. -/
structure ServerCryptoBase (Cert Key : Type) where
  /-- The material of each server name, keyed by its lowercased bytes. -/
  inner : List (List UInt8 × SingleServerCertsKeys Cert Key)
  /-- Each name once. -/
  nodup_keys : (inner.map Prod.fst).Nodup
  /-- Every key is lowercase. -/
  lowercase : ∀ e ∈ inner, e.1.map asciiLowerByte = e.1

/-! ### The rustls configuration -/

/-- `CertifiedKey`: a certificate chain with its signing key. -/
structure CertifiedKey (Cert SigningKey : Type) where
  /-- The certificate chain. -/
  cert : List Cert
  /-- The signing key. -/
  key : SigningKey

/-- The client authentication of a `ServerConfig`. -/
inductive ClientAuth (Anchor : Type)
  | noClientAuth
  /-- A `WebPkiClientVerifier` over these root anchors. -/
  | verifier (roots : List Anchor)

/-- How a `ServerConfig` issues session tickets: never, as the builder sets it, or with the
process-wide ticketer. -/
inductive Ticketer
  | never
  | shared
  deriving DecidableEq

/-- Where a `ServerConfig` keeps sessions: the builder's in-memory cache, or nowhere. -/
inductive SessionStorage
  | memoryCache
  | noServerSessionStorage
  deriving DecidableEq

/-- `ServerConfig`, by the fields the builders set. -/
structure ServerConfig (Anchor Cert SigningKey : Type) where
  /-- The client certificate verifier. -/
  clientAuth : ClientAuth Anchor
  /-- `ResolvesServerCertUsingSni`: certified keys by lowercased name. -/
  resolver : List (List UInt8 × CertifiedKey Cert SigningKey)
  /-- `alpn_protocols`. -/
  alpnProtocols : List (List UInt8)
  /-- `ticketer`. -/
  ticketer : Ticketer
  /-- `session_storage`. -/
  sessionStorage : SessionStorage

variable {Cert Key Anchor SigningKey : Type}

/-- A session can be resumed: by a ticket of the configuration's ticketer, or from its store. -/
def ServerConfig.resumable (cfg : ServerConfig Anchor Cert SigningKey) : Bool :=
  cfg.ticketer == .shared || cfg.sessionStorage == .memoryCache

/-- The certified key the resolver gives a ClientHello: rustls lowercases the SNI. -/
def ServerConfig.resolve (cfg : ServerConfig Anchor Cert SigningKey) (sni : List UInt8) :
    Option (CertifiedKey Cert SigningKey) :=
  cfg.resolver.lookup (sni.map asciiLowerByte)

/-- `ServerConfig::builder_with_provider(..).with_safe_default_protocol_versions()` with the client
authentication and resolver given, and the builder's other defaults. -/
def ServerConfig.build (clientAuth : ClientAuth Anchor)
    (resolver : List (List UInt8 × CertifiedKey Cert SigningKey)) : ServerConfig Anchor Cert SigningKey :=
  ⟨clientAuth, resolver, [], .never, .memoryCache⟩

/-- `ServerCryptoForSni`. -/
structure ServerCryptoForSni (Anchor Cert SigningKey : Type) where
  /-- `server_config`. -/
  serverConfig : ServerConfig Anchor Cert SigningKey
  /-- `is_mutual_tls`. -/
  isMutualTls : Bool

/-- `ServerCrypto`: the QUIC configuration and the per-SNI map. -/
structure ServerCrypto (Anchor Cert SigningKey : Type) where
  /-- `aggregated_config_no_client_auth`, for QUIC. -/
  aggregatedConfigNoClientAuth : ServerConfig Anchor Cert SigningKey
  /-- `individual_config_map`, the per-SNI configurations. -/
  individualConfigMap : List (List UInt8 × ServerCryptoForSni Anchor Cert SigningKey)

/-- What the builders read of the process: an installed default crypto provider, and whether
`Ticketer::new` succeeds. -/
structure CryptoEnv where
  /-- Whether a default crypto provider is installed. -/
  defaultProvider : Bool
  /-- Whether `Ticketer::new` succeeds. -/
  ticketerAvailable : Bool

/-- `shared_ticketer()`. -/
def sharedTicketer (env : CryptoEnv) : Except RpxyCertError Ticketer :=
  if env.ticketerAvailable then .ok .shared else .error .rustlsError

/-- The ALPN protocols of a configuration without client authentication, `http3` feature on. -/
def alpnNoClientAuth : List (List UInt8) :=
  [utf8Bytes "h3".toList, utf8Bytes "h2".toList, utf8Bytes "http/1.1".toList]

/-- The ALPN protocols of a configuration with client authentication. -/
def alpnClientAuth : List (List UInt8) := [utf8Bytes "h2".toList, utf8Bytes "http/1.1".toList]

/-- `server_name_bytes_to_string`: the lowercased name, when it is UTF-8; kept as its bytes. -/
def serverNameBytesToString (b : List UInt8) : Except RpxyCertError (List UInt8) :=
  if (String.fromUTF8? (ByteArray.mk (b.map asciiLowerByte).toArray)).isSome then .ok (b.map asciiLowerByte)
  else .error .serverNameBytesToString

/-- `WebPkiClientVerifier::builder(roots).build()`: there is no verifier without a root. -/
def buildClientVerifier (roots : List Anchor) : Except RpxyCertError (ClientAuth Anchor) :=
  if roots.isEmpty then .error .rustlsError else .ok (.verifier roots)

/-! ### The builders -/

section Build

variable (anySupportedType : Key → Option SigningKey)
  (anchorFromTrustedCert : Cert → Option Anchor)
  (subjectKeyIdentifier : Cert → Option (List UInt8))
  (resolverAccepts : List UInt8 → CertifiedKey Cert SigningKey → Bool)

/-- `rustls_certified_key`: the certificates with the first private key of a supported type. -/
def SingleServerCertsKeys.rustlsCertifiedKey (ck : SingleServerCertsKeys Cert Key) :
    Except RpxyCertError (CertifiedKey Cert SigningKey) :=
  match ck.certKeys.findSome? anySupportedType with
  | some key => .ok ⟨ck.certs, key⟩
  | none => .error .invalidCertificateAndKey

/-- The Subject Key Identifier and trust anchor of a CA certificate that has both. -/
def trustAnchorOf (c : Cert) : Option (List UInt8 × Anchor) :=
  (anchorFromTrustedCert c).bind fun ta => (subjectKeyIdentifier c).map fun skid => (skid, ta)

/-- `rustls_client_certs_trust_anchors`: the trust anchors of the CA certificates that have a
Subject Key Identifier, collected by identifier. -/
def SingleServerCertsKeys.rustlsClientCertsTrustAnchors (ck : SingleServerCertsKeys Cert Key) :
    Except RpxyCertError (List (List UInt8 × Anchor)) :=
  match ck.clientCaCerts with
  | none => .error .noClientCert
  | some certs => .ok (ofEntries (certs.filterMap (trustAnchorOf anchorFromTrustedCert subjectKeyIdentifier)))

/-- `ResolvesServerCertUsingSni::add`: the name gets the certified key when rustls takes the
pair; the callers ignore the error. -/
def resolverAdd (resolver : List (List UInt8 × CertifiedKey Cert SigningKey)) (name : List UInt8)
    (ck : CertifiedKey Cert SigningKey) : List (List UInt8 × CertifiedKey Cert SigningKey) :=
  if resolverAccepts name ck then insert resolver name ck else resolver

/-- The per-SNI configuration `build_individual_server_crypto_map` makes of one entry, or none
where the loop moves on. -/
def individualServerCrypto (env : CryptoEnv) (anchorsOrder : IterationOrder (List UInt8 × Anchor))
    (serverName : List UInt8) (ck : SingleServerCertsKeys Cert Key) :
    Except RpxyCertError (Option (ServerCryptoForSni Anchor Cert SigningKey)) :=
  match ck.rustlsCertifiedKey anySupportedType with
  | .error _ => pure none
  | .ok certifiedKey =>
    let resolverLocal := resolverAdd resolverAccepts [] serverName certifiedKey
    if !ck.isMutualTls then do
      let ticketer ← sharedTicketer env
      pure (some ⟨{ ServerConfig.build .noClientAuth resolverLocal with
        alpnProtocols := alpnNoClientAuth, ticketer := ticketer,
        sessionStorage := .noServerSessionStorage }, false⟩)
    else
      match ck.rustlsClientCertsTrustAnchors anchorFromTrustedCert subjectKeyIdentifier with
      | .error _ => pure none
      | .ok trustAnchors =>
        match buildClientVerifier ((anchorsOrder.order trustAnchors).map Prod.snd) with
        | .error _ => pure none
        | .ok clientCertVerifier =>
          pure (some ⟨{ ServerConfig.build clientCertVerifier resolverLocal with
            alpnProtocols := alpnClientAuth, sessionStorage := .noServerSessionStorage }, true⟩)

/-- One turn of the loop of `build_individual_server_crypto_map`: the entry it inserts, if any. -/
def individualEntry (env : CryptoEnv) (anchorsOrder : IterationOrder (List UInt8 × Anchor))
    (e : List UInt8 × SingleServerCertsKeys Cert Key) :
    Except RpxyCertError (Option (List UInt8 × ServerCryptoForSni Anchor Cert SigningKey)) := do
  let serverName ← serverNameBytesToString e.1
  let serverCrypto ← individualServerCrypto anySupportedType anchorFromTrustedCert subjectKeyIdentifier
    resolverAccepts env anchorsOrder serverName e.2
  pure (serverCrypto.map fun sc => (e.1, sc))

/-- `ServerCryptoBase::build_individual_server_crypto_map`. -/
def ServerCryptoBase.buildIndividualServerCryptoMap (env : CryptoEnv)
    (anchorsOrder : IterationOrder (List UInt8 × Anchor)) (base : ServerCryptoBase Cert Key) :
    Except RpxyCertError (List (List UInt8 × ServerCryptoForSni Anchor Cert SigningKey)) :=
  if env.defaultProvider then
    base.inner.foldlM (fun m e => do
      let entry ← individualEntry anySupportedType anchorFromTrustedCert subjectKeyIdentifier
        resolverAccepts env anchorsOrder e
      pure (entry.elim m fun (p : List UInt8 × ServerCryptoForSni Anchor Cert SigningKey) =>
        insert m p.1 p.2)) []
  else .error .noDefaultCryptoProvider

/-- One turn of the loop of `build_aggregated_server_crypto`: a name without client CA
certificates whose key parses joins the resolver. -/
def aggregatedStep (resolver : List (List UInt8 × CertifiedKey Cert SigningKey))
    (e : List UInt8 × SingleServerCertsKeys Cert Key) :
    Except RpxyCertError (List (List UInt8 × CertifiedKey Cert SigningKey)) := do
  let serverName ← serverNameBytesToString e.1
  match e.2.rustlsCertifiedKey anySupportedType with
  | .error _ => pure resolver
  | .ok certifiedKey =>
    pure (if !e.2.isMutualTls then resolverAdd resolverAccepts resolver serverName certifiedKey
      else resolver)

/-- `ServerCryptoBase::build_aggregated_server_crypto`. -/
def ServerCryptoBase.buildAggregatedServerCrypto (env : CryptoEnv) (base : ServerCryptoBase Cert Key) :
    Except RpxyCertError (ServerConfig Anchor Cert SigningKey) :=
  if env.defaultProvider then do
    let resolverGlobal ← base.inner.foldlM (aggregatedStep anySupportedType resolverAccepts) []
    let ticketer ← sharedTicketer env
    pure { ServerConfig.build .noClientAuth resolverGlobal with
      alpnProtocols := alpnNoClientAuth, ticketer := ticketer,
      sessionStorage := .noServerSessionStorage }
  else .error .noDefaultCryptoProvider

/-- `TryInto<Arc<ServerCrypto>> for &ServerCryptoBase`. -/
def ServerCryptoBase.tryInto (env : CryptoEnv) (anchorsOrder : IterationOrder (List UInt8 × Anchor))
    (base : ServerCryptoBase Cert Key) : Except RpxyCertError (ServerCrypto Anchor Cert SigningKey) := do
  let aggregated ← base.buildAggregatedServerCrypto anySupportedType resolverAccepts env
  let individual ← base.buildIndividualServerCryptoMap anySupportedType anchorFromTrustedCert
    subjectKeyIdentifier resolverAccepts env anchorsOrder
  pure ⟨aggregated, individual⟩

end Build

/-- The per-SNI map the TLS listener installs: the individual map rekeyed by `ServerName`,
collected in its iteration order. -/
def sniServerCryptoMap (order : IterationOrder (List UInt8 × ServerCryptoForSni Anchor Cert SigningKey))
    (crypto : ServerCrypto Anchor Cert SigningKey) : List (ServerName × ServerCryptoForSni Anchor Cert SigningKey) :=
  ofEntries ((order.order crypto.individualConfigMap).map fun e => (ServerName.fromBytes e.1, e.2))

/-! ### `serve_tls_handshake` -/

/-- What `serve_tls_handshake` reads of a ClientHello: the SNI, by its bytes, and whether it is an
ACME TLS-ALPN challenge. -/
structure ClientHello where
  /-- The SNI, by its bytes. -/
  serverName : Option (List UInt8)
  /-- Whether it is an ACME TLS-ALPN challenge. -/
  isTlsAlpnChallenge : Bool

/-- The errors of `serve_tls_handshake` after the ClientHello is read. -/
inductive HandshakeError
  | noServerNameInClientHello
  | noAcmeServerConfig
  | noTlsServingApp
  | tlsHandshakeFailed
  deriving DecidableEq, Repr

/-- `TlsHandshakeResult`, with the configuration the stream was accepted with. -/
structure TlsHandshakeResult (Anchor Cert SigningKey : Type) where
  /-- The SNI's server name. -/
  serverName : ServerName
  /-- Whether the handshake answered an ACME challenge. -/
  isHandshakeAcme : Bool
  /-- The configuration the stream was accepted with. -/
  serverConfig : ServerConfig Anchor Cert SigningKey

/-- What the TLS listener does with a connection after the handshake. -/
inductive ConnectionOutcome (Anchor Cert SigningKey : Type)
  | dropped
  | closedAfterAcme
  | served (serverName : ServerName) (serverConfig : ServerConfig Anchor Cert SigningKey)

section Handshake

variable (intoStream : ServerConfig Anchor Cert SigningKey → ClientHello → Bool)

/-- The configuration of a ClientHello with SNI bytes `sni`, whether it asks for client
certificates, and whether it is the ACME one. -/
def selectServerCrypto (acme : List (List UInt8 × ServerConfig Anchor Cert SigningKey))
    (sniMap : List (ServerName × ServerCryptoForSni Anchor Cert SigningKey)) (hello : ClientHello)
    (sni : List UInt8) : Except HandshakeError (ServerConfig Anchor Cert SigningKey × Bool × Bool) :=
  if hello.isTlsAlpnChallenge then
    match acme.lookup (sni.map asciiLowerByte) with
    | some cfg => .ok (cfg, false, true)
    | none => .error .noAcmeServerConfig
  else
    match sniMap.lookup (ServerName.fromBytes sni) with
    | some sc => .ok (sc.serverConfig, sc.isMutualTls, false)
    | none => .error .noTlsServingApp

/-- `serve_tls_handshake`, from the ClientHello on: `intoStream` is the rustls handshake. -/
def serveTlsHandshake (acme : List (List UInt8 × ServerConfig Anchor Cert SigningKey))
    (sniMap : List (ServerName × ServerCryptoForSni Anchor Cert SigningKey)) (hello : ClientHello) :
    Except HandshakeError (TlsHandshakeResult Anchor Cert SigningKey) :=
  match hello.serverName with
  | none => .error .noServerNameInClientHello
  | some sni => do
    let selected ← selectServerCrypto acme sniMap hello sni
    if intoStream selected.1 hello then pure ⟨ServerName.fromBytes sni, selected.2.2, selected.1⟩
    else .error .tlsHandshakeFailed

/-- `serve_tls_tcp_connection` after the handshake: an ACME connection is shut down, any other
is served with the SNI's server name. -/
def serveTlsConnection (acme : List (List UInt8 × ServerConfig Anchor Cert SigningKey))
    (sniMap : List (ServerName × ServerCryptoForSni Anchor Cert SigningKey)) (hello : ClientHello) :
    ConnectionOutcome Anchor Cert SigningKey :=
  match serveTlsHandshake intoStream acme sniMap hello with
  | .error _ => .dropped
  | .ok result => if result.isHandshakeAcme then .closedAfterAcme else .served result.serverName result.serverConfig

end Handshake

/-- `ServerConfig` of the ACME challenge: `challenge_rustls_config` of the ACME state of each
domain, keyed by the lowercased domain (`spawn_manager_tasks`). -/
def acmeChallengeConfigs (challengeRustlsConfig : List UInt8 → ServerConfig Anchor Cert SigningKey)
    (domains : List (List UInt8)) : List (List UInt8 × ServerConfig Anchor Cert SigningKey) :=
  ofEntries (domains.map fun d => (d.map asciiLowerByte, challengeRustlsConfig (d.map asciiLowerByte)))

/-! ### What the builders make -/

section Specs

variable {anySupportedType : Key → Option SigningKey} {anchorFromTrustedCert : Cert → Option Anchor}
  {subjectKeyIdentifier : Cert → Option (List UInt8)}
  {resolverAccepts : List UInt8 → CertifiedKey Cert SigningKey → Bool}
  {env : CryptoEnv} {anchorsOrder : IterationOrder (List UInt8 × Anchor)}

theorem SingleServerCertsKeys.isMutualTls_of_clientCaCerts {ck : SingleServerCertsKeys Cert Key}
    {cas : List Cert} (hca : ck.clientCaCerts = some cas) : ck.isMutualTls = true := by
  rw [SingleServerCertsKeys.isMutualTls, hca, Option.isSome_some]

theorem serverNameBytesToString_eq_ok {b name : List UInt8} (h : serverNameBytesToString b = .ok name) :
    name = b.map asciiLowerByte := by
  unfold serverNameBytesToString at h
  split_ifs at h
  exact (Except.ok.inj h).symm

theorem buildClientVerifier_eq_ok {roots : List Anchor} {auth : ClientAuth Anchor}
    (h : buildClientVerifier roots = .ok auth) : auth = .verifier roots := by
  unfold buildClientVerifier at h
  split_ifs at h
  exact (Except.ok.inj h).symm

/-- A name with client CA certificates gets a configuration only with a verifier over the anchors
of its CA list, in the order the anchor map gives them, and no way to resume a session. -/
theorem individualServerCrypto_mutualTls {serverName : List UInt8} {ck : SingleServerCertsKeys Cert Key}
    {cas : List Cert} {sc : ServerCryptoForSni Anchor Cert SigningKey} (hca : ck.clientCaCerts = some cas)
    (h : individualServerCrypto anySupportedType anchorFromTrustedCert subjectKeyIdentifier resolverAccepts
      env anchorsOrder serverName ck = .ok (some sc)) :
    sc.isMutualTls = true ∧ ∃ anchors,
      ck.rustlsClientCertsTrustAnchors anchorFromTrustedCert subjectKeyIdentifier = .ok anchors ∧
      sc.serverConfig.clientAuth = .verifier ((anchorsOrder.order anchors).map Prod.snd) ∧
      sc.serverConfig.resumable = false := by
  have hm : ck.isMutualTls = true := SingleServerCertsKeys.isMutualTls_of_clientCaCerts hca
  unfold individualServerCrypto at h
  split at h
  · cases h
  · rw [if_neg (by simp [hm])] at h
    split at h
    · cases h
    · rename_i anchors hanchors
      split at h
      · cases h
      · rename_i auth hauth
        obtain rfl := Option.some.inj (Except.ok.inj h).symm
        exact ⟨rfl, anchors, hanchors, buildClientVerifier_eq_ok hauth, rfl⟩

/-- A name without client CA certificates gets a configuration without client authentication,
which resumes sessions by the shared ticketer only. -/
theorem individualServerCrypto_noClientAuth {serverName : List UInt8} {ck : SingleServerCertsKeys Cert Key}
    {sc : ServerCryptoForSni Anchor Cert SigningKey} (hca : ck.clientCaCerts = none)
    (h : individualServerCrypto anySupportedType anchorFromTrustedCert subjectKeyIdentifier resolverAccepts
      env anchorsOrder serverName ck = .ok (some sc)) :
    sc.isMutualTls = false ∧ sc.serverConfig.clientAuth = .noClientAuth ∧ sc.serverConfig.ticketer = .shared ∧
      sc.serverConfig.sessionStorage = .noServerSessionStorage := by
  have hm : ck.isMutualTls = false := by rw [SingleServerCertsKeys.isMutualTls, hca, Option.isSome_none]
  unfold individualServerCrypto at h
  split at h
  · cases h
  · rw [if_pos (by simp [hm])] at h
    obtain ⟨ticketer, hticketer, h⟩ := except_bind_eq_ok.mp h
    have hshared : ticketer = .shared := by
      unfold sharedTicketer at hticketer
      split_ifs at hticketer
      exact (Except.ok.inj hticketer).symm
    obtain rfl := Option.some.inj (Except.ok.inj h).symm
    exact ⟨rfl, rfl, hshared, rfl⟩

/-- An entry of the loop is the base entry's own key with the configuration built for its
lowercased name. -/
theorem individualEntry_eq_ok {e : List UInt8 × SingleServerCertsKeys Cert Key}
    {p : List UInt8 × ServerCryptoForSni Anchor Cert SigningKey}
    (h : individualEntry anySupportedType anchorFromTrustedCert subjectKeyIdentifier resolverAccepts
      env anchorsOrder e = .ok (some p)) :
    p.1 = e.1 ∧ individualServerCrypto anySupportedType anchorFromTrustedCert subjectKeyIdentifier
      resolverAccepts env anchorsOrder (e.1.map asciiLowerByte) e.2 = .ok (some p.2) := by
  unfold individualEntry at h
  obtain ⟨name, hname, h⟩ := except_bind_eq_ok.mp h
  obtain ⟨o, ho, h⟩ := except_bind_eq_ok.mp h
  rw [serverNameBytesToString_eq_ok hname] at ho
  cases o with
  | none => cases h
  | some sc =>
    obtain rfl := Option.some.inj (Except.ok.inj h).symm
    exact ⟨rfl, ho⟩

/-- Every configuration of the per-SNI map was built for the material of a base entry, under
that entry's key. -/
theorem mem_buildIndividualServerCryptoMap {base : ServerCryptoBase Cert Key}
    {m : List (List UInt8 × ServerCryptoForSni Anchor Cert SigningKey)}
    (h : base.buildIndividualServerCryptoMap anySupportedType anchorFromTrustedCert subjectKeyIdentifier
      resolverAccepts env anchorsOrder = .ok m)
    {p : List UInt8 × ServerCryptoForSni Anchor Cert SigningKey} (hp : p ∈ m) :
    ∃ e ∈ base.inner, p.1 = e.1 ∧ individualServerCrypto anySupportedType anchorFromTrustedCert
      subjectKeyIdentifier resolverAccepts env anchorsOrder (e.1.map asciiLowerByte) e.2 = .ok (some p.2) := by
  unfold ServerCryptoBase.buildIndividualServerCryptoMap at h
  split_ifs at h
  obtain ⟨os, hos, rfl⟩ := foldlM_insert_some_eq_ok h
  obtain ⟨o, ho, hop⟩ := List.mem_filterMap.mp (mem_of_mem_ofEntries hp)
  obtain rfl : o = some p := hop
  obtain ⟨e, he, hentry⟩ := Forall₂.exists_of_mem_right hos ho
  exact ⟨e, he, individualEntry_eq_ok hentry⟩

/-- A resolver holds the names it held and the one added. -/
theorem mem_resolverAdd {r : List (List UInt8 × CertifiedKey Cert SigningKey)} {name : List UInt8}
    {ck : CertifiedKey Cert SigningKey} {q : List UInt8 × CertifiedKey Cert SigningKey}
    (hq : q ∈ resolverAdd resolverAccepts r name ck) : q ∈ r ∨ q.1 = name := by
  unfold resolverAdd at hq
  split_ifs at hq
  · rcases mem_insert hq with rfl | hq
    · exact .inr rfl
    · exact .inl hq
  · exact .inl hq

/-- One turn of the aggregated loop adds at most the entry's own lowercased name, and only for
an entry without client CA certificates. -/
theorem mem_aggregatedStep {r r' : List (List UInt8 × CertifiedKey Cert SigningKey)}
    {e : List UInt8 × SingleServerCertsKeys Cert Key} {q : List UInt8 × CertifiedKey Cert SigningKey}
    (h : aggregatedStep anySupportedType resolverAccepts r e = .ok r') (hq : q ∈ r') :
    q ∈ r ∨ (e.2.isMutualTls = false ∧ q.1 = e.1.map asciiLowerByte) := by
  unfold aggregatedStep at h
  obtain ⟨name, hname, h⟩ := except_bind_eq_ok.mp h
  rw [serverNameBytesToString_eq_ok hname] at h
  split at h
  · obtain rfl := Except.ok.inj h
    exact .inl hq
  · obtain rfl := Except.ok.inj h
    split_ifs at hq with hm
    · rcases mem_resolverAdd hq with hq | hq
      · exact .inl hq
      · exact .inr ⟨by simpa using hm, hq⟩
    · exact .inl hq

/-- The QUIC resolver holds only names of the base that have no client CA certificates. -/
theorem mem_buildAggregatedServerCrypto {base : ServerCryptoBase Cert Key}
    {cfg : ServerConfig Anchor Cert SigningKey}
    (h : base.buildAggregatedServerCrypto anySupportedType resolverAccepts env = .ok cfg)
    {q : List UInt8 × CertifiedKey Cert SigningKey} (hq : q ∈ cfg.resolver) :
    ∃ e ∈ base.inner, e.2.isMutualTls = false ∧ q.1 = e.1 := by
  unfold ServerCryptoBase.buildAggregatedServerCrypto at h
  split_ifs at h
  obtain ⟨r, hr, h⟩ := except_bind_eq_ok.mp h
  obtain ⟨t, -, h⟩ := except_bind_eq_ok.mp h
  obtain rfl := Except.ok.inj h
  have hinv := foldlM_eq_ok_induction
    (fun r : List (List UInt8 × CertifiedKey Cert SigningKey) =>
      ∀ q ∈ r, ∃ e ∈ base.inner, e.2.isMutualTls = false ∧ q.1 = e.1)
    (fun r e he r' hr hstep q hq => by
      rcases mem_aggregatedStep hstep hq with hq | ⟨hm, hk⟩
      · exact hr q hq
      · exact ⟨e, he, hm, by rw [hk, base.lowercase e he]⟩)
    (fun q hq => by cases hq) hr
  exact hinv q hq

/-- Two entries of the base under one key are the same entry. -/
theorem ServerCryptoBase.eq_of_key_eq {base : ServerCryptoBase Cert Key}
    {e e' : List UInt8 × SingleServerCertsKeys Cert Key} (he : e ∈ base.inner) (he' : e' ∈ base.inner)
    (hk : e.1 = e'.1) : e = e' :=
  List.inj_on_of_nodup_map base.nodup_keys he he' hk

/-- The QUIC configuration resolves no certificate for a name with client CA certificates. -/
theorem resolve_buildAggregatedServerCrypto {base : ServerCryptoBase Cert Key}
    {cfg : ServerConfig Anchor Cert SigningKey}
    (h : base.buildAggregatedServerCrypto anySupportedType resolverAccepts env = .ok cfg)
    {e : List UInt8 × SingleServerCertsKeys Cert Key} (he : e ∈ base.inner) (hm : e.2.isMutualTls = true)
    {sni : List UInt8} (hsni : sni.map asciiLowerByte = e.1) : cfg.resolve sni = none := by
  unfold ServerConfig.resolve
  rw [hsni]
  cases hl : cfg.resolver.lookup e.1 with
  | none => rfl
  | some ck =>
    obtain ⟨e', he', hm', hk⟩ := mem_buildAggregatedServerCrypto h (mem_of_lookup_eq_some hl)
    obtain rfl := base.eq_of_key_eq he he' hk
    rw [hm] at hm'
    cases hm'

/-- A successful `try_into` built both the QUIC configuration and the per-SNI map. -/
theorem tryInto_eq_ok {base : ServerCryptoBase Cert Key} {crypto : ServerCrypto Anchor Cert SigningKey}
    (h : base.tryInto anySupportedType anchorFromTrustedCert subjectKeyIdentifier resolverAccepts env
      anchorsOrder = .ok crypto) :
    base.buildAggregatedServerCrypto anySupportedType resolverAccepts env = .ok crypto.aggregatedConfigNoClientAuth ∧
    base.buildIndividualServerCryptoMap anySupportedType anchorFromTrustedCert subjectKeyIdentifier
      resolverAccepts env anchorsOrder = .ok crypto.individualConfigMap := by
  unfold ServerCryptoBase.tryInto at h
  obtain ⟨aggregated, ha, h⟩ := except_bind_eq_ok.mp h
  obtain ⟨individual, hi, h⟩ := except_bind_eq_ok.mp h
  obtain rfl := Except.ok.inj h
  exact ⟨ha, hi⟩

/-- A configuration of the listener's map is one of the individual map, under a key with the
same `ServerName`. -/
theorem lookup_sniServerCryptoMap
    {order : IterationOrder (List UInt8 × ServerCryptoForSni Anchor Cert SigningKey)}
    {crypto : ServerCrypto Anchor Cert SigningKey} {n : ServerName} {sc : ServerCryptoForSni Anchor Cert SigningKey}
    (h : (sniServerCryptoMap order crypto).lookup n = some sc) :
    ∃ p ∈ crypto.individualConfigMap, ServerName.fromBytes p.1 = n ∧ p.2 = sc := by
  obtain ⟨p, hp, hpn⟩ := List.mem_map.mp (mem_of_mem_ofEntries (mem_of_lookup_eq_some h))
  exact ⟨p, (order.perm _).subset hp, (Prod.mk.inj hpn).1, (Prod.mk.inj hpn).2⟩

/-- The listener's configuration for a name with client CA certificates is the one with the
verifier over that name's anchors. -/
theorem lookup_sniServerCryptoMap_mutualTls {base : ServerCryptoBase Cert Key}
    {crypto : ServerCrypto Anchor Cert SigningKey}
    (hcrypto : base.tryInto anySupportedType anchorFromTrustedCert subjectKeyIdentifier resolverAccepts env
      anchorsOrder = .ok crypto)
    {order : IterationOrder (List UInt8 × ServerCryptoForSni Anchor Cert SigningKey)}
    {e : List UInt8 × SingleServerCertsKeys Cert Key} (he : e ∈ base.inner) {cas : List Cert}
    (hca : e.2.clientCaCerts = some cas) {sc : ServerCryptoForSni Anchor Cert SigningKey}
    (h : (sniServerCryptoMap order crypto).lookup ⟨e.1⟩ = some sc) :
    sc.isMutualTls = true ∧ ∃ anchors,
      e.2.rustlsClientCertsTrustAnchors anchorFromTrustedCert subjectKeyIdentifier = .ok anchors ∧
      sc.serverConfig.clientAuth = .verifier ((anchorsOrder.order anchors).map Prod.snd) ∧
      sc.serverConfig.resumable = false := by
  obtain ⟨p, hp, hpn, rfl⟩ := lookup_sniServerCryptoMap h
  obtain ⟨e', he', hp1, hbuild⟩ := mem_buildIndividualServerCryptoMap (tryInto_eq_ok hcrypto).2 hp
  have hkey : e'.1 = e.1 := by
    have hlow : e'.1.map asciiLowerByte = e.1 := by
      rw [← hp1]
      exact congrArg ServerName.inner hpn
    rw [← hlow, base.lowercase e' he']
  obtain rfl := base.eq_of_key_eq he' he hkey
  exact individualServerCrypto_mutualTls hca hbuild

/-- A configuration of the listener's map was built for the material of the base entry of its
name. -/
theorem lookup_sniServerCryptoMap_base {base : ServerCryptoBase Cert Key}
    {crypto : ServerCrypto Anchor Cert SigningKey}
    (hcrypto : base.tryInto anySupportedType anchorFromTrustedCert subjectKeyIdentifier resolverAccepts env
      anchorsOrder = .ok crypto)
    {order : IterationOrder (List UInt8 × ServerCryptoForSni Anchor Cert SigningKey)} {n : ServerName}
    {sc : ServerCryptoForSni Anchor Cert SigningKey} (h : (sniServerCryptoMap order crypto).lookup n = some sc) :
    ∃ e ∈ base.inner, n = ⟨e.1⟩ ∧ individualServerCrypto anySupportedType anchorFromTrustedCert
      subjectKeyIdentifier resolverAccepts env anchorsOrder e.1 e.2 = .ok (some sc) := by
  obtain ⟨p, hp, hpn, rfl⟩ := lookup_sniServerCryptoMap h
  obtain ⟨e, he, hp1, hbuild⟩ := mem_buildIndividualServerCryptoMap (tryInto_eq_ok hcrypto).2 hp
  have hlow := base.lowercase e he
  rw [hlow] at hbuild
  refine ⟨e, he, ?_, hbuild⟩
  rw [← hpn, hp1, ServerName.fromBytes, hlow]

end Specs

/-! ### The handshake -/

section HandshakeSpecs

variable {intoStream : ServerConfig Anchor Cert SigningKey → ClientHello → Bool}
  {acme : List (List UInt8 × ServerConfig Anchor Cert SigningKey)}
  {sniMap : List (ServerName × ServerCryptoForSni Anchor Cert SigningKey)}

/-- The configuration of a ClientHello: the ACME one for a challenge, and otherwise the per-SNI
one of its name. -/
theorem selectServerCrypto_eq_ok {hello : ClientHello} {sni : List UInt8}
    {sel : ServerConfig Anchor Cert SigningKey × Bool × Bool}
    (h : selectServerCrypto acme sniMap hello sni = .ok sel) :
    sel.2.2 = hello.isTlsAlpnChallenge ∧
      (hello.isTlsAlpnChallenge = true → acme.lookup (sni.map asciiLowerByte) = some sel.1) ∧
      (hello.isTlsAlpnChallenge = false →
        ∃ sc, sniMap.lookup (ServerName.fromBytes sni) = some sc ∧ sel.1 = sc.serverConfig) := by
  unfold selectServerCrypto at h
  split_ifs at h with hc
  · split at h
    · rename_i cfg hcfg
      obtain rfl := (Except.ok.inj h).symm
      exact ⟨hc.symm, fun _ => hcfg, fun hc' => by rw [hc] at hc'; cases hc'⟩
    · cases h
  · split at h
    · rename_i sc hsc
      obtain rfl := (Except.ok.inj h).symm
      have hc : hello.isTlsAlpnChallenge = false := by simpa using hc
      exact ⟨hc.symm, fun hc' => (by rw [hc] at hc'; cases hc'), fun _ => ⟨sc, hsc, rfl⟩⟩
    · cases h

theorem serveTlsHandshake_of_serverName_none {hello : ClientHello} (h : hello.serverName = none) :
    serveTlsHandshake intoStream acme sniMap hello = .error .noServerNameInClientHello := by
  unfold serveTlsHandshake
  rw [h]

/-- A completed handshake had a server name in its ClientHello, reports it, and is an ACME
handshake exactly when the ClientHello is a challenge; its configuration is the one
`selectServerCrypto` picked. -/
theorem serveTlsHandshake_eq_ok {hello : ClientHello} {res : TlsHandshakeResult Anchor Cert SigningKey}
    (h : serveTlsHandshake intoStream acme sniMap hello = .ok res) :
    ∃ sni, hello.serverName = some sni ∧ res.serverName = ServerName.fromBytes sni ∧
      res.isHandshakeAcme = hello.isTlsAlpnChallenge ∧
      (hello.isTlsAlpnChallenge = true → acme.lookup (sni.map asciiLowerByte) = some res.serverConfig) ∧
      (hello.isTlsAlpnChallenge = false →
        ∃ sc, sniMap.lookup (ServerName.fromBytes sni) = some sc ∧ res.serverConfig = sc.serverConfig) := by
  unfold serveTlsHandshake at h
  cases hsni : hello.serverName with
  | none =>
    rw [hsni] at h
    cases h
  | some sni =>
    rw [hsni] at h
    obtain ⟨sel, hsel, h⟩ := except_bind_eq_ok.mp h
    split_ifs at h
    obtain rfl := (Except.ok.inj h).symm
    exact ⟨sni, rfl, rfl, selectServerCrypto_eq_ok hsel⟩

/-- A served connection completed a handshake that was not an ACME one, with the server name
and configuration of that handshake. -/
theorem serveTlsConnection_eq_served {hello : ClientHello} {n : ServerName}
    {cfg : ServerConfig Anchor Cert SigningKey}
    (h : serveTlsConnection intoStream acme sniMap hello = .served n cfg) :
    ∃ res, serveTlsHandshake intoStream acme sniMap hello = .ok res ∧ res.isHandshakeAcme = false ∧
      res.serverName = n ∧ res.serverConfig = cfg := by
  unfold serveTlsConnection at h
  split at h
  · cases h
  · rename_i res hres
    split_ifs at h with hacme
    cases h
    exact ⟨res, hres, by simpa using hacme, rfl, rfl⟩

/-- Every ACME domain has its challenge configuration, under its lowercased name. -/
theorem lookup_acmeChallengeConfigs {cfgOf : List UInt8 → ServerConfig Anchor Cert SigningKey}
    {domains : List (List UInt8)} {d : List UInt8} (hd : d ∈ domains) :
    (acmeChallengeConfigs cfgOf domains).lookup (d.map asciiLowerByte) = some (cfgOf (d.map asciiLowerByte)) := by
  unfold acmeChallengeConfigs
  refine lookup_ofEntries_of_unique (List.mem_map.mpr ⟨d, hd, rfl⟩) fun q hq hqk => ?_
  obtain ⟨d', -, rfl⟩ := List.mem_map.mp hq
  exact congrArg cfgOf hqk

/-- An ACME challenge for an ACME domain completes with the domain's challenge configuration
when rustls completes the handshake with it, whatever material the base holds for the name. -/
theorem serveTlsHandshake_acmeChallenge {cfgOf : List UInt8 → ServerConfig Anchor Cert SigningKey}
    {domains : List (List UInt8)} {d : List UInt8} (hd : d ∈ domains) {hello : ClientHello} {sni : List UInt8}
    (hsni : hello.serverName = some sni) (hch : hello.isTlsAlpnChallenge = true)
    (hname : sni.map asciiLowerByte = d.map asciiLowerByte)
    (hstream : intoStream (cfgOf (d.map asciiLowerByte)) hello = true) :
    serveTlsHandshake intoStream (acmeChallengeConfigs cfgOf domains) sniMap hello =
      .ok ⟨ServerName.fromBytes sni, true, cfgOf (d.map asciiLowerByte)⟩ := by
  have hsel : selectServerCrypto (acmeChallengeConfigs cfgOf domains) sniMap hello sni =
      .ok (cfgOf (d.map asciiLowerByte), false, true) := by
    unfold selectServerCrypto
    rw [if_pos hch, hname, lookup_acmeChallengeConfigs hd]
  unfold serveTlsHandshake
  rw [hsni]
  simp only [hsel, except_bind_ok, hstream, if_true]
  rfl

end HandshakeSpecs

/-! ### Requests on a TLS connection -/

/-- On a TLS listener a name selects only its own registered app. -/
theorem BackendAppManager.select_tls_eq_ok {m : BackendAppManager} {serverName : ServerName}
    {app : BackendApp} {fallback : Bool} (h : m.select serverName true = .ok (app, fallback)) :
    m.apps.lookup serverName = some app := by
  unfold BackendAppManager.select at h
  cases hl : m.apps.lookup serverName with
  | some app' =>
    simp only [hl, Except.ok.injEq, Prod.mk.injEq] at h
    rw [h.1]
  | none => simp [hl] at h

/-- With SNI consistency, a request that passes the route stage on a TLS connection names the
connection's server name in its host. -/
theorem routeRequest_sniConsistency {mgr : BackendAppManager} {maxBodySize : Option Nat} {n : ServerName}
    {req : AccessLog.Request} {host : List UInt8} {r : Routed} (hi : inspectParseHost req = .ok host)
    (h : routeRequest mgr true maxBodySize true (some n) req = .ok r) : ServerName.fromBytes host = n := by
  unfold routeRequest at h
  simp only [hi] at h
  by_contra hne
  rw [if_pos (by simp [hne])] at h
  cases h

/-- A TLS listener with SNI consistency forwards a request only to the app registered under the
connection's server name. -/
theorem routeRequest_tls_eq_forward {mgr : BackendAppManager} {maxBodySize : Option Nat} {n : ServerName}
    {req : AccessLog.Request} {app : BackendApp} {c : PathRouting.UpstreamCandidates}
    (h : routeRequest mgr true maxBodySize true (some n) req = .ok (.forward app c)) :
    mgr.apps.lookup n = some app := by
  obtain ⟨host, fallback, hi, hs, -⟩ := routeRequest_eq_forward h
  rw [← routeRequest_sniConsistency hi h]
  exact BackendAppManager.select_tls_eq_ok hs

/-! ### Client authentication on the TLS and QUIC listeners -/

section Guarantee

variable {anySupportedType : Key → Option SigningKey} {anchorFromTrustedCert : Cert → Option Anchor}
  {subjectKeyIdentifier : Cert → Option (List UInt8)}
  {resolverAccepts : List UInt8 → CertifiedKey Cert SigningKey → Bool}
  {env : CryptoEnv} {anchorsOrder : IterationOrder (List UInt8 × Anchor)}

theorem mutual_tls_not_bypassed {base : ServerCryptoBase Cert Key} {crypto : ServerCrypto Anchor Cert SigningKey}
    (hcrypto : base.tryInto anySupportedType anchorFromTrustedCert subjectKeyIdentifier resolverAccepts env
      anchorsOrder = .ok crypto)
    (order : IterationOrder (List UInt8 × ServerCryptoForSni Anchor Cert SigningKey))
    (intoStream : ServerConfig Anchor Cert SigningKey → ClientHello → Bool)
    (acme : List (List UInt8 × ServerConfig Anchor Cert SigningKey)) (hello : ClientHello) :
    (∀ sni e cas, hello.serverName = some sni → hello.isTlsAlpnChallenge = false → e ∈ base.inner →
      ServerName.fromBytes sni = ⟨e.1⟩ → e.2.clientCaCerts = some cas →
      ∀ res, serveTlsHandshake intoStream acme (sniServerCryptoMap order crypto) hello = .ok res →
        ∃ anchors roots, e.2.rustlsClientCertsTrustAnchors anchorFromTrustedCert subjectKeyIdentifier = .ok anchors ∧
          res.serverConfig.clientAuth = .verifier roots ∧ roots.Perm (anchors.map Prod.snd) ∧
          res.serverConfig.resumable = false) ∧
    (∀ sni e cas, e ∈ base.inner → ServerName.fromBytes sni = ⟨e.1⟩ → e.2.clientCaCerts = some cas →
      crypto.aggregatedConfigNoClientAuth.resolve sni = none) ∧
    (hello.serverName = none →
      ∀ res, serveTlsHandshake intoStream acme (sniServerCryptoMap order crypto) hello ≠ .ok res) ∧
    (∀ res, serveTlsHandshake intoStream acme (sniServerCryptoMap order crypto) hello = .ok res →
      res.isHandshakeAcme = false → ∃ sni sc, hello.serverName = some sni ∧
        (sniServerCryptoMap order crypto).lookup (ServerName.fromBytes sni) = some sc ∧
        res.serverConfig = sc.serverConfig) ∧
    (hello.isTlsAlpnChallenge = true →
      ∀ n cfg, serveTlsConnection intoStream acme (sniServerCryptoMap order crypto) hello ≠ .served n cfg) ∧
    (∀ n cfg, serveTlsConnection intoStream acme (sniServerCryptoMap order crypto) hello = .served n cfg →
      ∀ mgr maxBodySize req app c, routeRequest mgr true maxBodySize true (some n) req = .ok (.forward app c) →
        mgr.apps.lookup n = some app ∧ ∃ sni, hello.serverName = some sni ∧ n = ServerName.fromBytes sni) := by
  refine ⟨?mtls, ?quic, ?noSni, ?perSni, ?acmeClosed, ?routed⟩
  case mtls =>
    intro sni e cas hsni hch he hname hca res hres
    obtain ⟨sni', hsni', -, -, -, hper⟩ := serveTlsHandshake_eq_ok hres
    rw [hsni, Option.some.injEq] at hsni'
    subst hsni'
    obtain ⟨sc, hsc, hcfg⟩ := hper hch
    rw [hname] at hsc
    obtain ⟨-, anchors, hanchors, hauth, hresumable⟩ := lookup_sniServerCryptoMap_mutualTls hcrypto he hca hsc
    refine ⟨anchors, _, hanchors, by rw [hcfg, hauth], (anchorsOrder.perm anchors).map Prod.snd, ?_⟩
    rw [hcfg, hresumable]
  case quic =>
    intro sni e cas he hname hca
    exact resolve_buildAggregatedServerCrypto (tryInto_eq_ok hcrypto).1 he
      (SingleServerCertsKeys.isMutualTls_of_clientCaCerts hca) (congrArg ServerName.inner hname)
  case noSni =>
    intro hsni res hres
    rw [serveTlsHandshake_of_serverName_none hsni] at hres
    cases hres
  case perSni =>
    intro res hres hacme
    obtain ⟨sni, hsni, -, hch, -, hper⟩ := serveTlsHandshake_eq_ok hres
    obtain ⟨sc, hsc, hcfg⟩ := hper (hch ▸ hacme)
    exact ⟨sni, sc, hsni, hsc, hcfg⟩
  case acmeClosed =>
    intro hch n cfg hserved
    obtain ⟨res, hres, hacme, -, -⟩ := serveTlsConnection_eq_served hserved
    obtain ⟨-, -, -, hch', -, -⟩ := serveTlsHandshake_eq_ok hres
    rw [hch', hch] at hacme
    cases hacme
  case routed =>
    intro n cfg hserved mgr maxBodySize req app c hroute
    obtain ⟨res, hres, -, hn, -⟩ := serveTlsConnection_eq_served hserved
    obtain ⟨sni, hsni, hname, -⟩ := serveTlsHandshake_eq_ok hres
    exact ⟨routeRequest_tls_eq_forward hroute, sni, hsni, hn ▸ hname⟩

end Guarantee

/-! ### Two names, one of them with a client CA -/

/-- The rustls pieces of the examples: every key and CA certificate parses, a CA certificate's
Subject Key Identifier is its number, and the resolver takes every pair. -/
def exampleTryInto (base : ServerCryptoBase Nat Nat) : Except RpxyCertError (ServerCrypto Nat Nat Nat) :=
  base.tryInto some some (fun c => some [c.toUInt8]) (fun _ _ => true) ⟨true, true⟩ (.given _)

/-- `a.example` with the client CA certificate 7 and `b.example` without client authentication. -/
def exampleBase : ServerCryptoBase Nat Nat :=
  ⟨[(utf8Bytes "a.example".toList, ⟨[1], [2], some [7]⟩), (utf8Bytes "b.example".toList, ⟨[3], [4], none⟩)],
    by decide, by decide⟩

/-- A ClientHello for `A.example` that is not an ACME challenge. -/
def mutualTlsHello : ClientHello := ⟨some (utf8Bytes "A.example".toList), false⟩

theorem mutual_tls_not_bypassed_example :
    ∃ crypto, exampleTryInto exampleBase = .ok crypto ∧
      crypto.aggregatedConfigNoClientAuth.resolve (utf8Bytes "A.example".toList) = none ∧
      ∀ res, serveTlsHandshake (fun _ _ => true) [] (sniServerCryptoMap (.given _) crypto) mutualTlsHello = .ok res →
        ∃ anchors roots, SingleServerCertsKeys.rustlsClientCertsTrustAnchors some (fun c => some [c.toUInt8])
            (⟨[1], [2], some [7]⟩ : SingleServerCertsKeys Nat Nat) = .ok anchors ∧
          res.serverConfig.clientAuth = .verifier roots ∧ roots.Perm (anchors.map Prod.snd) ∧
          res.serverConfig.resumable = false := by
  obtain ⟨crypto, hcrypto⟩ : ∃ crypto, exampleTryInto exampleBase = .ok crypto := ⟨_, rfl⟩
  have he : (utf8Bytes "a.example".toList, (⟨[1], [2], some [7]⟩ : SingleServerCertsKeys Nat Nat)) ∈
      exampleBase.inner := List.mem_cons_self
  exact ⟨crypto, hcrypto, (mutual_tls_not_bypassed hcrypto (.given _) (fun _ _ => true) [] mutualTlsHello).2.1 _ _ [7] he (by decide) rfl,
    (mutual_tls_not_bypassed hcrypto (.given _) (fun _ _ => true) [] mutualTlsHello).1 _ _ [7] rfl rfl he (by decide) rfl⟩

/-- What `challenge_rustls_config` of rustls-acme gives a domain: a configuration without client
authentication whose one ALPN protocol is `acme-tls/1`; its resolver, which answers with the
challenge certificate, is left out. -/
def challengeRustlsConfig (_domain : List UInt8) : ServerConfig Nat Nat Nat :=
  { ServerConfig.build .noClientAuth [] with alpnProtocols := [utf8Bytes "acme-tls/1".toList] }

/-- An ACME TLS-ALPN challenge for `a.example`. -/
def acmeHello : ClientHello := ⟨some (utf8Bytes "a.example".toList), true⟩

/-- `a.example` is managed by ACME and has a client CA: an ACME challenge for it completes with
the challenge configuration, which has no client verifier, and the connection is then closed. -/
theorem acme_challenge_completes_without_client_auth :
    ∃ crypto, exampleTryInto exampleBase = .ok crypto ∧
      (utf8Bytes "a.example".toList, (⟨[1], [2], some [7]⟩ : SingleServerCertsKeys Nat Nat)) ∈ exampleBase.inner ∧
      serveTlsHandshake (fun _ _ => true) (acmeChallengeConfigs challengeRustlsConfig [utf8Bytes "a.example".toList])
          (sniServerCryptoMap (.given _) crypto) acmeHello =
        .ok ⟨ServerName.fromBytes (utf8Bytes "a.example".toList), true,
          challengeRustlsConfig (utf8Bytes "a.example".toList)⟩ ∧
      (challengeRustlsConfig (utf8Bytes "a.example".toList)).clientAuth = .noClientAuth ∧
      serveTlsConnection (fun _ _ => true) (acmeChallengeConfigs challengeRustlsConfig [utf8Bytes "a.example".toList])
          (sniServerCryptoMap (.given _) crypto) acmeHello = .closedAfterAcme := by
  obtain ⟨crypto, hcrypto⟩ : ∃ crypto, exampleTryInto exampleBase = .ok crypto := ⟨_, rfl⟩
  have hhandshake : serveTlsHandshake (fun _ _ => true)
      (acmeChallengeConfigs challengeRustlsConfig [utf8Bytes "a.example".toList])
      (sniServerCryptoMap (.given _) crypto) acmeHello =
      .ok ⟨ServerName.fromBytes (utf8Bytes "a.example".toList), true,
        challengeRustlsConfig (utf8Bytes "a.example".toList)⟩ :=
    serveTlsHandshake_acmeChallenge (List.mem_singleton_self _) rfl rfl rfl rfl
  refine ⟨crypto, hcrypto, List.mem_cons_self, hhandshake, rfl, ?_⟩
  unfold serveTlsConnection
  rw [hhandshake]
  rfl

end Rpxy.TlsServerCrypto
