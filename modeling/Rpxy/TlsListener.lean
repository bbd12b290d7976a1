import Rpxy.CertReloader
import Rpxy.Reachability

/-!
# The TLS listener over certificate reloads

`tls_listener_service` keeps a per-SNI map, absent until certificates first arrive. The reloader
service publishes the base of every reload on a watch channel, which keeps the latest value and
whether the listener has seen it; when the listener wakes on `changed()` it builds a
`ServerCrypto` from the latest base and installs its per-SNI map, keeping the map it had when the
build fails. A TCP connection is handshaked against the installed map (`serve_tls_handshake`),
and dropped while there is none.

The model is a system of two kinds of action over that state (`Reachability`): a reload, whose
read of each name sees whatever files it finds then, and a wake-up of the listener; a connection
changes no state and is served against the map of the state it arrives in. The PROXY header and
the per-IP connection slot, which come before the handshake, are left out.

The main result: in every reachable state, a connection that is not an ACME challenge is served
only for a server name whose lowercased bytes have a source; when that source has a client CA
file, with a verifier over the trust anchors of certificates read from that file and without
session resumption, and otherwise without client authentication. For a configuration that the
builders accept with distinct server names, the source is that of the application whose server
name the connection's SNI is.
-/

namespace Rpxy.TlsListener

open RustResult HttpHeaders CacheKey HashMapModel TlsServerCrypto CertReloader Reachability

variable {Anchor Cert Key SigningKey : Type}

/-- The state the reloader service and the TLS listener share. -/
structure TlsState (Anchor Cert Key SigningKey : Type) where
  /-- The reloader service's `CryptoReloader`. -/
  reloader : CryptoReloader Cert Key
  /-- The value of the watch channel: the base the last reload published. -/
  published : Option (ServerCryptoBase Cert Key)
  /-- The channel holds a value the listener has not seen: `changed()` is ready. -/
  changed : Bool
  /-- The listener's `server_crypto_map`. -/
  serverCryptoMap : Option (List (ServerName × ServerCryptoForSni Anchor Cert SigningKey))

/-- The actions of the two tasks. -/
inductive TlsAction (Anchor Cert SigningKey : Type)
  /-- A reload, in an iteration order of the sources, whose read of each name sees the files
  `fs` gives that name. -/
  | reload (order : IterationOrder (List UInt8 × ConfigBuild.CryptoFileSource))
      (fs : List UInt8 → List Char → Option (List UInt8))
  /-- The listener wakes on `changed()`; its map is collected in this iteration order. -/
  | update (order : IterationOrder (List UInt8 × ServerCryptoForSni Anchor Cert SigningKey))

section System

variable (pemCerts : List UInt8 → Option (List Cert)) (pemPkcs8Keys pemRsaKeys : List UInt8 → Option (List Key))
  (anySupportedType : Key → Option SigningKey) (anchorFromTrustedCert : Cert → Option Anchor)
  (subjectKeyIdentifier : Cert → Option (List UInt8))
  (resolverAccepts : List UInt8 → CertifiedKey Cert SigningKey → Bool) (env : CryptoEnv)
  (anchorsOrder : IterationOrder (List UInt8 × Anchor))

/-- The reads of a reload whose reader sees, for each name, the files `fs` gives it. -/
def readsOf (fs : List UInt8 → List Char → Option (List UInt8)) (e : List UInt8 × ConfigBuild.CryptoFileSource) :
    Except ReadError (SingleServerCertsKeys Cert Key) :=
  cryptoFileSourceRead pemCerts pemPkcs8Keys pemRsaKeys (fs e.1) e.2

/-- The map the listener holds after it sees a base: that of the `ServerCrypto` built from the
base, or the map it had when the build fails. -/
def installedMap (order : IterationOrder (List UInt8 × ServerCryptoForSni Anchor Cert SigningKey))
    (base : ServerCryptoBase Cert Key) (map : Option (List (ServerName × ServerCryptoForSni Anchor Cert SigningKey))) :
    Option (List (ServerName × ServerCryptoForSni Anchor Cert SigningKey)) :=
  match base.tryInto anySupportedType anchorFromTrustedCert subjectKeyIdentifier resolverAccepts env anchorsOrder with
  | .ok crypto => some (sniServerCryptoMap order crypto)
  | .error _ => map

/-- One action: a reload publishes its base; the listener, when the channel has changed, installs
the map of the latest base, and ends when the channel holds none ("Reloader is broken"). -/
def tlsStep (s : TlsState Anchor Cert Key SigningKey) :
    TlsAction Anchor Cert SigningKey → Option (TlsState Anchor Cert Key SigningKey)
  | .reload order fs =>
    some { s with
      reloader := (s.reloader.reload order (readsOf pemCerts pemPkcs8Keys pemRsaKeys fs)).2
      published := some (s.reloader.reload order (readsOf pemCerts pemPkcs8Keys pemRsaKeys fs)).1
      changed := true }
  | .update order =>
    if s.changed then
      match s.published with
      | none => none
      | some base => some { s with
          changed := false
          serverCryptoMap := installedMap anySupportedType anchorFromTrustedCert subjectKeyIdentifier
            resolverAccepts env anchorsOrder order base s.serverCryptoMap }
    else none

end System

/-- The start: a new reloader, an empty channel, and no map. -/
def tlsInit (r : CryptoReloader Cert Key) : TlsState Anchor Cert Key SigningKey := ⟨r, none, false, none⟩

/-- `serve_tls_tcp_connection` from the handshake on: dropped while the listener has no map. -/
def serveTlsTcpConnection (intoStream : ServerConfig Anchor Cert SigningKey → ClientHello → Bool)
    (acme : List (List UInt8 × ServerConfig Anchor Cert SigningKey))
    (map : Option (List (ServerName × ServerCryptoForSni Anchor Cert SigningKey))) (hello : ClientHello) :
    ConnectionOutcome Anchor Cert SigningKey :=
  match map with
  | none => .dropped
  | some m => serveTlsConnection intoStream acme m hello

/-! ### The invariant -/

section Invariant

variable (pemCerts : List UInt8 → Option (List Cert)) (pemPkcs8Keys pemRsaKeys : List UInt8 → Option (List Key))
  (anySupportedType : Key → Option SigningKey) (anchorFromTrustedCert : Cert → Option Anchor)
  (subjectKeyIdentifier : Cert → Option (List UInt8))
  (resolverAccepts : List UInt8 → CertifiedKey Cert SigningKey → Bool) (env : CryptoEnv)
  (anchorsOrder : IterationOrder (List UInt8 × Anchor))

/-- Every entry of a map of certificates and keys is what a read of its name's source gave, under
some files. -/
def ReadFrom (inner : List (List UInt8 × ConfigBuild.CryptoFileSource))
    (m : List (List UInt8 × SingleServerCertsKeys Cert Key)) : Prop :=
  ∀ k ck, m.lookup k = some ck →
    ∃ src fs, inner.lookup k = some src ∧ cryptoFileSourceRead pemCerts pemPkcs8Keys pemRsaKeys fs src = .ok ck

/-- What holds in every state reached from a reloader over the sources `inner`: the cache, the
channel's base and the base of the installed map hold only what was read from the sources. -/
structure TlsInv (inner : List (List UInt8 × ConfigBuild.CryptoFileSource))
    (s : TlsState Anchor Cert Key SigningKey) : Prop where
  /-- The reloader's sources are `inner`. -/
  inner_eq : s.reloader.inner = inner
  /-- The cache holds only what was read from the sources. -/
  lastGood : ReadFrom pemCerts pemPkcs8Keys pemRsaKeys inner s.reloader.lastGood
  /-- The channel's base holds only what was read from the sources. -/
  published : ∀ base, s.published = some base → ReadFrom pemCerts pemPkcs8Keys pemRsaKeys inner base.inner
  /-- The installed map was built from such a base. -/
  installed : ∀ m, s.serverCryptoMap = some m → ∃ (base : ServerCryptoBase Cert Key)
    (crypto : ServerCrypto Anchor Cert SigningKey) (order : IterationOrder (List UInt8 × ServerCryptoForSni Anchor Cert SigningKey)),
    ReadFrom pemCerts pemPkcs8Keys pemRsaKeys inner base.inner ∧
    base.tryInto anySupportedType anchorFromTrustedCert subjectKeyIdentifier resolverAccepts env anchorsOrder =
      .ok crypto ∧ m = sniServerCryptoMap order crypto

/-- A reload keeps what it publishes and what it caches read from the sources: an entry is a read
of this reload or one the cache held. -/
theorem readFrom_reload {r : CryptoReloader Cert Key} (hr : ReadFrom pemCerts pemPkcs8Keys pemRsaKeys r.inner r.lastGood)
    (order : IterationOrder (List UInt8 × ConfigBuild.CryptoFileSource))
    (fs : List UInt8 → List Char → Option (List UInt8)) :
    ReadFrom pemCerts pemPkcs8Keys pemRsaKeys r.inner
        (r.reload order (readsOf pemCerts pemPkcs8Keys pemRsaKeys fs)).1.inner ∧
      ReadFrom pemCerts pemPkcs8Keys pemRsaKeys r.inner
        (r.reload order (readsOf pemCerts pemPkcs8Keys pemRsaKeys fs)).2.lastGood := by
  have hturn : ∀ k src ck, r.inner.lookup k = some src →
      (readsOf pemCerts pemPkcs8Keys pemRsaKeys fs (k, src)).toOption.or (r.lastGood.lookup k) = some ck →
      ∃ src fs, r.inner.lookup k = some src ∧ cryptoFileSourceRead pemCerts pemPkcs8Keys pemRsaKeys fs src = .ok ck := by
    intro k src ck hsrc h
    cases hread : readsOf pemCerts pemPkcs8Keys pemRsaKeys fs (k, src) with
    | ok ck' =>
      simp only [hread, Except.toOption, Option.some_or, Option.some.injEq] at h
      subst h
      exact ⟨src, fs k, hsrc, hread⟩
    | error e =>
      simp only [hread, Except.toOption, Option.none_or] at h
      exact hr k ck h
  constructor
  · intro k ck h
    rw [(lookup_reload r order _ k).1] at h
    obtain ⟨src, hsrc, h⟩ := Option.bind_eq_some_iff.mp h
    exact hturn k src ck hsrc h
  · intro k ck h
    rw [(lookup_reload r order _ k).2] at h
    rcases Option.eq_none_or_eq_some (r.inner.lookup k) with hsrc | ⟨src, hsrc⟩
    · rw [hsrc] at h
      exact hr k ck h
    · rw [hsrc] at h
      exact hturn k src ck hsrc h

/-- The listener installs the map of the base it sees, or keeps the one it had. -/
theorem installedMap_eq_some {order : IterationOrder (List UInt8 × ServerCryptoForSni Anchor Cert SigningKey)}
    {base : ServerCryptoBase Cert Key} {map : Option (List (ServerName × ServerCryptoForSni Anchor Cert SigningKey))}
    {m : List (ServerName × ServerCryptoForSni Anchor Cert SigningKey)}
    (h : installedMap anySupportedType anchorFromTrustedCert subjectKeyIdentifier resolverAccepts env anchorsOrder
      order base map = some m) :
    (∃ crypto, base.tryInto anySupportedType anchorFromTrustedCert subjectKeyIdentifier resolverAccepts env
      anchorsOrder = .ok crypto ∧ m = sniServerCryptoMap order crypto) ∨ map = some m := by
  unfold installedMap at h
  split at h
  · rename_i crypto hcrypto
    exact Or.inl ⟨crypto, hcrypto, (Option.some.inj h).symm⟩
  · exact Or.inr h

theorem tlsInv_init (inner : List (List UInt8 × ConfigBuild.CryptoFileSource))
    (hnd : (inner.map Prod.fst).Nodup) (hlow : ∀ e ∈ inner, e.1.map asciiLowerByte = e.1) :
    TlsInv pemCerts pemPkcs8Keys pemRsaKeys anySupportedType anchorFromTrustedCert subjectKeyIdentifier
      resolverAccepts env anchorsOrder inner (tlsInit (CryptoReloader.new inner hnd hlow) :
        TlsState Anchor Cert Key SigningKey) where
  inner_eq := rfl
  lastGood k ck h := by cases h
  published base h := by cases h
  installed m h := by cases h

/-- Each action keeps the invariant. -/
theorem tlsInv_step {inner : List (List UInt8 × ConfigBuild.CryptoFileSource)}
    {s s' : TlsState Anchor Cert Key SigningKey} {a : TlsAction Anchor Cert SigningKey}
    (h : TlsInv pemCerts pemPkcs8Keys pemRsaKeys anySupportedType anchorFromTrustedCert subjectKeyIdentifier
      resolverAccepts env anchorsOrder inner s)
    (hs : tlsStep pemCerts pemPkcs8Keys pemRsaKeys anySupportedType anchorFromTrustedCert subjectKeyIdentifier
      resolverAccepts env anchorsOrder s a = some s') :
    TlsInv pemCerts pemPkcs8Keys pemRsaKeys anySupportedType anchorFromTrustedCert subjectKeyIdentifier
      resolverAccepts env anchorsOrder inner s' := by
  obtain ⟨rfl, hlast, hpub, hmap⟩ := h
  cases a with
  | reload order fs =>
    obtain rfl := Option.some.inj hs
    have hread := readFrom_reload pemCerts pemPkcs8Keys pemRsaKeys hlast order fs
    exact ⟨rfl, hread.2, fun base hbase => Option.some.inj hbase ▸ hread.1, hmap⟩
  | update order =>
    unfold tlsStep at hs
    split_ifs at hs
    rcases Option.eq_none_or_eq_some s.published with hbase | ⟨base, hbase⟩
    · rw [hbase] at hs
      cases hs
    · rw [hbase] at hs
      obtain rfl := Option.some.inj hs
      refine ⟨rfl, hlast, fun b hb => hpub b (hbase.trans hb), fun m hm => ?_⟩
      rcases installedMap_eq_some anySupportedType anchorFromTrustedCert subjectKeyIdentifier resolverAccepts env
        anchorsOrder hm with ⟨crypto, hcrypto, rfl⟩ | hold
      · exact ⟨base, crypto, order, hpub base hbase, hcrypto, rfl⟩
      · exact hmap m hold

end Invariant

/-! ### Serving -/

section Serve

variable {pemCerts : List UInt8 → Option (List Cert)} {pemPkcs8Keys pemRsaKeys : List UInt8 → Option (List Key)}
  {anySupportedType : Key → Option SigningKey} {anchorFromTrustedCert : Cert → Option Anchor}
  {subjectKeyIdentifier : Cert → Option (List UInt8)}
  {resolverAccepts : List UInt8 → CertifiedKey Cert SigningKey → Bool} {env : CryptoEnv}
  {anchorsOrder : IterationOrder (List UInt8 × Anchor)}

theorem tlsInv_reachable {inner : List (List UInt8 × ConfigBuild.CryptoFileSource)}
    {hnd : (inner.map Prod.fst).Nodup} {hlow : ∀ e ∈ inner, e.1.map asciiLowerByte = e.1}
    {s : TlsState Anchor Cert Key SigningKey}
    (hreach : Reachable (tlsInit (CryptoReloader.new inner hnd hlow))
      (tlsStep pemCerts pemPkcs8Keys pemRsaKeys anySupportedType anchorFromTrustedCert subjectKeyIdentifier
        resolverAccepts env anchorsOrder) s) :
    TlsInv pemCerts pemPkcs8Keys pemRsaKeys anySupportedType anchorFromTrustedCert subjectKeyIdentifier
      resolverAccepts env anchorsOrder inner s :=
  hreach.invariant (tlsInv_init pemCerts pemPkcs8Keys pemRsaKeys anySupportedType anchorFromTrustedCert
    subjectKeyIdentifier resolverAccepts env anchorsOrder inner hnd hlow)
    fun _ _ _ h hs => tlsInv_step pemCerts pemPkcs8Keys pemRsaKeys anySupportedType anchorFromTrustedCert
      subjectKeyIdentifier resolverAccepts env anchorsOrder h hs

/-- The trust anchors of client CA certificates are those of the certificates that give one. -/
theorem rustlsClientCertsTrustAnchors_of_clientCaCerts {ck : SingleServerCertsKeys Cert Key} {cas : List Cert}
    (hca : ck.clientCaCerts = some cas) :
    ck.rustlsClientCertsTrustAnchors anchorFromTrustedCert subjectKeyIdentifier =
      .ok (ofEntries (cas.filterMap (trustAnchorOf anchorFromTrustedCert subjectKeyIdentifier))) := by
  rw [SingleServerCertsKeys.rustlsClientCertsTrustAnchors, hca]

/-- A connection served against the map of a state with the invariant: its SNI names a source,
and its configuration is the one built from a read of that source. -/
theorem served_of_tlsInv {inner : List (List UInt8 × ConfigBuild.CryptoFileSource)}
    {s : TlsState Anchor Cert Key SigningKey}
    (h : TlsInv pemCerts pemPkcs8Keys pemRsaKeys anySupportedType anchorFromTrustedCert subjectKeyIdentifier
      resolverAccepts env anchorsOrder inner s)
    {intoStream : ServerConfig Anchor Cert SigningKey → ClientHello → Bool}
    {acme : List (List UInt8 × ServerConfig Anchor Cert SigningKey)} {hello : ClientHello} {n : ServerName}
    {cfg : ServerConfig Anchor Cert SigningKey}
    (hserved : serveTlsTcpConnection intoStream acme s.serverCryptoMap hello = .served n cfg) :
    ∃ sni src fs ck sc, hello.serverName = some sni ∧ n = ServerName.fromBytes sni ∧
      inner.lookup (sni.map asciiLowerByte) = some src ∧
      cryptoFileSourceRead pemCerts pemPkcs8Keys pemRsaKeys fs src = .ok ck ∧
      individualServerCrypto anySupportedType anchorFromTrustedCert subjectKeyIdentifier resolverAccepts env
        anchorsOrder (sni.map asciiLowerByte) ck = .ok (some sc) ∧ cfg = sc.serverConfig := by
  unfold serveTlsTcpConnection at hserved
  rcases Option.eq_none_or_eq_some s.serverCryptoMap with hnone | ⟨m, hm⟩
  · rw [hnone] at hserved
    cases hserved
  rw [hm] at hserved
  obtain ⟨base, crypto, order, hread, hcrypto, rfl⟩ := h.installed m hm
  obtain ⟨res, hres, hacme, rfl, rfl⟩ := serveTlsConnection_eq_served hserved
  obtain ⟨sni, hsni, hname, hch, -, hsc⟩ := serveTlsHandshake_eq_ok hres
  obtain ⟨sc, hlookup, hcfg⟩ := hsc (hch ▸ hacme)
  obtain ⟨e, he, hn, hbuild⟩ := lookup_sniServerCryptoMap_base hcrypto hlookup
  have hkey : e.1 = sni.map asciiLowerByte := (congrArg ServerName.inner hn).symm
  obtain ⟨src, fs, hsrc, hck⟩ := hread e.1 e.2 (lookup_eq_some_of_nodup base.nodup_keys he)
  rw [hkey] at hsrc hbuild
  exact ⟨sni, src, fs, e.2, sc, hsni, hname, hsrc, hck, hbuild, hcfg⟩

/-- In every state the reloader and the listener reach, a connection is served only for an SNI
whose lowercased name has a source. When the source has a client CA file, the connection is
served with a verifier over the trust anchors of certificates read from that file and without
session resumption; when it has none, without client authentication and with resumption. -/
theorem served_client_auth_follows_source (inner : List (List UInt8 × ConfigBuild.CryptoFileSource))
    (hnd : (inner.map Prod.fst).Nodup) (hlow : ∀ e ∈ inner, e.1.map asciiLowerByte = e.1)
    {s : TlsState Anchor Cert Key SigningKey}
    (hreach : Reachable (tlsInit (CryptoReloader.new inner hnd hlow))
      (tlsStep pemCerts pemPkcs8Keys pemRsaKeys anySupportedType anchorFromTrustedCert subjectKeyIdentifier
        resolverAccepts env anchorsOrder) s)
    (intoStream : ServerConfig Anchor Cert SigningKey → ClientHello → Bool)
    (acme : List (List UInt8 × ServerConfig Anchor Cert SigningKey)) (hello : ClientHello) (n : ServerName)
    (cfg : ServerConfig Anchor Cert SigningKey)
    (hserved : serveTlsTcpConnection intoStream acme s.serverCryptoMap hello = .served n cfg) :
    ∃ sni src, hello.serverName = some sni ∧ n = ServerName.fromBytes sni ∧
      inner.lookup (sni.map asciiLowerByte) = some src ∧
      (∀ p, src.clientCaCertPath = some p → ∃ (fs : List Char → Option (List UInt8)) (bytes : List UInt8)
        (cas : List Cert) (roots : List Anchor), fs p = some bytes ∧ pemCerts bytes = some cas ∧
        cfg.clientAuth = .verifier roots ∧
        roots.Perm ((ofEntries (cas.filterMap (trustAnchorOf anchorFromTrustedCert subjectKeyIdentifier))).map
          Prod.snd) ∧ cfg.resumable = false) ∧
      (src.clientCaCertPath = none → cfg.clientAuth = .noClientAuth ∧ cfg.resumable = true) := by
  obtain ⟨sni, src, fs, ck, sc, hsni, hname, hsrc, hck, hbuild, rfl⟩ :=
    served_of_tlsInv (tlsInv_reachable hreach) hserved
  obtain ⟨-, -, -, hmutual, hcas⟩ := readCertsAndKeys_eq_ok pemCerts pemPkcs8Keys pemRsaKeys hck
  refine ⟨sni, src, hsni, hname, hsrc, fun p hp => ?_, fun hp => ?_⟩
  · obtain ⟨bytes, cas, hbytes, hpem, hca⟩ := hcas p hp
    obtain ⟨-, anchors, hanchors, hauth, hres⟩ := individualServerCrypto_mutualTls hca hbuild
    rw [rustlsClientCertsTrustAnchors_of_clientCaCerts hca] at hanchors
    obtain rfl := Except.ok.inj hanchors
    exact ⟨fs, bytes, cas, _, hbytes, hpem, hauth, (anchorsOrder.perm _).map Prod.snd, hres⟩
  · have hca : ck.clientCaCerts = none := by
      rw [← Option.not_isSome_iff_eq_none, ← SingleServerCertsKeys.isMutualTls, hmutual, hp, Option.isSome_none]
      exact Bool.false_ne_true
    obtain ⟨-, hauth, hticketer, -⟩ := individualServerCrypto_noClientAuth hca hbuild
    exact ⟨hauth, by simp [ServerConfig.resumable, hticketer]⟩

end Serve

/-! ### From the configuration -/

section Config

open ConfigBuild

variable {RP RPC PM : Type} {proxyConfigOf : ConfigToml RP → Except String ProxyConfig}
  {reverseProxyConfigOf : Application RP → Except String RPC}
  {pathManagerOf : AppConfig RPC → Except String PM}
  {cachedCertFileName : List (List Char) → List Char → List Char} {conf : ConfigToml RP}
  {pemCerts : List UInt8 → Option (List Cert)} {pemPkcs8Keys pemRsaKeys : List UInt8 → Option (List Key)}
  {anySupportedType : Key → Option SigningKey} {anchorFromTrustedCert : Cert → Option Anchor}
  {subjectKeyIdentifier : Cert → Option (List UInt8)}
  {resolverAccepts : List UInt8 → CertifiedKey Cert SigningKey → Bool} {env : CryptoEnv}
  {anchorsOrder : IterationOrder (List UInt8 × Anchor)}

/-- For a configuration the builders accept with server names distinct up to case, in every state
the reloader and the listener reach from its certificate sources, a connection is served only for
the server name of one application of the table, which has a TLS table. When that table has a
`client_ca_cert_path`, the connection is served with a verifier over the trust anchors of
certificates read from that file and without session resumption; when it has none, without
client authentication and with resumption. -/
theorem served_client_auth_follows_config
    (run : AcceptedRun proxyConfigOf reverseProxyConfigOf pathManagerOf cachedCertFileName conf)
    {apps : Apps RP} (happs : conf.apps = some apps) (hd : apps.CaseDistinct)
    {reloader : List (List UInt8 × CryptoFileSource)} (hc : run.certs = some reloader)
    (hnd : (reloader.map Prod.fst).Nodup) (hlow : ∀ e ∈ reloader, e.1.map asciiLowerByte = e.1)
    {s : TlsState Anchor Cert Key SigningKey}
    (hreach : Reachable (tlsInit (CryptoReloader.new reloader hnd hlow))
      (tlsStep pemCerts pemPkcs8Keys pemRsaKeys anySupportedType anchorFromTrustedCert subjectKeyIdentifier
        resolverAccepts env anchorsOrder) s)
    (intoStream : ServerConfig Anchor Cert SigningKey → ClientHello → Bool)
    (acme : List (List UInt8 × ServerConfig Anchor Cert SigningKey)) (hello : ClientHello) (n : ServerName)
    (cfg : ServerConfig Anchor Cert SigningKey)
    (hserved : serveTlsTcpConnection intoStream acme s.serverCryptoMap hello = .served n cfg) :
    ∃ e ∈ apps.entries, ∃ tls, e.2.serverName.map toServerName = some n ∧ e.2.tls = some tls ∧
      (∀ e' ∈ apps.entries, e'.2.serverName.map toServerName = some n → e' = e) ∧
      (∀ p, tls.clientCaCertPath = some p → ∃ (fs : List Char → Option (List UInt8)) (bytes : List UInt8)
        (cas : List Cert) (roots : List Anchor), fs p = some bytes ∧ pemCerts bytes = some cas ∧
        cfg.clientAuth = .verifier roots ∧
        roots.Perm ((ofEntries (cas.filterMap (trustAnchorOf anchorFromTrustedCert subjectKeyIdentifier))).map
          Prod.snd) ∧ cfg.resumable = false) ∧
      (tls.clientCaCertPath = none → cfg.clientAuth = .noClientAuth ∧ cfg.resumable = true) := by
  obtain ⟨sni, src, -, hname, hsrc, hca, hnone⟩ :=
    served_client_auth_follows_source reloader hnd hlow hreach intoStream acme hello n cfg hserved
  obtain ⟨e, he, name, hentry, hkey⟩ := (run.lookup_certs happs hd hc _ src).mp hsrc
  obtain ⟨tls, htls, hserver, hpath⟩ := hentry.key
  have hn : n = toServerName name := by
    rw [hname]
    exact congrArg ServerName.mk hkey
  have hen : e.2.serverName.map toServerName = some n := by
    rw [hserver, hn]
    rfl
  refine ⟨e, he, tls, hen, htls, fun e' he' hen' => eq_of_serverName_eq hd he' he (hen'.trans hen.symm),
    fun p hp => hca p (hpath.trans hp), fun hp => hnone (hpath.trans hp)⟩

/-- The certificate sources of `distinctConf`: `a.example` with the client CA file `ca.pem` and
`b.example` without one. -/
def distinctSources : List (List UInt8 × CryptoFileSource) :=
  [((toServerName "a.example".toList).inner, ⟨"x.crt".toList, "x.key".toList, some "ca.pem".toList⟩),
    ((toServerName "b.example".toList).inner, ⟨"y.crt".toList, "y.key".toList, none⟩)]

/-- The parsers and rustls pieces of the example: every file holds the certificate 7 and the key 2,
a CA certificate's Subject Key Identifier is its number, and the resolver takes every pair. -/
def exampleTlsStep : TlsState Nat Nat Nat Nat → TlsAction Nat Nat Nat → Option (TlsState Nat Nat Nat Nat) :=
  tlsStep (fun _ => some [7]) (fun _ => some [2]) (fun _ => some []) some some (fun c => some [c.toUInt8])
    (fun _ _ => true) ⟨true, true⟩ (.given _)

/-- After one reload that finds every file and the listener's wake-up, a ClientHello for
`A.example` is served with a client verifier and without resumption. -/
theorem served_client_auth_follows_config_example :
    ∃ (s : TlsState Nat Nat Nat Nat) (n : ServerName) (cfg : ServerConfig Nat Nat Nat),
      Reachable (tlsInit (CryptoReloader.new distinctSources (by decide) (by decide))) exampleTlsStep s ∧
      serveTlsTcpConnection (fun _ _ => true) [] s.serverCryptoMap ⟨some (utf8Bytes "A.example".toList), false⟩ =
        .served n cfg ∧
      ∃ roots, cfg.clientAuth = .verifier roots ∧ cfg.resumable = false := by
  obtain ⟨s, hreach, n, cfg, hserved, hn⟩ : ∃ (s : TlsState Nat Nat Nat Nat),
      Reachable (tlsInit (CryptoReloader.new distinctSources (by decide) (by decide))) exampleTlsStep s ∧
      ∃ n cfg, serveTlsTcpConnection (fun _ _ => true) [] s.serverCryptoMap
        ⟨some (utf8Bytes "A.example".toList), false⟩ = .served n cfg ∧ n = toServerName "a.example".toList :=
    ⟨_, .step (a := .update (.given _)) (.step (a := .reload (.given _) fun _ _ => some []) .init rfl) rfl,
      _, _, rfl, by decide⟩
  obtain ⟨apps, happs⟩ : ∃ apps, distinctConf.apps = some apps := ⟨_, rfl⟩
  have hd : apps.CaseDistinct := by
    obtain rfl := Option.some.inj happs
    exact ⟨by decide, by decide⟩
  obtain ⟨e, -, tls, -, htls, huniq, hca, -⟩ := served_client_auth_follows_config distinctRun happs hd
    (by decide) (by decide) (by decide) hreach _ _ _ n cfg hserved
  obtain rfl := Option.some.inj happs
  obtain rfl := huniq _ List.mem_cons_self (by rw [hn]; rfl)
  obtain rfl := Option.some.inj htls
  obtain ⟨-, -, -, roots, -, -, hauth, -, hres⟩ := hca _ rfl
  exact ⟨s, n, cfg, hreach, hserved, roots, hauth, hres⟩

end Config



end Rpxy.TlsListener
