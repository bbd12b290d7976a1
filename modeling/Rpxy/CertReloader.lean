import Rpxy.TlsServerCrypto
import Rpxy.ConfigBuild

/-!
# The certificate reloader

`build_cert_reloader` keys the `crypto_source_map` by lowercased server name and hands it to a
`CryptoReloader`. Every reload reads each source with `read_certs_and_keys` and builds the
`ServerCryptoBase` of the names that read, keeping in its last-good cache the newest material of
each name: a name whose read fails is served with what it last read, and a name that never read
is left out until it does.

The file system is a function from a path to the bytes `File::open` and a read to the end give,
or to an I/O error; the PEM readers of `pki_types` are given functions from the bytes of a file to
its certificates or keys. The permission check on the key file only logs and is left out.

The main results: over every run of reloads, whatever the iteration order of each reload and
whatever each read gives, the base of every reload maps a name to the newest material its
source has read so far, and holds no name that has never read; a name once loaded is never
dropped. Every base holds each name once, in lowercase, so it is a `ServerCryptoBase`.
-/

namespace Rpxy.CertReloader

open RustResult HttpHeaders CacheKey HashMapModel TlsServerCrypto

/-! ### `read_certs_and_keys` -/

/-- The `io::Error`s of `read_certs_and_keys`, by their messages. -/
inductive ReadError
  /-- "Unable to load the certificates". -/
  | loadCertificates
  /-- "Unable to parse the certificates". -/
  | parseCertificates
  /-- "Unable to load the certificate keys". -/
  | loadCertificateKeys
  /-- "Unable to parse the certificates private keys (PKCS8)". -/
  | parsePkcs8Keys
  /-- "Unable to parse the certificates private keys (RSA)". -/
  | parseRsaKeys
  /-- "No private keys found - Make sure that they are in PKCS#8/PEM format". -/
  | noPrivateKeys
  /-- "Unable to load the client certificates". -/
  | loadClientCertificates
  /-- "Unable to parse the client certificates". -/
  | parseClientCertificates
  deriving DecidableEq, Repr

/-- `ok_or` into a `ReadError`. -/
def orError {α : Type} (o : Option α) (e : ReadError) : Except ReadError α :=
  match o with
  | some a => .ok a
  | none => .error e

@[simp]
theorem orError_eq_ok {α : Type} {o : Option α} {e : ReadError} {a : α} : orError o e = .ok a ↔ o = some a := by
  unfold orError
  cases o <;> simp

section Read

variable {Cert Key : Type} (pemCerts : List UInt8 → Option (List Cert))
  (pemPkcs8Keys pemRsaKeys : List UInt8 → Option (List Key))

/-- The check that at least one private key was found. -/
def nonEmptyKeys (keys : List Key) : Except ReadError (List Key) :=
  if keys.isEmpty then .error .noPrivateKeys else .ok keys

/-- The client CA certificates of `read_certs_and_keys`: none without a path, and otherwise the
certificates of the file. -/
def readClientCaCerts (fs : List Char → Option (List UInt8)) :
    Option (List Char) → Except ReadError (Option (List Cert))
  | none => pure none
  | some path => do
    let bytes ← orError (fs path) .loadClientCertificates
    let certs ← orError (pemCerts bytes) .parseClientCertificates
    pure (some certs)

/-- `read_certs_and_keys`: the PKCS#8 keys of the key file, then its RSA keys. -/
def readCertsAndKeys (fs : List Char → Option (List UInt8)) (certPath certKeyPath : List Char)
    (clientCaCertPath : Option (List Char)) : Except ReadError (SingleServerCertsKeys Cert Key) := do
  let certBytes ← orError (fs certPath) .loadCertificates
  let rawCerts ← orError (pemCerts certBytes) .parseCertificates
  let keyBytes ← orError (fs certKeyPath) .loadCertificateKeys
  let pkcs8Keys ← orError (pemPkcs8Keys keyBytes) .parsePkcs8Keys
  let rsaKeys ← orError (pemRsaKeys keyBytes) .parseRsaKeys
  let rawCertKeys ← nonEmptyKeys (pkcs8Keys ++ rsaKeys)
  let clientCaCerts ← readClientCaCerts pemCerts fs clientCaCertPath
  pure ⟨rawCerts, rawCertKeys, clientCaCerts⟩

/-- `CryptoSource::read` of a `CryptoFileSource`. -/
def cryptoFileSourceRead (fs : List Char → Option (List UInt8)) (src : ConfigBuild.CryptoFileSource) :
    Except ReadError (SingleServerCertsKeys Cert Key) :=
  readCertsAndKeys pemCerts pemPkcs8Keys pemRsaKeys fs src.tlsCertPath src.tlsCertKeyPath src.clientCaCertPath

/-- Without a path there are no client CA certificates; with one they are the certificates the
file holds. -/
theorem readClientCaCerts_eq_ok {fs : List Char → Option (List UInt8)} {path : Option (List Char)}
    {o : Option (List Cert)} (h : readClientCaCerts pemCerts fs path = .ok o) :
    o.isSome = path.isSome ∧
      ∀ p, path = some p → ∃ bytes cas, fs p = some bytes ∧ pemCerts bytes = some cas ∧ o = some cas := by
  cases path with
  | none =>
    obtain rfl : none = o := Except.ok.inj h
    exact ⟨rfl, fun p hp => by cases hp⟩
  | some path =>
    obtain ⟨bytes, hbytes, h⟩ := except_bind_eq_ok.mp h
    obtain ⟨cas, hcas, h⟩ := except_bind_eq_ok.mp h
    obtain rfl : some cas = o := Except.ok.inj h
    refine ⟨rfl, fun p hp => ?_⟩
    obtain rfl := Option.some.inj hp
    exact ⟨bytes, cas, orError_eq_ok.mp hbytes, orError_eq_ok.mp hcas, rfl⟩

/-- What a successful `read_certs_and_keys` gives: the certificates of the certificate file, the
PKCS#8 and then the RSA keys of the key file, at least one of them, and client CA certificates
exactly when a path is given, those of its file. -/
theorem readCertsAndKeys_eq_ok {fs : List Char → Option (List UInt8)} {certPath certKeyPath : List Char}
    {clientCaCertPath : Option (List Char)} {ck : SingleServerCertsKeys Cert Key}
    (h : readCertsAndKeys pemCerts pemPkcs8Keys pemRsaKeys fs certPath certKeyPath clientCaCertPath = .ok ck) :
    (∃ bytes, fs certPath = some bytes ∧ pemCerts bytes = some ck.certs) ∧
      (∃ bytes pkcs8Keys rsaKeys, fs certKeyPath = some bytes ∧ pemPkcs8Keys bytes = some pkcs8Keys ∧
        pemRsaKeys bytes = some rsaKeys ∧ ck.certKeys = pkcs8Keys ++ rsaKeys) ∧ ck.certKeys ≠ [] ∧
      ck.isMutualTls = clientCaCertPath.isSome ∧
      ∀ p, clientCaCertPath = some p →
        ∃ bytes cas, fs p = some bytes ∧ pemCerts bytes = some cas ∧ ck.clientCaCerts = some cas := by
  obtain ⟨certBytes, hcertBytes, h⟩ := except_bind_eq_ok.mp h
  obtain ⟨rawCerts, hrawCerts, h⟩ := except_bind_eq_ok.mp h
  obtain ⟨keyBytes, hkeyBytes, h⟩ := except_bind_eq_ok.mp h
  obtain ⟨pkcs8Keys, hpkcs8, h⟩ := except_bind_eq_ok.mp h
  obtain ⟨rsaKeys, hrsa, h⟩ := except_bind_eq_ok.mp h
  obtain ⟨rawCertKeys, hkeys, h⟩ := except_bind_eq_ok.mp h
  obtain ⟨clientCaCerts, hca, h⟩ := except_bind_eq_ok.mp h
  obtain rfl : (⟨rawCerts, rawCertKeys, clientCaCerts⟩ : SingleServerCertsKeys Cert Key) = ck := Except.ok.inj h
  have hnonempty : rawCertKeys = pkcs8Keys ++ rsaKeys ∧ rawCertKeys ≠ [] := by
    unfold nonEmptyKeys at hkeys
    split_ifs at hkeys with hempty
    obtain rfl := Except.ok.inj hkeys
    exact ⟨rfl, fun hnil => hempty (by rw [hnil]; rfl)⟩
  obtain ⟨hsome, hpath⟩ := readClientCaCerts_eq_ok pemCerts hca
  exact ⟨⟨certBytes, orError_eq_ok.mp hcertBytes, orError_eq_ok.mp hrawCerts⟩,
    ⟨keyBytes, pkcs8Keys, rsaKeys, orError_eq_ok.mp hkeyBytes, orError_eq_ok.mp hpkcs8, orError_eq_ok.mp hrsa,
      hnonempty.1⟩, hnonempty.2, hsome, hpath⟩

end Read

/-- `CryptoSource::is_mutual_tls` of a `CryptoFileSource`. -/
def cryptoFileSourceIsMutualTls (src : ConfigBuild.CryptoFileSource) : Bool := src.clientCaCertPath.isSome

/-! ### `CryptoReloader` -/

/-- `CryptoReloader`: the source of each server name, keyed by its lowercased bytes, each name
once, and the last-good cache. `build_cert_reloader` lowercases every name it keys. -/
structure CryptoReloader (Cert Key : Type) where
  /-- The source of each server name, keyed by its lowercased bytes. -/
  inner : List (List UInt8 × ConfigBuild.CryptoFileSource)
  /-- Each name once. -/
  nodup_keys : (inner.map Prod.fst).Nodup
  /-- Every key is lowercase. -/
  lowercase : ∀ e ∈ inner, e.1.map asciiLowerByte = e.1
  /-- `last_good`, the material last read from each source. -/
  lastGood : List (List UInt8 × SingleServerCertsKeys Cert Key)

variable {Cert Key : Type}

/-- `Reload::new`: the sources, and an empty last-good cache. -/
def CryptoReloader.new (inner : List (List UInt8 × ConfigBuild.CryptoFileSource))
    (nodup_keys : (inner.map Prod.fst).Nodup) (lowercase : ∀ e ∈ inner, e.1.map asciiLowerByte = e.1) :
    CryptoReloader Cert Key :=
  ⟨inner, nodup_keys, lowercase, []⟩

theorem asciiLowerByte_idem (b : UInt8) : asciiLowerByte (asciiLowerByte b) = asciiLowerByte b := by
  unfold asciiLowerByte
  by_cases h : 65 ≤ b ∧ b ≤ 90
  · have h' : ¬(65 ≤ b + 32 ∧ b + 32 ≤ 90) := by
      obtain ⟨h1, h2⟩ := h
      rw [UInt8.le_iff_toNat_le, UInt8.le_iff_toNat_le] at *
      rw [UInt8.toNat_add]
      simp only [UInt8.toNat_ofNat] at *
      omega
    rw [if_pos h, if_neg h']
  · rw [if_neg h, if_neg h]

/-- `build_cert_reloader` keys its sources by lowercased names, each once. -/
theorem buildCertReloader_lowercase (order : IterationOrder (List Char × ConfigBuild.CryptoFileSource))
    (cryptoSourceMap : List (List Char × ConfigBuild.CryptoFileSource)) :
    ∀ e ∈ ConfigBuild.buildCertReloader order cryptoSourceMap, e.1.map asciiLowerByte = e.1 := by
  intro e he
  obtain ⟨q, -, rfl⟩ := List.mem_map.mp (mem_of_mem_ofEntries he)
  show ((utf8Bytes q.1).map asciiLowerByte).map asciiLowerByte = (utf8Bytes q.1).map asciiLowerByte
  rw [List.map_map]
  exact List.map_congr_left fun b _ => asciiLowerByte_idem b

/-- The reloader that `build_cert_reloader` starts on a `crypto_source_map` (`Reload::new`). -/
def CryptoReloader.ofSourceMap (order : IterationOrder (List Char × ConfigBuild.CryptoFileSource))
    (cryptoSourceMap : List (List Char × ConfigBuild.CryptoFileSource)) : CryptoReloader Cert Key :=
  CryptoReloader.new (ConfigBuild.buildCertReloader order cryptoSourceMap) (nodup_keys_ofEntries _)
    (buildCertReloader_lowercase order cryptoSourceMap)

/-- One turn of the loop of `reload`: a name that reads joins the base and the cache with what it
read; one that fails joins the base with its cached material, or is skipped without one. -/
def reloadEntry (read : List UInt8 × ConfigBuild.CryptoFileSource → Except ReadError (SingleServerCertsKeys Cert Key))
    (acc : List (List UInt8 × SingleServerCertsKeys Cert Key) × List (List UInt8 × SingleServerCertsKeys Cert Key))
    (e : List UInt8 × ConfigBuild.CryptoFileSource) :
    List (List UInt8 × SingleServerCertsKeys Cert Key) × List (List UInt8 × SingleServerCertsKeys Cert Key) :=
  match read e with
  | .ok certsKeys => (insert acc.1 e.1 certsKeys, insert acc.2 e.1 certsKeys)
  | .error _ =>
    match acc.2.lookup e.1 with
    | some retained => (insert acc.1 e.1 retained, acc.2)
    | none => acc

/-- The loop of `reload` over the sources in an iteration order, from an empty base and the
cache. -/
def reloadLoop (read : List UInt8 × ConfigBuild.CryptoFileSource → Except ReadError (SingleServerCertsKeys Cert Key))
    (entries : List (List UInt8 × ConfigBuild.CryptoFileSource))
    (lastGood : List (List UInt8 × SingleServerCertsKeys Cert Key)) :
    List (List UInt8 × SingleServerCertsKeys Cert Key) × List (List UInt8 × SingleServerCertsKeys Cert Key) :=
  entries.foldl (reloadEntry read) ([], lastGood)

/-! ### The loop keeps the base a map of the sources' names -/

section Loop

variable {read : List UInt8 × ConfigBuild.CryptoFileSource → Except ReadError (SingleServerCertsKeys Cert Key)}

/-- A turn of the loop adds to the base at most the entry's own name, and keeps its names
distinct. -/
theorem reloadEntry_base {acc : List (List UInt8 × SingleServerCertsKeys Cert Key) ×
      List (List UInt8 × SingleServerCertsKeys Cert Key)} {e : List UInt8 × ConfigBuild.CryptoFileSource}
    (hnd : (acc.1.map Prod.fst).Nodup) :
    ((reloadEntry read acc e).1.map Prod.fst).Nodup ∧
      ∀ q ∈ (reloadEntry read acc e).1, q ∈ acc.1 ∨ q.1 = e.1 := by
  unfold reloadEntry
  split
  · refine ⟨nodup_keys_insert hnd _ _, fun q hq => ?_⟩
    rcases mem_insert hq with rfl | hq
    · exact .inr rfl
    · exact .inl hq
  · split
    · refine ⟨nodup_keys_insert hnd _ _, fun q hq => ?_⟩
      rcases mem_insert hq with rfl | hq
      · exact .inr rfl
      · exact .inl hq
    · exact ⟨hnd, fun q hq => .inl hq⟩

/-- The base of the loop holds each name once, and only names of the entries. -/
theorem reloadLoop_base (entries : List (List UInt8 × ConfigBuild.CryptoFileSource)) :
    ∀ (acc : List (List UInt8 × SingleServerCertsKeys Cert Key) × List (List UInt8 × SingleServerCertsKeys Cert Key)),
      (acc.1.map Prod.fst).Nodup →
      ((entries.foldl (reloadEntry read) acc).1.map Prod.fst).Nodup ∧
        ∀ q ∈ (entries.foldl (reloadEntry read) acc).1, q ∈ acc.1 ∨ ∃ e ∈ entries, q.1 = e.1 := by
  induction entries with
  | nil => exact fun acc hnd => ⟨hnd, fun q hq => .inl hq⟩
  | cons e rest ih =>
    intro acc hnd
    obtain ⟨hnd₁, hmem₁⟩ := @reloadEntry_base Cert Key read acc e hnd
    obtain ⟨hnd₂, hmem₂⟩ := ih _ hnd₁
    refine ⟨hnd₂, fun q hq => ?_⟩
    rcases hmem₂ q hq with hq | ⟨e', he', hk⟩
    · rcases hmem₁ q hq with hq | hk
      · exact .inl hq
      · exact .inr ⟨e, List.mem_cons_self, hk⟩
    · exact .inr ⟨e', List.mem_cons_of_mem e he', hk⟩

end Loop

/-! ### What the loop leaves under each name -/

/-- What the base and the cache hold under a name. -/
def reloadObs (acc : List (List UInt8 × SingleServerCertsKeys Cert Key) × List (List UInt8 × SingleServerCertsKeys Cert Key))
    (k : List UInt8) : Option (SingleServerCertsKeys Cert Key) × Option (SingleServerCertsKeys Cert Key) :=
  (acc.1.lookup k, acc.2.lookup k)

/-- What the turn of a name makes of what the base and the cache held under it: the material read
now, or else the cached one, in both. -/
def reloadTurn (read : List UInt8 × ConfigBuild.CryptoFileSource → Except ReadError (SingleServerCertsKeys Cert Key))
    (k : List UInt8) (src : ConfigBuild.CryptoFileSource)
    (held : Option (SingleServerCertsKeys Cert Key) × Option (SingleServerCertsKeys Cert Key)) :
    Option (SingleServerCertsKeys Cert Key) × Option (SingleServerCertsKeys Cert Key) :=
  (((read (k, src)).toOption.or held.2).or held.1, (read (k, src)).toOption.or held.2)

section Lookup

variable {read : List UInt8 × ConfigBuild.CryptoFileSource → Except ReadError (SingleServerCertsKeys Cert Key)}

theorem reloadEntry_frame (acc : List (List UInt8 × SingleServerCertsKeys Cert Key) ×
      List (List UInt8 × SingleServerCertsKeys Cert Key)) (e : List UInt8 × ConfigBuild.CryptoFileSource)
    (k : List UInt8) (hk : e.1 ≠ k) : reloadObs (reloadEntry read acc e) k = reloadObs acc k := by
  have hne : (k == e.1) = false := by simpa using Ne.symm hk
  unfold reloadEntry reloadObs
  split
  · rw [lookup_insert, lookup_insert, hne]
    rfl
  · split
    · rw [lookup_insert, hne]
      rfl
    · rfl

theorem reloadEntry_local (acc : List (List UInt8 × SingleServerCertsKeys Cert Key) ×
      List (List UInt8 × SingleServerCertsKeys Cert Key)) (e : List UInt8 × ConfigBuild.CryptoFileSource) :
    reloadObs (reloadEntry read acc e) e.1 = reloadTurn read e.1 e.2 (reloadObs acc e.1) := by
  unfold reloadEntry reloadObs reloadTurn
  split
  · rename_i certsKeys hread
    rw [lookup_insert, lookup_insert, beq_self_eq_true, if_pos rfl, if_pos rfl, Prod.mk.eta, hread]
    rfl
  · rename_i err hread
    rw [hread]
    split
    · rename_i retained hretained
      rw [lookup_insert, beq_self_eq_true, if_pos rfl, hretained]
      rfl
    · rename_i hnone
      rw [hnone]
      rfl

/-- The loop over sources with distinct names: a name of the sources gets in the base and in the
cache what it read, or else what the cache held; the base holds no other name, and the cache
keeps what it held under every other name. -/
theorem lookup_reloadLoop {entries : List (List UInt8 × ConfigBuild.CryptoFileSource)}
    (hnd : (entries.map Prod.fst).Nodup) (lastGood : List (List UInt8 × SingleServerCertsKeys Cert Key))
    (k : List UInt8) :
    (reloadLoop read entries lastGood).1.lookup k =
        (entries.lookup k).bind (fun src => (read (k, src)).toOption.or (lastGood.lookup k)) ∧
      (reloadLoop read entries lastGood).2.lookup k =
        (entries.lookup k).elim (lastGood.lookup k) fun src => (read (k, src)).toOption.or (lastGood.lookup k) := by
  have h := foldl_keywise (@reloadEntry_frame Cert Key read) (@reloadEntry_local Cert Key read) hnd ([], lastGood) k
  unfold reloadObs at h
  cases hk : entries.lookup k with
  | none =>
    rw [hk] at h
    exact ⟨(Prod.mk.inj h).1, (Prod.mk.inj h).2⟩
  | some src =>
    rw [hk] at h
    unfold reloadTurn at h
    have h₁ := (Prod.mk.inj h).1
    rw [List.lookup_nil, Option.or_none] at h₁
    exact ⟨h₁, (Prod.mk.inj h).2⟩

end Lookup

/-! ### `reload` and a run of reloads -/

/-- The base of a reload holds each name once, and only lowercase names of the sources. -/
theorem reloadLoop_base_keys
    {read : List UInt8 × ConfigBuild.CryptoFileSource → Except ReadError (SingleServerCertsKeys Cert Key)}
    (r : CryptoReloader Cert Key) (order : IterationOrder (List UInt8 × ConfigBuild.CryptoFileSource)) :
    ((reloadLoop read (order.order r.inner) r.lastGood).1.map Prod.fst).Nodup ∧
      ∀ q ∈ (reloadLoop read (order.order r.inner) r.lastGood).1, q.1.map asciiLowerByte = q.1 := by
  obtain ⟨hnd, hmem⟩ := @reloadLoop_base Cert Key read (order.order r.inner) ([], r.lastGood) List.nodup_nil
  refine ⟨hnd, fun q hq => ?_⟩
  rcases hmem q hq with hq | ⟨e, he, hk⟩
  · cases hq
  · rw [hk]
    exact r.lowercase e ((order.perm r.inner).subset he)

/-- `Reload::reload`: the base of the names that read now or hold cached material, collected in
this reload's iteration order of the sources, and the reloader with its updated cache. -/
def CryptoReloader.reload (order : IterationOrder (List UInt8 × ConfigBuild.CryptoFileSource))
    (read : List UInt8 × ConfigBuild.CryptoFileSource → Except ReadError (SingleServerCertsKeys Cert Key))
    (r : CryptoReloader Cert Key) : ServerCryptoBase Cert Key × CryptoReloader Cert Key :=
  (⟨(reloadLoop read (order.order r.inner) r.lastGood).1, (reloadLoop_base_keys r order).1,
      (reloadLoop_base_keys r order).2⟩,
    { r with lastGood := (reloadLoop read (order.order r.inner) r.lastGood).2 })

/-- One reload of a run: the iteration order of the sources, and what reading each gives. -/
structure ReloadInput (Cert Key : Type) where
  /-- The iteration order of the sources in this reload. -/
  order : IterationOrder (List UInt8 × ConfigBuild.CryptoFileSource)
  /-- What reading each source gives. -/
  read : List UInt8 × ConfigBuild.CryptoFileSource → Except ReadError (SingleServerCertsKeys Cert Key)

/-- The reloader service over a run of reloads: the base each reload publishes, and the reloader
at the end. -/
def CryptoReloader.reloadAll (r : CryptoReloader Cert Key) :
    List (ReloadInput Cert Key) → List (ServerCryptoBase Cert Key) × CryptoReloader Cert Key
  | [] => ([], r)
  | i :: is =>
    let step := r.reload i.order i.read
    let rest := step.2.reloadAll is
    (step.1 :: rest.1, rest.2)

/-- The newest material a name's source read over a run of reloads, if it ever read. -/
def latestRead (inputs : List (ReloadInput Cert Key)) (e : List UInt8 × ConfigBuild.CryptoFileSource) :
    Option (SingleServerCertsKeys Cert Key) :=
  inputs.foldl (fun acc i => (i.read e).toOption.or acc) none

theorem latestRead_append_single (inputs : List (ReloadInput Cert Key)) (i : ReloadInput Cert Key)
    (e : List UInt8 × ConfigBuild.CryptoFileSource) :
    latestRead (inputs ++ [i]) e = (i.read e).toOption.or (latestRead inputs e) := by
  rw [latestRead, List.foldl_append, List.foldl_cons, List.foldl_nil]
  rfl

section Run

variable (r : CryptoReloader Cert Key)

theorem reload_inner (order : IterationOrder (List UInt8 × ConfigBuild.CryptoFileSource))
    (read : List UInt8 × ConfigBuild.CryptoFileSource → Except ReadError (SingleServerCertsKeys Cert Key)) :
    (r.reload order read).2.inner = r.inner := rfl

/-- What a reload publishes and caches under a name: what its source read now, or else what the
cache held; nothing under a name without a source. -/
theorem lookup_reload (order : IterationOrder (List UInt8 × ConfigBuild.CryptoFileSource))
    (read : List UInt8 × ConfigBuild.CryptoFileSource → Except ReadError (SingleServerCertsKeys Cert Key))
    (k : List UInt8) :
    (r.reload order read).1.inner.lookup k =
        (r.inner.lookup k).bind (fun src => (read (k, src)).toOption.or (r.lastGood.lookup k)) ∧
      (r.reload order read).2.lastGood.lookup k =
        (r.inner.lookup k).elim (r.lastGood.lookup k) fun src => (read (k, src)).toOption.or (r.lastGood.lookup k) := by
  have hperm := order.perm r.inner
  have hnd : ((order.order r.inner).map Prod.fst).Nodup := (hperm.map Prod.fst).nodup_iff.mpr r.nodup_keys
  have hlookup := lookup_eq_of_perm hperm r.nodup_keys k
  rw [← hlookup]
  exact lookup_reloadLoop hnd r.lastGood k

theorem reloadAll_append (pre rest : List (ReloadInput Cert Key)) :
    r.reloadAll (pre ++ rest) =
      ((r.reloadAll pre).1 ++ ((r.reloadAll pre).2.reloadAll rest).1, ((r.reloadAll pre).2.reloadAll rest).2) := by
  induction pre generalizing r with
  | nil => rfl
  | cons i is ih =>
    rw [List.cons_append, CryptoReloader.reloadAll, ih]
    rfl

theorem length_reloadAll (inputs : List (ReloadInput Cert Key)) : (r.reloadAll inputs).1.length = inputs.length := by
  induction inputs generalizing r with
  | nil => rfl
  | cons i is ih =>
    rw [CryptoReloader.reloadAll, List.length_cons, List.length_cons, ← ih]

theorem reloadAll_inner (inputs : List (ReloadInput Cert Key)) : (r.reloadAll inputs).2.inner = r.inner := by
  induction inputs generalizing r with
  | nil => rfl
  | cons i is ih =>
    rw [CryptoReloader.reloadAll]
    exact (ih _).trans (reload_inner r i.order i.read)

/-- The cache after a run holds, under each name of the sources, the newest material that name
read, when it held nothing at the start. -/
theorem lookup_reloadAll_lastGood (hempty : ∀ k, r.lastGood.lookup k = none) (inputs : List (ReloadInput Cert Key))
    (k : List UInt8) :
    (r.reloadAll inputs).2.lastGood.lookup k = (r.inner.lookup k).bind fun src => latestRead inputs (k, src) := by
  induction inputs using List.reverseRecOn with
  | nil =>
    show r.lastGood.lookup k = _
    rw [hempty]
    cases r.inner.lookup k <;> rfl
  | append_singleton inputs i ih =>
    rw [reloadAll_append]
    have hstep := (lookup_reload (r.reloadAll inputs).2 i.order i.read k).2
    rw [reloadAll_inner] at hstep
    show ((r.reloadAll inputs).2.reload i.order i.read).2.lastGood.lookup k = _
    rw [hstep, ih]
    cases r.inner.lookup k with
    | none => rfl
    | some src =>
      rw [Option.elim_some, Option.bind_some, Option.bind_some, latestRead_append_single]

end Run

/-- Every reload of a run from a new reloader publishes, under each name of the sources, the
newest material that name has read up to and including that reload, and nothing under a name
that has not read yet or has no source. -/
theorem reload_serves_latest_read (inner : List (List UInt8 × ConfigBuild.CryptoFileSource))
    (hnd : (inner.map Prod.fst).Nodup) (hlow : ∀ e ∈ inner, e.1.map asciiLowerByte = e.1)
    (pre : List (ReloadInput Cert Key)) (input : ReloadInput Cert Key) (post : List (ReloadInput Cert Key))
    (k : List UInt8) :
    (((CryptoReloader.new inner hnd hlow : CryptoReloader Cert Key).reloadAll (pre ++ input :: post)).1[pre.length]?).map
        (fun base => base.inner.lookup k) =
      some ((inner.lookup k).bind fun src => latestRead (pre ++ [input]) (k, src)) := by
  set r : CryptoReloader Cert Key := CryptoReloader.new inner hnd hlow
  have hempty : ∀ k, r.lastGood.lookup k = none := fun _ => rfl
  have hinner : (r.reloadAll pre).2.inner = inner := reloadAll_inner r pre
  have hr : r.inner = inner := rfl
  rw [reloadAll_append, List.getElem?_append_right (by rw [length_reloadAll]),
    length_reloadAll, Nat.sub_self, CryptoReloader.reloadAll]
  rw [List.getElem?_cons_zero, Option.map_some, (lookup_reload _ input.order input.read k).1, hinner,
    lookup_reloadAll_lastGood r hempty pre k, hr]
  cases inner.lookup k with
  | none => rfl
  | some src => rw [Option.bind_some, Option.bind_some, Option.bind_some, latestRead_append_single]

/-- Two reloads of `a.example`: the first reads the certificate 1 and the key 2, the second fails
to load the certificate file. -/
def exampleReloads : List (ReloadInput Nat Nat) :=
  [⟨.given _, fun _ => .ok ⟨[1], [2], none⟩⟩, ⟨.given _, fun _ => .error .loadCertificates⟩]

/-- The second reload, whose read fails, publishes what the first one read. -/
theorem reload_serves_latest_read_after_failure :
    ((CryptoReloader.new [(utf8Bytes "a.example".toList, ⟨"a.crt".toList, "a.key".toList, none⟩)]
        (by decide) (by decide) : CryptoReloader Nat Nat).reloadAll exampleReloads).1[1]?.map
        (fun base => base.inner.lookup (utf8Bytes "a.example".toList)) =
      some (some ⟨[1], [2], none⟩) :=
  (reload_serves_latest_read _ (by decide) (by decide) [⟨.given _, fun _ => .ok ⟨[1], [2], none⟩⟩]
    ⟨.given _, fun _ => .error .loadCertificates⟩ [] (utf8Bytes "a.example".toList)).trans rfl

end Rpxy.CertReloader
