import Rpxy.StickyCookieSeal
import Rpxy.RustText

/-!
# Sticky cookies and their configuration

`sticky_cookie.rs`: the cookie a request carries (`name=value`), the metadata of the
`Set-Cookie` that a response carries, how the two are serialised, and `StickyCookieConfig`,
which `try_new` alone builds: it rejects a non-positive duration, lowercases the domain,
defaults the path to `/`, and precomputes the `name=` prefix and the AEAD associated data.
What `try_new` establishes is kept as fields of the config, so a config whose prefix or
associated data disagrees with its name, domain and path cannot be built.

Two name paths meet here: the builders behind `build_sticky_cookie` lowercase the cookie name
(`StickyCookieValueBuilder::name`), while the config's prefix keeps it as given. The clock
(`Utc::now`) is an argument, and chrono's rendering of the expiry, which fails outside its
range of dates, is the parameter `formatExpires`.
-/

namespace Rpxy.StickyCookies

open RustText RustInt HttpHeaders StickyCookieSeal

/-- The variants of `LoadBalanceError` that the sticky-cookie code raises. -/
inductive LoadBalanceError
  | failedToConversionStickyCookie
  | invalidStickyCookieStructure
  | noStickyCookieValue
  | noStickyCookieNoMetaInfo
  | failedToBuildStickyCookie
  deriving DecidableEq, Repr

/-- The `Display` text of each variant. -/
def LoadBalanceError.toString : LoadBalanceError → String
  | .failedToConversionStickyCookie => "Failed to cookie conversion to/from string"
  | .invalidStickyCookieStructure => "Invalid cookie structure"
  | .noStickyCookieValue => "No sticky cookie value"
  | .noStickyCookieNoMetaInfo => "Failed to cookie conversion into string: no meta information"
  | .failedToBuildStickyCookie => "Failed to build sticky cookie from config"

/-- `StickyCookieValue`: the name and value of the cookie. -/
structure StickyCookieValue where
  /-- The cookie's name. -/
  name : List Char
  /-- The cookie's value. -/
  value : List Char
  deriving DecidableEq, Repr

/-- `StickyCookieValue::try_from`: split at the first `=`, trim both sides, and check the name
and that the value is not empty. -/
def StickyCookieValue.tryFrom (value expectedName : List Char) :
    Except LoadBalanceError StickyCookieValue :=
  match splitOnce '=' value with
  | none => .error .invalidStickyCookieStructure
  | some (name, val) =>
    if trim name != expectedName then .error .failedToConversionStickyCookie
    else if (trim val).isEmpty then .error .noStickyCookieValue
    else .ok ⟨expectedName, trim val⟩

/-- `StickyCookieInfo`: the expiry (Unix seconds), domain and path of a `Set-Cookie`. -/
structure StickyCookieInfo where
  /-- The expiry, in Unix seconds. -/
  expires : Int
  /-- The `Domain` attribute. -/
  domain : List Char
  /-- The `Path` attribute. -/
  path : List Char
  deriving DecidableEq, Repr

/-- `StickyCookie`: a value, and the metadata when the cookie is to be set. -/
structure StickyCookie where
  /-- The name and value. -/
  value : StickyCookieValue
  /-- The attributes, when the cookie is to be set. -/
  info : Option StickyCookieInfo
  deriving DecidableEq, Repr

section Serialise

variable (formatExpires : Int → Option (List Char))

/-- `StickyCookie::to_set_cookie_value_with_value_at`. The `Max-Age` is an `i64` difference,
which a release build wraps. -/
def StickyCookie.toSetCookieValueWithValueAt (cookie : StickyCookie) (secure : Bool)
    (cookieValue : List Char) (nowTs : Int) : Except LoadBalanceError (List Char) :=
  match cookie.info with
  | none => .error .noStickyCookieNoMetaInfo
  | some info =>
    match formatExpires info.expires with
    | none => .error .failedToConversionStickyCookie
    | some expStr =>
      let maxAge := i64WrappingSub info.expires nowTs
      let s := cookie.value.name ++ "=".toList ++ cookieValue ++ "; expires=".toList ++ expStr ++
        "; Max-Age=".toList ++ (ToString.toString maxAge).toList ++ "; path=".toList ++ info.path ++
        "; domain=".toList ++ info.domain ++ "; HttpOnly; SameSite=Lax".toList
      .ok (if secure then s ++ "; Secure".toList else s)

end Serialise

/-- `StickyCookieConfig`, with what `try_new` establishes as fields. -/
structure StickyCookieConfig where
  /-- The cookie's name. -/
  name : List Char
  /-- The name followed by `=`. -/
  namePrefix : List Char
  /-- The cookie's domain. -/
  domain : List Char
  /-- The cookie's path. -/
  path : List Char
  /-- The lifetime, in seconds. -/
  duration : Int
  /-- The associated data of the seal. -/
  aad : List UInt8
  /-- `try_new` builds the prefix from the name. -/
  namePrefix_eq : namePrefix = name ++ "=".toList
  /-- `try_new` refuses a duration that is not positive. -/
  duration_pos : 0 < duration
  /-- `try_new` builds the associated data from the name, domain and path. -/
  aad_eq : buildStickyCookieAad name domain path = .ok aad

/-- The message of a rejected duration. -/
def durationErrorText (duration : Int) : String :=
  "sticky_cookie_duration must be positive, got " ++ ToString.toString duration

/-- `StickyCookieConfig::try_new`. -/
def StickyCookieConfig.tryNew (name serverName : List Char) (pathOpt : Option (List Char))
    (duration : Int) : Except RpxyError StickyCookieConfig :=
  if hd : duration ≤ 0 then .error (.invalidStickyCookieConfig (durationErrorText duration))
  else
    let domain := toAsciiLowercase serverName
    let path := pathOpt.getD "/".toList
    match h : buildStickyCookieAad name domain path with
    | .error e => .error e
    | .ok aad => .ok ⟨name, name ++ "=".toList, domain, path, duration, aad, rfl, by omega, h⟩

/-- `StickyCookieConfig::build_sticky_cookie` at the time `now`: the builders lowercase the
name and the domain, and set the expiry to `now + duration`, which a release build wraps.
Every field of the builder is set, so the build never fails. -/
def StickyCookieConfig.buildStickyCookie (cfg : StickyCookieConfig) (now : Int) (v : List Char) :
    StickyCookie :=
  { value := ⟨toAsciiLowercase cfg.name, v⟩
    info := some ⟨i64WrappingAdd now cfg.duration, toAsciiLowercase cfg.domain, cfg.path⟩ }

/-! ### The configuration -/

theorem validateStickyCookieAadComponent_eq_ok {component : String} {value : List Char} :
    validateStickyCookieAadComponent component value = .ok () ↔ (0 : UInt8) ∉ utf8Bytes value := by
  unfold validateStickyCookieAadComponent
  split <;> simp_all

theorem buildStickyCookieAad_eq_ok {name domain path : List Char} {aad : List UInt8}
    (h : buildStickyCookieAad name domain path = .ok aad) :
    (0 : UInt8) ∉ utf8Bytes name ∧ (0 : UInt8) ∉ utf8Bytes domain ∧ (0 : UInt8) ∉ utf8Bytes path := by
  unfold buildStickyCookieAad at h
  cases hn : validateStickyCookieAadComponent "name" name <;>
    cases hd : validateStickyCookieAadComponent "domain" domain <;>
    cases hp : validateStickyCookieAadComponent "path" path <;>
    simp only [hn, hd, hp] at h <;> try cases h
  exact ⟨validateStickyCookieAadComponent_eq_ok.mp hn, validateStickyCookieAadComponent_eq_ok.mp hd,
    validateStickyCookieAadComponent_eq_ok.mp hp⟩

/-- What a config built by `try_new` holds. -/
theorem tryNew_eq_ok {name serverName : List Char} {pathOpt : Option (List Char)} {duration : Int}
    {cfg : StickyCookieConfig} (h : StickyCookieConfig.tryNew name serverName pathOpt duration = .ok cfg) :
    cfg.name = name ∧ cfg.domain = toAsciiLowercase serverName ∧ cfg.path = pathOpt.getD "/".toList ∧
      cfg.duration = duration := by
  unfold StickyCookieConfig.tryNew at h
  split at h
  · cases h
  · dsimp only at h
    split at h
    · cases h
    · cases h
      exact ⟨rfl, rfl, rfl, rfl⟩

theorem tryNew_of_nonpos {name serverName : List Char} {pathOpt : Option (List Char)} {duration : Int}
    (h : duration ≤ 0) :
    StickyCookieConfig.tryNew name serverName pathOpt duration =
      .error (.invalidStickyCookieConfig (durationErrorText duration)) := by
  rw [StickyCookieConfig.tryNew, dif_pos h]

theorem buildStickyCookieAad_isOk {name domain path : List Char} (hn : (0 : UInt8) ∉ utf8Bytes name)
    (hd : (0 : UInt8) ∉ utf8Bytes domain) (hp : (0 : UInt8) ∉ utf8Bytes path) :
    ∃ aad, buildStickyCookieAad name domain path = .ok aad := by
  refine ⟨utf8Bytes "rpxy-sticky-v1".toList ++ [0] ++ utf8Bytes name ++ [0] ++ utf8Bytes domain ++ [0] ++
    utf8Bytes path ++ [0], ?_⟩
  unfold buildStickyCookieAad
  rw [validateStickyCookieAadComponent_eq_ok.mpr hn, validateStickyCookieAadComponent_eq_ok.mpr hd,
    validateStickyCookieAadComponent_eq_ok.mpr hp]
  rfl

/-- `try_new` succeeds exactly when the duration is positive and there is no NUL byte in the name,
the lowercased server name or the path. -/
theorem tryNew_isOk_iff {name serverName : List Char} {pathOpt : Option (List Char)} {duration : Int} :
    (∃ cfg, StickyCookieConfig.tryNew name serverName pathOpt duration = .ok cfg) ↔
      0 < duration ∧ (0 : UInt8) ∉ utf8Bytes name ∧ (0 : UInt8) ∉ utf8Bytes (toAsciiLowercase serverName) ∧
        (0 : UInt8) ∉ utf8Bytes (pathOpt.getD "/".toList) := by
  constructor
  · rintro ⟨cfg, h⟩
    obtain ⟨hname, hdomain, hpath, hduration⟩ := tryNew_eq_ok h
    have haad := buildStickyCookieAad_eq_ok cfg.aad_eq
    rw [hname, hdomain, hpath] at haad
    exact ⟨hduration ▸ cfg.duration_pos, haad⟩
  · rintro ⟨hd, hn, hdomain, hp⟩
    obtain ⟨aad, haad⟩ := buildStickyCookieAad_isOk hn hdomain hp
    unfold StickyCookieConfig.tryNew
    rw [dif_neg (Int.not_le.mpr hd)]
    dsimp only
    split
    · rename_i e he
      rw [haad] at he
      cases he
    · exact ⟨_, rfl⟩

/-! ### Reading a cookie back -/

/-- The cookie `name=value` of a name without `=` and a non-empty value, both trimmed, is read
back by `try_from` under that name. -/
theorem tryFrom_append {name v : List Char} (hname : '=' ∉ name) (hn : Trimmed name)
    (hv : Trimmed v) (hne : v ≠ []) :
    StickyCookieValue.tryFrom (name ++ "=".toList ++ v) name = .ok ⟨name, v⟩ := by
  rw [show name ++ "=".toList ++ v = name ++ '=' :: v by simp, StickyCookieValue.tryFrom,
    splitOnce_append hname]
  simp [trim_of_trimmed hn, trim_of_trimmed hv, hne]

/-- What `try_from` accepts carries the expected name. -/
theorem tryFrom_name {value expectedName : List Char} {v : StickyCookieValue}
    (h : StickyCookieValue.tryFrom value expectedName = .ok v) : v.name = expectedName := by
  unfold StickyCookieValue.tryFrom at h
  split at h
  · cases h
  · split at h
    · cases h
    · split at h
      · cases h
      · cases h
        rfl

/-! ### The `Set-Cookie` text -/

/-- The `Set-Cookie` text begins with `name=value` and a `;`. -/
theorem toSetCookieValueWithValueAt_eq_ok {formatExpires : Int → Option (List Char)}
    {cookie : StickyCookie} {secure : Bool} {cookieValue : List Char} {nowTs : Int} {s : List Char}
    (h : cookie.toSetCookieValueWithValueAt formatExpires secure cookieValue nowTs = .ok s) :
    ∃ rest, s = cookie.value.name ++ "=".toList ++ cookieValue ++ ';' :: rest := by
  unfold StickyCookie.toSetCookieValueWithValueAt at h
  split at h
  · cases h
  · split at h
    · cases h
    · cases h
      have hsemi : "; expires=".toList = ';' :: " expires=".toList := rfl
      split <;> exact ⟨_, by simp only [List.append_assoc, hsemi, List.cons_append]; rfl⟩

end Rpxy.StickyCookies
