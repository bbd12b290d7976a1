import Rpxy.Base64
import Rpxy.RustInt
import Rpxy.HttpHeaders

/-!
# Sealed sticky-cookie values

`sticky_cookie_seal.rs` seals a server id and its expiry into a cookie value: the plaintext is
the expiry as eight big-endian bytes followed by the id's UTF-8 bytes; it is encrypted with
AES-256-GCM under the config's associated data and a fresh nonce, prefixed with a version byte
and the nonce, and encoded as unpadded URL-safe base64. Opening checks the encoded length
against a window computed by hand from the blob bounds, decodes, checks the blob length and
version, decrypts, checks the plaintext length and the expiry, and decodes the id.

The cipher is a parameter (`Aead`), with the properties of AES-GCM that the round trip needs
as the hypothesis `Aead.Lawful`; the nonce, drawn at random by `Nonce::generate`, is an argument.
The main result: what `seal_server_id` returns, `open_server_id_at` opens to the same id until
the expiry.
-/

namespace Rpxy.StickyCookieSeal

open Base64 RustInt HttpHeaders

/-- The variants of `RpxyError` that the sticky-cookie code raises. -/
inductive RpxyError
  | invalidStickyCookieAad (msg : String)
  | invalidStickyCookieConfig (msg : String)
  | failedToSealStickyCookie
  deriving DecidableEq, Repr

/-- The `Display` text of each variant. -/
def RpxyError.toString : RpxyError → String
  | .invalidStickyCookieAad msg => "Invalid sticky cookie AAD: " ++ msg
  | .invalidStickyCookieConfig msg => "Invalid sticky cookie configuration: " ++ msg
  | .failedToSealStickyCookie => "Failed to seal sticky cookie value"

def versionV1 : UInt8 := 1
def nonceLen : Nat := 12
def tagLen : Nat := 16
def expiresLen : Nat := 8
def maxServerIdLen : Nat := 256
def minServerIdLen : Nat := 1
def minPlaintextLen : Nat := expiresLen + minServerIdLen
def maxPlaintextLen : Nat := expiresLen + maxServerIdLen
def minBlobLen : Nat := 1 + nonceLen + tagLen + minPlaintextLen
def maxBlobLen : Nat := 1 + nonceLen + tagLen + maxPlaintextLen

/-- `base64_url_no_pad_encoded_len`. -/
def base64UrlNoPadEncodedLen (rawLen : Nat) : Nat :=
  let paddedLen := ((rawLen + 2) / 3) * 4
  let paddingLen :=
    match rawLen % 3 with
    | 0 => 0
    | 1 => 2
    | _ => 1
  paddedLen - paddingLen

def minBlobB64Len : Nat := base64UrlNoPadEncodedLen minBlobLen
def maxBlobB64Len : Nat := base64UrlNoPadEncodedLen maxBlobLen

/-- `String::from_utf8`. -/
def fromUtf8 (bytes : List UInt8) : Option (List Char) :=
  bytes.toByteArray.utf8Decode?.map Array.toList

/-- `validate_sticky_cookie_aad_component`: a component of the AAD holds no NUL byte, which
frames the components. -/
def validateStickyCookieAadComponent (component : String) (value : List Char) :
    Except RpxyError Unit :=
  if (utf8Bytes value).contains 0 then
    .error (.invalidStickyCookieAad
      ("sticky-cookie AAD component " ++ component ++ " must not contain NUL bytes"))
  else .ok ()

/-- `build_sticky_cookie_aad`: the label, then name, domain and path, each closed by a NUL. -/
def buildStickyCookieAad (name domain path : List Char) : Except RpxyError (List UInt8) := do
  validateStickyCookieAadComponent "name" name
  validateStickyCookieAadComponent "domain" domain
  validateStickyCookieAadComponent "path" path
  pure (utf8Bytes "rpxy-sticky-v1".toList ++ [0] ++ utf8Bytes name ++ [0] ++ utf8Bytes domain ++
    [0] ++ utf8Bytes path ++ [0])

/-- `Nonce<Aes256Gcm>`: twelve bytes. -/
structure Nonce where
  /-- The nonce's bytes. -/
  bytes : List UInt8
  /-- Twelve of them. -/
  length_eq : bytes.length = nonceLen

/-- `Nonce::try_from` a byte slice. -/
def Nonce.tryFrom (bs : List UInt8) : Option Nonce :=
  if h : bs.length = nonceLen then some ⟨bs, h⟩ else none

/-- An AEAD cipher under one key, as `Aes256Gcm` offers it through the `Aead` trait: `encrypt` and
`decrypt` of a message under a nonce and associated data, `none` standing for the trait's error. -/
structure Aead where
  /-- `Aead::encrypt` under a nonce, of a message with associated data. -/
  encrypt : Nonce → List UInt8 → List UInt8 → Option (List UInt8)
  /-- `Aead::decrypt` under a nonce, of a ciphertext with associated data. -/
  decrypt : Nonce → List UInt8 → List UInt8 → Option (List UInt8)

/-- The `aes-gcm` crate's `P_MAX` and `A_MAX`: the longest plaintext and associated data. -/
def pMax : Nat := 68719476736
def aMax : Nat := 68719476736

/-- What AES-256-GCM guarantees under one key: encryption of bounded inputs succeeds, appends a
sixteen-byte tag, and decryption under the same nonce and associated data gives the message
back. -/
structure Aead.Lawful (c : Aead) : Prop where
  /-- Encryption of bounded inputs succeeds. -/
  encrypt_isSome : ∀ n msg aad, msg.length ≤ pMax → aad.length ≤ aMax → (c.encrypt n msg aad).isSome
  /-- Encryption appends a sixteen-byte tag. -/
  length_encrypt : ∀ n msg aad ct, c.encrypt n msg aad = some ct → ct.length = msg.length + tagLen
  /-- Decryption under the same nonce and associated data gives the message back. -/
  decrypt_encrypt : ∀ n msg aad ct, c.encrypt n msg aad = some ct → c.decrypt n ct aad = some msg

/-- `seal_server_id`, with the nonce that `Nonce::generate` draws. -/
def sealServerId (c : Aead) (aad : List UInt8) (serverId : List Char) (expiresUnix : Int)
    (nonce : Nonce) : Except RpxyError (List Char) :=
  if (utf8Bytes serverId).isEmpty || (utf8Bytes serverId).length > maxServerIdLen then
    .error .failedToSealStickyCookie
  else
    let plaintext := i64ToBeBytes expiresUnix ++ utf8Bytes serverId
    match c.encrypt nonce plaintext aad with
    | none => .error .failedToSealStickyCookie
    | some ctWithTag => .ok (encode (versionV1 :: nonce.bytes ++ ctWithTag))

/-- `open_server_id_at`. -/
def openServerIdAt (c : Aead) (aad : List UInt8) (blobB64 : List Char) (nowUnix : Int) :
    Option (List Char) := do
  let len := (utf8Bytes blobB64).length
  if !(minBlobB64Len ≤ len && len ≤ maxBlobB64Len) then none
  let blob ← decode blobB64
  if !(minBlobLen ≤ blob.length && blob.length ≤ maxBlobLen) then none
  if blob.head? != some versionV1 then none
  let nonce ← Nonce.tryFrom ((blob.drop 1).take nonceLen)
  let plaintext ← c.decrypt nonce ((blob.drop 1).drop nonceLen) aad
  if !(minPlaintextLen ≤ plaintext.length && plaintext.length ≤ maxPlaintextLen) then none
  let expiresUnix := i64FromBeBytes (plaintext.take expiresLen)
  if expiresUnix ≤ nowUnix then none
  fromUtf8 (plaintext.drop expiresLen)

/-! ### The encoding -/

/-- The hand-computed length is the length of the encoding. -/
theorem base64UrlNoPadEncodedLen_eq (n : Nat) : base64UrlNoPadEncodedLen n = (4 * n + 2) / 3 := by
  unfold base64UrlNoPadEncodedLen
  have h3 : n % 3 = 0 ∨ n % 3 = 1 ∨ n % 3 = 2 := by omega
  rcases h3 with h | h | h <;> simp only [h] <;> omega

theorem length_i64ToBeBytes_eq (x : Int) : (i64ToBeBytes x).length = expiresLen :=
  length_i64ToBeBytes x

theorem fromUtf8_utf8Bytes (s : List Char) : fromUtf8 (utf8Bytes s) = some s := by
  have h : (utf8Bytes s).toByteArray = s.utf8Encode := rfl
  simp [fromUtf8, h]

/-- Text in the URL-safe alphabet is its own UTF-8 encoding, one byte a character. -/
theorem length_utf8Bytes_of_urlSafe {s : List Char} (h : ∀ c ∈ s, isUrlSafeChar c = true) :
    (utf8Bytes s).length = s.length := by
  induction s with
  | nil => rfl
  | cons c s ih =>
    simp only [utf8Bytes, List.flatMap_cons, List.length_append, List.length_cons] at ih ⊢
    rw [utf8EncodeChar_of_lt (toNat_lt_of_isUrlSafeChar (h c (by simp))),
      ih fun d hd => h d (by simp [hd]), List.length_singleton, Nat.add_comm]

/-! ### Sealing, then opening -/

section RoundTrip

variable {c : Aead} {aad : List UInt8} {serverId : List Char} {expiresUnix : Int} {nonce : Nonce}
  {sealed : List Char}

/-- What a successful seal consists of. -/
theorem sealServerId_eq_ok (h : sealServerId c aad serverId expiresUnix nonce = .ok sealed) :
    1 ≤ (utf8Bytes serverId).length ∧ (utf8Bytes serverId).length ≤ maxServerIdLen ∧
      ∃ ct, c.encrypt nonce (i64ToBeBytes expiresUnix ++ utf8Bytes serverId) aad = some ct ∧
        sealed = encode (versionV1 :: nonce.bytes ++ ct) := by
  unfold sealServerId at h
  split at h
  · cases h
  · next hlen =>
    dsimp only at h
    simp only [Bool.or_eq_true, List.isEmpty_iff, decide_eq_true_eq, not_or, gt_iff_lt,
      Nat.not_lt] at hlen
    refine ⟨List.length_pos_iff.mpr hlen.1, hlen.2, ?_⟩
    split at h
    · cases h
    · next ct hct =>
      cases h
      exact ⟨ct, hct, rfl⟩

/-- A sealed value is URL-safe text. -/
theorem isUrlSafeChar_of_sealServerId (h : sealServerId c aad serverId expiresUnix nonce = .ok sealed) :
    ∀ x ∈ sealed, isUrlSafeChar x = true := by
  obtain ⟨-, -, ct, -, rfl⟩ := sealServerId_eq_ok h
  exact fun x hx => isUrlSafeChar_of_mem_encode hx

/-- The length window of `open_server_id_at` holds every sealed value. -/
theorem length_sealServerId (hc : c.Lawful)
    (h : sealServerId c aad serverId expiresUnix nonce = .ok sealed) :
    minBlobB64Len ≤ (utf8Bytes sealed).length ∧ (utf8Bytes sealed).length ≤ maxBlobB64Len := by
  have hlen := length_utf8Bytes_of_urlSafe (isUrlSafeChar_of_sealServerId h)
  obtain ⟨hmin, hmax, ct, hct, rfl⟩ := sealServerId_eq_ok h
  have hctlen := hc.length_encrypt _ _ _ _ hct
  rw [hlen, length_encode, minBlobB64Len, maxBlobB64Len, base64UrlNoPadEncodedLen_eq,
    base64UrlNoPadEncodedLen_eq]
  simp only [List.length_cons, List.length_append, nonce.length_eq, hctlen, length_i64ToBeBytes,
    minBlobLen, maxBlobLen, minPlaintextLen, maxPlaintextLen, nonceLen, tagLen, expiresLen,
    minServerIdLen, maxServerIdLen] at hmax ⊢
  omega

/-- Opening a sealed value before its expiry gives the sealed id back. -/
theorem openServerIdAt_sealServerId (hc : c.Lawful)
    (h : sealServerId c aad serverId expiresUnix nonce = .ok sealed) (hexp : IsI64 expiresUnix)
    {nowUnix : Int} (hnow : nowUnix < expiresUnix) : openServerIdAt c aad sealed nowUnix = some serverId := by
  have hwindow := length_sealServerId hc h
  obtain ⟨hmin, hmax, ct, hct, rfl⟩ := sealServerId_eq_ok h
  have hctlen := hc.length_encrypt _ _ _ _ hct
  have hdec := hc.decrypt_encrypt _ _ _ _ hct
  rw [List.cons_append] at hwindow
  have hnonce : Nonce.tryFrom ((nonce.bytes ++ ct).take nonceLen) = some nonce := by
    rw [List.take_left' nonce.length_eq, Nonce.tryFrom, dif_pos nonce.length_eq]
  have hct' : (nonce.bytes ++ ct).drop nonceLen = ct := List.drop_left' nonce.length_eq
  have hexpires : i64FromBeBytes
      ((i64ToBeBytes expiresUnix ++ utf8Bytes serverId).take expiresLen) = expiresUnix := by
    rw [List.take_left' (length_i64ToBeBytes_eq _), i64FromBeBytes_toBeBytes hexp]
  have hid : (i64ToBeBytes expiresUnix ++ utf8Bytes serverId).drop expiresLen = utf8Bytes serverId :=
    List.drop_left' (length_i64ToBeBytes_eq _)
  have hblob : minBlobLen ≤ (versionV1 :: (nonce.bytes ++ ct)).length ∧
      (versionV1 :: (nonce.bytes ++ ct)).length ≤ maxBlobLen := by
    simp only [List.length_cons, List.length_append, nonce.length_eq, hctlen, length_i64ToBeBytes,
      minBlobLen, maxBlobLen, minPlaintextLen, maxPlaintextLen, nonceLen, tagLen, expiresLen,
      minServerIdLen, maxServerIdLen] at hmin hmax ⊢
    omega
  have hplain : minPlaintextLen ≤ (i64ToBeBytes expiresUnix ++ utf8Bytes serverId).length ∧
      (i64ToBeBytes expiresUnix ++ utf8Bytes serverId).length ≤ maxPlaintextLen := by
    simp only [List.length_append, length_i64ToBeBytes, minPlaintextLen, maxPlaintextLen, expiresLen,
      minServerIdLen, maxServerIdLen] at hmin hmax ⊢
    omega
  simp only [openServerIdAt, hwindow.1, hwindow.2, decode_encode, List.cons_append, hblob.1, hblob.2,
    List.head?_cons, List.drop_succ_cons, List.drop_zero, hnonce, hct', hdec, hplain.1, hplain.2,
    hexpires, hid, fromUtf8_utf8Bytes, decide_true, Bool.and_true, Bool.not_true, bne_self_eq_false,
    Bool.false_eq_true, if_false, Int.not_le.mpr hnow, Option.bind_eq_bind, Option.bind_some]

end RoundTrip

end Rpxy.StickyCookieSeal
