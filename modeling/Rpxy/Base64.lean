import Mathlib.Data.List.Basic

/-!
# Unpadded URL-safe base64

The `URL_SAFE_NO_PAD` engine of the `base64` crate: RFC 4648 §5, with the alphabet
`A–Z a–z 0–9 - _` and no padding. Encoding turns three bytes into four characters and a last
one or two bytes into two or three; decoding reverses it, and rejects a character outside the
alphabet, a length that leaves one character over, and non-zero bits after the last byte (the
engine does not allow trailing bits). The results are the round trip, the encoded length, and
that an encoding uses the alphabet only.
-/

namespace Rpxy.Base64

/-- The character of a six-bit value. -/
def encodeChar (v : Nat) : Char :=
  if v < 26 then Char.ofNat (65 + v)
  else if v < 52 then Char.ofNat (97 + (v - 26))
  else if v < 62 then Char.ofNat (48 + (v - 52))
  else if v = 62 then '-' else '_'

/-- The six-bit value of a character of the alphabet. -/
def decodeChar (c : Char) : Option Nat :=
  if 65 ≤ c.toNat ∧ c.toNat < 91 then some (c.toNat - 65)
  else if 97 ≤ c.toNat ∧ c.toNat < 123 then some (c.toNat - 97 + 26)
  else if 48 ≤ c.toNat ∧ c.toNat < 58 then some (c.toNat - 48 + 52)
  else if c = '-' then some 62
  else if c = '_' then some 63
  else none

/-- A character of the URL-safe alphabet. -/
def isUrlSafeChar (c : Char) : Bool := (decodeChar c).isSome

/-- `Engine::encode` of `URL_SAFE_NO_PAD`. -/
def encode : List UInt8 → List Char
  | [] => []
  | [x] => [encodeChar (x.toNat / 4), encodeChar (x.toNat % 4 * 16)]
  | [x, y] =>
    [encodeChar (x.toNat / 4), encodeChar (x.toNat % 4 * 16 + y.toNat / 16),
      encodeChar (y.toNat % 16 * 4)]
  | x :: y :: z :: rest =>
    encodeChar (x.toNat / 4) :: encodeChar (x.toNat % 4 * 16 + y.toNat / 16) ::
      encodeChar (y.toNat % 16 * 4 + z.toNat / 64) :: encodeChar (z.toNat % 64) :: encode rest

/-- `Engine::decode` of `URL_SAFE_NO_PAD`. -/
def decode : List Char → Option (List UInt8)
  | [] => some []
  | [_] => none
  | [a, b] => do
    let a ← decodeChar a
    let b ← decodeChar b
    if b % 16 = 0 then some [UInt8.ofNat (a * 4 + b / 16)] else none
  | [a, b, c] => do
    let a ← decodeChar a
    let b ← decodeChar b
    let c ← decodeChar c
    if c % 4 = 0 then some [UInt8.ofNat (a * 4 + b / 16), UInt8.ofNat (b % 16 * 16 + c / 4)]
    else none
  | a :: b :: c :: d :: rest => do
    let a ← decodeChar a
    let b ← decodeChar b
    let c ← decodeChar c
    let d ← decodeChar d
    let rest ← decode rest
    some (UInt8.ofNat (a * 4 + b / 16) :: UInt8.ofNat (b % 16 * 16 + c / 4) ::
      UInt8.ofNat (c % 4 * 64 + d) :: rest)

theorem decodeChar_encodeChar : ∀ v < 64, decodeChar (encodeChar v) = some v := by
  decide

theorem isUrlSafeChar_encodeChar : ∀ v < 64, isUrlSafeChar (encodeChar v) = true := by
  decide

/-- A byte is the value its bits are read back to. -/
theorem ofNat_eq_of_toNat {x : UInt8} {n : Nat} (h : n = x.toNat) : UInt8.ofNat n = x := by
  subst h
  exact UInt8.ofNat_toNat

theorem decode_encode (bs : List UInt8) : decode (encode bs) = some bs := by
  induction bs using encode.induct with
  | case1 => rfl
  | case2 x =>
    have hx := x.toNat_lt
    simp only [encode, decode, decodeChar_encodeChar _ (by omega : x.toNat / 4 < 64),
      decodeChar_encodeChar _ (by omega : x.toNat % 4 * 16 < 64), Option.bind_eq_bind,
      Option.bind_some, Nat.mul_mod_left, if_true, Option.some.injEq, List.cons.injEq, and_true]
    exact ofNat_eq_of_toNat (by omega)
  | case3 x y =>
    have hx := x.toNat_lt
    have hy := y.toNat_lt
    simp only [encode, decode, decodeChar_encodeChar _ (by omega : x.toNat / 4 < 64),
      decodeChar_encodeChar _ (by omega : x.toNat % 4 * 16 + y.toNat / 16 < 64),
      decodeChar_encodeChar _ (by omega : y.toNat % 16 * 4 < 64), Option.bind_eq_bind,
      Option.bind_some, Nat.mul_mod_left, if_true, Option.some.injEq, List.cons.injEq, and_true]
    exact ⟨ofNat_eq_of_toNat (by omega), ofNat_eq_of_toNat (by omega)⟩
  | case4 x y z rest ih =>
    have hx := x.toNat_lt
    have hy := y.toNat_lt
    have hz := z.toNat_lt
    simp only [encode, decode, decodeChar_encodeChar _ (by omega : x.toNat / 4 < 64),
      decodeChar_encodeChar _ (by omega : x.toNat % 4 * 16 + y.toNat / 16 < 64),
      decodeChar_encodeChar _ (by omega : y.toNat % 16 * 4 + z.toNat / 64 < 64),
      decodeChar_encodeChar _ (by omega : z.toNat % 64 < 64), ih, Option.bind_eq_bind,
      Option.bind_some, Option.some.injEq, List.cons.injEq, and_true]
    exact ⟨ofNat_eq_of_toNat (by omega), ofNat_eq_of_toNat (by omega),
      ofNat_eq_of_toNat (by omega)⟩

/-- Four characters for every three bytes, rounded up. -/
theorem length_encode (bs : List UInt8) : (encode bs).length = (4 * bs.length + 2) / 3 := by
  induction bs using encode.induct with
  | case1 => rfl
  | case2 x => simp [encode]
  | case3 x y => simp [encode]
  | case4 x y z rest ih =>
    simp only [encode, List.length_cons, ih]
    omega

theorem isUrlSafeChar_of_mem_encode {bs : List UInt8} {c : Char} (h : c ∈ encode bs) :
    isUrlSafeChar c = true := by
  induction bs using encode.induct with
  | case1 => cases h
  | case2 x =>
    have hx := x.toNat_lt
    simp only [encode, List.mem_cons, List.not_mem_nil, or_false] at h
    rcases h with rfl | rfl <;> exact isUrlSafeChar_encodeChar _ (by omega)
  | case3 x y =>
    have hx := x.toNat_lt
    have hy := y.toNat_lt
    simp only [encode, List.mem_cons, List.not_mem_nil, or_false] at h
    rcases h with rfl | rfl | rfl <;> exact isUrlSafeChar_encodeChar _ (by omega)
  | case4 x y z rest ih =>
    have hx := x.toNat_lt
    have hy := y.toNat_lt
    have hz := z.toNat_lt
    simp only [encode, List.mem_cons] at h
    rcases h with rfl | rfl | rfl | rfl | h
    · exact isUrlSafeChar_encodeChar _ (by omega)
    · exact isUrlSafeChar_encodeChar _ (by omega)
    · exact isUrlSafeChar_encodeChar _ (by omega)
    · exact isUrlSafeChar_encodeChar _ (by omega)
    · exact ih h

/-- The alphabet is ASCII. -/
theorem toNat_lt_of_isUrlSafeChar {c : Char} (h : isUrlSafeChar c = true) : c.toNat < 128 := by
  unfold isUrlSafeChar decodeChar at h
  split_ifs at h with h₁ h₂ h₃ h₄ h₅
  · omega
  · omega
  · omega
  · subst h₄
    decide
  · subst h₅
    decide
  · cases h

end Rpxy.Base64
