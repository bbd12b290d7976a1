import Mathlib.Data.List.Basic
import Mathlib.Algebra.Group.Nat.Defs

/-!
# Big-endian bytes and `i64`

Fixed-width big-endian encodings of naturals, and `i64` as an `Int` in its range: its
two's-complement `to_be_bytes`, `from_be_bytes`, and the wrapping sum that a release build
computes for `+` and `-`. The lemmas are the round trips.
-/

namespace Rpxy.RustInt

/-- The `w` big-endian bytes of `n` modulo `256 ^ w`. -/
def beBytes : Nat → Nat → List UInt8
  | 0, _ => []
  | w + 1, n => beBytes w (n / 256) ++ [UInt8.ofNat (n % 256)]

/-- The natural a big-endian byte string stands for. -/
def beValue (bs : List UInt8) : Nat := bs.foldl (fun acc b => acc * 256 + b.toNat) 0

@[simp] theorem length_beBytes (w n : Nat) : (beBytes w n).length = w := by
  induction w generalizing n with
  | zero => rfl
  | succ w ih => simp [beBytes, ih]

theorem beValue_append_singleton (bs : List UInt8) (b : UInt8) :
    beValue (bs ++ [b]) = beValue bs * 256 + b.toNat := by
  simp [beValue, List.foldl_append]

theorem beValue_beBytes (w n : Nat) : beValue (beBytes w n) = n % 256 ^ w := by
  induction w generalizing n with
  | zero => simp [beBytes, beValue, Nat.mod_one]
  | succ w ih =>
    have byte : (UInt8.ofNat (n % 256)).toNat = n % 256 := by simp
    rw [beBytes, beValue_append_singleton, ih, byte, Nat.pow_succ, Nat.mul_comm (256 ^ w) 256,
      Nat.mod_mul]
    omega

/-- The least `i64`. -/
def i64Min : Int := -9223372036854775808

/-- `i64::MAX`. -/
def i64Max : Int := 9223372036854775807

/-- An `Int` within the range of `i64`. -/
def IsI64 (x : Int) : Prop := i64Min ≤ x ∧ x ≤ i64Max

/-- The `i64` an integer wraps to, as two's-complement arithmetic keeps the low 64 bits. -/
def wrapI64 (x : Int) : Int :=
  if (x % 18446744073709551616) < 9223372036854775808 then x % 18446744073709551616
  else x % 18446744073709551616 - 18446744073709551616

/-- `i64` addition in a release build, which wraps on overflow. -/
def i64WrappingAdd (a b : Int) : Int := wrapI64 (a + b)

/-- `i64` subtraction in a release build, which wraps on overflow. -/
def i64WrappingSub (a b : Int) : Int := wrapI64 (a - b)

/-- `i64::to_be_bytes`. -/
def i64ToBeBytes (x : Int) : List UInt8 := beBytes 8 (x % 18446744073709551616).toNat

/-- `i64::from_be_bytes` of eight bytes. -/
def i64FromBeBytes (bs : List UInt8) : Int :=
  if beValue bs < 9223372036854775808 then beValue bs else (beValue bs : Int) - 18446744073709551616

theorem isI64_wrapI64 (x : Int) : IsI64 (wrapI64 x) := by
  unfold IsI64 wrapI64 i64Min i64Max
  split <;> omega

@[simp] theorem length_i64ToBeBytes (x : Int) : (i64ToBeBytes x).length = 8 := length_beBytes _ _

theorem i64FromBeBytes_toBeBytes {x : Int} (h : IsI64 x) : i64FromBeBytes (i64ToBeBytes x) = x := by
  unfold IsI64 i64Min i64Max at h
  have hv : beValue (i64ToBeBytes x) = (x % 18446744073709551616).toNat := by
    rw [i64ToBeBytes, beValue_beBytes]
    exact Nat.mod_eq_of_lt (by omega)
  unfold i64FromBeBytes
  rw [hv]
  split <;> omega

end Rpxy.RustInt
