import Mathlib.Order.Basic

/-!
# `usize` saturating arithmetic

A `usize` value is modelled by a `Nat` at most `usizeMax`, the bound of a 64-bit target.
`saturating_add` clamps at `usizeMax`; `saturating_sub` clamps at zero, which `Nat`
subtraction already does; plain `+` wraps, as a release build compiles it. The lemmas say when a saturating sum is the exact sum, and that a
comparison with a bound below `usizeMax` reads the same on saturating and on exact sums,
while at `usizeMax` itself no sum ever exceeds the bound.
-/

namespace Rpxy.RustUsize

/-- `usize::MAX` on a 64-bit target, `2 ^ 64 - 1`. -/
def usizeMax : Nat := 18446744073709551615

/-- `usize` `+` in a release build, which does not check for overflow. -/
def wrappingAdd (a b : Nat) : Nat := (a + b) % (usizeMax + 1)

theorem wrappingAdd_of_le {a b : Nat} (h : a + b ≤ usizeMax) : wrappingAdd a b = a + b :=
  Nat.mod_eq_of_lt (by unfold usizeMax at *; omega)

theorem wrappingAdd_le (a b : Nat) : wrappingAdd a b ≤ usizeMax :=
  Nat.lt_succ_iff.mp (Nat.mod_lt _ (Nat.succ_pos _))

/-- `usize::saturating_add`. -/
def saturatingAdd (a b : Nat) : Nat := min (a + b) usizeMax

theorem saturatingAdd_of_le {a b : Nat} (h : a + b ≤ usizeMax) : saturatingAdd a b = a + b :=
  Nat.min_eq_left h

theorem saturatingAdd_le (a b : Nat) : saturatingAdd a b ≤ usizeMax :=
  Nat.min_le_right _ _

/-- Against a bound below `usizeMax`, the saturating sum exceeds the bound exactly when the
sum does. -/
theorem lt_saturatingAdd_iff {a b m : Nat} (hm : m < usizeMax) : m < saturatingAdd a b ↔ m < a + b := by
  unfold saturatingAdd
  omega

/-- Within a bound below `usizeMax`, the saturating sum is the sum. -/
theorem saturatingAdd_eq_of_le {a b m : Nat} (hm : m < usizeMax) (h : saturatingAdd a b ≤ m) :
    saturatingAdd a b = a + b := by
  unfold saturatingAdd at h ⊢
  omega

end Rpxy.RustUsize
