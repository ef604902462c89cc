set_option autoImplicit false

/-!
# Binary floating-point numbers

Floating-point values are kept as their IEEE 754 `binary64` bit patterns, so that every statement
about them is one about natural numbers. Comparisons follow the standard: the two zeros are
equal, and a NaN is neither equal to, below nor above anything, itself included.

## Main definitions

* `VersionedLayout.Binary64` — a bit pattern.
* `VersionedLayout.Binary64.same`, `VersionedLayout.Binary64.lt`, `VersionedLayout.Binary64.le` —
  the comparisons of the standard.
* `VersionedLayout.Binary64.significand`, `VersionedLayout.Binary64.exponent` — the integers `m`
  and `q` for which a finite value is `± m · 2 ^ q`.
* `VersionedLayout.Binary64.ofBinary32` — the exact widening of a `binary32` bit pattern.

## Implementation notes

Powers are `Nat.pow` and `Int.pow` by name, here and in the modules on numbers that follow. What
`^` stands for depends on whether the monoid of the natural numbers has been imported.
-/

namespace VersionedLayout

/-- A `binary64` floating-point number, as its bit pattern. -/
structure Binary64 where
  /-- Sign, biased exponent and fraction, from the top bit down. -/
  bits : UInt64
  deriving DecidableEq, Repr

namespace Binary64

/-- The bit pattern without its sign. Absolute values are ordered as their magnitudes are. -/
def magnitude (x : Binary64) : Nat :=
  x.bits.toNat % Nat.pow 2 63

/-- Whether the sign bit is set. -/
def isNegative (x : Binary64) : Bool :=
  Nat.pow 2 63 ≤ x.bits.toNat

/-- The magnitude of the infinities; those of the NaNs lie above it. -/
def infinityMagnitude : Nat :=
  2047 * Nat.pow 2 52

/-- Whether the value is not a number. -/
def isNaN (x : Binary64) : Bool :=
  infinityMagnitude < x.magnitude

/-- Whether the value is neither an infinity nor a NaN. -/
def isFinite (x : Binary64) : Bool :=
  x.magnitude < infinityMagnitude

/-- The signed magnitude, along which all values but the NaNs are ordered. -/
def key (x : Binary64) : Int :=
  if x.isNegative then -(x.magnitude : Int) else x.magnitude

/-- Equality of values: a NaN differs from itself, and the two zeros are equal. -/
def same (x y : Binary64) : Bool :=
  !x.isNaN && !y.isNaN && x.key == y.key

/-- The strict order of values, false whenever a NaN takes part. -/
def lt (x y : Binary64) : Bool :=
  !x.isNaN && !y.isNaN && decide (x.key < y.key)

/-- The order of values, false whenever a NaN takes part. -/
def le (x y : Binary64) : Bool :=
  !x.isNaN && !y.isNaN && decide (x.key ≤ y.key)

/-- The biased exponent. It is zero for the subnormal numbers and the zeros. -/
def biasedExponent (x : Binary64) : Nat :=
  x.magnitude / Nat.pow 2 52

/-- The integer `m` of a finite value `± m · 2 ^ q`. -/
def significand (x : Binary64) : Nat :=
  let fraction := x.magnitude % Nat.pow 2 52
  if x.biasedExponent = 0 then fraction else Nat.pow 2 52 + fraction

/-- The exponent `q` of a finite value `± m · 2 ^ q`. -/
def exponent (x : Binary64) : Int :=
  if x.biasedExponent = 0 then -1074 else (x.biasedExponent : Int) - 1075

/-- The number of the given sign, biased exponent and fraction. -/
def ofParts (negative : Bool) (biased fraction : Nat) : Binary64 :=
  ⟨UInt64.ofNat ((if negative then Nat.pow 2 63 else 0) + biased * Nat.pow 2 52 + fraction)⟩

/-- The value of a `binary32` bit pattern. Every such value is also one of `binary64`: normal
numbers change their bias, subnormal ones become normal, and infinities and NaNs stay what they
are. -/
def ofBinary32 (bits : UInt32) : Binary64 :=
  let negative : Bool := Nat.pow 2 31 ≤ bits.toNat
  let biased := bits.toNat / Nat.pow 2 23 % Nat.pow 2 8
  let fraction := bits.toNat % Nat.pow 2 23
  if biased = 255 then
    ofParts negative 2047 (fraction * Nat.pow 2 29)
  else if biased ≠ 0 then
    ofParts negative (biased + 896) (fraction * Nat.pow 2 29)
  else if fraction = 0 then
    ofParts negative 0 0
  else
    let top := fraction.log2
    ofParts negative (top + 874) ((fraction - Nat.pow 2 top) * Nat.pow 2 (52 - top))

/-- The largest finite value that `binary32` holds. -/
def largestBinary32 : Binary64 :=
  ofBinary32 0x7f7fffff

/-- The least finite value that `binary32` holds. -/
def leastBinary32 : Binary64 :=
  ofBinary32 0xff7fffff

/-- The largest finite value. -/
def largest : Binary64 :=
  ⟨0x7fefffffffffffff⟩

/-- The least finite value. -/
def least : Binary64 :=
  ⟨0xffefffffffffffff⟩

/-- A finite value is a number. -/
theorem isNaN_eq_false_of_isFinite {x : Binary64} (h : x.isFinite = true) : x.isNaN = false := by
  simp only [isFinite, isNaN, decide_eq_true_eq, decide_eq_false_iff_not] at *
  omega

end Binary64

end VersionedLayout
