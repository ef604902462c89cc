import VersionedLayout.Binary64
import VersionedLayout.Decimal.Digits
set_option autoImplicit false

/-!
# The shortest decimal that reads back

A finite floating-point value `m · 2 ^ q` is written with the fewest significant digits that still
identify it. The reals that round to the value form an interval around it, which includes its ends
exactly when `m` is even; a decimal identifies the value when it lies in that interval. For each
number of digits only the two neighbours of the value on the decimal grid have to be looked at,
since the interval contains the value and a grid point in it implies a neighbour in it. All
arithmetic is exact, in natural numbers over a common denominator.

## Main definitions

* `VersionedLayout.Decimal` — a decimal number `digits · 10 ^ exponent`.
* `VersionedLayout.Decimal.RoundingInterval` — the reals that round to a value.
* `VersionedLayout.Decimal.shortest` — the decimal chosen for a value.
-/

namespace VersionedLayout

/-- The decimal number `significand · 10 ^ scale`. -/
structure Decimal where
  /-- The digits, read as one natural number. -/
  significand : Nat
  /-- The power of ten of the last digit. -/
  scale : Int
  deriving DecidableEq, Repr

namespace Decimal

/-- The power of ten of the first digit. -/
def leadingExponent (d : Decimal) : Int :=
  d.scale + digitCount d.significand - 1

/-- The same number without trailing zeros in its digits. -/
def withoutTrailingZeros (d : Decimal) : Decimal :=
  if 0 < d.significand ∧ d.significand % 10 = 0 then
    withoutTrailingZeros ⟨d.significand / 10, d.scale + 1⟩
  else d
  termination_by d.significand
  decreasing_by omega

/-- Which of two equally near decimals is taken. -/
inductive Tie where
  /-- The greater one. -/
  | up
  /-- The one whose last digit is even. -/
  | toEven
  deriving DecidableEq, Repr

/-- The interval of the reals that round to a value, as numerators over one denominator. -/
structure RoundingInterval where
  /-- The lower end. -/
  low : Nat
  /-- The value itself. -/
  value : Nat
  /-- The upper end. -/
  high : Nat
  /-- The common denominator. -/
  denominator : Nat
  /-- Whether the ends belong to the interval. -/
  closed : Bool
  deriving DecidableEq, Repr

/-- The interval of a positive finite value. The gap below a power of two is half the gap above
it, unless the value is the least normal one. -/
def RoundingInterval.of (x : Binary64) : RoundingInterval :=
  let m := x.significand
  let up := Nat.pow 2 (x.exponent - 2).toNat
  let gap := if m = Nat.pow 2 52 ∧ 1 < x.biasedExponent then 1 else 2
  { low := (4 * m - gap) * up
    value := 4 * m * up
    high := (4 * m + 2) * up
    denominator := Nat.pow 2 (2 - x.exponent).toNat
    closed := m % 2 = 0 }

namespace RoundingInterval

variable (r : RoundingInterval)

/-- Whether `c · 10 ^ k` lies in the interval. -/
def contains (c : Nat) (k : Int) : Bool :=
  let x := c * Nat.pow 10 k.toNat * r.denominator
  let low := r.low * Nat.pow 10 (-k).toNat
  let high := r.high * Nat.pow 10 (-k).toNat
  if r.closed then low ≤ x && x ≤ high else low < x && x < high

/-- The greatest `c` for which `c · 10 ^ k` is at most the value. -/
def floorOnGrid (k : Int) : Nat :=
  r.value * Nat.pow 10 (-k).toNat / (r.denominator * Nat.pow 10 k.toNat)

/-- The power of ten of the value's first digit. -/
def leadingExponent : Int :=
  let k := (digitCount r.value : Int) - digitCount r.denominator
  if 0 < r.floorOnGrid k then k else k - 1

/-- The point of the grid `10 ^ k` nearest to the value among its two neighbours in the interval,
if there is one. -/
def nearestOnGrid? (tie : Tie) (k : Int) : Option Decimal :=
  let c := r.floorOnGrid k
  let below := r.value * Nat.pow 10 (-k).toNat - c * (r.denominator * Nat.pow 10 k.toNat)
  let above := (c + 1) * (r.denominator * Nat.pow 10 k.toNat) - r.value * Nat.pow 10 (-k).toNat
  match r.contains c k, r.contains (c + 1) k with
  | false, false => none
  | true, false => some ⟨c, k⟩
  | false, true => some ⟨c + 1, k⟩
  | true, true =>
    let upward : Bool :=
      if below = above then tie = .up || c % 2 = 1 else above < below
    some (if upward then ⟨c + 1, k⟩ else ⟨c, k⟩)

end RoundingInterval

/-- The most significant digits that any finite value needs. -/
def mostDigits : Nat := 17

/-- The shortest decimal that reads back as the positive finite value `x`, without trailing zeros;
the nearest of those with equally many digits. -/
def shortest (tie : Tie) (x : Binary64) : Decimal :=
  let r := RoundingInterval.of x
  let e := r.leadingExponent
  let chosen := (List.range mostDigits).findSome? fun (n : Nat) => r.nearestOnGrid? tie (e - n)
  let finest := e + 1 - mostDigits
  withoutTrailingZeros (chosen.getD ⟨r.floorOnGrid finest, finest⟩)

end Decimal

end VersionedLayout
