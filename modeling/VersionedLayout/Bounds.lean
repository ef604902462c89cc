import VersionedLayout.Value
set_option autoImplicit false

/-!
# Bounds of numeric types

The values that a numeric type accepts lie between two bounds of one numeric kind: both are
integers, or both are floating-point values. Integral bounds belong to the range. Of floating
bounds only the upper one does.

## Main definitions

* `VersionedLayout.Bounds` — a pair of bounds.
* `VersionedLayout.Bounds.ofValues?` — the bounds given by two scalars of one kind.
* `VersionedLayout.Bounds.admits` — whether a scalar lies within the bounds.
-/

namespace VersionedLayout

/-- Two bounds of one numeric kind. -/
inductive Bounds where
  /-- The integers from `low` to `high`. -/
  | integral (low high : Int)
  /-- The floating-point values above `low`, up to `high`. -/
  | floating (low high : Binary64)
  deriving DecidableEq, Repr

namespace Bounds

/-- The bounds given by two scalars, if they are numbers of the same kind. -/
def ofValues? : Value → Value → Option Bounds
  | .int low, .int high => some (integral low high)
  | .float low, .float high => some (floating low high)
  | _, _ => none

/-- The lower bound. -/
def low : Bounds → Value
  | integral l _ => .int l
  | floating l _ => .float l

/-- The upper bound. -/
def high : Bounds → Value
  | integral _ h => .int h
  | floating _ h => .float h

/-- Whether the bounds are integers. -/
def isIntegral : Bounds → Bool
  | integral _ _ => true
  | floating _ _ => false

/-- Whether a scalar is a number of the kind of the bounds and lies within them. -/
def admits : Bounds → Value → Bool
  | integral l h, .int v => l ≤ v && v ≤ h
  | floating l h, .float v => l.lt v && v.le h
  | _, _ => false

/-- Equality of bounds, as numbers. -/
def same (b c : Bounds) : Bool :=
  b.low.same c.low && b.high.same c.high

/-- Integral bounds admit the integers between them, and no other scalar. -/
theorem admits_integral {l h : Int} {v : Value} :
    (integral l h).admits v = true ↔ ∃ n, v = .int n ∧ l ≤ n ∧ n ≤ h := by
  cases v <;> simp [admits]

end Bounds

end VersionedLayout
