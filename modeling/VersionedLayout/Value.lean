import VersionedLayout.Decimal.Style
set_option autoImplicit false

/-!
# Scalar values and defaults

A scalar value bounds a numeric type or initialises a field. It is an integer, a floating-point
value or an expression of the target language taken verbatim. A default is one scalar, or a tuple
of them that becomes a brace-enclosed aggregate.

## Main definitions

* `VersionedLayout.Value`, `VersionedLayout.Value.display` — scalars and their text in C++.
* `VersionedLayout.DefaultValue`, `VersionedLayout.DefaultValue.display` — defaults.
-/

namespace VersionedLayout

/-- Floating-point literals: positional from `1e-4` up to `1e16`, always with a fraction, and
scientific outside with a bare exponent. Of two equally near decimals the greater is taken. -/
def literalStyle : Decimal.Style :=
  { positionalFrom := -4, positionalBelow := 16, plusSign := false, tie := .up }

/-- A scalar value. -/
inductive Value where
  /-- An integer. -/
  | int (n : Int)
  /-- A floating-point value, which may be infinite or a NaN. -/
  | float (x : Binary64)
  /-- An expression of the target language, such as an enumerator, taken verbatim. -/
  | expr (text : String)
  deriving DecidableEq, Repr

namespace Value

/-- Whether the value is an integer. -/
def isIntegral : Value → Bool
  | int _ => true
  | _ => false

/-- Whether the value is a floating-point value. -/
def isFloating : Value → Bool
  | float _ => true
  | _ => false

/-- Whether the value is an expression. -/
def isExpr : Value → Bool
  | expr _ => true
  | _ => false

/-- Whether the value can be written as a literal. Infinities and NaNs cannot. -/
def isFinite : Value → Bool
  | float x => x.isFinite
  | _ => true

/-- The text of a floating-point value. -/
def displayFloat (x : Binary64) : String :=
  if x.isNaN then "NaN"
  else if x.isFinite then literalStyle.write x
  else if x.isNegative then "-inf" else "inf"

/-- The text of a value. -/
def display : Value → String
  | int n => Decimal.integer n
  | float x => displayFloat x
  | expr text => text

/-- Equality of values. Floating-point values compare as numbers, so a NaN differs from
itself. -/
def same : Value → Value → Bool
  | int m, int n => m == n
  | float x, float y => x.same y
  | expr s, expr t => s == t
  | _, _ => false

end Value

/-- The default of a field. -/
inductive DefaultValue where
  /-- One value. -/
  | scalar (value : Value)
  /-- A tuple of values. -/
  | aggregate (values : List Value)
  deriving DecidableEq, Repr

namespace DefaultValue

/-- The scalars of a default, in order. -/
def values : DefaultValue → List Value
  | scalar v => [v]
  | aggregate vs => vs

/-- Whether every scalar of a default can be written as a literal. -/
def isFinite (d : DefaultValue) : Bool :=
  d.values.all Value.isFinite

/-- The text of a default. The scalars of a tuple stand between braces, each of which is set off
by a blank even when there are none. -/
def display : DefaultValue → String
  | scalar v => v.display
  | aggregate vs => "\x7b " ++ ", ".intercalate (vs.map Value.display) ++ " \x7d"

end DefaultValue

end VersionedLayout
