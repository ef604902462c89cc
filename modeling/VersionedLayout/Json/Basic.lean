import VersionedLayout.Decimal.Style
set_option autoImplicit false

/-!
# JSON trees

A JSON value as it is written: members of an object keep their order and may repeat, and a number
is its own text, so that integers of any size and floating-point values stay exact.

## Main definitions

* `VersionedLayout.Json` — a JSON value.
* `VersionedLayout.Json.ofInt`, `VersionedLayout.Json.ofFloat` — numbers as JSON writes them.
-/

namespace VersionedLayout

/-- A JSON value. -/
inductive Json where
  | null
  | bool (b : Bool)
  /-- A number, as its text. -/
  | number (text : String)
  | string (s : String)
  | array (items : List Json)
  /-- The members of an object, in the order in which they are written. -/
  | object (members : List (String × Json))

namespace Json

/-- Floating-point numbers in JSON: positional from `1e-5` up to `1e16`, always with a fraction,
and scientific outside with a signed exponent. Of two equally near decimals the one with an even
last digit is taken. -/
def numberStyle : Decimal.Style :=
  { positionalFrom := -5, positionalBelow := 16, plusSign := true, tie := .toEven }

/-- An integer of any size. -/
def ofInt (n : Int) : Json :=
  number (Decimal.integer n)

/-- A natural number of any size. -/
def ofNat (n : Nat) : Json :=
  number (Decimal.natural n)

/-- A floating-point value. JSON has no text for infinities and NaNs, which become `null`. -/
def ofFloat (x : Binary64) : Json :=
  if x.isFinite then number (numberStyle.write x) else null

/-- An array of strings. -/
def ofStrings (ss : List String) : Json :=
  array (ss.map string)

end Json

end VersionedLayout
