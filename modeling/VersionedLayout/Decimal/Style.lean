import VersionedLayout.Decimal.Shortest
set_option autoImplicit false

/-!
# Layouts of decimal numbers

The same shortest digits are laid out differently in source code and in JSON. A `Style` says for
which magnitudes the digits are written positionally, and how an exponent is written elsewhere.

## Main definitions

* `VersionedLayout.Decimal.Style` — the decisions of a format.
* `VersionedLayout.Decimal.Style.layOut` — the text of a decimal number.
* `VersionedLayout.Decimal.Style.write` — the text of a finite floating-point value.
-/

namespace VersionedLayout

namespace Decimal

/-- How a format lays out floating-point numbers. -/
structure Style where
  /-- The least exponent of the first digit that is written positionally. -/
  positionalFrom : Int
  /-- The least exponent above those that are written positionally. -/
  positionalBelow : Int
  /-- Whether a positive exponent carries a plus. -/
  plusSign : Bool
  /-- The choice between two equally near decimals. -/
  tie : Tie
  deriving DecidableEq, Repr

/-- The digits `ds` with a point behind the digit of `10 ^ 0`, the first digit being that of
`10 ^ e`. There is a digit on both sides of the point. -/
def positional (ds : List Char) (e : Int) : List Char :=
  if e < 0 then
    ['0', '.'] ++ List.replicate (-e - 1).toNat '0' ++ ds
  else
    let whole := e.toNat + 1
    let fraction := ds.drop whole
    ds.take whole ++ List.replicate (whole - ds.length) '0' ++ ['.'] ++
      if fraction.isEmpty then ['0'] else fraction

/-- The digits `ds` with a point behind the first one, if there are more, and the exponent. -/
def scientific (plusSign : Bool) (ds : List Char) (e : Int) : List Char :=
  let mantissa := match ds with
    | d :: rest@(_ :: _) => d :: '.' :: rest
    | _ => ds
  let sign := if e < 0 then ['-'] else if plusSign then ['+'] else []
  mantissa ++ ['e'] ++ sign ++ digits e.natAbs

namespace Style

variable (s : Style)

/-- The text of a decimal number: positional or scientific, by the exponent of its first
digit. -/
def layOut (d : Decimal) : List Char :=
  let ds := digits d.significand
  let e := d.leadingExponent
  if s.positionalFrom ≤ e ∧ e < s.positionalBelow then positional ds e
  else scientific s.plusSign ds e

/-- The text of a finite value. Zero is positional and keeps its sign. -/
def write (x : Binary64) : String :=
  let sign := if x.isNegative then ['-'] else []
  String.ofList (sign ++
    if x.magnitude = 0 then ['0', '.', '0'] else s.layOut (shortest s.tie x))

end Style

end Decimal

end VersionedLayout
