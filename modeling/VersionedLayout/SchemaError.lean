import VersionedLayout.Value
set_option autoImplicit false

/-!
# Errors of a schema

What can be wrong with a type while it is built, and with a field while it is written out.

## Main definitions

* `VersionedLayout.SchemaError` — the causes.
* `VersionedLayout.SchemaError.message` — their wording.
-/

namespace VersionedLayout

/-- Why a type cannot be named or built, or a field cannot be written. -/
inductive SchemaError where
  /-- A template takes `expected` arguments and has `actual` ones. -/
  | arity (typeName : String) (expected actual : Nat)
  /-- The bounds of a numeric type are not two numbers of one kind. -/
  | mixedBounds (typeName : String) (low high : Value)
  /-- The default of a field has no literal. -/
  | nonFiniteDefault (field : String) (value : DefaultValue)
  deriving DecidableEq, Repr

namespace SchemaError

/-- The wording of an error. -/
def message : SchemaError → String
  | arity typeName expected actual =>
    "wrong number of template arguments for type `" ++ typeName ++ "`, expected " ++
      Decimal.natural expected ++ ", got " ++ Decimal.natural actual
  | mixedBounds typeName low high =>
    "inconsistent bounds for numeric type `" ++ typeName ++ "`: min " ++ low.display ++
      " and max " ++ high.display ++ " are not of the same numeric kind"
  | nonFiniteDefault field value =>
    "default value " ++ value.display ++ " of field `" ++ field ++ "` has no C++ literal"

end SchemaError

end VersionedLayout
