import VersionedLayout.Config
import VersionedLayout.Field
set_option autoImplicit false

/-!
# Members and bodies of structs

The body of a struct holds one line per field and a static factory that returns a value with the
default of every field assigned.

## Main definitions

* `VersionedLayout.Header.memberLine` — the declaration of a field.
* `VersionedLayout.Header.defaultFactory` — the static factory.
* `VersionedLayout.Header.structBody` — a declarator with its body.
-/

namespace VersionedLayout

namespace Header

/-- The declaration of a field: its type and name, the width of a bit-field, its default, and its
comment behind the semicolon. An error of the type comes before one of the default. -/
def memberLine (f : Field) : Except SchemaError String := do
  let type ← f.type.fullName
  let default ← f.checkedDefault
  let bits := match f.bits with
    | some n => " : " ++ Decimal.natural n
    | none => ""
  let initializer := match default with
    | some d => " = " ++ d.display
    | none => ""
  let comment := match f.comment with
    | some c => " ///< " ++ c
    | none => ""
  return type ++ " " ++ f.name ++ bits ++ initializer ++ ";" ++ comment

/-- The line of the factory that assigns the default of a field, if it has one. -/
def assignment (c : Config) (f : Field) : String :=
  match f.default with
  | some d => c.indentation 2 ++ "ret." ++ f.name ++ " = " ++ d.display ++ ";\n"
  | none => ""

/-- The static factory of a struct: it value-initialises the struct, assigns every default in the
order of the fields, and returns the result. -/
def defaultFactory (c : Config) (structName : String) (fields : List Field) : String :=
  c.indentation 1 ++ "static " ++ structName ++ " " ++ c.defaultInit ++ "()\n" ++
  c.indentation 1 ++ "\x7b\n" ++
  c.indentation 2 ++ "auto ret = " ++ structName ++ "\x7b\x7d;\n" ++
  String.join (fields.map (assignment c)) ++
  c.indentation 2 ++ "return ret;\n" ++
  c.indentation 1 ++ "\x7d\n"

/-- A declarator with its body: the fields, one a line, and the factory. -/
def structBody (c : Config) (structName declarator : String) (fields : List Field) :
    Except SchemaError String := do
  let members ← fields.mapM memberLine
  return declarator ++ "\n\x7b\n" ++
    String.join (members.map fun line => c.indentation 1 ++ line ++ "\n") ++ "\n" ++
    defaultFactory c structName fields ++ "\x7d;\n\n"

end Header

end VersionedLayout
