import VersionedLayout.TypeDescriptor
set_option autoImplicit false

/-!
# Fields

## Main definitions

* `VersionedLayout.Field` — one member of a struct.
* `VersionedLayout.Field.checkedDefault` — its default, provided that it can be written.
-/

namespace VersionedLayout

/-- One member of a struct. -/
structure Field where
  /-- The type of the member. -/
  type : FieldType
  /-- The name of the member. -/
  name : String
  /-- The width of a bit-field member. -/
  bits : Option Nat := none
  /-- The value that the member is initialised with. -/
  default : Option DefaultValue := none
  /-- A remark on the member. -/
  comment : Option String := none

namespace Field

/-- The default of a field. It is an error if there is one that has no literal. -/
def checkedDefault (f : Field) : Except SchemaError (Option DefaultValue) :=
  match f.default with
  | none => .ok none
  | some d => if d.isFinite then .ok (some d) else .error (.nonFiniteDefault f.name d)

end Field

end VersionedLayout
