import VersionedLayout.Check.Diagnostic
import VersionedLayout.StructDecl
set_option autoImplicit false

/-!
# Types and defaults of fields

Every field, whatever its versions, must have a type with a full name, a bit-width that suits the
type, and a default that can be written and lies within the bounds of the type. The members of a
tuple default are checked against the elements of a numeric array.

## Main definitions

* `VersionedLayout.Check.fieldType` — the diagnostics for one field.
* `VersionedLayout.Check.fieldTypes` — the diagnostics for all fields of a schema.
-/

namespace VersionedLayout

namespace Check

/-- What is wrong with the width of a bit-field, if anything. The type matters only when its
primitive kind is known. -/
def bitWidthFault? (bits : Nat) (kind : Option PrimitiveKind) : Option BitWidthFault :=
  if bits = 0 then some .zero
  else match kind with
    | some k =>
      if !k.isIntegral then some .notIntegral
      else if k.width < bits then some (.tooWide bits k.width)
      else none
    | none => none

/-- The numeric type that the default of a field is checked against: that of the field, or, for a
tuple, that of the elements of an array. -/
def defaultType? (f : Field) : Option NumericType :=
  match f.type.numeric?, f.default with
  | some n, _ => some n
  | none, some (.aggregate _) => f.type.descriptor.element
  | none, _ => none

/-- Whether a scalar lies outside the bounds of a numeric type. Expressions are not known, and
values without a literal are reported as such. -/
def isOutOfBounds (n : NumericType) (v : Value) : Bool :=
  !v.isExpr && v.isFinite && !n.admits v

/-- The diagnostics for the bit-width of a field. -/
def bitWidth (path : FieldPath) (f : Field) : List Diagnostic :=
  let fault := f.bits.bind fun bits => bitWidthFault? bits (f.type.numeric?.bind NumericType.kind?)
  (fault.map (Diagnostic.invalidBitWidth path)).toList

/-- The diagnostics for the default of a field: an empty tuple, then the scalars without a literal,
then the scalars out of bounds. -/
def defaultValue (path : FieldPath) (f : Field) : List Diagnostic :=
  let values := (f.default.map DefaultValue.values).getD []
  let empty := if f.default = some (.aggregate []) then [.emptyAggregate path] else []
  let nonFinite := (values.filter fun v => !v.isFinite).map (Diagnostic.nonFiniteDefault path)
  let outOfBounds := match defaultType? f with
    | some n => (values.filter (isOutOfBounds n)).map fun v =>
      .defaultOutOfBounds path v n.base.qualifiedName n.bounds
    | none => []
  empty ++ nonFinite ++ outOfBounds

/-- The diagnostics for a field. A type without a full name is reported alone. -/
def fieldType (structName : String) (f : Field) : List Diagnostic :=
  let path : FieldPath := ⟨structName, f.name⟩
  match f.type.fullName with
  | .error e => [.arityMismatch path e]
  | .ok _ => bitWidth path f ++ defaultValue path f

/-- The diagnostics for the types and defaults of a schema, field by field. -/
def fieldTypes (ds : List StructDecl) : List Diagnostic :=
  ds.flatMap fun d => (Entry.allFields d.entries).flatMap (fieldType d.qualifiedName)

end Check

end VersionedLayout
