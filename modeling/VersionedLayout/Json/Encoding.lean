import VersionedLayout.Json.Basic
import VersionedLayout.TypeDescriptor
import VersionedLayout.Version
set_option autoImplicit false

/-!
# JSON forms of the model

How versions, values and types are written as JSON. Objects have their members in declared order,
and what is not set is `null`.

## Main definitions

* `VersionedLayout.Version.toJson`, `VersionedLayout.VersionRange.toJson`
* `VersionedLayout.Value.toJson`, `VersionedLayout.DefaultValue.toJson`
* `VersionedLayout.TypeDescriptor.toJson`, `VersionedLayout.NumericType.toJson`
-/

namespace VersionedLayout

/-- A version is written as its enumerator. -/
def Version.toJson (v : Version) : Json :=
  .string v.name

/-- A range is an object of its ends. -/
def VersionRange.toJson (r : VersionRange) : Json :=
  .object [("low", r.low.toJson), ("high", r.high.toJson)]

/-- A scalar is a number, or the string of an expression. -/
def Value.toJson : Value → Json
  | int n => .ofInt n
  | float x => .ofFloat x
  | expr text => .string text

/-- A default is its scalar, or the array of its scalars. -/
def DefaultValue.toJson : DefaultValue → Json
  | scalar v => v.toJson
  | aggregate vs => .array (vs.map Value.toJson)

/-- A primitive kind is written as its short name. -/
def PrimitiveKind.toJson (k : PrimitiveKind) : Json :=
  .string k.tag

/-- The visible parts of a type. -/
def TypeDescriptor.toJson (t : TypeDescriptor) : Json :=
  .object
    [("name", .string t.name),
     ("namespace", .string t.scope),
     ("headers", .ofStrings t.headers.toList),
     ("arity", .ofNat t.arity),
     ("template_args", .ofStrings t.args)]

/-- A numeric type: its base, its bounds and its primitive kind. -/
def NumericType.toJson (n : NumericType) : Json :=
  .object
    [("base", n.base.toJson),
     ("min", n.bounds.low.toJson),
     ("max", n.bounds.high.toJson),
     ("kind", (n.kind?.map PrimitiveKind.toJson).getD .null)]

end VersionedLayout
