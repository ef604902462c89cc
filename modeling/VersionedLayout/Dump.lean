import VersionedLayout.Config
import VersionedLayout.Json.Encoding
import VersionedLayout.Json.Printer
import VersionedLayout.StructDecl
set_option autoImplicit false

/-!
# The dump of all layouts

The layouts of a schema as indented JSON, for tools that do not read C++: an array of structs in
declared order, each with its layouts, each with its fields. Members that are not set are left
out.

## Main definitions

* `VersionedLayout.Dump.generate` — the text of the dump.
-/

namespace VersionedLayout

namespace Dump

/-- A member that is present when its value is set. -/
def optional (name : String) (value : Option Json) : List (String × Json) :=
  (value.map fun j => (name, j)).toList

/-- A field: its name and type, and what else is set. An error of the type comes before one of the
default. -/
def field (f : Field) : Except SchemaError Json := do
  let type ← f.type.fullName
  let default ← f.checkedDefault
  return .object <|
    [("name", .string f.name), ("type", .string type)] ++
      optional "bits" (f.bits.map Json.ofNat) ++
      optional "default" (default.map DefaultValue.toJson) ++
      optional "comment" (f.comment.map Json.string)

/-- A layout: its version, if it has one, its type and its fields. -/
def layout (c : Config) (d : StructDecl) (l : Layout) : Except SchemaError Json := do
  let type ← d.layoutType c.versionEnum l
  let fields ← l.fields.mapM field
  let name ← type.fullName
  return .object <|
    optional "version" (l.version.map Version.toJson) ++
      [("type", .string name), ("fields", .array fields)]

/-- A struct with its layouts. -/
def struct (c : Config) (d : StructDecl) : Except SchemaError Json := do
  let layouts ← d.layouts.mapM (layout c d)
  return .object
    [("name", .string d.name),
     ("namespace", .string d.scope),
     ("versioned", .bool d.isVersioned),
     ("layouts", .array layouts)]

/-- The dump of a list of structs. -/
def tree (c : Config) (ds : List StructDecl) : Except SchemaError Json := do
  let structs ← ds.mapM (struct c)
  return .array structs

/-- The text of the dump of a list of structs. -/
def generate (c : Config) (ds : List StructDecl) : Except SchemaError String := do
  let j ← tree c ds
  return j.pretty

end Dump

end VersionedLayout
