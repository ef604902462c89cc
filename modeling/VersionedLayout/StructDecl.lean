import VersionedLayout.Entry
set_option autoImplicit false

/-!
# Structs and their layouts

A struct is declared once, as the union of its fields over all versions. It is *versioned* when it
declares a range or has a block among its own entries; it then has one layout for each release in
its range, and is a template over the version. Otherwise it has a single layout.

## Main definitions

* `VersionedLayout.StructDecl` — the declaration of a struct.
* `VersionedLayout.StructDecl.layouts` — its layouts, in declared order of the releases.
* `VersionedLayout.StructDecl.specializedType` — the type of one layout.
-/

namespace VersionedLayout

/-- The declaration of a struct. -/
structure StructDecl where
  /-- The name of the struct, without its namespace. -/
  name : String
  /-- The namespace around the struct, empty for the global one. -/
  scope : String := ""
  /-- The versions for which the struct exists. -/
  versions : Option VersionRange := none
  /-- Its fields and blocks. -/
  entries : List Entry := []
  /-- A documentation text that precedes the definition verbatim. -/
  doc : Option String := none

/-- The fields of a struct for one version, or for all of them at once. -/
structure Layout where
  /-- The version, which unversioned structs have not. -/
  version : Option Version
  /-- The fields in order. -/
  fields : List Field

namespace StructDecl

variable (d : StructDecl)

/-- The name of the struct with its namespace. -/
def qualifiedName : String :=
  TypeDescriptor.qualify d.scope d.name

/-- Whether the struct declares a range or has a block among its own entries. -/
def isVersioned : Bool :=
  d.versions.isSome || d.entries.any Entry.isBlock

/-- Whether the struct exists for a version. Without a range it always does. -/
def isEnabledFor (v : Version) : Bool :=
  d.versions.all fun r => r.contains v

/-- The releases for which the struct exists, in declared order. -/
def enabledVersions : List Version :=
  Version.all.filter d.isEnabledFor

/-- The layouts of the struct: one for each release of a versioned struct, a single one
otherwise. -/
def layouts : List Layout :=
  if d.isVersioned then
    d.enabledVersions.map fun v => ⟨some v, Entry.resolveAll v d.entries⟩
  else [⟨none, d.entries.filterMap Entry.field?⟩]

/-- The type of the struct: a template over the version if it is versioned. -/
def asType : TypeDescriptor :=
  let t := (TypeDescriptor.named d.name).withScope d.scope
  if d.isVersioned then t.withArity 1 else t

/-- The type of the struct for one version of the enumeration `versionEnum`. An unversioned struct
is its own type. -/
def specializedType (versionEnum : String) (v : Version) : Except SchemaError TypeDescriptor :=
  if d.isVersioned then d.asType.specialize [.literal (versionEnum ++ "::" ++ v.name)]
  else .ok d.asType

/-- The type of a layout of the struct. -/
def layoutType (versionEnum : String) (l : Layout) : Except SchemaError TypeDescriptor :=
  match l.version with
  | some v => d.specializedType versionEnum v
  | none => .ok d.asType

end StructDecl

end VersionedLayout
