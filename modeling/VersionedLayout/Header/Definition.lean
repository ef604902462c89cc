import VersionedLayout.Emission
import VersionedLayout.Header.Member
import VersionedLayout.StructDecl
set_option autoImplicit false

/-!
# Definitions and reflection descriptors of structs

An unversioned struct is defined once. A versioned one is declared as a template over the version
and then specialized fully for each of its layouts. The reflection descriptors follow the same
layouts and list the names of their fields.

## Main definitions

* `VersionedLayout.Header.definition` — the definition of a struct.
* `VersionedLayout.Header.reflection` — its reflection descriptors.
-/

namespace VersionedLayout

namespace Header

/-- The documentation of a struct, verbatim, with a line break at its end. -/
def docText (d : StructDecl) : String :=
  match d.doc with
  | some text => if text.toList.getLast? = some '\n' then text else text ++ "\n"
  | none => ""

/-- The declaration of the template of a versioned struct. -/
def primaryTemplate (c : Config) (d : StructDecl) : String :=
  if d.isVersioned then
    "template<" ++ c.versionEnum ++ " " ++ c.versionParam ++ ">\nstruct " ++ d.name ++ ";\n\n"
  else ""

/-- What introduces the body of a layout: the name of the struct, as a full specialization if the
layout belongs to a version. -/
def declarator (c : Config) (d : StructDecl) (l : Layout) : String :=
  match l.version with
  | some v => "template<>\nstruct " ++ d.name ++ "<" ++ c.enumerator v.name ++ ">"
  | none => "struct " ++ d.name

/-- The record with which the definition of a struct begins. -/
def startRecord (d : StructDecl) : LogRecord :=
  if d.isVersioned then .versionedStruct d.qualifiedName d.layouts.length
  else .plainStruct d.qualifiedName

/-- The record with which a layout begins, if it belongs to a version. -/
def layoutRecord (d : StructDecl) (l : Layout) : Option LogRecord :=
  l.version.map fun v => .layout d.name v l.fields.length

/-- The definition of one layout of a struct. -/
def layoutDefinition (c : Config) (d : StructDecl) (l : Layout) : Emission String :=
  ⟨(layoutRecord d l).toList, structBody c d.name (declarator c d l) l.fields⟩

/-- The definition of a struct: its documentation, the template if it is versioned, and its
layouts in order. -/
def definition (c : Config) (d : StructDecl) : Emission String := do
  Emission.record (startRecord d)
  let bodies ← d.layouts.mapM (layoutDefinition c d)
  return docText d ++ primaryTemplate c d ++ String.join bodies

/-- The reflection descriptor of one layout of a struct: its type, then the names of its
fields. -/
def layoutReflection (c : Config) (d : StructDecl) (l : Layout) : Except SchemaError String := do
  let type ← d.layoutType c.versionEnum l
  let name ← type.fullName
  return c.reflectionMacro ++ "(\n" ++ c.indentation 1 ++ name ++ "\n" ++
    String.join (l.fields.map fun f => c.indentation 1 ++ ", " ++ f.name ++ "\n") ++ ");\n\n"

/-- The reflection descriptors of a struct, in the order of its layouts. -/
def reflection (c : Config) (d : StructDecl) : Except SchemaError String := do
  let descriptors ← d.layouts.mapM (layoutReflection c d)
  return String.join descriptors

end Header

end VersionedLayout
