import VersionedLayout.Header.Definition
import VersionedLayout.Text.WhiteSpace
set_option autoImplicit false

/-!
# The header file

A header opens with its banner, the include guard and the include directives. The definitions
follow in stable order of the namespaces: wherever the namespace changes from one struct to the
next, the old one is closed and the new one is opened. Then come the reflection descriptors in
declared order. The text ends with exactly one line break.

## Main definitions

* `VersionedLayout.Header.requiredHeaders` — the headers that the types of all members need.
* `VersionedLayout.Header.byScope` — the structs in stable order of the namespaces.
* `VersionedLayout.Header.Definitions` — the definitions as they are written one after another.
* `VersionedLayout.Header.contents` — the contents of the header, with the log of their emission.
* `VersionedLayout.Header.file` — the header, with the white space at its end put in order.
* `VersionedLayout.Header.generate` — the text of the header.
-/

namespace VersionedLayout

namespace Header

/-- A list of lines, followed by an empty one unless the list is empty. -/
def paragraph (lines : List String) : String :=
  if lines.isEmpty then "" else String.join (lines.map fun line => line ++ "\n") ++ "\n"

/-- The directive that includes a header. -/
def includeLine (header : String) : String :=
  "#include <" ++ header ++ ">"

/-- The headers of the types of all fields of all layouts. -/
def requiredHeaders (ds : List StructDecl) : HeaderSet :=
  .insertAll .empty <|
    ds.flatMap fun d => d.layouts.flatMap fun l => l.fields.flatMap fun f =>
      f.type.descriptor.headers.toList

/-- The required headers that are not included anyway. -/
def typeHeaders (c : Config) (ds : List StructDecl) : List String :=
  (requiredHeaders ds).toList.filter fun h => !c.includeHeaders.contains h

/-- What precedes the definitions: banner, include guard and include directives. -/
def opening (c : Config) (ds : List StructDecl) : String :=
  paragraph (c.banner.map fun line => "// " ++ line) ++ "#pragma once\n\n" ++
    paragraph (c.includeHeaders.map includeLine) ++
    paragraph ((typeHeaders c ds).map includeLine)

/-! ## The definitions -/

/-- The structs in order of the namespaces, where the structs of one namespace keep their order. -/
def byScope (ds : List StructDecl) : List StructDecl :=
  ds.mergeSort fun d e => d.scope ≤ e.scope

/-- Opens a namespace, unless it is the global one. -/
def openNamespace (scope : String) : Emission String := do
  if scope.isEmpty then
    return ""
  else
    Emission.record (.openNamespace scope)
    return "namespace " ++ scope ++ "\n\x7b\n\n"

/-- What closes a namespace, unless it is the global one. -/
def closeNamespace (scope : String) : String :=
  if scope.isEmpty then "" else "\x7d // namespace " ++ scope ++ "\n\n"

/-- Definitions as they are written one after another. -/
structure Definitions where
  /-- The text so far. -/
  text : String
  /-- The namespace of the last definition, which is not closed yet. -/
  current : Option String

namespace Definitions

/-- Nothing is written yet. -/
def empty : Definitions :=
  ⟨"", none⟩

/-- The text so far, with its last namespace closed. -/
def closed (t : Definitions) : String :=
  t.text ++ t.current.elim "" closeNamespace

/-- Goes on in a namespace. Where this is not the namespace of the last definition, that one is
closed, and the new one is opened. -/
def enter (t : Definitions) (scope : String) : Emission Definitions := do
  if t.current = some scope then
    return t
  else
    let opening ← openNamespace scope
    return ⟨t.closed ++ opening, some scope⟩

/-- Goes on with the definition of a struct. -/
def add (c : Config) (t : Definitions) (d : StructDecl) : Emission Definitions := do
  let inside ← t.enter d.scope
  let text ← definition c d
  return { inside with text := inside.text ++ text }

end Definitions

/-! ## The file -/

/-- The contents of the header for a list of structs: the opening, the definitions in stable order
of the namespaces, and the reflection descriptors in declared order. -/
def contents (c : Config) (ds : List StructDecl) : Emission String := do
  Emission.record (.header ds.length)
  let definitions ← (byScope ds).foldlM (Definitions.add c) .empty
  let descriptors ← Emission.ofExcept (ds.mapM (reflection c))
  return opening c ds ++ definitions.closed ++ String.join descriptors

/-- The header for a list of structs: its contents, which end with one line break and no other white
space. -/
def file (c : Config) (ds : List StructDecl) : Emission String := do
  let text ← contents c ds
  return Text.trimEnd text ++ "\n"

/-- The text of the header for a list of structs. -/
def generate (c : Config) (ds : List StructDecl) : Except SchemaError String :=
  (file c ds).result

end Header

end VersionedLayout
