import VersionedLayout.Check.Diagnostic
import VersionedLayout.StructDecl
set_option autoImplicit false

/-!
# Names of structs

Two structs of a schema must not have the same qualified name.

## Main definitions

* `VersionedLayout.Check.structNames` — one diagnostic for every struct that repeats a name.
-/

namespace VersionedLayout

namespace Check

/-- The diagnostics for the structs from index `index` on. The names of the structs before them are
given with their indices, the latest first, so that a repeated name refers to the last struct that
has it. -/
def structNamesFrom (seen : List (String × Nat)) (index : Nat) :
    List StructDecl → List Diagnostic
  | [] => []
  | d :: ds =>
    let name := d.qualifiedName
    let repeated := match seen.find? fun p => p.1 == name with
      | some (_, previous) => [.duplicateStruct name previous index]
      | none => []
    repeated ++ structNamesFrom ((name, index) :: seen) (index + 1) ds

/-- The diagnostics for structs whose name is taken. -/
def structNames (ds : List StructDecl) : List Diagnostic :=
  structNamesFrom [] 0 ds

end Check

end VersionedLayout
