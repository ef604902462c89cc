import VersionedLayout.Check.Diagnostic
import VersionedLayout.StructDecl
set_option autoImplicit false

/-!
# Reachability of blocks

Every block must be active for a release of its struct. Of a block that never is, the blocks
inside are not looked at.

## Main definitions

* `VersionedLayout.Check.unreachable` — the diagnostics for a list of entries.
* `VersionedLayout.Check.reachability` — the diagnostics for the blocks of a schema.
-/

namespace VersionedLayout

namespace Check

mutual

/-- The diagnostics for an entry that the given versions reach. -/
def unreachableIn (structName : String) (reaching : List Version) : Entry → List Diagnostic
  | .field _ => []
  | .block r es =>
    if (reaching.filter r.contains).isEmpty then [.unreachableBlock structName r reaching]
    else unreachable structName (reaching.filter r.contains) es

/-- The diagnostics for a list of entries that the given versions reach. -/
def unreachable (structName : String) (reaching : List Version) : List Entry → List Diagnostic
  | [] => []
  | e :: es => unreachableIn structName reaching e ++ unreachable structName reaching es

end

/-- The diagnostics for the blocks of a schema that are never active. -/
def reachability (ds : List StructDecl) : List Diagnostic :=
  ds.flatMap fun d => unreachable d.qualifiedName d.enabledVersions d.entries

end Check

end VersionedLayout
