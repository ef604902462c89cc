import VersionedLayout.Check.Diagnostic
import VersionedLayout.StructDecl
set_option autoImplicit false

/-!
# Version ranges

The range of a struct must have its ends in order and contain a release, a struct with blocks must
declare its range, and the range of every block must have its ends in order.

## Main definitions

* `VersionedLayout.Check.versionRanges` — the diagnostics for the ranges of a schema.
-/

namespace VersionedLayout

namespace Check

/-- The diagnostics for the range of a struct itself; there is at most one. -/
def structRange (d : StructDecl) : List Diagnostic :=
  match d.versions with
  | some r =>
    if r.isInverted then [.invertedStructRange d.qualifiedName r]
    else if r.versions.isEmpty then [.emptyRange d.qualifiedName r]
    else []
  | none => if d.isVersioned then [.missingRange d.qualifiedName] else []

/-- The diagnostics for the ranges of the blocks of a struct, at any depth. -/
def blockRanges (d : StructDecl) : List Diagnostic :=
  (Entry.allBlocks d.entries).filterMap fun b =>
    if b.range.isInverted then some (.invertedBlockRange d.qualifiedName b.range) else none

/-- The diagnostics for the ranges of a schema, struct by struct. -/
def versionRanges (ds : List StructDecl) : List Diagnostic :=
  ds.flatMap fun d => structRange d ++ blockRanges d

end Check

end VersionedLayout
