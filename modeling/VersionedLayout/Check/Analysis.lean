import VersionedLayout.Check.FieldNames
import VersionedLayout.Check.FieldTypes
import VersionedLayout.Check.Reachability
import VersionedLayout.Check.StructNames
import VersionedLayout.Check.VersionRanges
set_option autoImplicit false

/-!
# Analysis of a schema

The checks are made in a fixed order, and the first one that finds a violation decides the
outcome with all that it finds. A schema without violations is well formed.

## Main definitions

* `VersionedLayout.analyze` — the diagnostics of the first check that fails.
* `VersionedLayout.report` — the report of a list of diagnostics as text.
-/

namespace VersionedLayout

/-- The checks in the order in which they are made. -/
def Check.all : List (List StructDecl → List Diagnostic) :=
  [structNames, versionRanges, fieldTypes, fieldNames, reachability]

/-- The diagnostics of the first check that finds any, or none if no check does. -/
def analyze (ds : List StructDecl) : List Diagnostic :=
  ((Check.all.map fun check => check ds).find? fun found => !found.isEmpty).getD []

/-- The report of a list of diagnostics. -/
def report (found : List Diagnostic) : String :=
  String.join (found.map Diagnostic.render)

end VersionedLayout
