import VersionedLayout.Check.Diagnostic
import VersionedLayout.StructDecl
set_option autoImplicit false

/-!
# Names of fields

No two fields of one layout may have the same name. Fields of different versions may.

## Main definitions

* `VersionedLayout.Check.repetitions` — the repeated names of a struct with their versions.
* `VersionedLayout.Check.fieldNames` — one diagnostic for every repeated name of a struct.
-/

namespace VersionedLayout

namespace Check

/-- A name that some layouts repeat. -/
structure Repetition where
  /-- The name. -/
  name : String
  /-- The versions of the layouts, in order. -/
  versions : List (Option Version)
  deriving DecidableEq, Repr

/-- The occurrences of names in a list that are not the first of their name, given the names
before the list. -/
def repeatsFrom (seen : List String) : List String → List String
  | [] => []
  | n :: ns =>
    if seen.contains n then n :: repeatsFrom seen ns else repeatsFrom (n :: seen) ns

/-- A repeated name added to what is known: each name stands once, in order of discovery, and each
of its versions once. -/
def addRepetition (v : Option Version) (name : String) : List Repetition → List Repetition
  | [] => [⟨name, [v]⟩]
  | r :: rs =>
    if r.name = name then
      (if r.versions.contains v then r else ⟨r.name, r.versions ++ [v]⟩) :: rs
    else r :: addRepetition v name rs

/-- The repetitions of a layout added to what is known. -/
def addLayout (known : List Repetition) (l : Layout) : List Repetition :=
  (repeatsFrom [] (l.fields.map Field.name)).foldl (fun rs n => addRepetition l.version n rs) known

/-- The repeated names of a struct, in order of discovery. -/
def repetitions (d : StructDecl) : List Repetition :=
  d.layouts.foldl addLayout []

/-- The diagnostics for repeated field names, struct by struct. -/
def fieldNames (ds : List StructDecl) : List Diagnostic :=
  ds.flatMap fun d => (repetitions d).map fun r =>
    .duplicateField d.qualifiedName r.name r.versions

end Check

end VersionedLayout
