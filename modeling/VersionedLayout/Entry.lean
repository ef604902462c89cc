import VersionedLayout.Field
import VersionedLayout.Version
set_option autoImplicit false

/-!
# Entries and their resolution

The body of a struct is a list of entries: fields, and blocks of further entries that are present
only for the versions in a range. Resolving the entries for one version leaves the fields all of
whose enclosing blocks are active, in the order in which they are written.

## Main definitions

* `VersionedLayout.Entry` — a field, or a block guarded by a range.
* `VersionedLayout.Entry.resolve`, `VersionedLayout.Entry.resolveAll` — the fields for one version.
* `VersionedLayout.Entry.guardedFields`, `VersionedLayout.Entry.guardedBlocks` — all fields and all
  blocks, whatever the version, each with the ranges of the blocks around it.
-/

namespace VersionedLayout

/-- An entry of a struct or of a block. -/
inductive Entry where
  | field (f : Field)
  /-- Entries that are present for the versions in a range only. -/
  | block (range : VersionRange) (entries : List Entry)

/-- A block: its range and its entries. -/
structure Block where
  /-- The versions for which the block is active. -/
  range : VersionRange
  /-- What it holds. -/
  entries : List Entry

namespace Entry

/-- Whether the entry is a block. -/
def isBlock : Entry → Bool
  | field _ => false
  | block _ _ => true

/-- The field that an entry is, if it is not a block. -/
def field? : Entry → Option Field
  | field f => some f
  | block _ _ => none

/-! ## Resolution -/

mutual

/-- The fields of an entry for one version. A block outside its range has none. -/
def resolve (v : Version) : Entry → List Field
  | field f => [f]
  | block r es => if r.contains v then resolveAll v es else []

/-- The fields of a list of entries for one version. -/
def resolveAll (v : Version) : List Entry → List Field
  | [] => []
  | e :: es => resolve v e ++ resolveAll v es

end

/-! ## Views of the whole tree -/

mutual

/-- The fields of an entry with the ranges around each of them, outermost first. -/
def guardedFieldsOf : Entry → List (List VersionRange × Field)
  | field f => [([], f)]
  | block r es => (guardedFields es).map fun p => (r :: p.1, p.2)

/-- All fields of a list of entries, depth first, with the ranges around each of them. -/
def guardedFields : List Entry → List (List VersionRange × Field)
  | [] => []
  | e :: es => guardedFieldsOf e ++ guardedFields es

end

mutual

/-- The blocks of an entry with the ranges around each of them, outermost first. -/
def guardedBlocksOf : Entry → List (List VersionRange × Block)
  | field _ => []
  | block r es => ([], ⟨r, es⟩) :: (guardedBlocks es).map fun p => (r :: p.1, p.2)

/-- All blocks of a list of entries, depth first and each before the blocks inside it, with the
ranges around each of them. -/
def guardedBlocks : List Entry → List (List VersionRange × Block)
  | [] => []
  | e :: es => guardedBlocksOf e ++ guardedBlocks es

end

/-- All fields of a list of entries, depth first, whatever the version. -/
def allFields (es : List Entry) : List Field :=
  (guardedFields es).map Prod.snd

/-- All blocks of a list of entries, depth first and each before the blocks inside it. -/
def allBlocks (es : List Entry) : List Block :=
  (guardedBlocks es).map Prod.snd

end Entry

end VersionedLayout
