import Mathlib.Data.List.Basic
import VersionedLayout.Entry
set_option autoImplicit false

/-!
# Entries as forests

A list of entries is a forest: the fields are its leaves, the blocks its inner nodes. Every
function on entries follows the same recursion, past a field to the entries behind it, and past a
block both into what it holds and to the entries behind it. `Entry.forest_induction` is the
induction that goes with this recursion, and the equations below say what each function does at a
leaf and at an inner node.

Where an entry stands is also said without any enumeration, by the relation `Entry.Stands`: a
chain of blocks leads to it, whose ranges are recorded from the outermost one inwards.

## Main definitions

* `VersionedLayout.Version.LiesWithin` — a version lies within each of a list of ranges.
* `VersionedLayout.Entry.Stands` — an entry stands somewhere in a forest, behind given ranges.

## Main results

* `VersionedLayout.Entry.forest_induction` — induction on a forest.
* `VersionedLayout.Entry.mem_guardedFields`, `VersionedLayout.Entry.mem_guardedBlocks` — the two
  enumerations of a forest list exactly what stands in it.
* `VersionedLayout.Entry.exists_stands_block_iff` — a forest has a block at some depth only if it
  has one at the top.
-/

namespace VersionedLayout

/-! ## Versions within several ranges -/

/-- Whether a version lies, by its ordinal, within every range of a list. -/
def Version.LiesWithin (v : Version) (rs : List VersionRange) : Prop :=
  ∀ r ∈ rs, r.low.ordinal ≤ v.ordinal ∧ v.ordinal ≤ r.high.ordinal

instance (v : Version) (rs : List VersionRange) : Decidable (v.LiesWithin rs) :=
  inferInstanceAs (Decidable (∀ r ∈ rs, r.low.ordinal ≤ v.ordinal ∧ v.ordinal ≤ r.high.ordinal))

namespace Version

/-- Every version lies within no ranges. -/
@[simp] lemma liesWithin_nil (v : Version) : v.LiesWithin [] := by
  simp [LiesWithin]

/-- A version lies within several ranges when it lies in the first one and within the others. -/
@[simp] lemma liesWithin_cons {v : Version} {r : VersionRange} {rs : List VersionRange} :
    v.LiesWithin (r :: rs) ↔ r.contains v = true ∧ v.LiesWithin rs := by
  simp only [LiesWithin, List.forall_mem_cons, VersionRange.contains_iff]

/-- A version lies within two lists of ranges when it lies within each of them. -/
@[simp] lemma liesWithin_append {v : Version} {rs ss : List VersionRange} :
    v.LiesWithin (rs ++ ss) ↔ v.LiesWithin rs ∧ v.LiesWithin ss := by
  simp only [LiesWithin, List.forall_mem_append]

end Version

namespace Entry

/-! ## Induction and equations -/

/-- **Induction on a forest**: past a field to the entries behind it, and past a block both into
what it holds and to the entries behind it. -/
@[elab_as_elim]
theorem forest_induction {motive : List Entry → Prop} (nil : motive [])
    (field : ∀ f es, motive es → motive (.field f :: es))
    (block : ∀ r inner es, motive inner → motive es → motive (.block r inner :: es)) :
    ∀ es, motive es
  | [] => nil
  | .field f :: es => field f es (forest_induction nil field block es)
  | .block r inner :: es =>
    block r inner es (forest_induction nil field block inner)
      (forest_induction nil field block es)

section Equations

variable (v : Version) (f : Field) (r : VersionRange) (inner es : List Entry)

/-- A forest without entries has no fields. -/
@[simp] lemma resolveAll_nil : resolveAll v [] = [] := rfl

/-- A field is there for every version. -/
@[simp] lemma resolveAll_field : resolveAll v (.field f :: es) = f :: resolveAll v es := rfl

/-- A block has fields for the versions in its range. -/
@[simp] lemma resolveAll_block : resolveAll v (.block r inner :: es) =
    (if r.contains v then resolveAll v inner else []) ++ resolveAll v es := rfl

/-- A forest without entries has no fields, whatever the version. -/
@[simp] lemma guardedFields_nil : guardedFields [] = [] := rfl

/-- A field at the top has no ranges around it. -/
@[simp] lemma guardedFields_field :
    guardedFields (.field f :: es) = ([], f) :: guardedFields es := rfl

/-- The range of a block is the outermost one around the fields inside it. -/
@[simp] lemma guardedFields_block : guardedFields (.block r inner :: es) =
    (guardedFields inner).map (fun p => (r :: p.1, p.2)) ++ guardedFields es := rfl

/-- A forest without entries has no blocks. -/
@[simp] lemma guardedBlocks_nil : guardedBlocks [] = [] := rfl

/-- A field is no block. -/
@[simp] lemma guardedBlocks_field :
    guardedBlocks (.field f :: es) = guardedBlocks es := rfl

/-- A block comes before the blocks inside it, around which its range is the outermost one. -/
@[simp] lemma guardedBlocks_block : guardedBlocks (.block r inner :: es) =
    ([], ⟨r, inner⟩) :: (guardedBlocks inner).map (fun p => (r :: p.1, p.2)) ++
      guardedBlocks es := rfl

end Equations

/-! ## Standing in a forest -/

/-- The entry `e` stands in a forest behind the given ranges: those of the blocks around it, the
outermost first. -/
inductive Stands (e : Entry) : List VersionRange → List Entry → Prop
  /-- At the top of the forest there is no block around it. -/
  | here {es : List Entry} : e ∈ es → Stands e [] es
  /-- What stands in a block has the range of this block in front. -/
  | inside {r : VersionRange} {inner es : List Entry} {rs : List VersionRange} :
    .block r inner ∈ es → Stands e rs inner → Stands e (r :: rs) es

section Stands

variable {e : Entry} {rs : List VersionRange}

/-- Nothing stands in a forest without entries. -/
@[simp] lemma not_stands_nil : ¬ Stands e rs [] := by
  intro h
  cases h with
  | here h => cases h
  | inside h _ => cases h

/-- An entry that stands in a forest is the first one, or stands in the first one, or stands in
the entries behind it. -/
lemma stands_cons {x : Entry} {es : List Entry} :
    Stands e rs (x :: es) ↔ rs = [] ∧ e = x ∨
      (∃ r inner rest, x = .block r inner ∧ rs = r :: rest ∧ Stands e rest inner) ∨
      Stands e rs es := by
  constructor
  · intro h
    cases h with
    | here h =>
      rcases List.mem_cons.1 h with rfl | h
      · exact .inl ⟨rfl, rfl⟩
      · exact .inr (.inr (.here h))
    | inside h hs =>
      rcases List.mem_cons.1 h with rfl | h
      · exact .inr (.inl ⟨_, _, _, rfl, rfl, hs⟩)
      · exact .inr (.inr (.inside h hs))
  · rintro (⟨rfl, rfl⟩ | ⟨r, inner, rest, rfl, rfl, hs⟩ | h)
    · exact .here List.mem_cons_self
    · exact .inside List.mem_cons_self hs
    · cases h with
      | here h => exact .here (List.mem_cons_of_mem _ h)
      | inside h hs => exact .inside (List.mem_cons_of_mem _ h) hs

/-- What stands in a forest is its first field, or stands in the entries behind it. -/
@[simp] lemma stands_field_cons {f : Field} {es : List Entry} :
    Stands e rs (.field f :: es) ↔ rs = [] ∧ e = .field f ∨ Stands e rs es := by
  simp [stands_cons]

/-- What stands in a forest is its first block, or stands inside this block, or in the entries
behind it. -/
@[simp] lemma stands_block_cons {r : VersionRange} {inner es : List Entry} :
    Stands e rs (.block r inner :: es) ↔ rs = [] ∧ e = .block r inner ∨
      (∃ rest, rs = r :: rest ∧ Stands e rest inner) ∨ Stands e rs es := by
  rw [stands_cons]
  constructor
  · rintro (h | ⟨r', inner', rest, hx, hrs, hs⟩ | h)
    · exact .inl h
    · cases hx
      exact .inr (.inl ⟨rest, hrs, hs⟩)
    · exact .inr (.inr h)
  · rintro (h | ⟨rest, hrs, hs⟩ | h)
    · exact .inl h
    · exact .inr (.inl ⟨r, inner, rest, rfl, hrs, hs⟩)
    · exact .inr (.inr h)

/-- What stands behind several ranges stands in a block with any of them, as far as the ranges
behind that one lead. -/
lemma stands_append_cons {r : VersionRange} {ss : List VersionRange} {es : List Entry} :
    Stands e (rs ++ r :: ss) es ↔ ∃ inner, Stands (.block r inner) rs es ∧ Stands e ss inner := by
  constructor
  · intro h
    induction rs generalizing es with
    | nil =>
      cases h with
      | inside hblock hs => exact ⟨_, .here hblock, hs⟩
    | cons q rs ih =>
      cases h with
      | inside hblock hs =>
        obtain ⟨inner, hinner, he⟩ := ih hs
        exact ⟨inner, .inside hblock hinner, he⟩
  · rintro ⟨inner, hblock, hs⟩
    induction hblock with
    | here hmem => exact .inside hmem hs
    | inside hmem _ ih => exact .inside hmem ih

end Stands

/-! ## The enumerations -/

/-- What a block holds is listed with the range of the block in front. -/
lemma mem_map_guard {α : Type} {r : VersionRange} {rs : List VersionRange} {x : α}
    {ps : List (List VersionRange × α)} :
    (rs, x) ∈ ps.map (fun p => (r :: p.1, p.2)) ↔ ∃ rest, rs = r :: rest ∧ (rest, x) ∈ ps := by
  simp only [List.mem_map, Prod.exists, Prod.mk.injEq]
  constructor
  · rintro ⟨rest, y, hy, rfl, rfl⟩
    exact ⟨rest, rfl, hy⟩
  · rintro ⟨rest, rfl, hx⟩
    exact ⟨rest, x, hx, rfl, rfl⟩

/-- The guarded fields are the fields that stand in the forest. -/
theorem mem_guardedFields {rs : List VersionRange} {f : Field} {es : List Entry} :
    (rs, f) ∈ guardedFields es ↔ Stands (.field f) rs es := by
  induction es using forest_induction generalizing rs with
  | nil => simp
  | field g es ih => simp [ih]
  | block r inner es ihInner ih =>
    rw [guardedFields_block, List.mem_append, mem_map_guard, ih]
    simp [ihInner]

/-- The guarded blocks are the blocks that stand in the forest. -/
theorem mem_guardedBlocks {rs : List VersionRange} {b : Block} {es : List Entry} :
    (rs, b) ∈ guardedBlocks es ↔ Stands (.block b.range b.entries) rs es := by
  induction es using forest_induction generalizing rs with
  | nil => simp
  | field g es ih => simp [ih]
  | block r inner es ihInner ih =>
    have hself : (rs, b) = ([], ⟨r, inner⟩) ↔
        rs = [] ∧ Entry.block b.range b.entries = .block r inner := by
      cases b
      simp
    rw [guardedBlocks_block, List.cons_append, List.mem_cons, List.mem_append, mem_map_guard, ih,
      hself]
    simp [ihInner]

/-- All fields are those that stand in the forest. -/
lemma mem_allFields {f : Field} {es : List Entry} :
    f ∈ allFields es ↔ ∃ rs, Stands (.field f) rs es := by
  simp [allFields, mem_guardedFields]

/-- All blocks are those that stand in the forest. -/
lemma mem_allBlocks {b : Block} {es : List Entry} :
    b ∈ allBlocks es ↔ ∃ rs, Stands (.block b.range b.entries) rs es := by
  simp [allBlocks, mem_guardedBlocks]

/-- A forest with a block at any depth has one at the top, since what is not at the top stands in
a block that is. -/
theorem exists_stands_block_iff {es : List Entry} :
    (∃ rs r inner, Stands (.block r inner) rs es) ↔ ∃ e ∈ es, e.isBlock = true := by
  constructor
  · rintro ⟨rs, r, inner, h⟩
    cases h with
    | here h => exact ⟨_, h, rfl⟩
    | inside h _ => exact ⟨_, h, rfl⟩
  · rintro ⟨e, he, hb⟩
    cases e with
    | field f => cases hb
    | block r inner => exact ⟨[], r, inner, .here he⟩

end Entry

end VersionedLayout
