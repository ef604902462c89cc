import VersionedLayout.Proofs.Flattening
set_option autoImplicit false

/-!
# Deletion of blocks

Blocks are deleted from a forest by a condition on their place: the ranges of the blocks around
them, and their own range. A block that fulfils the condition goes with all that it holds, so that
the condition decides over the outermost blocks first. What stands in the forest that is left stood
in the old one behind the same ranges. For a version that lies in no deleted block, nothing is lost.

## Main definitions

* `VersionedLayout.Entry.without` — a forest without the blocks that fulfil a condition.

## Main results

* `VersionedLayout.Entry.stands_field_of_without`, `VersionedLayout.Entry.stands_block_of_without`
  — what stands in the forest that is left.
* `VersionedLayout.Entry.resolveAll_without` — the fields for a version that no deleted block is
  active for.
-/

namespace VersionedLayout

namespace Entry

mutual

/-- What is left of an entry without the blocks that fulfil the condition `deleted`, which is given
the ranges around a block, outermost first, and the range of the block. -/
def withoutIn (deleted : List VersionRange → VersionRange → Bool) : Entry → List Entry
  | field f => [field f]
  | block r es =>
    if deleted [] r then [] else [block r (without (fun rs => deleted (r :: rs)) es)]

/-- What is left of a list of entries without the blocks that fulfil a condition. -/
def without (deleted : List VersionRange → VersionRange → Bool) : List Entry → List Entry
  | [] => []
  | e :: es => withoutIn deleted e ++ without deleted es

end

section Equations

variable (deleted : List VersionRange → VersionRange → Bool) (f : Field) (r : VersionRange)
variable (inner es : List Entry)

/-- From a forest without entries nothing is deleted. -/
@[simp] lemma without_nil : without deleted [] = [] := rfl

/-- Fields are not deleted. -/
@[simp] lemma without_field :
    without deleted (.field f :: es) = .field f :: without deleted es := rfl

/-- A block is deleted, or the blocks inside it are looked at with its range around them. -/
lemma without_block : without deleted (.block r inner :: es) =
    (if deleted [] r then [] else [.block r (without (fun rs => deleted (r :: rs)) inner)]) ++
      without deleted es := rfl

variable {deleted r}

/-- A block that is to be deleted is gone with what is inside it. -/
lemma without_block_of_deleted (h : deleted [] r = true) :
    without deleted (.block r inner :: es) = without deleted es := by
  rw [without_block, if_pos h, List.nil_append]

/-- A block that is to be kept stays around what is left of its entries. -/
lemma without_block_of_kept (h : deleted [] r = false) :
    without deleted (.block r inner :: es) =
      .block r (without (fun rs => deleted (r :: rs)) inner) :: without deleted es := by
  rw [without_block, h]
  rfl

end Equations

variable {deleted : List VersionRange → VersionRange → Bool} {es : List Entry}

/-- From a list of fields, nothing is deleted. -/
@[simp] lemma without_map_field (fs : List Field) :
    without deleted (fs.map Entry.field) = fs.map Entry.field := by
  induction fs with
  | nil => rfl
  | cons f fs ih => rw [List.map_cons, without_field, ih]

/-- What is left of a forest is what is left of its entries. -/
lemma mem_without {x : Entry} : x ∈ without deleted es ↔ ∃ y ∈ es, x ∈ withoutIn deleted y := by
  induction es with
  | nil => simp
  | cons e es ih => rw [without, List.mem_append, ih, List.exists_mem_cons_iff]

/-- A field that is left was a field. -/
lemma eq_of_field_mem_withoutIn {f : Field} {y : Entry} (h : .field f ∈ withoutIn deleted y) :
    y = .field f := by
  cases y with
  | field g => exact (List.mem_singleton.1 h).symm
  | block r inner =>
    rw [withoutIn] at h
    split at h
    · cases h
    · cases List.mem_singleton.1 h

/-- A block that is left does not fulfil the condition, and holds what is left of its entries. -/
lemma exists_of_block_mem_withoutIn {r : VersionRange} {left : List Entry} {y : Entry}
    (h : .block r left ∈ withoutIn deleted y) :
    ∃ inner, y = .block r inner ∧ deleted [] r = false ∧
      left = without (fun rs => deleted (r :: rs)) inner := by
  cases y with
  | field g => cases List.mem_singleton.1 h
  | block r' inner =>
    rw [withoutIn] at h
    split at h
    · cases h
    · rename_i hkept
      cases List.mem_singleton.1 h
      exact ⟨inner, rfl, Bool.eq_false_of_not_eq_true hkept, rfl⟩

/-- What stands in the forest that is left is what is left of an entry that stood behind the same
ranges. -/
lemma exists_stands_of_without {x : Entry} {rs : List VersionRange}
    (h : Stands x rs (without deleted es)) :
    ∃ y, Stands y rs es ∧ x ∈ withoutIn (fun rs' => deleted (rs ++ rs')) y := by
  generalize hleft : without deleted es = left at h
  induction h generalizing deleted es with
  | here hx =>
    rw [← hleft, mem_without] at hx
    obtain ⟨y, hy, hxy⟩ := hx
    exact ⟨y, .here hy, hxy⟩
  | inside hblock _ ih =>
    rw [← hleft, mem_without] at hblock
    obtain ⟨y, hy, hby⟩ := hblock
    obtain ⟨inner, rfl, -, hinner⟩ := exists_of_block_mem_withoutIn hby
    obtain ⟨z, hz, hxz⟩ := ih hinner.symm
    exact ⟨z, .inside hy hz, hxz⟩

/-- A field that is left stood behind the same ranges. -/
lemma stands_field_of_without {f : Field} {rs : List VersionRange}
    (h : Stands (.field f) rs (without deleted es)) : Stands (.field f) rs es := by
  obtain ⟨y, hy, hf⟩ := exists_stands_of_without h
  rw [← eq_of_field_mem_withoutIn hf]
  exact hy

/-- A block that is left does not fulfil the condition, and stood behind the same ranges. -/
lemma stands_block_of_without {r : VersionRange} {left : List Entry} {rs : List VersionRange}
    (h : Stands (.block r left) rs (without deleted es)) :
    deleted rs r = false ∧ ∃ inner, Stands (.block r inner) rs es := by
  obtain ⟨y, hy, hr⟩ := exists_stands_of_without h
  obtain ⟨inner, rfl, hkept, -⟩ := exists_of_block_mem_withoutIn hr
  rw [List.append_nil] at hkept
  exact ⟨hkept, inner, hy⟩

/-- **Nothing is lost for a version** that no deleted block is active for.

**Proof sketch.** Induction on the forest, for any condition. A deleted block has no fields for the
version. A block that is kept is either not active, and then has no fields before and after, or it
is, and then the condition on the blocks inside it is of the same kind. -/
theorem resolveAll_without {v : Version}
    (h : ∀ rs r, deleted rs r = true → v.LiesWithin rs → r.contains v = false) :
    resolveAll v (without deleted es) = resolveAll v es := by
  induction es using forest_induction generalizing deleted with
  | nil => rfl
  | field f es ih => rw [without_field, resolveAll_field, resolveAll_field, ih h]
  | block r inner es ihInner ih =>
    cases hr : deleted [] r with
    | true =>
      have hinactive : r.contains v = false := h [] r hr (Version.liesWithin_nil v)
      rw [without_block_of_deleted _ _ hr, resolveAll_block, ih h, hinactive]
      rfl
    | false =>
      rw [without_block_of_kept _ _ hr, resolveAll_block, resolveAll_block, ih h]
      cases hc : r.contains v with
      | false => rfl
      | true =>
        have hinner : ∀ rs r', deleted (r :: rs) r' = true → v.LiesWithin rs →
            r'.contains v = false :=
          fun rs r' hdel hrs => h (r :: rs) r' hdel (Version.liesWithin_cons.2 ⟨hc, hrs⟩)
        rw [ihInner hinner]

end Entry

end VersionedLayout
