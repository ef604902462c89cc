import Mathlib.Data.Set.List
import VersionedLayout.Proofs.Forest
import VersionedLayout.StructDecl
set_option autoImplicit false

/-!
# Flattening of entries into layouts

A struct is declared as the union of its fields over all versions, and a layout is what is left of
it for one of them. This module says which fields these are without following the resolution: of
all fields of the forest, enumerated depth first with the ranges around them, those stay for a
version whose ranges all contain it.

## Main definitions

* `VersionedLayout.Entry.visibleFields` — the fields for one version, as a filtered enumeration.

## Main results

* `VersionedLayout.Entry.resolveAll_eq_visibleFields` — resolution leaves the visible fields.
* `VersionedLayout.StructDecl.layouts_flatten_entries` — the layouts of a struct: a single one
  with all fields, or one for each release in its range with the visible fields.
-/

namespace VersionedLayout

namespace Entry

/-! ## The fields for one version -/

/-- The fields of a forest for one version: those of all its fields, depth first, whose ranges all
contain the version. -/
def visibleFields (v : Version) (es : List Entry) : List Field :=
  ((guardedFields es).filter fun p => v.LiesWithin p.1).map Prod.snd

/-- Behind one more range, the fields of a block stay visible or vanish together. -/
lemma filter_map_guard (v : Version) (r : VersionRange) (ps : List (List VersionRange × Field)) :
    ((ps.map fun p => (r :: p.1, p.2)).filter fun p => v.LiesWithin p.1).map Prod.snd =
      if r.contains v then (ps.filter fun p => v.LiesWithin p.1).map Prod.snd else [] := by
  cases hr : r.contains v with
  | false => simp [List.filter_map, Function.comp_def, hr]
  | true => simp [List.filter_map, Function.comp_def, hr]

/-- **Resolution leaves the visible fields**, in their order and as often as they are declared.

**Proof sketch.** Induction on the forest. A field at the top has no range around it and is kept by
both sides. The fields of a block are enumerated with its range in front, so they all pass the
filter by the ranges inside the block, or none does, as the block is active or not. -/
theorem resolveAll_eq_visibleFields (v : Version) (es : List Entry) :
    resolveAll v es = visibleFields v es := by
  induction es using forest_induction with
  | nil => rfl
  | field f es ih =>
    rw [resolveAll_field, ih]
    simp [visibleFields]
  | block r inner es ihInner ih =>
    rw [resolveAll_block, ihInner, ih]
    simp only [visibleFields, guardedFields_block, List.filter_append, List.map_append,
      filter_map_guard]

/-- A field is left for a version when it stands in the forest behind ranges that all contain the
version. -/
lemma mem_resolveAll {v : Version} {f : Field} {es : List Entry} :
    f ∈ resolveAll v es ↔ ∃ rs, Stands (.field f) rs es ∧ v.LiesWithin rs := by
  simp [resolveAll_eq_visibleFields, visibleFields, mem_guardedFields]

/-! ## Forests without blocks -/

/-- A forest without a block is a list of fields. -/
lemma exists_eq_map_field {es : List Entry} (h : ∀ e ∈ es, e.isBlock = false) :
    ∃ fs : List Field, es = fs.map Entry.field := by
  have hes : es ∈ Set.range (List.map Entry.field) := by
    rw [Set.range_list_map]
    intro e he
    cases e with
    | field f => exact ⟨f, rfl⟩
    | block r inner => cases h _ he
  obtain ⟨fs, hfs⟩ := hes
  exact ⟨fs, hfs.symm⟩

/-- Fields taken as entries are found again. -/
@[simp] lemma filterMap_field?_map_field (fs : List Field) :
    (fs.map Entry.field).filterMap field? = fs := by
  rw [List.filterMap_map]
  exact List.filterMap_some

/-- Fields taken as entries are all there for every version. -/
@[simp] lemma resolveAll_map_field (v : Version) (fs : List Field) :
    resolveAll v (fs.map Entry.field) = fs := by
  induction fs with
  | nil => rfl
  | cons f fs ih => rw [List.map_cons, resolveAll_field, ih]

end Entry

/-! ## Layouts -/

namespace StructDecl

variable {d : StructDecl}

/-- A struct is not versioned when it has no range, and no block among its entries. -/
lemma isVersioned_eq_false_iff :
    d.isVersioned = false ↔ d.versions = none ∧ ∀ e ∈ d.entries, e.isBlock = false := by
  simp [isVersioned]

/-- A struct is versioned when it has a range, or a block among its entries. -/
lemma isVersioned_eq_true_iff :
    d.isVersioned = true ↔ d.versions ≠ none ∨ ∃ e ∈ d.entries, e.isBlock = true := by
  simp [isVersioned, Option.isSome_iff_ne_none]

/-- A struct exists for the versions in its range, and for all of them when it has none. -/
lemma isEnabledFor_iff {v : Version} :
    d.isEnabledFor v = true ↔ v.LiesWithin d.versions.toList := by
  cases h : d.versions <;> simp [isEnabledFor, h]

/-- The releases of a struct are those in its range, or all if it has none. -/
lemma mem_enabledVersions {v : Version} :
    v ∈ d.enabledVersions ↔ v ≠ .any ∧ v.LiesWithin d.versions.toList := by
  rw [enabledVersions, List.mem_filter, Version.mem_all, isEnabledFor_iff]

/-- A versioned struct has a layout for each of its releases. -/
lemma layouts_of_isVersioned (h : d.isVersioned = true) :
    d.layouts = d.enabledVersions.map fun v => ⟨some v, Entry.resolveAll v d.entries⟩ := by
  rw [layouts, if_pos h]

/-- A struct that is not versioned has one layout, of all its fields. -/
lemma layouts_of_not_isVersioned (h : d.isVersioned = false) :
    d.layouts = [⟨none, d.entries.filterMap Entry.field?⟩] := by
  rw [layouts, if_neg (by simp [h])]

/-- The layouts of a versioned struct belong to versions, the one of an unversioned struct does
not. -/
lemma isSome_version_of_mem_layouts {l : Layout} (hl : l ∈ d.layouts) :
    l.version.isSome = d.isVersioned := by
  cases h : d.isVersioned with
  | false =>
    rw [layouts_of_not_isVersioned h, List.mem_singleton] at hl
    rw [hl]
    rfl
  | true =>
    rw [layouts_of_isVersioned h, List.mem_map] at hl
    obtain ⟨v, -, rfl⟩ := hl
    rfl

/-- **The fields of layouts** are those that stand in the struct behind ranges which all contain
some release for which the struct exists. -/
theorem exists_mem_layouts_iff {f : Field} :
    (∃ l ∈ d.layouts, f ∈ l.fields) ↔
      ∃ rs, ∃ v : Version, Entry.Stands (.field f) rs d.entries ∧ v ≠ .any ∧
        v.LiesWithin (d.versions.toList ++ rs) := by
  cases h : d.isVersioned with
  | false =>
    obtain ⟨hrange, hblocks⟩ := isVersioned_eq_false_iff.1 h
    obtain ⟨fs, hfs⟩ := Entry.exists_eq_map_field hblocks
    rw [layouts_of_not_isVersioned h, hrange, hfs, Entry.filterMap_field?_map_field]
    constructor
    · rintro ⟨l, hl, hf⟩
      rw [List.mem_singleton.1 hl] at hf
      exact ⟨[], .classic, .here (List.mem_map_of_mem hf), nofun, Version.liesWithin_nil _⟩
    · rintro ⟨rs, v, hs, -, hin⟩
      refine ⟨⟨none, fs⟩, List.mem_singleton_self _, ?_⟩
      rw [← Entry.resolveAll_map_field v fs]
      exact Entry.mem_resolveAll.2 ⟨rs, hs, hin⟩
  | true =>
    rw [layouts_of_isVersioned h]
    constructor
    · rintro ⟨l, hl, hf⟩
      obtain ⟨v, hv, rfl⟩ := List.mem_map.1 hl
      obtain ⟨hany, hrange⟩ := mem_enabledVersions.1 hv
      obtain ⟨rs, hs, hin⟩ := Entry.mem_resolveAll.1 hf
      exact ⟨rs, v, hs, hany, Version.liesWithin_append.2 ⟨hrange, hin⟩⟩
    · rintro ⟨rs, v, hs, hany, hin⟩
      obtain ⟨hrange, hin⟩ := Version.liesWithin_append.1 hin
      exact ⟨_, List.mem_map_of_mem (mem_enabledVersions.2 ⟨hany, hrange⟩),
        Entry.mem_resolveAll.2 ⟨rs, hs, hin⟩⟩

/-- The fields of a layout are among all fields of the struct. -/
lemma mem_allFields_of_mem_layouts {l : Layout} {f : Field} (hl : l ∈ d.layouts)
    (hf : f ∈ l.fields) : f ∈ Entry.allFields d.entries := by
  obtain ⟨rs, v, hs, -⟩ := exists_mem_layouts_iff.1 ⟨l, hl, hf⟩
  exact Entry.mem_allFields.2 ⟨rs, hs⟩

/-- **Flattening is exact.** A struct without a range and without a block among its own entries is
a list of fields, and these are its only layout and what is left of it for every version. Any other
struct has one layout for each release in its range, in declared order of the releases and never
for the sentinel, with the fields that are visible for the release. -/
theorem layouts_flatten_entries (d : StructDecl) :
    (d.versions = none → (∀ e ∈ d.entries, e.isBlock = false) →
      ∃ fs : List Field, d.entries = fs.map Entry.field ∧ d.layouts = [⟨none, fs⟩] ∧
        ∀ v, Entry.resolveAll v d.entries = fs) ∧
    (d.versions ≠ none ∨ (∃ e ∈ d.entries, e.isBlock = true) →
      ∃ vs : List Version, vs.Sublist Version.all ∧
        (∀ v, v ∈ vs ↔ v ≠ .any ∧ v.LiesWithin d.versions.toList) ∧
        d.layouts = vs.map fun v => ⟨some v, Entry.visibleFields v d.entries⟩) := by
  refine ⟨?_, ?_⟩
  · intro hr hb
    obtain ⟨fs, hfs⟩ := Entry.exists_eq_map_field hb
    refine ⟨fs, hfs, ?_, ?_⟩
    · rw [layouts_of_not_isVersioned (isVersioned_eq_false_iff.2 ⟨hr, hb⟩), hfs,
        Entry.filterMap_field?_map_field]
    · intro v
      rw [hfs, Entry.resolveAll_map_field]
  · intro h
    refine ⟨d.enabledVersions, List.filter_sublist, fun v => mem_enabledVersions, ?_⟩
    rw [layouts_of_isVersioned (isVersioned_eq_true_iff.2 h)]
    simp only [Entry.resolveAll_eq_visibleFields]

/-- A struct for the releases from `BFA` to `TBC_NEW`, among them a re-released branch, with a field
in a block inside a block and a repeated name, next to a struct without blocks. -/
theorem layouts_flatten_entries_nested :
    let field (name : String) : Entry := .field ⟨.plain (.named "T"), name, none, none, none⟩
    let plain : StructDecl := { name := "P", entries := [field "a", field "b", field "a"] }
    let nested : StructDecl :=
      { name := "N", versions := some ⟨.bfa, .tbcNew⟩,
        entries := [field "a", .block ⟨.classicNew, .any⟩ [field "b",
          .block ⟨.tbcNew, .df⟩ [field "a"]], field "c"] }
    (plain.versions = none ∧ (∀ e ∈ plain.entries, e.isBlock = false) ∧
      ∃ fs : List Field, plain.entries = fs.map Entry.field ∧ plain.layouts = [⟨none, fs⟩] ∧
        ∀ v, Entry.resolveAll v plain.entries = fs) ∧
    nested.versions ≠ none ∧
      ∃ vs : List Version, vs.Sublist Version.all ∧
        (∀ v, v ∈ vs ↔ v ≠ .any ∧ v.LiesWithin nested.versions.toList) ∧
        nested.layouts = vs.map fun v => ⟨some v, Entry.visibleFields v nested.entries⟩ := by
  intro field plain nested
  have hplain : ∀ e ∈ plain.entries, e.isBlock = false := by
    simp [plain, field, Entry.isBlock]
  have hnested : nested.versions ≠ none := by
    simp [nested]
  exact ⟨⟨rfl, hplain, (layouts_flatten_entries plain).1 rfl hplain⟩,
    hnested, (layouts_flatten_entries nested).2 (.inl hnested)⟩

end StructDecl

end VersionedLayout
