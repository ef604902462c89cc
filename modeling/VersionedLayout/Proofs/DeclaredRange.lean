import VersionedLayout.Check.VersionRanges
import VersionedLayout.Proofs.Flattening
import VersionedLayout.Proofs.Likeness
set_option autoImplicit false

/-!
# Declaring the range that is missing

A struct with blocks must declare its range. If it does not, the report comes with the hint to
declare one, and the range of the hint is the one from the first release to the sentinel. A struct
without a range exists for every version, and so does one with this range: what is declared
explicitly is what has been meant all along. The declaration therefore removes the report and does
nothing else. It makes no other report on the ranges of the schema, and whatever is written out
stays as it was.

## Main definitions

* `VersionedLayout.StructDecl.LacksRange` — the struct has a block at some depth, and no range.
* `VersionedLayout.StructDecl.declareRange` — the struct with its range declared if it lacks one.

## Main results

* `VersionedLayout.StructDecl.writtenAlike_declareRange` — the struct is written as before.
* `VersionedLayout.Check.structRange_declareRange` — the report on the range disappears.
* `VersionedLayout.declareRange_reports_and_texts` — both for a whole schema.
-/

namespace VersionedLayout

namespace StructDecl

/-! ## The declaration -/

/-- The struct has a block at some depth, and declares no range. -/
def LacksRange (d : StructDecl) : Prop :=
  d.versions = none ∧ ∃ rs r inner, Entry.Stands (.block r inner) rs d.entries

/-- A block at any depth means one at the top, where it is looked for. -/
lemma lacksRange_iff {d : StructDecl} :
    d.LacksRange ↔ d.versions = none ∧ d.entries.any Entry.isBlock = true := by
  rw [LacksRange, Entry.exists_stands_block_iff, List.any_eq_true]

instance (d : StructDecl) : Decidable d.LacksRange :=
  decidable_of_iff _ lacksRange_iff.symm

/-- The struct with the range of all versions, if it lacks a range. -/
def declareRange (d : StructDecl) : StructDecl :=
  if d.LacksRange then { d with versions := some .full } else d

variable {d : StructDecl}

/-- A struct that lacks a range gets the full one. -/
lemma declareRange_of_lacksRange (h : d.LacksRange) :
    d.declareRange = { d with versions := some .full } :=
  if_pos h

/-- Any other struct stays as it is. -/
lemma declareRange_of_not_lacksRange (h : ¬ d.LacksRange) : d.declareRange = d :=
  if_neg h

/-- The range of all versions enables a struct for the same releases as no range does. -/
lemma enabledVersions_full (h : d.versions = none) :
    { d with versions := some .full }.enabledVersions = d.enabledVersions := by
  refine List.filter_congr fun v _ => ?_
  simp [isEnabledFor, h]

/-- **A struct is written as before** once its range is declared: it has been a template over the
version before, because of its blocks, and with the same layouts. -/
theorem writtenAlike_declareRange (d : StructDecl) : d.declareRange.WrittenAlike d := by
  by_cases h : d.LacksRange
  · rw [declareRange_of_lacksRange h]
    obtain ⟨hrange, hblock⟩ := lacksRange_iff.1 h
    have hbefore : d.isVersioned = true := by
      rw [isVersioned, hblock, Bool.or_true]
    have hafter : { d with versions := some .full }.isVersioned = true := rfl
    refine ⟨⟨rfl, rfl, hafter.trans hbefore.symm⟩, rfl, ?_⟩
    rw [layouts_of_isVersioned hafter, layouts_of_isVersioned hbefore, enabledVersions_full hrange]
  · rw [declareRange_of_not_lacksRange h]
    exact ⟨⟨rfl, rfl, rfl⟩, rfl, rfl⟩

end StructDecl

namespace Check

/-! ## The reports -/

/-- Blocks are reported for their own ranges alone. -/
lemma code_of_mem_blockRanges {d : StructDecl} {r : Diagnostic} (h : r ∈ blockRanges d) :
    r.code = .invertedRange := by
  rw [blockRanges, List.mem_filterMap] at h
  obtain ⟨b, -, hb⟩ := h
  split at hb
  · cases hb
    rfl
  · cases hb

/-- A range is reported as missing of the structs that lack one. -/
lemma structRange_of_lacksRange {d : StructDecl} (h : d.LacksRange) :
    structRange d = [.missingRange d.qualifiedName] := by
  obtain ⟨hrange, hblock⟩ := StructDecl.lacksRange_iff.1 h
  simp [structRange, hrange, StructDecl.isVersioned, hblock]

/-- Of no other struct is a range reported as missing. -/
lemma code_of_mem_structRange {d : StructDecl} (h : ¬ d.LacksRange) {r : Diagnostic}
    (hr : r ∈ structRange d) : r.code ≠ .missingRange := by
  rw [structRange] at hr
  cases hrange : d.versions with
  | some range =>
    rw [hrange] at hr
    dsimp only at hr
    split at hr
    · rw [List.mem_singleton.1 hr]
      exact nofun
    · split at hr
      · rw [List.mem_singleton.1 hr]
        exact nofun
      · cases hr
  | none =>
    have hversioned : d.isVersioned = false := by
      have hblock := mt (fun hblock => StructDecl.lacksRange_iff.2 ⟨hrange, hblock⟩) h
      simpa [StructDecl.isVersioned, hrange] using hblock
    rw [hrange, hversioned] at hr
    cases hr

/-- **The report of a missing range disappears** when the range is declared, and no other report on
the range of the struct is made or lost. -/
theorem structRange_declareRange (d : StructDecl) :
    structRange d.declareRange = (structRange d).filter fun r => r.code ≠ .missingRange := by
  by_cases h : d.LacksRange
  · have hfull : structRange { d with versions := some .full } = [] := by
      have hordered : VersionRange.full.isInverted = false := rfl
      have hinhabited : VersionRange.full.versions.isEmpty = false := rfl
      simp [structRange, hordered, hinhabited]
    rw [StructDecl.declareRange_of_lacksRange h, hfull, structRange_of_lacksRange h]
    rfl
  · rw [StructDecl.declareRange_of_not_lacksRange h, eq_comm, List.filter_eq_self]
    intro r hr
    exact decide_eq_true (code_of_mem_structRange h hr)

/-- The reports on the ranges of the blocks stay the same. -/
lemma blockRanges_declareRange (d : StructDecl) : blockRanges d.declareRange = blockRanges d := by
  unfold StructDecl.declareRange
  split <;> rfl

/-- Of the reports on ranges, those on missing ranges are gone. -/
lemma versionRanges_declareRange (ds : List StructDecl) :
    versionRanges (ds.map StructDecl.declareRange) =
      (versionRanges ds).filter fun r => r.code ≠ .missingRange := by
  rw [versionRanges, versionRanges, List.flatMap_map, List.filter_flatMap]
  refine List.flatMap_congr fun d _ => ?_
  have hblocks : (blockRanges d).filter (fun r => r.code ≠ .missingRange) = blockRanges d := by
    rw [List.filter_eq_self]
    intro r hr
    rw [code_of_mem_blockRanges hr]
    rfl
  rw [List.filter_append, hblocks, structRange_declareRange, blockRanges_declareRange]

end Check

/-! ## A schema -/

/-- **Declaring the missing ranges of a schema**, as the hint of the report says, removes these
reports and makes no other one on ranges, and both emitters end as before, with the same text or
the same error. -/
theorem declareRange_reports_and_texts (c : Config) (ds : List StructDecl) :
    (∀ name, (Diagnostic.missingRange name).notes =
      ["hint: declare the struct range explicitly, e.g. " ++ VersionRange.full.display]) ∧
    Check.versionRanges (ds.map StructDecl.declareRange) =
      (Check.versionRanges ds).filter (fun r => r.code ≠ .missingRange) ∧
    Header.generate c (ds.map StructDecl.declareRange) = Header.generate c ds ∧
    Dump.generate c (ds.map StructDecl.declareRange) = Dump.generate c ds := by
  have halike : ∀ d ∈ ds, d.declareRange.WrittenAlike d := fun d _ => d.writtenAlike_declareRange
  refine ⟨fun _ => ?_, Check.versionRanges_declareRange ds, ?_, ?_⟩
  · rfl
  · exact Header.generate_map halike c
  · exact Dump.generate_map halike c

end VersionedLayout
