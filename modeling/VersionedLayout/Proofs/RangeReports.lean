import VersionedLayout.Proofs.Positions
import VersionedLayout.Proofs.WellFormed
set_option autoImplicit false

/-!
# Reports on version ranges

What is reported of the ranges of a struct is said here without the walk through its entries. On the
range of the struct itself there is at most one report. On the blocks there is one report for each
position at which a block with an inverted range stands, in the depth-first order of the positions,
in which a block comes before the blocks inside it. There is one list for each struct that fits.

## Main definitions

* `VersionedLayout.StructDecl.HasRangeFault` — what is wrong with the range of a struct itself.
* `VersionedLayout.RangeReports` — the reports that are due for the ranges of a struct.

## Main results

* `VersionedLayout.rangeReports_iff` — the reports that are due are those of the check.
* `VersionedLayout.Check.versionRanges_reports` — the reports on a schema.
-/

namespace VersionedLayout

/-! ## The conditions -/

/-- What is wrong with the range of a struct itself, as it is reported. -/
inductive StructDecl.HasRangeFault (d : StructDecl) : Diagnostic → Prop
  /-- The low end lies above the high end. -/
  | inverted {r : VersionRange} : d.versions = some r → r.high.ordinal < r.low.ordinal →
    d.HasRangeFault (.invertedStructRange d.qualifiedName r)
  /-- The ends are in order, but there is no release between them. -/
  | empty {r : VersionRange} : d.versions = some r → r.low.ordinal ≤ r.high.ordinal →
    (∀ v : Version, v ≠ .any → ¬ (r.low.ordinal ≤ v.ordinal ∧ v.ordinal ≤ r.high.ordinal)) →
    d.HasRangeFault (.emptyRange d.qualifiedName r)
  /-- There is no range, although a block stands among the entries at some depth. -/
  | missing {p : List Nat} {b : Block} : d.versions = none → Entry.blockAt? p d.entries = some b →
    d.HasRangeFault (.missingRange d.qualifiedName)

/-- The reports on the ranges of a struct: that on its own range, and those on the blocks with
inverted ranges, which are listed with their positions. -/
structure RangeReportParts (d : StructDecl) (own : List Diagnostic)
    (inverted : List (List Nat × Block)) : Prop where
  /-- There is one report on the range of the struct if anything is wrong with it. -/
  own_eq : (∃ fault, d.HasRangeFault fault ∧ own = [fault]) ∨
    (∀ fault, ¬ d.HasRangeFault fault) ∧ own = []
  /-- The positions increase: depth first, and an outer block before its inner ones. -/
  positions_increase : inverted.Pairwise fun p q => Entry.Precedes p.1 q.1
  /-- The blocks whose low end lies above the high end are listed, wherever they stand. -/
  mem_inverted : ∀ q, q ∈ inverted ↔ Entry.blockAt? q.1 d.entries = some q.2 ∧
    q.2.range.high.ordinal < q.2.range.low.ordinal

/-- The reports that are due for the ranges of a struct: first that on its own range, then one for
each block with an inverted range. -/
def RangeReports (d : StructDecl) (found : List Diagnostic) : Prop :=
  ∃ own inverted, RangeReportParts d own inverted ∧
    found = own ++ inverted.map fun q => .invertedBlockRange d.qualifiedName q.2.range

/-! ## The reports -/

/-- A struct with a block at any depth has one among its own entries. -/
lemma StructDecl.exists_blockAt?_iff {d : StructDecl} :
    (∃ p b, Entry.blockAt? p d.entries = some b) ↔ ∃ e ∈ d.entries, e.isBlock = true := by
  rw [← Entry.exists_stands_block_iff]
  constructor
  · rintro ⟨p, b, hb⟩
    have hmem : b ∈ Entry.allBlocks d.entries := by
      rw [← Entry.map_snd_placedBlocks]
      exact List.mem_map.2 ⟨(p, b), Entry.mem_placedBlocks.2 hb, rfl⟩
    obtain ⟨rs, hs⟩ := Entry.mem_allBlocks.1 hmem
    exact ⟨rs, b.range, b.entries, hs⟩
  · rintro ⟨rs, r, inner, hs⟩
    have hmem : (⟨r, inner⟩ : Block) ∈ Entry.allBlocks d.entries := Entry.mem_allBlocks.2 ⟨rs, hs⟩
    rw [← Entry.map_snd_placedBlocks] at hmem
    obtain ⟨⟨p, b⟩, hp, -⟩ := List.mem_map.1 hmem
    exact ⟨p, b, Entry.mem_placedBlocks.1 hp⟩

namespace Check

/-- **What is reported of the range of a struct itself** is what is wrong with it. -/
theorem mem_structRange_iff {d : StructDecl} {fault : Diagnostic} :
    fault ∈ structRange d ↔ d.HasRangeFault fault := by
  rw [structRange]
  cases hversions : d.versions with
  | none =>
    have hblock : d.isVersioned = true ↔ ∃ p b, Entry.blockAt? p d.entries = some b := by
      rw [StructDecl.exists_blockAt?_iff, StructDecl.isVersioned, hversions]
      simp
    constructor
    · intro h
      dsimp only at h
      split at h
      · rename_i hversioned
        obtain ⟨p, b, hb⟩ := hblock.1 hversioned
        rw [List.mem_singleton.1 h]
        exact .missing hversions hb
      · cases h
    · intro h
      cases h with
      | inverted hsome | empty hsome => cases hversions.symm.trans hsome
      | missing _ hb =>
        dsimp only
        rw [if_pos (hblock.2 ⟨_, _, hb⟩)]
        exact List.mem_singleton_self _
  | some r =>
    have hempty : r.versions.isEmpty = true ↔ ∀ v : Version, v ≠ .any →
        ¬ (r.low.ordinal ≤ v.ordinal ∧ v.ordinal ≤ r.high.ordinal) := by
      rw [List.isEmpty_iff, versions_eq_nil_iff]
      simp only [not_exists, not_and, VersionRange.contains_iff]
    constructor
    · intro h
      dsimp only at h
      split at h
      · rename_i hinverted
        rw [List.mem_singleton.1 h]
        exact .inverted hversions (VersionRange.isInverted_iff.1 hinverted)
      · rename_i hinverted
        split at h
        · rename_i hnone
          rw [List.mem_singleton.1 h]
          exact .empty hversions (isInverted_eq_false_iff.1 (by simpa using hinverted))
            (hempty.1 hnone)
        · cases h
    · intro h
      dsimp only
      cases h with
      | inverted hsome hinverted =>
        cases hversions.symm.trans hsome
        rw [if_pos (VersionRange.isInverted_iff.2 hinverted)]
        exact List.mem_singleton_self _
      | empty hsome hordered hnone =>
        cases hversions.symm.trans hsome
        rw [if_neg (by rw [isInverted_eq_false_iff.2 hordered]; decide), if_pos (hempty.2 hnone)]
        exact List.mem_singleton_self _
      | missing hnone => cases hversions.symm.trans hnone

/-- There is at most one report on the range of a struct itself. -/
lemma structRange_eq (d : StructDecl) :
    (∃ fault, structRange d = [fault]) ∨ structRange d = [] := by
  rw [structRange]
  split
  · split
    · exact .inl ⟨_, rfl⟩
    · split
      · exact .inl ⟨_, rfl⟩
      · exact .inr rfl
  · split
    · exact .inl ⟨_, rfl⟩
    · exact .inr rfl

/-- The blocks of a struct with inverted ranges, with their positions. -/
def invertedBlocks (d : StructDecl) : List (List Nat × Block) :=
  (Entry.placedBlocks d.entries).filter fun q => q.2.range.isInverted

/-- The blocks with inverted ranges are found at their positions. -/
lemma mem_invertedBlocks {d : StructDecl} {q : List Nat × Block} :
    q ∈ invertedBlocks d ↔ Entry.blockAt? q.1 d.entries = some q.2 ∧
      q.2.range.high.ordinal < q.2.range.low.ordinal := by
  rw [invertedBlocks, List.mem_filter, Entry.mem_placedBlocks, VersionRange.isInverted_iff]

/-- The reports on the blocks of a struct are those on the blocks with inverted ranges. -/
lemma blockRanges_eq_map (d : StructDecl) : blockRanges d =
    (invertedBlocks d).map fun q => .invertedBlockRange d.qualifiedName q.2.range := by
  rw [blockRanges, ← Entry.map_snd_placedBlocks, List.filterMap_map, invertedBlocks,
    ← List.filterMap_eq_map, List.filterMap_filter]
  rfl

/-- The position of a block is listed once, and the positions of all blocks determine the list. -/
lemma eq_invertedBlocks {d : StructDecl} {qs : List (List Nat × Block)}
    (hincrease : qs.Pairwise fun p q => Entry.Precedes p.1 q.1)
    (hmem : ∀ q, q ∈ qs ↔ Entry.blockAt? q.1 d.entries = some q.2 ∧
      q.2.range.high.ordinal < q.2.range.low.ordinal) : qs = invertedBlocks d := by
  refine Entry.eq_of_precedes hincrease ((Entry.pairwise_placedBlocks d.entries).filter _)
    fun q => ?_
  rw [hmem]
  exact mem_invertedBlocks.symm

end Check

/-- **The reports that are due are those of the check.** -/
theorem rangeReports_iff {d : StructDecl} {found : List Diagnostic} :
    RangeReports d found ↔ found = Check.structRange d ++ Check.blockRanges d := by
  constructor
  · rintro ⟨own, inverted, hparts, rfl⟩
    have hown : own = Check.structRange d := by
      rcases hparts.own_eq with ⟨fault, hfault, rfl⟩ | ⟨hnone, rfl⟩
      · have hmem := Check.mem_structRange_iff.2 hfault
        rcases Check.structRange_eq d with ⟨other, hother⟩ | hnil
        · rw [hother] at hmem ⊢
          rw [List.mem_singleton.1 hmem]
        · rw [hnil] at hmem
          cases hmem
      · refine (List.eq_nil_iff_forall_not_mem.2 fun fault hmem => ?_).symm
        exact hnone fault (Check.mem_structRange_iff.1 hmem)
    rw [hown, Check.blockRanges_eq_map,
      Check.eq_invertedBlocks hparts.positions_increase hparts.mem_inverted]
  · rintro rfl
    refine ⟨Check.structRange d, Check.invertedBlocks d, ⟨?_, ?_, fun q => ?_⟩, ?_⟩
    · rcases Check.structRange_eq d with ⟨fault, hfault⟩ | hnil
      · refine .inl ⟨fault, Check.mem_structRange_iff.1 ?_, hfault⟩
        rw [hfault]
        exact List.mem_singleton_self fault
      · refine .inr ⟨fun fault hfault => ?_, hnil⟩
        have hmem := Check.mem_structRange_iff.2 hfault
        rw [hnil] at hmem
        cases hmem
    · exact (Entry.pairwise_placedBlocks d.entries).filter _
    · exact Check.mem_invertedBlocks
    · rw [Check.blockRanges_eq_map]

namespace Check

/-- **The reports on version ranges.** The structs are reported on in their order, and of each of
them exactly what is due: at most one report on its own range, then one for each block with an
inverted range, in depth-first order and whatever the ranges around it. An inverted range is
reported under the code `E3`, a range of a struct without a release under `E4`, and a missing one
under `E6`.

**Proof sketch.** The check reports of the range of a struct what is wrong with it, where a block at
any depth shows by one at the top. It goes through the blocks in the order of their positions, and
there is one increasing list of the positions of the inverted ones. -/
theorem versionRanges_reports (ds : List StructDecl) :
    (∃ found : StructDecl → List Diagnostic, versionRanges ds = ds.flatMap found ∧
      ∀ d rs, RangeReports d rs ↔ rs = found d) ∧
    ∀ name r, (Diagnostic.invertedStructRange name r).code.text = "E3" ∧
      (Diagnostic.invertedBlockRange name r).code.text = "E3" ∧
      (Diagnostic.emptyRange name r).code.text = "E4" ∧
      (Diagnostic.missingRange name).code.text = "E6" := by
  refine ⟨⟨fun d => structRange d ++ blockRanges d, rfl, fun _ _ => rangeReports_iff⟩, ?_⟩
  exact fun _ _ => ⟨Diagnostic.code_text _, Diagnostic.code_text _, Diagnostic.code_text _,
    Diagnostic.code_text _⟩

/-- An inverted range of a struct, and inverted ranges inside an inverted block that is never active
and behind it. -/
example :
    let d : StructDecl :=
      { name := "N", versions := some ⟨.mop, .cata⟩,
        entries := [.block ⟨.df, .tbc⟩ [.block ⟨.tbc, .df⟩ [.block ⟨.sl, .bfa⟩ []]],
          .block ⟨.any, .df⟩ []] }
    versionRanges [d] = [.invertedStructRange "N" ⟨.mop, .cata⟩,
      .invertedBlockRange "N" ⟨.df, .tbc⟩, .invertedBlockRange "N" ⟨.sl, .bfa⟩,
      .invertedBlockRange "N" ⟨.any, .df⟩] := by
  decide

end Check

end VersionedLayout
