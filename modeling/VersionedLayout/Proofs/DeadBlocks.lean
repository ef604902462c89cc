import VersionedLayout.Proofs.Deletion
import VersionedLayout.Proofs.Likeness
import VersionedLayout.Proofs.Reachability
set_option autoImplicit false

/-!
# Reported blocks are dead

When the analysis ends with reports on unreachable blocks, nothing else is wrong with the schema,
and the reported blocks contribute nothing to what is generated. Deleting them gives a schema that
the analysis accepts and from which both emitters write what they wrote before.

A report names the struct, the range of the block and the versions that reach its place. Whether
the block is active follows from these alone, and so it does not matter which of several blocks
with the same report is meant: all of them are reported, and all of them are deleted.

## Main definitions

* `VersionedLayout.StructDecl.IsReached` — a release of the struct lies in all given ranges.
* `VersionedLayout.StructDecl.unreachableReport` — the report on a block at a place.
* `VersionedLayout.StructDecl.withoutReported` — a struct without the blocks that are reported.

## Main results

* `VersionedLayout.Check.unreachable_without` — without the reported blocks, no block is reported.
* `VersionedLayout.StructDecl.writtenAlike_withoutReported` — the emitters do not see the deletion.
* `VersionedLayout.without_reported_accepted_and_unchanged` — the resulting schema is accepted, and
  written out as before.
-/

namespace VersionedLayout

namespace StructDecl

/-! ## Reported blocks -/

/-- A release for which the struct exists lies in all ranges of a list. -/
def IsReached (d : StructDecl) (rs : List VersionRange) : Prop :=
  ∃ v ∈ d.enabledVersions, v.LiesWithin rs

/-- The report on a block of a struct, given the ranges around the block and its own range. -/
def unreachableReport (d : StructDecl) (rs : List VersionRange) (r : VersionRange) : Diagnostic :=
  .unreachableBlock d.qualifiedName r (Version.reaching d.enabledVersions rs)

/-- A struct without its blocks, at any depth, that are reported in a list of diagnostics. -/
def withoutReported (found : List Diagnostic) (d : StructDecl) : StructDecl :=
  { d with entries := Entry.without (fun rs r => d.unreachableReport rs r ∈ found) d.entries }

/-- A place is reached when a release of the struct is left there. -/
lemma isReached_iff {d : StructDecl} {rs : List VersionRange} :
    d.IsReached rs ↔ Version.reaching d.enabledVersions rs ≠ [] := by
  simp only [IsReached, ← Version.mem_reaching, ne_eq, List.eq_nil_iff_forall_not_mem, not_forall,
    not_not]

/-- No release reaches into a block when none of those that reach its place lies in its range. -/
lemma not_isReached_append_iff {d : StructDecl} {rs : List VersionRange} {r : VersionRange} :
    ¬ d.IsReached (rs ++ [r]) ↔
      (Version.reaching d.enabledVersions rs).filter r.contains = [] := by
  simp [IsReached, List.filter_eq_nil_iff]

end StructDecl

namespace Check

/-- **Without the reported blocks, no block is reported.**

**Proof sketch.** Induction on the forest, for any condition that all reported blocks fulfil. A
block in front that none of the versions is active for is reported, and hence deleted. Any other
block may stay: the reports on what it holds are among those on the whole, and are made for the
versions in its range. -/
theorem unreachable_without {structName : String} {vs : List Version} {es : List Entry}
    {deleted : List VersionRange → VersionRange → Bool}
    (h : ∀ rs r, .unreachableBlock structName r (Version.reaching vs rs) ∈
      unreachable structName vs es → deleted rs r = true) :
    unreachable structName vs (Entry.without deleted es) = [] := by
  induction es using Entry.forest_induction generalizing deleted vs with
  | nil => rfl
  | field f es ih =>
    rw [Entry.without_field, unreachable, unreachableIn, List.nil_append]
    exact ih h
  | block r inner es ihInner ih =>
    have hrest : unreachable structName vs (Entry.without deleted es) = [] :=
      ih fun rs r' hr' => h rs r' (List.mem_append_right _ hr')
    cases hdeleted : deleted [] r with
    | true => rw [Entry.without_block_of_deleted _ _ hdeleted, hrest]
    | false =>
      have hactive : ¬ (vs.filter r.contains).isEmpty = true := by
        intro hempty
        have hreport := h [] r (List.mem_append_left _ (by
          rw [unreachableIn, if_pos hempty, Version.reaching_nil]
          exact List.mem_singleton_self _))
        rw [hdeleted] at hreport
        cases hreport
      have hinner : unreachable structName (vs.filter r.contains)
          (Entry.without (fun rs => deleted (r :: rs)) inner) = [] := by
        refine ihInner fun rs r' hr' => h (r :: rs) r' (List.mem_append_left _ ?_)
        rw [unreachableIn, if_neg hactive, Version.reaching_cons]
        exact hr'
      rw [Entry.without_block_of_kept _ _ hdeleted, unreachable, unreachableIn, if_neg hactive,
        hinner, hrest]
      rfl

/-- What the reports on a schema tell of a block: no version that they list lies in its range, and
they list some version if every struct exists for one. -/
lemma of_mem_reachability {ds : List StructDecl} {structName : String} {r : VersionRange}
    {vs : List Version} (h : .unreachableBlock structName r vs ∈ reachability ds) :
    vs.filter r.contains = [] ∧ ((∀ d ∈ ds, d.enabledVersions ≠ []) → vs ≠ []) := by
  obtain ⟨d, hd, hmem⟩ := List.mem_flatMap.1 h
  obtain ⟨rs, r', inner, -, heq, hempty, hplace⟩ := mem_unreachable_iff.1 hmem
  cases heq
  refine ⟨hempty, fun hall => ?_⟩
  rcases hplace with rfl | hne
  · rw [Version.reaching_nil]
    exact hall d hd
  · exact hne

end Check

/-! ## The deletion -/

namespace StructDecl

variable {d : StructDecl} {found : List Diagnostic}

/-- A struct whose ranges are in order exists for a release. -/
lemma enabledVersions_ne_nil (h : d.RangesInOrder) : d.enabledVersions ≠ [] := by
  have hmem : ∃ v, v ∈ d.enabledVersions := by
    cases hr : d.versions with
    | none => exact ⟨.classic, mem_enabledVersions.2 ⟨nofun, by simp [hr]⟩⟩
    | some r =>
      obtain ⟨v, hany, hv⟩ := h.range_inhabited r hr
      exact ⟨v, mem_enabledVersions.2 ⟨hany, by simp [hr, hv]⟩⟩
  obtain ⟨v, hv⟩ := hmem
  exact List.ne_nil_of_mem hv

/-- Where a struct without a range has no blocks, nothing is deleted from it. -/
lemma withoutReported_of_versions_eq_none (h : d.RangesInOrder) (hr : d.versions = none) :
    d.withoutReported found = d := by
  have hblock : ∀ e ∈ d.entries, e.isBlock = false := by
    intro e he
    by_contra hne
    exact h.range_declared
      (Entry.exists_stands_block_iff.2 ⟨e, he, by simpa using hne⟩) hr
  obtain ⟨fs, hfs⟩ := Entry.exists_eq_map_field hblock
  rw [withoutReported, hfs, Entry.without_map_field, ← hfs]

/-- **The emitters do not see the deletion** of blocks that are not active.

**Proof sketch.** A struct with a range stays versioned and exists for the same releases, and none
of these is lost any field. A struct without a range has no blocks that could be deleted. -/
theorem writtenAlike_withoutReported (h : d.RangesInOrder)
    (hdead : ∀ rs r, d.unreachableReport rs r ∈ found →
      (Version.reaching d.enabledVersions rs).filter r.contains = []) :
    (d.withoutReported found).WrittenAlike d := by
  cases hr : d.versions with
  | none =>
    rw [withoutReported_of_versions_eq_none h hr]
    exact ⟨⟨rfl, rfl, rfl⟩, rfl, rfl⟩
  | some range =>
    have hversioned : d.isVersioned = true := isVersioned_eq_true_iff.2 (.inl (by simp [hr]))
    have hversioned' : (d.withoutReported found).isVersioned = true :=
      isVersioned_eq_true_iff.2 (.inl (by simp [withoutReported, hr]))
    refine ⟨⟨rfl, rfl, hversioned'.trans hversioned.symm⟩, rfl, ?_⟩
    rw [layouts_of_isVersioned hversioned, layouts_of_isVersioned hversioned']
    refine List.map_congr_left fun v hv => ?_
    have hresolve : Entry.resolveAll v (d.withoutReported found).entries =
        Entry.resolveAll v d.entries := by
      refine Entry.resolveAll_without fun rs r hdel hrs => ?_
      have hfilter := hdead rs r (of_decide_eq_true hdel)
      have hnot := List.filter_eq_nil_iff.1 hfilter v (Version.mem_reaching.2 ⟨hv, hrs⟩)
      simpa using hnot
    rw [hresolve]

/-- Ranges that are in order stay so when blocks are deleted. -/
lemma rangesInOrder_withoutReported (h : d.RangesInOrder) :
    (d.withoutReported found).RangesInOrder where
  range_in_order := h.range_in_order
  range_inhabited := h.range_inhabited
  blocks_in_order rs r left hs := by
    obtain ⟨-, inner, hs'⟩ := Entry.stands_block_of_without hs
    exact h.blocks_in_order rs r inner hs'
  range_declared := by
    rintro ⟨rs, r, left, hs⟩
    obtain ⟨-, inner, hs'⟩ := Entry.stands_block_of_without hs
    exact h.range_declared ⟨rs, r, inner, hs'⟩

end StructDecl

/-- **Without the reported blocks, the analysis accepts** a schema in which no other check finds
anything, provided that the emitters do not see their deletion. -/
lemma analyze_withoutReported {ds : List StructDecl} (hnames : Check.structNames ds = [])
    (hranges : Check.versionRanges ds = []) (htypes : Check.fieldTypes ds = [])
    (hfields : Check.fieldNames ds = [])
    (halike : ∀ d ∈ ds, (d.withoutReported (Check.reachability ds)).WrittenAlike d) :
    analyze (ds.map (StructDecl.withoutReported (Check.reachability ds))) = [] := by
  rw [analyze_eq_nil_iff]
  simp only [Check.all, List.forall_mem_cons]
  refine ⟨?names, ?ranges, ?types, ?fields, ?blocks, List.forall_mem_nil _⟩
  case names =>
    rw [Check.structNames_eq_nil_iff] at hnames ⊢
    rw [List.map_map]
    exact hnames
  case ranges =>
    rw [Check.versionRanges_eq_nil_iff] at hranges ⊢
    rw [List.forall_mem_map]
    exact fun d hd => StructDecl.rangesInOrder_withoutReported (hranges d hd)
  case types =>
    rw [Check.fieldTypes_eq_nil_iff] at htypes ⊢
    rw [List.forall_mem_map]
    exact fun d hd rs f hs => htypes d hd rs f (Entry.stands_field_of_without hs)
  case fields =>
    rw [Check.fieldNames_eq_nil_iff] at hfields ⊢
    rw [List.forall_mem_map]
    intro d hd
    rw [(halike d hd).layouts_eq]
    exact hfields d hd
  case blocks =>
    rw [Check.reachability, List.flatMap_eq_nil_iff, List.forall_mem_map]
    intro d hd
    refine Check.unreachable_without fun rs r hreport => decide_eq_true ?_
    exact List.mem_flatMap.2 ⟨d, hd, hreport⟩

/-- **Reported blocks are dead.** Suppose that the analysis reports an unreachable block. A block is
then reported exactly when a release of its struct reaches its place, but none reaches into it;
these are the outermost of the blocks that are never active. Without them, the analysis accepts the
schema, and both emitters end with the same text or the same error as before.

**Proof sketch.** The other checks have found nothing, so that all ranges are in order and every
struct exists for a release. What the emitters see of a struct does not change, and neither does
what the checks of names see of it. The remaining fields and blocks were there before, so that the
checks of ranges and types still find nothing, and the blocks that are left are not reported. -/
theorem without_reported_accepted_and_unchanged {ds : List StructDecl}
    (h : ∃ r ∈ analyze ds, r.code = .unreachableBlock) :
    (∀ d ∈ ds, ∀ rs r inner, Entry.Stands (.block r inner) rs d.entries →
      (d.unreachableReport rs r ∈ analyze ds ↔ d.IsReached rs ∧ ¬ d.IsReached (rs ++ [r]))) ∧
    analyze (ds.map (StructDecl.withoutReported (analyze ds))) = [] ∧
    ∀ c, Header.generate c (ds.map (StructDecl.withoutReported (analyze ds))) =
        Header.generate c ds ∧
      Dump.generate c (ds.map (StructDecl.withoutReported (analyze ds))) = Dump.generate c ds := by
  obtain ⟨r, hr, hcode⟩ := h
  obtain ⟨hnames, hranges, htypes, hfields, hfound⟩ := analyze_eq_reachability hr hcode
  rw [hfound]
  have hinOrder := Check.versionRanges_eq_nil_iff.1 hranges
  have hnonempty : ∀ d ∈ ds, d.enabledVersions ≠ [] := fun d hd =>
    StructDecl.enabledVersions_ne_nil (hinOrder d hd)
  have halike : ∀ d ∈ ds, (d.withoutReported (Check.reachability ds)).WrittenAlike d :=
    fun d hd => StructDecl.writtenAlike_withoutReported (hinOrder d hd) fun rs r hr =>
      (Check.of_mem_reachability hr).1
  refine ⟨fun d hd rs r inner hs => ?_, ?_, fun c => ⟨?_, ?_⟩⟩
  · rw [StructDecl.isReached_iff, StructDecl.not_isReached_append_iff]
    constructor
    · intro hmem
      obtain ⟨hempty, hne⟩ := Check.of_mem_reachability hmem
      exact ⟨hne hnonempty, hempty⟩
    · rintro ⟨hne, hempty⟩
      refine List.mem_flatMap.2 ⟨d, hd, Check.mem_unreachable_iff.2 ?_⟩
      exact ⟨rs, r, inner, hs, rfl, hempty, .inr hne⟩
  · exact analyze_withoutReported hnames hranges htypes hfields halike
  · exact Header.generate_map halike c
  · exact Dump.generate_map halike c

/-- A struct with two reported blocks, one of them inside a block that stays, and with a bit-field
and an array in the blocks. -/
theorem without_reported_accepted_and_unchanged_nested :
    let field (name : String) : Entry :=
      .field ⟨.numeric (.builtin .u8), name, some 3, some (.scalar (.int 5)), none⟩
    let d : StructDecl :=
      { name := "N", scope := "A::B", versions := some ⟨.bfa, .tbcNew⟩,
        entries := [field "a", .block ⟨.cata, .mop⟩ [field "b", .block ⟨.tbc, .any⟩ [field "a"]],
          .block ⟨.sl, .any⟩ [field "c", .block ⟨.bfa, .classicNew⟩ [field "c"], field "e"]] }
    let found := analyze [d]
    let pruned := [d].map (StructDecl.withoutReported found)
    (∃ r ∈ found, r.code = .unreachableBlock) ∧
      (d.unreachableReport [⟨.sl, .any⟩] ⟨.bfa, .classicNew⟩ ∈ found ↔
        d.IsReached [⟨.sl, .any⟩] ∧ ¬ d.IsReached [⟨.sl, .any⟩, ⟨.bfa, .classicNew⟩]) ∧
      analyze pruned = [] ∧
      ∀ c, Header.generate c pruned = Header.generate c [d] ∧
        Dump.generate c pruned = Dump.generate c [d] := by
  intro field d found pruned
  have h : ∃ r ∈ found, r.code = .unreachableBlock := by decide
  obtain ⟨hreported, haccepted, hunchanged⟩ := without_reported_accepted_and_unchanged h
  refine ⟨h, ?_, haccepted, hunchanged⟩
  refine hreported d List.mem_cons_self _ _ [field "c"] ?_
  exact .inside (.tail _ (.tail _ (.head _))) (.here (.tail _ (.head _)))

end VersionedLayout
