import VersionedLayout.Proofs.Acceptance
set_option autoImplicit false

/-!
# Reports on unreachable blocks

A block is reported when none of the versions that reach its place lies in its range. Inside a
reported block nothing is looked at, so that a version reaches every other reported place. This
module says which reports are made by an enumeration of all blocks, and when the analysis comes to
making them at all: only when no other check has found anything, since each check makes reports of
its own kinds.

## Main definitions

* `VersionedLayout.Version.reaching` — the versions of a list that lie in all ranges around a place.

## Main results

* `VersionedLayout.Check.unreachable_eq_map` — the reports, as a filtered enumeration of the blocks.
* `VersionedLayout.Check.mem_unreachable_iff` — the places of the reported blocks.
* `VersionedLayout.analyze_eq_reachability` — an analysis that reports an unreachable block has
  passed all other checks.
-/

namespace VersionedLayout

/-! ## Versions that reach a place -/

namespace Version

/-- The versions of a list that lie in all ranges around a place. -/
def reaching (vs : List Version) (rs : List VersionRange) : List Version :=
  vs.filter fun v => v.LiesWithin rs

variable {vs : List Version} {rs : List VersionRange}

/-- The versions that reach a place are those that lie within the ranges around it. -/
@[simp] lemma mem_reaching {v : Version} : v ∈ reaching vs rs ↔ v ∈ vs ∧ v.LiesWithin rs := by
  simp [reaching]

/-- All versions reach the top. -/
@[simp] lemma reaching_nil (vs : List Version) : reaching vs [] = vs := by
  simp [reaching]

/-- Behind one more range, only the versions in it are left to reach a place. -/
lemma reaching_cons (vs : List Version) (r : VersionRange) (rs : List VersionRange) :
    reaching vs (r :: rs) = reaching (vs.filter r.contains) rs := by
  simp only [reaching, List.filter_filter, liesWithin_cons, Bool.decide_and, Bool.decide_eq_true]
  exact List.filter_congr fun v _ => Bool.and_comm _ _

/-- Of no versions none reaches a place. -/
@[simp] lemma nil_reaching (rs : List VersionRange) : reaching [] rs = [] := rfl

end Version

namespace Check

/-! ## The reports -/

/-- Whether the block at a place is reported: no version that reaches the place lies in the range
of the block, although some version reaches it. At the top of a struct, the latter is not asked. -/
def isReportedAt (vs : List Version) (p : List VersionRange × Block) : Bool :=
  (Version.reaching vs p.1).filter p.2.range.contains = [] ∧
    (p.1 = [] ∨ Version.reaching vs p.1 ≠ [])

/-- **The reports on unreachable blocks** are made in the order in which the blocks are enumerated,
and each lists the versions that reach the place of the block.

**Proof sketch.** Induction on the forest, for any versions that reach it. If none of them lies in
the range of the block in front, the block is reported, and no version reaches what it holds, so
that the enumeration leaves nothing of that. Otherwise the block is not reported, and the versions
in its range reach what it holds. -/
theorem unreachable_eq_map (structName : String) (vs : List Version) (es : List Entry) :
    unreachable structName vs es =
      ((Entry.guardedBlocks es).filter (isReportedAt vs)).map fun p =>
        .unreachableBlock structName p.2.range (Version.reaching vs p.1) := by
  induction es using Entry.forest_induction generalizing vs with
  | nil => rfl
  | field f es ih => simp [unreachable, unreachableIn, ih]
  | block r inner es ihInner ih =>
    rw [unreachable, unreachableIn, ih, ihInner, Entry.guardedBlocks_block, List.filter_append,
      List.map_append]
    congr 1
    by_cases hr : vs.filter r.contains = []
    · have hself : isReportedAt vs ([], ⟨r, inner⟩) = true := by simp [isReportedAt, hr]
      have hinner : ∀ p ∈ (Entry.guardedBlocks inner).map fun p => (r :: p.1, p.2),
          ¬ isReportedAt vs p = true := by
        intro p hp
        obtain ⟨q, -, rfl⟩ := List.mem_map.1 hp
        simp [isReportedAt, Version.reaching_cons, hr]
      rw [if_pos (by rw [hr]; rfl), List.filter_cons_of_pos hself,
        List.filter_eq_nil_iff.2 hinner]
      simp
    · have hself : ¬ isReportedAt vs ([], ⟨r, inner⟩) = true := by simpa [isReportedAt] using hr
      have hinner : (isReportedAt vs ∘ fun p : List VersionRange × Block => (r :: p.1, p.2)) =
          isReportedAt (vs.filter r.contains) := by
        funext p
        have htop : p.1 = [] → Version.reaching (vs.filter r.contains) p.1 ≠ [] := by
          intro hp
          rw [hp, Version.reaching_nil]
          exact hr
        simp only [isReportedAt, Function.comp_apply, Version.reaching_cons, reduceCtorEq, false_or,
          or_iff_right_of_imp htop]
      rw [if_neg (by simpa using hr), List.filter_cons_of_neg hself, List.filter_map, List.map_map,
        hinner]
      simp only [Function.comp_def, Version.reaching_cons]

/-- The reported blocks and their places. -/
theorem mem_unreachable_iff {structName : String} {vs : List Version} {es : List Entry}
    {found : Diagnostic} :
    found ∈ unreachable structName vs es ↔
      ∃ rs r inner, Entry.Stands (.block r inner) rs es ∧
        found = .unreachableBlock structName r (Version.reaching vs rs) ∧
        (Version.reaching vs rs).filter r.contains = [] ∧
        (rs = [] ∨ Version.reaching vs rs ≠ []) := by
  rw [unreachable_eq_map, List.mem_map]
  constructor
  · rintro ⟨⟨rs, b⟩, hp, rfl⟩
    rw [List.mem_filter, Entry.mem_guardedBlocks, isReportedAt, decide_eq_true_eq] at hp
    exact ⟨rs, b.range, b.entries, hp.1, rfl, hp.2⟩
  · rintro ⟨rs, r, inner, hs, rfl, hreported⟩
    refine ⟨(rs, ⟨r, inner⟩), ?_, rfl⟩
    rw [List.mem_filter, Entry.mem_guardedBlocks, isReportedAt, decide_eq_true_eq]
    exact ⟨hs, hreported⟩

/-! ## Kinds of reports -/

/-- Reports on the names of structs have the code of a repeated struct. -/
lemma code_of_mem_structNamesFrom {seen : List (String × Nat)} {index : Nat}
    {ds : List StructDecl} {r : Diagnostic} (h : r ∈ structNamesFrom seen index ds) :
    r.code = .duplicateStruct := by
  induction ds generalizing seen index with
  | nil => cases h
  | cons d ds ih =>
    rw [structNamesFrom] at h
    rcases List.mem_append.1 h with hself | hrest
    · split at hself
      · rw [List.mem_singleton.1 hself]
        rfl
      · cases hself
    · exact ih hrest

/-- Reports on ranges have one of three codes. -/
lemma code_of_mem_versionRanges {ds : List StructDecl} {r : Diagnostic} (h : r ∈ versionRanges ds) :
    r.code ∈ [.invertedRange, .emptyRange, .missingRange] := by
  obtain ⟨d, -, hd⟩ := List.mem_flatMap.1 h
  rcases List.mem_append.1 hd with hstruct | hblock
  · unfold structRange at hstruct
    split at hstruct
    · split at hstruct
      · simp [List.mem_singleton.1 hstruct, Diagnostic.code]
      · split at hstruct
        · simp [List.mem_singleton.1 hstruct, Diagnostic.code]
        · cases hstruct
    · split at hstruct
      · simp [List.mem_singleton.1 hstruct, Diagnostic.code]
      · cases hstruct
  · obtain ⟨b, -, hb⟩ := List.mem_filterMap.1 hblock
    split at hb
    · rw [← Option.some.inj hb]
      simp [Diagnostic.code]
    · cases hb

/-- Reports on types and defaults have one of five codes. -/
lemma code_of_mem_fieldTypes {ds : List StructDecl} {r : Diagnostic} (h : r ∈ fieldTypes ds) :
    r.code ∈ [.arityMismatch, .invalidBitWidth, .emptyAggregate, .nonFiniteDefault,
      .defaultOutOfBounds] := by
  obtain ⟨d, -, hd⟩ := List.mem_flatMap.1 h
  obtain ⟨f, -, hf⟩ := List.mem_flatMap.1 hd
  unfold fieldType at hf
  split at hf
  · simp [List.mem_singleton.1 hf, Diagnostic.code]
  · rcases List.mem_append.1 hf with hbits | hvalue
    · simp [code_of_mem_bitWidth hbits]
    · have hkinds := code_of_mem_defaultValue hvalue
      simp only [List.mem_cons, List.not_mem_nil, or_false] at hkinds ⊢
      tauto

/-- Reports on the names of fields have the code of a repeated field. -/
lemma code_of_mem_fieldNames {ds : List StructDecl} {r : Diagnostic} (h : r ∈ fieldNames ds) :
    r.code = .duplicateField := by
  obtain ⟨d, -, hd⟩ := List.mem_flatMap.1 h
  obtain ⟨repetition, -, rfl⟩ := List.mem_map.1 hd
  rfl

/-- A report that the first of several checks cannot have made shows that this check has found
nothing. -/
lemma eq_nil_of_mem_first {check : List StructDecl → List Diagnostic}
    {rest : List (List StructDecl → List Diagnostic)} {ds : List StructDecl} {r : Diagnostic}
    (hr : r ∈ (((check :: rest).map fun check => check ds).find?
      fun found => !found.isEmpty).getD [])
    (hkind : r ∉ check ds) :
    check ds = [] ∧
      r ∈ ((rest.map fun check => check ds).find? fun found => !found.isEmpty).getD [] := by
  rw [List.map_cons, List.find?_cons] at hr
  cases hempty : (check ds).isEmpty with
  | true =>
    rw [hempty] at hr
    exact ⟨List.isEmpty_iff.1 hempty, hr⟩
  | false =>
    rw [hempty] at hr
    exact absurd hr hkind

end Check

/-- **An analysis that reports an unreachable block** has found nothing by any other check. -/
theorem analyze_eq_reachability {ds : List StructDecl} {r : Diagnostic} (hr : r ∈ analyze ds)
    (hcode : r.code = .unreachableBlock) :
    Check.structNames ds = [] ∧ Check.versionRanges ds = [] ∧ Check.fieldTypes ds = [] ∧
      Check.fieldNames ds = [] ∧ analyze ds = Check.reachability ds := by
  obtain ⟨hnames, h⟩ := Check.eq_nil_of_mem_first hr fun hmem => by
    rw [Check.code_of_mem_structNamesFrom hmem] at hcode
    cases hcode
  obtain ⟨hranges, h⟩ := Check.eq_nil_of_mem_first h fun hmem => by
    simpa [hcode] using Check.code_of_mem_versionRanges hmem
  obtain ⟨htypes, h⟩ := Check.eq_nil_of_mem_first h fun hmem => by
    simpa [hcode] using Check.code_of_mem_fieldTypes hmem
  obtain ⟨hfields, h⟩ := Check.eq_nil_of_mem_first h fun hmem => by
    rw [Check.code_of_mem_fieldNames hmem] at hcode
    cases hcode
  refine ⟨hnames, hranges, htypes, hfields, ?_⟩
  rw [analyze, Check.all]
  simp only [List.map_cons, List.map_nil, List.find?_cons, hnames, hranges, htypes, hfields]
  cases Check.reachability ds <;> rfl

end VersionedLayout
