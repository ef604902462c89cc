import VersionedLayout.Check.Analysis
import VersionedLayout.Proofs.Flattening
set_option autoImplicit false

/-!
# Well-formed schemas

What a schema must satisfy is said here without lists of diagnostics: as conditions on the places
of a forest where fields and blocks stand, on the layouts of a struct, and on single fields. Every
check of the analysis finds nothing exactly when its group of conditions holds, and the analysis
as a whole accepts exactly the well-formed schemas.

## Main definitions

* `VersionedLayout.Field.WellTyped` — the conditions on the type, the width and the default of a
  field.
* `VersionedLayout.StructDecl.RangesInOrder` — the conditions on the ranges of a struct.
* `VersionedLayout.WellFormed` — the conditions on a schema, one group for each check.

## Main results

* `VersionedLayout.Check.structNames_eq_nil_iff`, `VersionedLayout.Check.versionRanges_eq_nil_iff`,
  `VersionedLayout.Check.fieldTypes_eq_nil_iff`, `VersionedLayout.Check.fieldNames_eq_nil_iff`,
  `VersionedLayout.Check.reachability_eq_nil_iff` — what each check decides.
* `VersionedLayout.analyze_eq_nil_iff_wellFormed` — the analysis decides well-formedness.
-/

namespace VersionedLayout

/-! ## The conditions -/

/-- The conditions on the type, the width and the default of a field. -/
structure Field.WellTyped (f : Field) : Prop where
  /-- The type has a full name. -/
  named : ∃ name, f.type.fullName = .ok name
  /-- A bit-field is not empty. -/
  bits_ne_zero : ∀ n, f.bits = some n → n ≠ 0
  /-- A bit-field of a known primitive kind holds integers and fits into the kind. -/
  bits_fit : ∀ n t k, f.bits = some n → f.type = .numeric t → t.kind? = some k →
    k.isIntegral = true ∧ n ≤ k.width
  /-- A tuple default has members. -/
  default_ne_empty : f.default ≠ some (.aggregate [])
  /-- No scalar of the default is infinite or a NaN. -/
  default_finite : ∀ d, f.default = some d → ∀ v ∈ d.values, v.isFinite = true
  /-- The scalars of the default of a numeric field, other than expressions, are values of its
  type. -/
  default_admitted : ∀ d n, f.default = some d → f.type = .numeric n →
    ∀ v ∈ d.values, v.isExpr = false → n.admits v = true
  /-- The members of a tuple default of a numeric array, other than expressions, are values of the
  type of its elements. -/
  members_admitted : ∀ vs t n, f.default = some (.aggregate vs) → f.type = .plain t →
    t.element = some n → ∀ v ∈ vs, v.isExpr = false → n.admits v = true

/-- The conditions on the range of a struct and on those of its blocks, at any depth. -/
structure StructDecl.RangesInOrder (d : StructDecl) : Prop where
  /-- The range of the struct has its ends in order. -/
  range_in_order : ∀ r, d.versions = some r → r.low.ordinal ≤ r.high.ordinal
  /-- The range of the struct contains a release. -/
  range_inhabited : ∀ r, d.versions = some r → ∃ v, v ≠ .any ∧ r.contains v = true
  /-- The ranges of the blocks have their ends in order. -/
  blocks_in_order : ∀ rs r inner, Entry.Stands (.block r inner) rs d.entries →
    r.low.ordinal ≤ r.high.ordinal
  /-- A struct with a block declares a range. -/
  range_declared : (∃ rs r inner, Entry.Stands (.block r inner) rs d.entries) → d.versions ≠ none

/-- A schema is well formed when the following five groups of conditions hold. -/
structure WellFormed (ds : List StructDecl) : Prop where
  /-- No two structs have the same qualified name. -/
  names_distinct : (ds.map StructDecl.qualifiedName).Nodup
  /-- The ranges of every struct and of its blocks are in order. -/
  ranges_in_order : ∀ d ∈ ds, d.RangesInOrder
  /-- Every field, at any depth and whatever its versions, is well typed. -/
  fields_wellTyped : ∀ d ∈ ds, ∀ rs f, Entry.Stands (.field f) rs d.entries → f.WellTyped
  /-- No two fields of one layout have the same name. -/
  fields_distinct : ∀ d ∈ ds, ∀ l ∈ d.layouts, (l.fields.map Field.name).Nodup
  /-- Every block, at any depth, is active for a release of its struct that reaches it. -/
  blocks_reachable : ∀ d ∈ ds, ∀ rs r inner, Entry.Stands (.block r inner) rs d.entries →
    ∃ v, v ≠ .any ∧ v.LiesWithin d.versions.toList ∧ v.LiesWithin rs ∧ r.contains v = true

namespace Check

/-! ## Names of structs -/

/-- The names from some struct on are found new when they differ from those before and from each
other.

**Proof sketch.** Induction on the structs. The name of the first one is looked up among the names
seen before; behind it, it is itself one of these. -/
lemma structNamesFrom_eq_nil_iff {seen : List (String × Nat)} {index : Nat}
    {ds : List StructDecl} :
    structNamesFrom seen index ds = [] ↔
      (∀ d ∈ ds, ∀ p ∈ seen, p.1 ≠ d.qualifiedName) ∧
        (ds.map StructDecl.qualifiedName).Nodup := by
  induction ds generalizing seen index with
  | nil => simp [structNamesFrom]
  | cons d ds ih =>
    rw [structNamesFrom]
    cases h : seen.find? fun p => p.1 == d.qualifiedName with
    | some p =>
      have hmem := List.mem_of_find?_eq_some h
      have hname : p.1 = d.qualifiedName := by simpa using List.find?_some h
      refine iff_of_false (List.cons_ne_nil _ _) ?_
      intro hnew
      exact hnew.1 d List.mem_cons_self p hmem hname
    | none =>
      have hnew : ∀ p ∈ seen, p.1 ≠ d.qualifiedName := by simpa using h
      simp only [List.nil_append, ih, List.forall_mem_cons, List.map_cons, List.nodup_cons,
        List.mem_map, not_exists, not_and, forall_and]
      constructor
      · rintro ⟨⟨hd, hseen⟩, hnodup⟩
        exact ⟨⟨hnew, hseen⟩, fun e he heq => hd e he heq.symm, hnodup⟩
      · rintro ⟨⟨-, hseen⟩, hd, hnodup⟩
        exact ⟨⟨fun e he heq => hd e he heq.symm, hseen⟩, hnodup⟩

/-- **The names of structs** are reported for nothing when they differ. -/
theorem structNames_eq_nil_iff {ds : List StructDecl} :
    structNames ds = [] ↔ (ds.map StructDecl.qualifiedName).Nodup := by
  simp [structNames, structNamesFrom_eq_nil_iff]

/-! ## Version ranges -/

/-- A range is not inverted when its ends are in order. -/
lemma isInverted_eq_false_iff {r : VersionRange} :
    r.isInverted = false ↔ r.low.ordinal ≤ r.high.ordinal := by
  simp [VersionRange.isInverted]

/-- A range has no releases when it contains none. -/
lemma versions_eq_nil_iff {r : VersionRange} :
    r.versions = [] ↔ ¬ ∃ v, v ≠ .any ∧ r.contains v = true := by
  simp [VersionRange.versions, List.filter_eq_nil_iff, Version.mem_all]

/-- The range of a struct is reported for nothing when its ends are in order and a release lies
between them, or when there is none and the struct is not versioned. -/
lemma structRange_eq_nil_iff {d : StructDecl} :
    structRange d = [] ↔
      (∀ r, d.versions = some r →
        r.low.ordinal ≤ r.high.ordinal ∧ ∃ v, v ≠ .any ∧ r.contains v = true) ∧
      (d.versions = none → d.isVersioned = false) := by
  rw [structRange]
  cases h : d.versions with
  | none => cases d.isVersioned <;> simp
  | some r =>
    simp only [Option.some.injEq, forall_eq', reduceCtorEq, false_imp_iff, and_true]
    cases hi : r.isInverted with
    | true =>
      rw [VersionRange.isInverted_iff] at hi
      refine iff_of_false (List.cons_ne_nil _ _) ?_
      intro hr
      omega
    | false =>
      rw [isInverted_eq_false_iff] at hi
      by_cases hv : r.versions = []
      · simp [hv, versions_eq_nil_iff.1 hv]
      · simp [hv, hi, not_not.1 (versions_eq_nil_iff.not.1 hv)]

/-- The ranges of blocks are reported for nothing when their ends are in order. -/
lemma blockRanges_eq_nil_iff {d : StructDecl} :
    blockRanges d = [] ↔ ∀ rs r inner, Entry.Stands (.block r inner) rs d.entries →
      r.low.ordinal ≤ r.high.ordinal := by
  rw [blockRanges, List.filterMap_eq_nil_iff]
  constructor
  · intro h rs r inner hs
    have hb := h ⟨r, inner⟩ (Entry.mem_allBlocks.2 ⟨rs, hs⟩)
    simpa [isInverted_eq_false_iff] using hb
  · intro h b hb
    obtain ⟨rs, hs⟩ := Entry.mem_allBlocks.1 hb
    simp [isInverted_eq_false_iff.2 (h rs _ _ hs)]

/-- **The ranges of a schema** are reported for nothing when those of every struct are in order. -/
theorem versionRanges_eq_nil_iff {ds : List StructDecl} :
    versionRanges ds = [] ↔ ∀ d ∈ ds, d.RangesInOrder := by
  rw [versionRanges, List.flatMap_eq_nil_iff]
  refine forall₂_congr fun d _ => ?_
  rw [List.append_eq_nil_iff, structRange_eq_nil_iff, blockRanges_eq_nil_iff]
  constructor
  · rintro ⟨⟨hrange, hnone⟩, hblocks⟩
    refine ⟨fun r hr => (hrange r hr).1, fun r hr => (hrange r hr).2, hblocks, ?_⟩
    intro hb hr
    obtain ⟨e, he, hbe⟩ := Entry.exists_stands_block_iff.1 hb
    have := (StructDecl.isVersioned_eq_false_iff.1 (hnone hr)).2 e he
    rw [hbe] at this
    cases this
  · intro h
    refine ⟨⟨fun r hr => ⟨h.range_in_order r hr, h.range_inhabited r hr⟩, ?_⟩, h.blocks_in_order⟩
    intro hr
    refine StructDecl.isVersioned_eq_false_iff.2 ⟨hr, fun e he => ?_⟩
    cases hbe : e.isBlock with
    | false => rfl
    | true => exact absurd hr (h.range_declared (Entry.exists_stands_block_iff.2 ⟨e, he, hbe⟩))

/-! ## Types and defaults of fields -/

/-- Nothing is wrong with a width that is not zero and suits the kind, if this is known. -/
lemma bitWidthFault?_eq_none_iff {bits : Nat} {kind : Option PrimitiveKind} :
    bitWidthFault? bits kind = none ↔
      bits ≠ 0 ∧ ∀ k, kind = some k → k.isIntegral = true ∧ bits ≤ k.width := by
  unfold bitWidthFault?
  by_cases hb : bits = 0
  · simp [hb]
  · cases kind with
    | none => simp [hb]
    | some k => cases hk : k.isIntegral <;> simp [hb, hk]

/-- What is wrong with a width is that it is zero, or else that the values of the kind are no
integers, or else that they have fewer bits. -/
lemma bitWidthFault?_eq_some_iff {bits : Nat} {kind : Option PrimitiveKind}
    {fault : BitWidthFault} :
    bitWidthFault? bits kind = some fault ↔
      bits = 0 ∧ fault = .zero ∨
      bits ≠ 0 ∧ ∃ k, kind = some k ∧
        (k.isIntegral = false ∧ fault = .notIntegral ∨
          k.isIntegral = true ∧ k.width < bits ∧ fault = .tooWide bits k.width) := by
  unfold bitWidthFault?
  by_cases hb : bits = 0
  · simp [hb, @eq_comm _ fault]
  · cases kind with
    | none => simp [hb]
    | some k => cases hk : k.isIntegral <;> simp [hb, hk, @eq_comm _ fault]

/-- The kind that a width is checked against is that of a numeric field. -/
lemma numericKind_eq_some_iff {t : FieldType} {k : PrimitiveKind} :
    t.numeric?.bind NumericType.kind? = some k ↔ ∃ n, t = .numeric n ∧ n.kind? = some k := by
  cases t <;> simp [FieldType.numeric?]

/-- The width of a field is reported for nothing when it is not zero and suits the kind of its type.
-/
lemma bitWidth_eq_nil_iff {path : FieldPath} {f : Field} :
    bitWidth path f = [] ↔
      (∀ n, f.bits = some n → n ≠ 0) ∧
      ∀ n t k, f.bits = some n → f.type = .numeric t → t.kind? = some k →
        k.isIntegral = true ∧ n ≤ k.width := by
  cases hb : f.bits with
  | none => simp [bitWidth, hb]
  | some n =>
    rw [bitWidth, hb, Option.bind_some, Option.toList_eq_nil_iff, Option.map_eq_none_iff,
      bitWidthFault?_eq_none_iff]
    constructor
    · rintro ⟨hne, hfit⟩
      refine ⟨fun m hm => ?_, fun m t k hm ht hk => ?_⟩
      · cases hm
        exact hne
      · cases hm
        exact hfit k (numericKind_eq_some_iff.2 ⟨t, ht, hk⟩)
    · rintro ⟨hne, hfit⟩
      refine ⟨hne n rfl, fun k hk => ?_⟩
      obtain ⟨t, ht, htk⟩ := numericKind_eq_some_iff.1 hk
      exact hfit n t k rfl ht htk

/-- The type that a default is checked against is that of a numeric field, or that of the elements
of an array whose default is a tuple. -/
lemma defaultType?_eq_some_iff {f : Field} {n : NumericType} :
    defaultType? f = some n ↔ f.type = .numeric n ∨
      ∃ t vs, f.type = .plain t ∧ f.default = some (.aggregate vs) ∧ t.element = some n := by
  rw [defaultType?]
  cases ht : f.type with
  | numeric m => simp [FieldType.numeric?]
  | plain t =>
    cases hd : f.default with
    | none => simp [FieldType.numeric?]
    | some d => cases d <;> simp [FieldType.numeric?, FieldType.descriptor]

/-- A scalar is out of bounds only if it is a number with a literal. -/
lemma isOutOfBounds_eq_false_iff {n : NumericType} {v : Value} :
    isOutOfBounds n v = false ↔ (v.isExpr = false → v.isFinite = true → n.admits v = true) := by
  rw [isOutOfBounds]
  cases v.isExpr <;> cases v.isFinite <;> simp

/-- Only what has a literal is checked against the bounds, so that the last condition may be asked
of every scalar. -/
lemma defaultValue_eq_nil_iff {path : FieldPath} {f : Field} :
    defaultValue path f = [] ↔
      f.default ≠ some (.aggregate []) ∧
      ∀ d, f.default = some d → (∀ v ∈ d.values, v.isFinite = true) ∧
        ∀ n, defaultType? f = some n → ∀ v ∈ d.values, v.isExpr = false → n.admits v = true := by
  rw [defaultValue, List.append_eq_nil_iff, List.append_eq_nil_iff, and_assoc]
  refine and_congr ?_ ?_
  · split <;> simp_all
  cases hd : f.default with
  | none => cases defaultType? f <;> simp
  | some d =>
    simp only [Option.map_some, Option.getD_some, List.map_eq_nil_iff, List.filter_eq_nil_iff,
      Option.some.injEq, forall_eq', Bool.not_eq_true', Bool.not_eq_false]
    refine and_congr_right fun hfinite => ?_
    cases hn : defaultType? f with
    | none => simp
    | some n =>
      simp only [List.map_eq_nil_iff, List.filter_eq_nil_iff, Option.some.injEq, forall_eq',
        Bool.not_eq_true, isOutOfBounds_eq_false_iff]
      exact forall₂_congr fun v hv => by simp [hfinite v hv]

/-- **A field is reported for nothing exactly when it is well typed.** -/
lemma fieldType_eq_nil_iff {structName : String} {f : Field} :
    fieldType structName f = [] ↔ f.WellTyped := by
  rw [fieldType]
  cases hname : f.type.fullName with
  | error e =>
    refine iff_of_false (List.cons_ne_nil _ _) ?_
    intro h
    obtain ⟨name, hok⟩ := h.named
    rw [hname] at hok
    cases hok
  | ok name =>
    dsimp only
    rw [List.append_eq_nil_iff, bitWidth_eq_nil_iff, defaultValue_eq_nil_iff]
    constructor
    · rintro ⟨⟨hne, hfit⟩, hempty, hdefault⟩
      refine ⟨⟨name, hname⟩, hne, hfit, hempty, fun d hd => (hdefault d hd).1, ?_, ?_⟩
      · intro d n hd hn
        exact (hdefault d hd).2 n (defaultType?_eq_some_iff.2 (.inl hn))
      · intro vs t n hd ht hn
        exact (hdefault _ hd).2 n (defaultType?_eq_some_iff.2 (.inr ⟨t, vs, ht, hd, hn⟩))
    · intro h
      refine ⟨⟨h.bits_ne_zero, h.bits_fit⟩, h.default_ne_empty, fun d hd => ?_⟩
      refine ⟨h.default_finite d hd, fun n hn => ?_⟩
      rcases defaultType?_eq_some_iff.1 hn with hn | ⟨t, vs, ht, hvs, hn⟩
      · exact h.default_admitted d n hd hn
      · cases hd.symm.trans hvs
        exact h.members_admitted vs t n hvs ht hn

/-- **The types and defaults of a schema** are reported for nothing when every field is well typed.
-/
theorem fieldTypes_eq_nil_iff {ds : List StructDecl} :
    fieldTypes ds = [] ↔
      ∀ d ∈ ds, ∀ rs f, Entry.Stands (.field f) rs d.entries → f.WellTyped := by
  rw [fieldTypes, List.flatMap_eq_nil_iff]
  refine forall₂_congr fun d _ => ?_
  simp only [List.flatMap_eq_nil_iff, fieldType_eq_nil_iff, Entry.mem_allFields]
  exact ⟨fun h rs f hs => h f ⟨rs, hs⟩, fun h f ⟨rs, hs⟩ => h rs f hs⟩

/-! ## Names of fields -/

/-- A fold that adds nothing for the items with a property, and something for the others, ends with
nothing when it starts with nothing and all items have the property. -/
lemma foldl_eq_nil_iff {α β : Type} {step : List β → α → List β} {p : α → Prop}
    (h : ∀ known a, step known a = [] ↔ known = [] ∧ p a) {known : List β} {l : List α} :
    l.foldl step known = [] ↔ known = [] ∧ ∀ a ∈ l, p a := by
  induction l generalizing known with
  | nil => simp
  | cons a l ih => rw [List.foldl_cons, ih, h, and_assoc, List.forall_mem_cons]

/-- No name is repeated when the names differ from those before and from each other. -/
lemma repeatsFrom_eq_nil_iff {seen ns : List String} :
    repeatsFrom seen ns = [] ↔ (∀ n ∈ ns, n ∉ seen) ∧ ns.Nodup := by
  induction ns generalizing seen with
  | nil => simp [repeatsFrom]
  | cons n ns ih =>
    rw [repeatsFrom]
    by_cases hn : n ∈ seen
    · simp [hn]
    · rw [if_neg (by simpa using hn), ih, List.nodup_cons, List.forall_mem_cons]
      simp only [List.mem_cons, not_or, forall_and]
      constructor
      · rintro ⟨⟨hne, hseen⟩, hnodup⟩
        exact ⟨⟨hn, hseen⟩, fun hmem => hne n hmem rfl, hnodup⟩
      · rintro ⟨⟨-, hseen⟩, hmem, hnodup⟩
        exact ⟨⟨fun m hm heq => hmem (heq ▸ hm), hseen⟩, hnodup⟩

/-- A repetition is recorded. -/
lemma addRepetition_ne_nil (v : Option Version) (name : String) (rs : List Repetition) :
    addRepetition v name rs ≠ [] := by
  cases rs with
  | nil => exact List.cons_ne_nil _ _
  | cons r rs =>
    rw [addRepetition]
    split
    · exact List.cons_ne_nil _ _
    · exact List.cons_ne_nil _ _

/-- No repetition is known when none was known before and the names of the layout differ. -/
lemma addLayout_eq_nil_iff (known : List Repetition) (l : Layout) :
    addLayout known l = [] ↔ known = [] ∧ (l.fields.map Field.name).Nodup := by
  have hadd : ∀ rs n, addRepetition l.version n rs = [] ↔ rs = [] ∧ False := by
    intro rs n
    simp [addRepetition_ne_nil]
  rw [addLayout, foldl_eq_nil_iff hadd, ← List.eq_nil_iff_forall_not_mem, repeatsFrom_eq_nil_iff]
  simp

/-- **The names of fields** are reported for nothing when they differ within every layout. -/
theorem fieldNames_eq_nil_iff {ds : List StructDecl} :
    fieldNames ds = [] ↔ ∀ d ∈ ds, ∀ l ∈ d.layouts, (l.fields.map Field.name).Nodup := by
  rw [fieldNames, List.flatMap_eq_nil_iff]
  refine forall₂_congr fun d _ => ?_
  rw [List.map_eq_nil_iff, repetitions, foldl_eq_nil_iff addLayout_eq_nil_iff]
  simp

/-! ## Reachability of blocks -/

/-- **Every block is active for a version that reaches it** exactly when none is reported.

**Proof sketch.** Induction on the forest, for any versions that reach it. Those that reach what a
block holds are the ones in its range. When there are none, the block itself is not active, and
otherwise the ranges around an inner block gain that of the block in front. -/
lemma unreachable_eq_nil_iff {structName : String} {reaching : List Version} {es : List Entry} :
    unreachable structName reaching es = [] ↔
      ∀ rs r inner, Entry.Stands (.block r inner) rs es →
        ∃ v ∈ reaching, v.LiesWithin rs ∧ r.contains v = true := by
  induction es using Entry.forest_induction generalizing reaching with
  | nil => simp [unreachable]
  | field f es ih => simp [unreachable, unreachableIn, ih]
  | block r inner es ihInner ih =>
    rw [unreachable, unreachableIn, List.append_eq_nil_iff, ih]
    by_cases hr : reaching.filter r.contains = []
    · rw [if_pos (by rw [hr]; rfl)]
      refine iff_of_false (fun h => List.cons_ne_nil _ _ h.1) ?_
      intro h
      obtain ⟨v, hv, -, hrv⟩ := h [] r inner (.here List.mem_cons_self)
      exact List.filter_eq_nil_iff.1 hr v hv hrv
    · rw [if_neg (by simpa using hr), ihInner]
      constructor
      · rintro ⟨hinner, hrest⟩ rs r' inner' hs
        rcases Entry.stands_block_cons.1 hs with ⟨rfl, heq⟩ | ⟨rest, rfl, hin⟩ | hes
        · -- the block in front, which is active for any of the versions that reach inside
          cases heq
          obtain ⟨v, hv⟩ := List.exists_mem_of_ne_nil _ hr
          rw [List.mem_filter] at hv
          exact ⟨v, hv.1, Version.liesWithin_nil v, hv.2⟩
        · obtain ⟨v, hv, hrest, hrv⟩ := hinner rest r' inner' hin
          rw [List.mem_filter] at hv
          exact ⟨v, hv.1, Version.liesWithin_cons.2 ⟨hv.2, hrest⟩, hrv⟩
        · exact hrest rs r' inner' hes
      · intro h
        refine ⟨fun rest r' inner' hs => ?_, fun rs r' inner' hs => ?_⟩
        · obtain ⟨v, hv, hrest, hrv⟩ := h (r :: rest) r' inner' (.inside List.mem_cons_self hs)
          rw [Version.liesWithin_cons] at hrest
          exact ⟨v, List.mem_filter.2 ⟨hv, hrest.1⟩, hrest.2, hrv⟩
        · exact h rs r' inner' (Entry.stands_block_cons.2 (.inr (.inr hs)))

/-- **The blocks of a schema** are reported for nothing when each of them is active for a release
that reaches it. -/
theorem reachability_eq_nil_iff {ds : List StructDecl} :
    reachability ds = [] ↔
      ∀ d ∈ ds, ∀ rs r inner, Entry.Stands (.block r inner) rs d.entries →
        ∃ v, v ≠ .any ∧ v.LiesWithin d.versions.toList ∧ v.LiesWithin rs ∧ r.contains v = true := by
  rw [reachability, List.flatMap_eq_nil_iff]
  refine forall₂_congr fun d _ => ?_
  simp only [unreachable_eq_nil_iff, StructDecl.mem_enabledVersions, and_assoc]

end Check

/-! ## The analysis -/

/-- The analysis finds nothing when no check does. -/
lemma analyze_eq_nil_iff {ds : List StructDecl} :
    analyze ds = [] ↔ ∀ check ∈ Check.all, check ds = [] := by
  rw [analyze]
  cases h : (Check.all.map fun check => check ds).find? fun found => !found.isEmpty with
  | none => simpa using h
  | some found =>
    have hmem := List.mem_of_find?_eq_some h
    have hne : found ≠ [] := by simpa using List.find?_some h
    obtain ⟨check, hcheck, rfl⟩ := List.mem_map.1 hmem
    exact iff_of_false hne fun hall => hne (hall check hcheck)

/-- The fields of an accepted schema are well typed, wherever they stand. -/
lemma wellTyped_of_analyze {ds : List StructDecl} (h : analyze ds = []) {d : StructDecl}
    (hd : d ∈ ds) {rs : List VersionRange} {f : Field} (hf : Entry.Stands (.field f) rs d.entries) :
    f.WellTyped := by
  have hfields : Check.fieldTypes ds = [] := by
    refine analyze_eq_nil_iff.1 h Check.fieldTypes ?_
    simp [Check.all]
  exact Check.fieldTypes_eq_nil_iff.1 hfields d hd rs f hf

/-- **The analysis decides well-formedness**: it finds nothing in exactly the well-formed
schemas. -/
theorem analyze_eq_nil_iff_wellFormed (ds : List StructDecl) :
    analyze ds = [] ↔ WellFormed ds := by
  rw [analyze_eq_nil_iff]
  simp only [Check.all, List.forall_mem_cons, Check.structNames_eq_nil_iff,
    Check.versionRanges_eq_nil_iff, Check.fieldTypes_eq_nil_iff, Check.fieldNames_eq_nil_iff,
    Check.reachability_eq_nil_iff]
  constructor
  · rintro ⟨hnames, hranges, htypes, hfields, hblocks, -⟩
    exact ⟨hnames, hranges, htypes, hfields, hblocks⟩
  · intro h
    exact ⟨h.names_distinct, h.ranges_in_order, h.fields_wellTyped, h.fields_distinct,
      h.blocks_reachable, List.forall_mem_nil _⟩

end VersionedLayout
