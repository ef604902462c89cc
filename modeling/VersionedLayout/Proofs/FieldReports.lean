import VersionedLayout.Proofs.Positions
import VersionedLayout.Proofs.WellFormed
set_option autoImplicit false

/-!
# Reports on the types and defaults of fields

What is reported of a field is said here as a relation between the field and lists of diagnostics,
by conditions on the field alone. A type without a full name is reported, and nothing else is then
said of the field. Otherwise the reports come in four groups: on the width of a bit-field, on a
tuple without members, on the scalars without a literal, and on the scalars out of bounds. The
relation fits exactly one list for every field, and the check makes these lists for all fields of a
schema, one after another, whatever the ranges around them: the fields of a struct are gone through
in the depth-first order of their positions.

## Main definitions

* `VersionedLayout.Field.HasWidthFault` — what is wrong with the width of a bit-field.
* `VersionedLayout.Field.ChecksAgainst` — the numeric type that the scalars of a default must fit.
* `VersionedLayout.FieldReports` — the reports that are due for a field.
* `VersionedLayout.TypeReports` — the reports that are due for the fields of a struct.

## Main results

* `VersionedLayout.fieldReports_iff`, `VersionedLayout.typeReports_iff` — the reports that are due
  are those of the check.
* `VersionedLayout.Check.fieldTypes_reports` — the reports on a schema.
-/

namespace VersionedLayout

/-! ## The conditions -/

namespace Field

/-- The scalars of the default of a field, in order. -/
def scalars (f : Field) : List Value :=
  f.default.elim [] DefaultValue.values

/-- What is wrong with the width of a bit-field. A type is asked only if its primitive kind is
known, first whether it holds integers and then how many bits it has. -/
inductive HasWidthFault (f : Field) : BitWidthFault → Prop
  /-- There is no bit. -/
  | zero : f.bits = some 0 → f.HasWidthFault .zero
  /-- The values of the kind are no integers. -/
  | notIntegral {b : Nat} {n : NumericType} {k : PrimitiveKind} : f.bits = some b → b ≠ 0 →
    f.type = .numeric n → n.kind? = some k → k.isIntegral = false → f.HasWidthFault .notIntegral
  /-- The integers of the kind have fewer bits. -/
  | tooWide {b : Nat} {n : NumericType} {k : PrimitiveKind} : f.bits = some b → b ≠ 0 →
    f.type = .numeric n → n.kind? = some k → k.isIntegral = true → k.width < b →
    f.HasWidthFault (.tooWide b k.width)

/-- The numeric type that the scalars of the default of a field must fit. -/
inductive ChecksAgainst (f : Field) : NumericType → Prop
  /-- A numeric field has its own type. -/
  | own {n : NumericType} : f.type = .numeric n → f.ChecksAgainst n
  /-- The members of a tuple must fit the elements of an array, if these are numeric. -/
  | element {t : TypeDescriptor} {vs : List Value} {n : NumericType} : f.type = .plain t →
    f.default = some (.aggregate vs) → t.element = some n → f.ChecksAgainst n

end Field

/-- The four groups of reports on a field whose type has a full name. -/
structure ReportGroups (path : FieldPath) (f : Field)
    (widths empties nonFinites outside : List Diagnostic) : Prop where
  /-- There is one report on the width if anything is wrong with it. -/
  widths_eq : (∃ fault, f.HasWidthFault fault ∧ widths = [.invalidBitWidth path fault]) ∨
    (∀ fault, ¬ f.HasWidthFault fault) ∧ widths = []
  /-- There is one report on a tuple without members. -/
  empties_eq : empties = if f.default = some (.aggregate []) then [.emptyAggregate path] else []
  /-- There is one report for each scalar that is infinite or a NaN, in their order. -/
  nonFinites_eq : nonFinites =
    (f.scalars.filter fun v => v.isFinite = false).map (.nonFiniteDefault path)
  /-- There is one report for each scalar that has a literal, is no expression and does not lie
  within the bounds, in their order. -/
  outside_eq : ∀ n, f.ChecksAgainst n → outside =
    (f.scalars.filter fun v => v.isExpr = false ∧ v.isFinite = true ∧ n.admits v = false).map
      fun v => .defaultOutOfBounds path v n.base.qualifiedName n.bounds
  /-- Without a type to fit, no scalar is out of bounds. -/
  outside_eq_nil : (∀ n, ¬ f.ChecksAgainst n) → outside = []

/-- The reports that are due for a field of the struct with the given qualified name. -/
inductive FieldReports (structName : String) (f : Field) : List Diagnostic → Prop
  /-- A type without a full name is reported alone. -/
  | unnamed {e : SchemaError} : f.type.fullName = .error e →
    FieldReports structName f [.arityMismatch ⟨structName, f.name⟩ e]
  /-- Otherwise the four groups are reported in their order. -/
  | named {name : String} {widths empties nonFinites outside : List Diagnostic} :
    f.type.fullName = .ok name →
    ReportGroups ⟨structName, f.name⟩ f widths empties nonFinites outside →
    FieldReports structName f (widths ++ empties ++ nonFinites ++ outside)

/-- The fields of a struct at all positions, and the reports on each of them. -/
structure TypeReportParts (d : StructDecl) (placed : List (List Nat × Field))
    (reports : List (List Diagnostic)) : Prop where
  /-- The positions increase: depth first, and the fields of a block before those behind it. -/
  positions_increase : placed.Pairwise fun p q => Entry.Precedes p.1 q.1
  /-- The fields are listed wherever they stand. -/
  mem_placed : ∀ q, q ∈ placed ↔ Entry.entryAt? q.1 d.entries = some (.field q.2)
  /-- Each of them is reported on for what is due for it. -/
  reports_due : List.Forall₂ (fun q found => FieldReports d.qualifiedName q.2 found) placed reports

/-- The reports that are due for the types and defaults of a struct: those for one field after
another. -/
def TypeReports (d : StructDecl) (found : List Diagnostic) : Prop :=
  ∃ placed reports, TypeReportParts d placed reports ∧ found = reports.flatten

/-! ## The reports of the check -/

section

variable {path : FieldPath} {f : Field}

/-- What is wrong with the width is what the check finds. -/
lemma hasWidthFault_iff {fault : BitWidthFault} :
    f.HasWidthFault fault ↔
      (f.bits.bind fun bits =>
        Check.bitWidthFault? bits (f.type.numeric?.bind NumericType.kind?)) = some fault := by
  rw [Option.bind_eq_some_iff]
  simp only [Check.bitWidthFault?_eq_some_iff, Check.numericKind_eq_some_iff]
  constructor
  · intro h
    cases h with
    | zero hb => exact ⟨0, hb, .inl ⟨rfl, rfl⟩⟩
    | notIntegral hb hne ht hk hi =>
      exact ⟨_, hb, .inr ⟨hne, _, ⟨_, ht, hk⟩, .inl ⟨hi, rfl⟩⟩⟩
    | tooWide hb hne ht hk hi hw =>
      exact ⟨_, hb, .inr ⟨hne, _, ⟨_, ht, hk⟩, .inr ⟨hi, hw, rfl⟩⟩⟩
  · rintro ⟨b, hb, ⟨rfl, rfl⟩ | ⟨hne, k, ⟨n, ht, hk⟩, ⟨hi, rfl⟩ | ⟨hi, hw, rfl⟩⟩⟩
    · exact .zero hb
    · exact .notIntegral hb hne ht hk hi
    · exact .tooWide hb hne ht hk hi hw

/-- The type to fit is the one that the check chooses. -/
lemma checksAgainst_iff {n : NumericType} :
    f.ChecksAgainst n ↔ Check.defaultType? f = some n := by
  rw [Check.defaultType?_eq_some_iff]
  constructor
  · intro h
    cases h with
    | own ht => exact .inl ht
    | element ht hd hn => exact .inr ⟨_, _, ht, hd, hn⟩
  · rintro (ht | ⟨t, vs, ht, hd, hn⟩)
    · exact .own ht
    · exact .element ht hd hn

/-- The reports of the check on the scalars out of bounds. -/
def Check.outsideBounds (path : FieldPath) (f : Field) : List Diagnostic :=
  (Check.defaultType? f).elim [] fun n =>
    (f.scalars.filter (Check.isOutOfBounds n)).map fun v =>
      .defaultOutOfBounds path v n.base.qualifiedName n.bounds

/-- The reports on a default, in three groups. -/
lemma defaultValue_eq : Check.defaultValue path f =
    (if f.default = some (.aggregate []) then [.emptyAggregate path] else []) ++
      (f.scalars.filter fun v => !v.isFinite).map (.nonFiniteDefault path) ++
      Check.outsideBounds path f := by
  have hscalars : (f.default.map DefaultValue.values).getD [] = f.scalars := by
    rw [Field.scalars]
    cases f.default <;> rfl
  rw [Check.defaultValue, hscalars, Check.outsideBounds]
  cases Check.defaultType? f <;> rfl

/-- The reports on the width are those of the check. -/
lemma widths_eq_iff {widths : List Diagnostic} :
    ((∃ fault, f.HasWidthFault fault ∧ widths = [.invalidBitWidth path fault]) ∨
      (∀ fault, ¬ f.HasWidthFault fault) ∧ widths = []) ↔ widths = Check.bitWidth path f := by
  simp only [hasWidthFault_iff, Check.bitWidth]
  cases f.bits.bind fun bits =>
      Check.bitWidthFault? bits (f.type.numeric?.bind NumericType.kind?) with
  | none => simp
  | some fault => simp

/-- The reports on the bounds are those of the check. -/
lemma outside_eq_iff {outside : List Diagnostic} :
    ((∀ n, f.ChecksAgainst n → outside =
        (f.scalars.filter fun v => v.isExpr = false ∧ v.isFinite = true ∧ n.admits v = false).map
          fun v => .defaultOutOfBounds path v n.base.qualifiedName n.bounds) ∧
      ((∀ n, ¬ f.ChecksAgainst n) → outside = [])) ↔
      outside = Check.outsideBounds path f := by
  have hbounds : ∀ n : NumericType,
      (fun v => decide (v.isExpr = false ∧ v.isFinite = true ∧ n.admits v = false)) =
        Check.isOutOfBounds n := by
    intro n
    funext v
    rw [Check.isOutOfBounds]
    cases v.isExpr <;> cases v.isFinite <;> cases n.admits v <;> rfl
  simp only [checksAgainst_iff, hbounds, Check.outsideBounds]
  cases Check.defaultType? f with
  | none => simp
  | some n => simp

/-- The four groups of reports are those of the check. -/
lemma reportGroups_iff {widths empties nonFinites outside : List Diagnostic} :
    ReportGroups path f widths empties nonFinites outside ↔
      widths = Check.bitWidth path f ∧
      empties = (if f.default = some (.aggregate []) then [.emptyAggregate path] else []) ∧
      nonFinites = (f.scalars.filter fun v => !v.isFinite).map (.nonFiniteDefault path) ∧
      outside = Check.outsideBounds path f := by
  have hfinite : (fun v : Value => decide (v.isFinite = false)) = fun v => !v.isFinite := by
    funext v
    cases v.isFinite <;> rfl
  rw [← widths_eq_iff, ← outside_eq_iff, ← hfinite]
  constructor
  · intro h
    exact ⟨h.widths_eq, h.empties_eq, h.nonFinites_eq, h.outside_eq, h.outside_eq_nil⟩
  · rintro ⟨hwidths, hempties, hnonFinites, houtside, hnil⟩
    exact ⟨hwidths, hempties, hnonFinites, houtside, hnil⟩

end

/-- **The reports that are due for a field** are those that the check makes, and no other list. -/
theorem fieldReports_iff {structName : String} {f : Field} {found : List Diagnostic} :
    FieldReports structName f found ↔ found = Check.fieldType structName f := by
  constructor
  · intro h
    cases h with
    | unnamed he => rw [Check.fieldType, he]
    | named hname hgroups =>
      obtain ⟨rfl, rfl, rfl, rfl⟩ := reportGroups_iff.1 hgroups
      rw [Check.fieldType, hname, defaultValue_eq, List.append_assoc, List.append_assoc,
        List.append_assoc]
  · rintro rfl
    rw [Check.fieldType]
    cases hname : f.type.fullName with
    | error e => exact .unnamed hname
    | ok name =>
      dsimp only
      rw [defaultValue_eq, ← List.append_assoc, ← List.append_assoc]
      exact .named hname (reportGroups_iff.2 ⟨rfl, rfl, rfl, rfl⟩)

/-- **The reports that are due for a struct** are those that the check makes on all its fields.

**Proof sketch.** The fields are listed with their positions in one way only, which is the
enumeration of the fields, and each of them has one list of reports. -/
theorem typeReports_iff {d : StructDecl} {found : List Diagnostic} :
    TypeReports d found ↔
      found = (Entry.allFields d.entries).flatMap (Check.fieldType d.qualifiedName) := by
  have hreports : ∀ (placed : List (List Nat × Field)) (reports : List (List Diagnostic)),
      List.Forall₂ (fun q found => FieldReports d.qualifiedName q.2 found) placed reports ↔
        reports = placed.map fun q => Check.fieldType d.qualifiedName q.2 := by
    intro placed reports
    simp only [fieldReports_iff, @eq_comm _ _ (Check.fieldType _ _), ← List.forall₂_map_left_iff,
      List.forall₂_eq_eq_eq]
    exact eq_comm
  rw [← Entry.map_snd_placedFields, List.flatMap_map]
  constructor
  · rintro ⟨placed, reports, hparts, rfl⟩
    have hplaced : placed = Entry.placedFields d.entries :=
      Entry.eq_of_precedes hparts.positions_increase (Entry.pairwise_placedFields d.entries)
        fun q => by rw [hparts.mem_placed, Entry.mem_placedFields]
    rw [(hreports placed reports).1 hparts.reports_due, hplaced, List.flatMap_def]
  · rintro rfl
    refine ⟨Entry.placedFields d.entries, _, ⟨Entry.pairwise_placedFields d.entries,
      fun q => Entry.mem_placedFields, (hreports _ _).2 rfl⟩, ?_⟩
    rw [List.flatMap_def]

/-! ## The reports on a schema -/

namespace Check

/-- The scalars that are reported for having no literal are infinite or NaNs, and those that are
reported for the bounds are neither. -/
lemma isFinite_of_mem_fieldType {structName : String} {f : Field} {r : Diagnostic}
    (h : r ∈ fieldType structName f) :
    (∀ path v, r = .nonFiniteDefault path v → v.isFinite = false) ∧
      ∀ path v typeName bounds, r = .defaultOutOfBounds path v typeName bounds →
        v.isFinite = true := by
  generalize hfound : fieldType structName f = found at h
  cases fieldReports_iff.2 hfound.symm with
  | unnamed he =>
    rw [List.mem_singleton.1 h]
    exact ⟨nofun, nofun⟩
  | named hname hgroups =>
    simp only [List.mem_append] at h
    rcases h with ((hwidth | hempty) | hnonFinite) | houtside
    · rcases hgroups.widths_eq with ⟨fault, -, rfl⟩ | ⟨-, rfl⟩
      · rw [List.mem_singleton.1 hwidth]
        exact ⟨nofun, nofun⟩
      · cases hwidth
    · rw [hgroups.empties_eq] at hempty
      split at hempty
      · rw [List.mem_singleton.1 hempty]
        exact ⟨nofun, nofun⟩
      · cases hempty
    · rw [hgroups.nonFinites_eq] at hnonFinite
      obtain ⟨v, hv, rfl⟩ := List.mem_map.1 hnonFinite
      refine ⟨?_, nofun⟩
      rintro _ _ ⟨⟩
      simpa using (List.mem_filter.1 hv).2
    · by_cases hn : ∃ n, f.ChecksAgainst n
      · obtain ⟨n, hn⟩ := hn
        rw [hgroups.outside_eq n hn] at houtside
        obtain ⟨v, hv, rfl⟩ := List.mem_map.1 houtside
        refine ⟨nofun, ?_⟩
        rintro _ _ _ _ ⟨⟩
        exact (of_decide_eq_true (List.mem_filter.1 hv).2).2.1
      · rw [hgroups.outside_eq_nil (not_exists.1 hn)] at houtside
        cases houtside

/-- **The reports on types and defaults.** The structs are reported on in their order, and of each
of them all fields, in the depth-first order of their positions and whatever the ranges around them,
with the reports that are due for the field. The note on a type without a full name is the text of
its error. No scalar that is reported for having no literal is reported for the bounds.

**Proof sketch.** The conditions of the relation are those that the check evaluates, and they leave
one list for each field. The fields have one enumeration along their positions, the one that the
check goes through. Reports for the bounds are made of scalars with a literal only. -/
theorem fieldTypes_reports (ds : List StructDecl) :
    (∀ structName f found,
      FieldReports structName f found ↔ found = fieldType structName f) ∧
    (fieldTypes ds = ds.flatMap fun d =>
      (Entry.guardedFields d.entries).flatMap fun p => fieldType d.qualifiedName p.2) ∧
    (∀ d found, TypeReports d found ↔
      found = (Entry.guardedFields d.entries).flatMap fun p => fieldType d.qualifiedName p.2) ∧
    (∀ path e, (Diagnostic.arityMismatch path e).notes = [e.message]) ∧
    ∀ path path' v typeName bounds, .nonFiniteDefault path v ∈ fieldTypes ds →
      .defaultOutOfBounds path' v typeName bounds ∉ fieldTypes ds := by
  have hfinite : ∀ r ∈ fieldTypes ds, (∀ path v, r = .nonFiniteDefault path v →
      v.isFinite = false) ∧ ∀ path v typeName bounds,
        r = .defaultOutOfBounds path v typeName bounds → v.isFinite = true := by
    intro r hr
    obtain ⟨d, -, hd⟩ := List.mem_flatMap.1 hr
    obtain ⟨f, -, hf⟩ := List.mem_flatMap.1 hd
    exact isFinite_of_mem_fieldType hf
  have hfields : ∀ d : StructDecl,
      (Entry.allFields d.entries).flatMap (fieldType d.qualifiedName) =
        (Entry.guardedFields d.entries).flatMap fun p => fieldType d.qualifiedName p.2 := by
    intro d
    rw [Entry.allFields, List.flatMap_map]
  refine ⟨fun _ _ _ => fieldReports_iff, ?_, fun d _ => ?_, fun _ _ => rfl, ?_⟩
  · rw [fieldTypes]
    exact List.flatMap_congr fun d _ => hfields d
  · rw [typeReports_iff, hfields]
  · intro path path' v typeName bounds hnonFinite houtside
    have hfalse := (hfinite _ hnonFinite).1 path v rfl
    have htrue := (hfinite _ houtside).2 path' v typeName bounds rfl
    rw [hfalse] at htrue
    cases htrue

/-- A field in a block that is never active, with a bit-field without a bit and a tuple of four
scalars, two of which are reported. -/
theorem fieldTypes_reports_tuple :
    let bytes : TypeDescriptor :=
      { TypeDescriptor.arrayTemplate with
        args := ["std::uint8_t", "4"], element := some (.builtin .u8) }
    let nan : Value := .float ⟨0x7ff8000000000000⟩
    let f : Field := ⟨.plain bytes, "x", some 0,
      some (.aggregate [.int 300, .expr "N", nan, .int 7]), none⟩
    let d : StructDecl :=
      { name := "S", versions := some ⟨.tbc, .tbc⟩, entries := [.block ⟨.df, .df⟩ [.field f]] }
    let path : FieldPath := ⟨"S", "x"⟩
    fieldTypes [d] = [.invalidBitWidth path .zero, .nonFiniteDefault path nan,
        .defaultOutOfBounds path (.int 300) "std::uint8_t" (.integral 0 255)] ∧
      FieldReports "S" f (fieldTypes [d]) ∧
      .nonFiniteDefault path nan ∈ fieldTypes [d] ∧
      ∀ path' typeName bounds, .defaultOutOfBounds path' nan typeName bounds ∉ fieldTypes [d] := by
  intro bytes nan f d path
  obtain ⟨hdue, hfields, -, -, hdisjoint⟩ := fieldTypes_reports [d]
  have hnan : .nonFiniteDefault path nan ∈ fieldTypes [d] := by decide
  refine ⟨by decide, ?_, hnan, fun path' typeName bounds =>
    hdisjoint path path' nan typeName bounds hnan⟩
  rw [hdue, hfields]
  rfl

end Check

end VersionedLayout
