import VersionedLayout.Proofs.Faults
import VersionedLayout.Proofs.WellFormed
set_option autoImplicit false

/-!
# Accepted schemas are written out

The analysis looks at every field of a schema, also at those that no version has. The emitters look
only at the fields of layouts, one after another, and stop at the first fault. This module relates
the two: a field has a fault exactly when one of two kinds of reports is made of it, for a type
without a full name or for a default without a literal, and a schema is written out exactly when no
field of a layout has a fault.

## Main results

* `VersionedLayout.Check.exists_fault_report_iff` — the reports that tell of a fault.
* `VersionedLayout.Header.exists_generate_eq_ok_iff`,
  `VersionedLayout.Dump.exists_generate_eq_ok_iff` — which schemas are written out.
* `VersionedLayout.generate_of_analyze` — accepted schemas are written out by both emitters, and
  neither succeeds once a report tells of a fault in a layout.
-/

namespace VersionedLayout

/-! ## Reports that tell of a fault -/

namespace Check

/-- The reports on the width of a bit-field are all of one kind. -/
lemma code_of_mem_bitWidth {path : FieldPath} {f : Field} {r : Diagnostic}
    (h : r ∈ bitWidth path f) : r.code = .invalidBitWidth := by
  rw [bitWidth, Option.mem_toList, Option.map_eq_some_iff] at h
  obtain ⟨fault, -, rfl⟩ := h
  rfl

/-- The reports on a default are of three kinds, none of which tells of its type. -/
lemma code_of_mem_defaultValue {path : FieldPath} {f : Field} {r : Diagnostic}
    (h : r ∈ defaultValue path f) :
    r.code ∈ [.emptyAggregate, .nonFiniteDefault, .defaultOutOfBounds] := by
  rw [defaultValue, List.mem_append, List.mem_append] at h
  rcases h with (hempty | hfinite) | hbounds
  · split at hempty
    · simp [List.mem_singleton.1 hempty, Diagnostic.code]
    · cases hempty
  · obtain ⟨v, -, rfl⟩ := List.mem_map.1 hfinite
    simp [Diagnostic.code]
  · split at hbounds
    · obtain ⟨v, -, rfl⟩ := List.mem_map.1 hbounds
      simp [Diagnostic.code]
    · cases hbounds

/-- A value without a literal is reported only if there is such a value. -/
lemma isFinite_eq_false_of_mem_defaultValue {path : FieldPath} {f : Field} {r : Diagnostic}
    (h : r ∈ defaultValue path f) (hcode : r.code = .nonFiniteDefault) :
    ∃ d, f.default = some d ∧ d.isFinite = false := by
  rw [defaultValue, List.mem_append, List.mem_append] at h
  rcases h with (hempty | hfinite) | hbounds
  · split at hempty
    · rw [List.mem_singleton.1 hempty] at hcode
      cases hcode
    · cases hempty
  · obtain ⟨v, hv, rfl⟩ := List.mem_map.1 hfinite
    rw [List.mem_filter] at hv
    cases hd : f.default with
    | none =>
      rw [hd] at hv
      cases hv.1
    | some d =>
      rw [hd] at hv
      refine ⟨d, rfl, ?_⟩
      rw [DefaultValue.isFinite, List.all_eq_false]
      exact ⟨v, hv.1, by simpa using hv.2⟩
  · split at hbounds
    · obtain ⟨v, -, rfl⟩ := List.mem_map.1 hbounds
      cases hcode
    · cases hbounds

/-- A default without a literal is reported. -/
lemma exists_mem_defaultValue (path : FieldPath) {f : Field} {d : DefaultValue}
    (hd : f.default = some d) (h : d.isFinite = false) :
    ∃ r ∈ defaultValue path f, r.code = .nonFiniteDefault := by
  rw [DefaultValue.isFinite, List.all_eq_false] at h
  obtain ⟨v, hv, hfinite⟩ := h
  refine ⟨.nonFiniteDefault path v, ?_, rfl⟩
  rw [defaultValue, List.mem_append, List.mem_append, hd]
  refine .inl (.inr (List.mem_map_of_mem (List.mem_filter.2 ⟨hv, ?_⟩)))
  simpa using hfinite

/-- **The reports that tell of a fault** are those for a type without a full name and for a default
without a literal: one of them is made of a field exactly when the field has a fault. -/
theorem exists_fault_report_iff (structName : String) {f : Field} :
    (∃ r ∈ fieldType structName f, r.code = .arityMismatch ∨ r.code = .nonFiniteDefault) ↔
      f.fault? ≠ none := by
  rw [fieldType, Field.fault?_ne_none_iff]
  cases hname : f.type.fullName with
  | error e => exact iff_of_true ⟨_, List.mem_singleton_self _, .inl rfl⟩ (.inl ⟨e, rfl⟩)
  | ok name =>
    constructor
    · rintro ⟨r, hr, hcode⟩
      rcases List.mem_append.1 hr with hbits | hvalue
      · rw [code_of_mem_bitWidth hbits] at hcode
        rcases hcode with hcode | hcode <;> cases hcode
      · have hne : r.code ≠ .arityMismatch := by
          intro heq
          simpa [heq] using code_of_mem_defaultValue hvalue
        exact .inr (isFinite_eq_false_of_mem_defaultValue hvalue (hcode.resolve_left hne))
    · rintro (⟨e, he⟩ | ⟨d, hd, hfinite⟩)
      · cases he
      · obtain ⟨r, hr, hcode⟩ := exists_mem_defaultValue ⟨structName, f.name⟩ hd hfinite
        exact ⟨r, List.mem_append_right _ hr, .inr hcode⟩

/-- The reports on single fields are among those on the schema, wherever the field stands. -/
lemma mem_fieldTypes {ds : List StructDecl} {d : StructDecl} {l : Layout} {f : Field}
    {r : Diagnostic} (hd : d ∈ ds) (hl : l ∈ d.layouts) (hf : f ∈ l.fields)
    (hr : r ∈ fieldType d.qualifiedName f) : r ∈ fieldTypes ds :=
  List.mem_flatMap.2 ⟨d, hd, List.mem_flatMap.2
    ⟨f, StructDecl.mem_allFields_of_mem_layouts hl hf, hr⟩⟩

end Check

/-! ## Schemas that are written out -/

/-- The header is written when no struct has a fault. -/
theorem Header.exists_generate_eq_ok_iff {c : Config} {ds : List StructDecl} :
    (∃ text, generate c ds = .ok text) ↔ ∀ d ∈ ds, d.fault? = none := by
  rw [← failure?_eq_none_iff, failure?_generate]
  simp only [List.findSome?_eq_none_iff]
  constructor
  · intro h d hd
    obtain ⟨g, hg, hdg⟩ := mem_grouped.2 hd
    exact h g hg d hdg
  · intro h g hg d hdg
    exact h d (mem_grouped.1 ⟨g, hg, hdg⟩)

/-- The dump is written when no struct has a fault. -/
theorem Dump.exists_generate_eq_ok_iff {c : Config} {ds : List StructDecl} :
    (∃ text, generate c ds = .ok text) ↔ ∀ d ∈ ds, d.fault? = none := by
  rw [← failure?_eq_none_iff, failure?_generate, List.findSome?_eq_none_iff]

/-- A schema that passes the checks of its fields has no fault in a struct. -/
lemma fault?_eq_none_of_fieldTypes {ds : List StructDecl} (h : Check.fieldTypes ds = []) :
    ∀ d ∈ ds, d.fault? = none := by
  intro d hd
  rw [StructDecl.fault?_eq_none_iff]
  intro l hl f hf
  by_contra hfault
  obtain ⟨r, hr, -⟩ := (Check.exists_fault_report_iff d.qualifiedName).2 hfault
  have hmem := Check.mem_fieldTypes hd hl hf hr
  rw [h] at hmem
  cases hmem

/-- **Accepted schemas are written out**, with every configuration, and by both emitters. A report
on a field for its type or for a default without a literal, where the field belongs to a layout,
means that neither emitter succeeds.

**Proof sketch.** Both emitters succeed exactly when no field of a layout has a fault. Such a field
stands somewhere in its struct, where the analysis looks at it too, and a report of one of the two
kinds is made of it exactly when it has a fault. -/
theorem generate_of_analyze (c : Config) (ds : List StructDecl) :
    (analyze ds = [] →
      (∃ text, Header.generate c ds = .ok text) ∧ ∃ text, Dump.generate c ds = .ok text) ∧
    (∀ d ∈ ds, ∀ l ∈ d.layouts, ∀ f ∈ l.fields, ∀ r ∈ Check.fieldType d.qualifiedName f,
      r.code = .arityMismatch ∨ r.code = .nonFiniteDefault →
        r ∈ Check.fieldTypes ds ∧
        (∃ e, Header.generate c ds = .error e) ∧ ∃ e, Dump.generate c ds = .error e) := by
  refine ⟨fun h => ?_, fun d hd l hl f hf r hr hcode => ?_⟩
  · have hfields : Check.fieldTypes ds = [] := by
      refine analyze_eq_nil_iff.1 h Check.fieldTypes ?_
      simp [Check.all]
    have hfault := fault?_eq_none_of_fieldTypes hfields
    exact ⟨Header.exists_generate_eq_ok_iff.2 hfault, Dump.exists_generate_eq_ok_iff.2 hfault⟩
  · have hfault : ¬ ∀ d ∈ ds, d.fault? = none := by
      intro hnone
      have hf' := StructDecl.fault?_eq_none_iff.1 (hnone d hd) l hl f hf
      exact (Check.exists_fault_report_iff d.qualifiedName).1 ⟨r, hr, hcode⟩ hf'
    refine ⟨Check.mem_fieldTypes hd hl hf hr, ?_, ?_⟩
    · rw [exists_error_iff, Header.exists_generate_eq_ok_iff]
      exact hfault
    · rw [exists_error_iff, Dump.exists_generate_eq_ok_iff]
      exact hfault

/-- An accepted struct with a block inside a block and with bit-fields that have defaults, and a
rejected one with a template of two parameters that has no arguments, in a block for a single
release. -/
theorem generate_of_analyze_nested :
    let bits (name : String) : Entry :=
      .field ⟨.numeric (.builtin .u8), name, some 3, some (.scalar (.int 5)), none⟩
    let pair : Field := ⟨.plain ((TypeDescriptor.named "Pair").withArity 2), "p", none, none, none⟩
    let accepted : StructDecl :=
      { name := "A", versions := some ⟨.classic, .any⟩,
        entries := [bits "a", .block ⟨.tbc, .any⟩ [bits "b", .block ⟨.df, .df⟩ [bits "c"]]] }
    let rejected : StructDecl :=
      { name := "R", versions := some ⟨.tbc, .tbc⟩, entries := [.block ⟨.tbc, .tbc⟩ [.field pair]] }
    let r : Diagnostic := .arityMismatch ⟨"R", "p"⟩ (.arity "Pair" 2 0)
    (analyze [accepted] = [] ∧ (∃ text, Header.generate {} [accepted] = .ok text) ∧
      ∃ text, Dump.generate {} [accepted] = .ok text) ∧
    (r ∈ Check.fieldType "R" pair ∧ r ∈ Check.fieldTypes [rejected] ∧
      (∃ e, Header.generate {} [rejected] = .error e) ∧
      ∃ e, Dump.generate {} [rejected] = .error e) := by
  intro bits pair accepted rejected r
  have haccepted : analyze [accepted] = [] := by decide
  have hlayout : ⟨some .tbc, [pair]⟩ ∈ rejected.layouts := List.mem_cons_self
  have hr : r ∈ Check.fieldType rejected.qualifiedName pair := List.mem_cons_self
  exact ⟨⟨haccepted, (generate_of_analyze {} [accepted]).1 haccepted⟩, hr,
    (generate_of_analyze {} [rejected]).2 rejected List.mem_cons_self _ hlayout pair
      List.mem_cons_self r hr (.inl rfl)⟩

end VersionedLayout
