import VersionedLayout.Dump
import VersionedLayout.Proofs.Boundaries
import VersionedLayout.Proofs.Naming
set_option autoImplicit false

/-!
# Faults of a schema

The header and the dump are written by separate emitters, and both can fail only at a field: where
the type of the field has no full name, or where its default has no literal. This module computes
the failure of every emitter from the faults of the fields alone; neither the configuration nor
the names of the structs occur in them.

## Main definitions

* `VersionedLayout.Field.fault?`, `VersionedLayout.Layout.fault?`,
  `VersionedLayout.StructDecl.fault?` — the first error of a field, a layout and a struct.

## Main results

* `VersionedLayout.Header.failure?_generate` — the header fails with the first fault in the order
  of the groups.
* `VersionedLayout.Dump.failure?_generate` — the dump fails with the first fault in declared order.
* `VersionedLayout.Header.failure?_reflection` — reflection descriptors never fail.
-/

namespace VersionedLayout

/-! ## Faults -/

/-- The error that a field raises wherever it is written: that of its type, or else that of its
default. -/
def Field.fault? (f : Field) : Option SchemaError :=
  (failure? f.type.fullName).or (failure? f.checkedDefault)

/-- The error of the first field of a layout that has one. -/
def Layout.fault? (l : Layout) : Option SchemaError :=
  l.fields.findSome? Field.fault?

/-- The error of the first layout of a struct that has one. -/
def StructDecl.fault? (d : StructDecl) : Option SchemaError :=
  d.layouts.findSome? Layout.fault?

/-- A field without a fault has a type with a full name, and its default, if any, a literal. -/
lemma Field.fault?_eq_none_iff {f : Field} :
    f.fault? = none ↔
      (∃ name, f.type.fullName = .ok name) ∧ ∀ d, f.default = some d → d.isFinite = true := by
  rw [Field.fault?, Option.or_eq_none_iff, failure?_eq_none_iff]
  refine and_congr_right fun _ => ?_
  rw [Field.checkedDefault]
  cases f.default with
  | none => simp
  | some d => cases h : d.isFinite <;> simp [h]

/-- A field with a fault has a type without a full name, or a default without a literal. -/
lemma Field.fault?_ne_none_iff {f : Field} :
    f.fault? ≠ none ↔
      (∃ e, f.type.fullName = .error e) ∨ ∃ d, f.default = some d ∧ d.isFinite = false := by
  rw [ne_eq, Field.fault?_eq_none_iff, not_and_or, ← exists_error_iff]
  refine or_congr_right ?_
  simp only [not_forall, exists_prop, Bool.not_eq_true]

/-- A struct has no fault when the fields of its layouts have none. -/
lemma StructDecl.fault?_eq_none_iff {d : StructDecl} :
    d.fault? = none ↔ ∀ l ∈ d.layouts, ∀ f ∈ l.fields, f.fault? = none := by
  simp [StructDecl.fault?, Layout.fault?]

namespace Header

/-! ## The header -/

variable (c : Config)

/-- The line of a member fails with the fault of the field. -/
lemma failure?_memberLine (f : Field) : failure? (memberLine f) = f.fault? := by
  rw [memberLine, failure?_bind fun _ => failure?_bind_pure, Field.fault?]

/-- The body of a layout fails with the first fault of its fields. -/
lemma failure?_structBody (structName declarator : String) (fields : List Field) :
    failure? (structBody c structName declarator fields) = fields.findSome? Field.fault? := by
  rw [structBody, failure?_bind_pure]
  exact failure?_mapM fun f _ => failure?_memberLine f

/-- The definition of a struct fails with the fault of the struct. -/
lemma failure?_definition (d : StructDecl) : failure? (definition c d).result = d.fault? := by
  simp only [definition, Emission.result_bind, Emission.result_record, Emission.result_pure,
    Emission.result_mapM, ok_bind]
  exact failure?_bind_pure.trans (failure?_mapM fun l _ => failure?_structBody c d.name _ l.fields)

/-- The reflection descriptor of a layout does not fail. -/
lemma failure?_layoutReflection {d : StructDecl} {l : Layout} (hl : l ∈ d.layouts) :
    failure? (layoutReflection c d l) = none := by
  obtain ⟨t, ht, hname⟩ := StructDecl.exists_layoutType hl c.versionEnum
  rw [layoutReflection, ht, ok_bind, hname]
  rfl

/-- The descriptors of a struct name its layouts, whose types always have names. -/
theorem failure?_reflection (d : StructDecl) : failure? (reflection c d) = none := by
  rw [reflection, failure?_bind_pure, failure?_mapM fun l hl => failure?_layoutReflection c hl]
  simp

/-- The text of a group fails with the first fault of its structs. -/
lemma failure?_groupText (g : Group) :
    failure? (groupText c g).result = g.structs.findSome? StructDecl.fault? := by
  have hdefinitions : failure? (g.structs.mapM fun d => (definition c d).result) =
      g.structs.findSome? StructDecl.fault? :=
    failure?_mapM fun d _ => failure?_definition c d
  rw [groupText]
  split
  · simp only [Emission.result_bind, Emission.result_pure, Emission.result_mapM]
    exact failure?_bind_pure.trans hdefinitions
  · simp only [Emission.result_bind, Emission.result_record, Emission.result_pure,
      Emission.result_mapM, ok_bind]
    exact failure?_bind_pure.trans hdefinitions

/-- **The header fails with the first fault** in the order in which its groups list the structs.

**Proof sketch.** The definitions come first and fail as their fields do. The descriptors behind
them never fail, and neither does what is put around the definitions. -/
theorem failure?_generate (ds : List StructDecl) :
    failure? (generate c ds) =
      (grouped ds).findSome? fun g => g.structs.findSome? StructDecl.fault? := by
  have hgroups : failure? ((grouped ds).mapM fun g => (groupText c g).result) =
      (grouped ds).findSome? fun g => g.structs.findSome? StructDecl.fault? :=
    failure?_mapM fun g _ => failure?_groupText c g
  have hdescriptors : failure? (ds.mapM (reflection c)) = none := by
    rw [failure?_mapM fun d _ => failure?_reflection c d]
    simp
  simp only [generate, file, contents_eq_groups, Emission.result_bind, Emission.result_record,
    Emission.result_pure, Emission.result_mapM, Emission.result_ofExcept, ok_bind, bind_assoc]
  refine (failure?_bind (o := none) fun _ => ?_).trans ?_
  · exact failure?_bind_pure.trans hdescriptors
  · rw [Option.or_none]
    exact hgroups

end Header

namespace Dump

/-! ## The dump -/

variable (c : Config)

/-- The dump of a field fails with the fault of the field. -/
lemma failure?_field (f : Field) : failure? (field f) = f.fault? := by
  rw [field, failure?_bind fun _ => failure?_bind_pure, Field.fault?]

/-- The dump of a layout fails as its fields do, since its type always has a name. -/
lemma failure?_layout {d : StructDecl} {l : Layout} (hl : l ∈ d.layouts) :
    failure? (layout c d l) = l.fault? := by
  obtain ⟨t, ht, hname⟩ := StructDecl.exists_layoutType hl c.versionEnum
  rw [layout, ht, ok_bind, hname]
  refine (failure?_bind (o := none) fun _ => rfl).trans ?_
  rw [Option.or_none]
  exact failure?_mapM fun f _ => failure?_field f

/-- The dump of a struct fails with the fault of the struct. -/
lemma failure?_struct (d : StructDecl) : failure? (struct c d) = d.fault? := by
  rw [struct, failure?_bind_pure]
  exact failure?_mapM fun l hl => failure?_layout c hl

/-- **The dump fails with the first fault** in declared order. -/
theorem failure?_generate (ds : List StructDecl) :
    failure? (generate c ds) = ds.findSome? StructDecl.fault? := by
  rw [generate, failure?_bind_pure, tree, failure?_bind_pure]
  exact failure?_mapM fun d _ => failure?_struct c d

end Dump

end VersionedLayout
