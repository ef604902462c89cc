import VersionedLayout.Proofs.Acceptance
set_option autoImplicit false

/-!
# The fault that decides

Both emitters write the fields of all layouts and stop at the first one that they cannot write.
They differ in the order in which they come to the structs: the dump follows the schema, while the
header takes the namespaces one after another. This module says which error each of them ends with,
in terms of the list of fields that are written and of what is wrong with a single field.

## Main definitions

* `VersionedLayout.Field.Writable`, `VersionedLayout.Field.Raises` — a field that can be written,
  and the error of one that cannot.
* `VersionedLayout.writtenFields` — the fields of all layouts of a schema.
* `VersionedLayout.FirstFault` — the error of the first field of a list that cannot be written.
* `VersionedLayout.FailuresDetermined` — success and failure of both emitters.

## Main results

* `VersionedLayout.Field.fault?_eq_some_iff` — the fault of a field is the error that it raises.
* `VersionedLayout.failures_determined` — the failures of both emitters are determined by the
  fields, for all configurations.
-/

namespace VersionedLayout

/-! ## Fields that cannot be written -/

/-- The type of the field has a full name, and its default, if any, is finite. -/
def Field.Writable (f : Field) : Prop :=
  (∃ name, f.type.fullName = .ok name) ∧ ∀ d, f.default = some d → d.isFinite = true

/-- The error of a field that cannot be written. That of the type comes before that of the
default. -/
inductive Field.Raises (f : Field) : SchemaError → Prop
  /-- The type has not as many arguments as parameters. -/
  | arity {typeName : String} {expected actual : Nat} :
      f.type.fullName = .error (.arity typeName expected actual) →
      f.Raises (.arity typeName expected actual)
  /-- The type has a full name, but the default is infinite or a NaN, or a tuple with such a
  member. -/
  | nonFiniteDefault {typeName : String} {d : DefaultValue} :
      f.type.fullName = .ok typeName → f.default = some d → d.isFinite = false →
      f.Raises (.nonFiniteDefault f.name d)

/-- **The fault of a field is the error that it raises.** -/
theorem Field.fault?_eq_some_iff {f : Field} {e : SchemaError} :
    f.fault? = some e ↔ f.Raises e := by
  constructor
  · intro h
    rw [Field.fault?] at h
    cases htype : f.type.fullName with
    | error e' =>
      have he : e' = e := by
        rw [htype] at h
        exact Option.some.inj h
      subst he
      have harity := (TypeDescriptor.fullName_eq_error_iff.1 htype).2
      rw [harity] at htype ⊢
      exact .arity htype
    | ok typeName =>
      rw [htype, failure?_ok, Option.none_or, Field.checkedDefault] at h
      cases hdefault : f.default with
      | none =>
        rw [hdefault] at h
        cases h
      | some d =>
        cases hfinite : d.isFinite with
        | true => simp [hdefault, hfinite] at h
        | false =>
          have he : SchemaError.nonFiniteDefault f.name d = e := by
            simpa [hdefault, hfinite] using h
          rw [← he]
          exact .nonFiniteDefault htype hdefault hfinite
  · intro h
    cases h with
    | arity htype => rw [Field.fault?, htype, failure?_error, Option.some_or]
    | nonFiniteDefault htype hdefault hfinite =>
      rw [Field.fault?, htype, failure?_ok, Option.none_or, Field.checkedDefault, hdefault]
      simp [hfinite]

/-! ## The first of them -/

/-- The fields of all layouts of a schema, as often as they are written: struct by struct, layout
by layout, and in the order of each layout. -/
def writtenFields (ds : List StructDecl) : List Field :=
  ds.flatMap fun d => d.layouts.flatMap Layout.fields

/-- The error of the first field of a list that cannot be written. -/
def FirstFault (fs : List Field) (e : SchemaError) : Prop :=
  ∃ before f after, fs = before ++ f :: after ∧ (∀ g ∈ before, g.Writable) ∧ f.Raises e

/-- The first fault of some fields is that of a field behind fields without one. -/
lemma findSome?_fault?_eq_some_iff {fs : List Field} {e : SchemaError} :
    fs.findSome? Field.fault? = some e ↔ FirstFault fs e := by
  rw [List.findSome?_eq_some_iff]
  refine exists_congr fun before => exists_congr fun f => exists_congr fun after => ?_
  refine and_congr_right fun _ => ?_
  rw [Field.fault?_eq_some_iff, and_comm]
  exact and_congr_left fun _ => forall₂_congr fun g _ => Field.fault?_eq_none_iff

/-- The fault of a schema is found by a search through all fields that are written. -/
lemma findSome?_struct_fault? (ds : List StructDecl) :
    ds.findSome? StructDecl.fault? = (writtenFields ds).findSome? Field.fault? := by
  rw [writtenFields, findSome?_flatMap]
  congr 1
  funext d
  rw [findSome?_flatMap]
  rfl

/-- No struct has a fault when all fields that are written can be. -/
lemma forall_fault?_eq_none_iff {ds : List StructDecl} :
    (∀ d ∈ ds, d.fault? = none) ↔ ∀ d ∈ ds, ∀ l ∈ d.layouts, ∀ f ∈ l.fields, f.Writable := by
  refine forall₂_congr fun d _ => ?_
  rw [StructDecl.fault?_eq_none_iff]
  exact forall₂_congr fun l _ => forall₂_congr fun f _ => Field.fault?_eq_none_iff

/-- **The dump ends with the first fault** in declared order. -/
theorem Dump.generate_eq_error_iff {c : Config} {ds : List StructDecl} {e : SchemaError} :
    generate c ds = .error e ↔ FirstFault (writtenFields ds) e := by
  rw [← failure?_eq_some_iff, failure?_generate, findSome?_struct_fault?,
    findSome?_fault?_eq_some_iff]

/-- **The header ends with the first fault** in stable order of the namespaces. -/
theorem Header.generate_eq_error_iff {c : Config} {ds : List StructDecl} {e : SchemaError} :
    generate c ds = .error e ↔ FirstFault (writtenFields (byScope ds)) e := by
  rw [← failure?_eq_some_iff, failure?_generate, ← findSome?_flatMap, flatMap_structs_grouped,
    findSome?_struct_fault?, findSome?_fault?_eq_some_iff]

/-- A schema with a single namespace is in order of the namespaces as it is. -/
lemma Header.byScope_of_forall_eq {ds : List StructDecl}
    (h : ∀ d ∈ ds, ∀ d' ∈ ds, d.scope = d'.scope) : byScope ds = ds := by
  have hsorted : ds.Pairwise fun d d' => d.scope ≤ d'.scope := by
    refine List.pairwise_of_forall_mem_list fun d hd d' hd' => ?_
    exact h d hd d' hd' ▸ String.le_refl d.scope
  rw [← flatMap_structs_grouped, flatMap_structs_grouped_of_pairwise hsorted]

/-! ## Both emitters -/

/-- Success and failure of the header under one configuration, and of the dump under another. -/
structure FailuresDetermined (c₁ c₂ : Config) (ds : List StructDecl) : Prop where
  /-- The header succeeds exactly when the dump does. -/
  ok_iff : (∃ text, Header.generate c₁ ds = .ok text) ↔ ∃ text, Dump.generate c₂ ds = .ok text
  /-- They succeed exactly when every field of every layout of every struct can be written. -/
  ok_iff_writable : (∃ text, Dump.generate c₂ ds = .ok text) ↔
    ∀ d ∈ ds, ∀ l ∈ d.layouts, ∀ f ∈ l.fields, f.Writable
  /-- The header ends with the first fault in stable order of the namespaces. -/
  header_error : ∀ e, Header.generate c₁ ds = .error e ↔
    FirstFault (writtenFields (Header.byScope ds)) e
  /-- The dump ends with the first fault in declared order. -/
  dump_error : ∀ e, Dump.generate c₂ ds = .error e ↔ FirstFault (writtenFields ds) e
  /-- With a single namespace they end with the same error. -/
  same_error : (∀ d ∈ ds, ∀ d' ∈ ds, d.scope = d'.scope) →
    ∀ e, Header.generate c₁ ds = .error e ↔ Dump.generate c₂ ds = .error e
  /-- The errors are those of any other configurations. -/
  config_irrelevant : ∀ c e,
    (Header.generate c ds = .error e ↔ Header.generate c₁ ds = .error e) ∧
    (Dump.generate c ds = .error e ↔ Dump.generate c₂ ds = .error e)

/-- **The failures of both emitters are determined by the fields**, whatever the configurations.

**Proof sketch.** Each emitter ends with the first fault of the structs, in the order in which it
takes them. Searching the structs for a fault is searching the fields of all layouts, and the
groups of the header, one after another, are the schema in stable order of the namespaces. -/
theorem failures_determined (c₁ c₂ : Config) (ds : List StructDecl) :
    FailuresDetermined c₁ c₂ ds where
  ok_iff := Header.exists_generate_eq_ok_iff.trans Dump.exists_generate_eq_ok_iff.symm
  ok_iff_writable := Dump.exists_generate_eq_ok_iff.trans forall_fault?_eq_none_iff
  header_error _ := Header.generate_eq_error_iff
  dump_error _ := Dump.generate_eq_error_iff
  same_error h e := by
    rw [Header.generate_eq_error_iff, Dump.generate_eq_error_iff, Header.byScope_of_forall_eq h]
  config_irrelevant c e :=
    ⟨Header.generate_eq_error_iff.trans Header.generate_eq_error_iff.symm,
      Dump.generate_eq_error_iff.trans Dump.generate_eq_error_iff.symm⟩

/-- Two structs with faults, in namespaces that are declared in the wrong order: the emitters end
with different errors. -/
example :
    let unbound (typeName : String) : Field :=
      ⟨.plain ((TypeDescriptor.named typeName).withArity 2), "x", none, none, none⟩
    let late : StructDecl := { name := "L", scope := "Z", entries := [.field (unbound "T")] }
    let early : StructDecl := { name := "E", scope := "A", entries := [.field (unbound "U")] }
    Header.generate {} [late, early] = .error (.arity "U" 2 0) ∧
      Dump.generate {} [late, early] = .error (.arity "T" 2 0) := by
  exact ⟨by cbv, rfl⟩

end VersionedLayout
