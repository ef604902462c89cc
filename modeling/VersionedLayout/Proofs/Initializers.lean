import VersionedLayout.Proofs.FloatTexts
import VersionedLayout.Proofs.Outline
set_option autoImplicit false

/-!
# Initializers and the factory of a body

The body of a layout states each default twice: behind the member that has it, and in the static
factory, as an assignment to the member. The members are written from checked defaults, one at a
time and with an error for a default without a literal. The factory is written from the defaults as
they are, and never fails. Since the members come first, a body exists only if all of its defaults
have literals, and then both places state the same text.

## Main definitions

* `VersionedLayout.Member.head`, `VersionedLayout.Member.tail` — what stands around the initializer
  of a member.
* `VersionedLayout.InitializersAgree` — the parts of a body, and how they agree.

## Main results

* `VersionedLayout.Value.isNumber_display_float` — a finite floating-point value is written as a
  number.
* `VersionedLayout.Header.exists_members_of_structBody` — the parts of a body that is written.
* `VersionedLayout.factory_assigns_initializers` — the initializers of a body agree with its
  factory.
-/

namespace VersionedLayout

/-! ## Parts of a member -/

namespace Member

variable (m : Member)

/-- What stands in front of the initializer: type and name, and the width of a bit-field. -/
def head : String :=
  m.typeName ++ " " ++ m.field.name ++ m.field.bits.elim "" fun n => " : " ++ Decimal.natural n

/-- What stands behind the initializer: the semicolon, and a comment. -/
def tail : String :=
  ";" ++ m.field.comment.elim "" fun s => " ///< " ++ s

/-- The line of a member has its initializer behind an equals sign. -/
lemma line_eq : m.line = m.head ++ (m.initializer.elim "" fun s => " = " ++ s) ++ m.tail := by
  rw [line, head, initializer, tail]
  cases m.field.default <;> simp [String.append_assoc]

/-- The default of a member has a literal. -/
lemma isFinite_of_default {d : DefaultValue} (hd : m.field.default = some d) :
    d.isFinite = true := by
  have h := m.checkedDefault_eq
  rw [Field.checkedDefault, hd] at h
  by_contra hfinite
  simp only [if_neg hfinite] at h
  cases h

end Member

/-! ## Literals -/

/-- **A finite floating-point value is written as a number**, and not by a name. -/
theorem Value.isNumber_display_float {x : Binary64} (h : x.isFinite = true) :
    Json.IsNumber (Value.float x).display := by
  obtain ⟨n, hn, -, -, htext, -⟩ := Decimal.Style.exists_numeral_write literalStyle x
  refine ⟨n, hn, ?_⟩
  rw [Value.display, Value.displayFloat, Binary64.isNaN_eq_false_of_isFinite h, h]
  exact htext

/-! ## Bodies -/

namespace Header

variable (c : Config)

/-- A body that exists is written from its members, and has the factory for their initializers.

**Proof sketch.** A body exists only if none of its fields has a fault, and then all of them are
members, with their lines. -/
lemma exists_members_of_structBody {structName declarator text : String} {fields : List Field}
    (h : structBody c structName declarator fields = .ok text) :
    ∃ ms : List Member, ms.map Member.field = fields ∧
      text = declarator ++ "\n\x7b\n" ++
        String.join (ms.map fun m => c.indentation 1 ++ m.line ++ "\n") ++ "\n" ++
        factoryText c structName (ms.filterMap Member.assignment?) ++ "\x7d;\n\n" := by
  have hfault : fields.findSome? Field.fault? = none := by
    rw [← failure?_structBody c structName declarator fields, h, failure?_ok]
  have hfields : fields ∈ Set.range (List.map Member.field) := by
    rw [Set.range_list_map]
    exact fun f hf => Member.exists_of_fault?_eq_none (List.findSome?_eq_none_iff.1 hfault f hf)
  obtain ⟨ms, rfl⟩ := hfields
  have hlines : (ms.map Member.field).mapM memberLine = .ok (ms.map Member.line) := by
    rw [List.mapM_map]
    exact mapM_eq_ok_map fun m _ => m.memberLine_field
  rw [structBody, hlines, ok_bind, defaultFactory_map_field, List.map_map] at h
  exact ⟨ms, rfl, (Except.ok.inj h).symm⟩

end Header

/-! ## Agreement -/

/-- The fields with a default are those that the factory assigns, one after another. -/
lemma forall₂_assignments (ms : List Member) :
    List.Forall₂ (fun f a => a.member = f.name ∧ f.default.map DefaultValue.display = some a.value)
      ((ms.map Member.field).filter fun f => f.default.isSome)
      (ms.filterMap Member.assignment?) := by
  induction ms with
  | nil => exact .nil
  | cons m ms ih =>
    cases hd : m.field.default with
    | none =>
      have hnone : m.assignment? = none := by rw [m.assignment?_eq, hd, Option.map_none]
      rw [List.map_cons, List.filter_cons_of_neg (by simp [hd]), List.filterMap_cons_none hnone]
      exact ih
    | some d =>
      have hsome : m.assignment? = some ⟨m.field.name, d.display⟩ := by
        rw [m.assignment?_eq, hd, Option.map_some]
      rw [List.map_cons, List.filter_cons_of_pos (by simp [hd]), List.filterMap_cons_some hsome]
      exact .cons ⟨rfl, by rw [hd, Option.map_some]⟩ ih

/-- The body of a layout, of which the text is given, is written from members and from assignments
that state the same initializers. -/
structure InitializersAgree (c : Config) (d : StructDecl) (l : Layout) (text : String)
    (ms : List Member) (as : List Assignment) : Prop where
  /-- The members are the fields of the layout, in their order. -/
  members_eq : ms.map Member.field = l.fields
  /-- A layout that belongs to a version has the fields that are visible for it, and no others. -/
  fields_eq : ∀ v, l.version = some v → l.fields = Entry.visibleFields v d.entries
  /-- The text has a line for each member, with the initializer behind an equals sign, and then the
  factory.
-/
  text_eq : text = Header.declarator c d l ++ "\n\x7b\n" ++
    String.join (ms.map fun m => c.indentation 1 ++
      (m.head ++ (m.initializer.elim "" fun s => " = " ++ s) ++ m.tail) ++ "\n") ++ "\n" ++
    Header.factoryText c d.name as ++ "\x7d;\n\n"
  /-- The factory states the initializers of the members that have one, each once and in their
  order. -/
  assignments_eq : as = ms.filterMap Member.assignment?
  /-- These are the fields with a default, and they are given the text of this default. -/
  assigned : List.Forall₂
    (fun f a => a.member = f.name ∧ f.default.map DefaultValue.display = some a.value)
    (l.fields.filter fun f => f.default.isSome) as
  /-- No default holds an infinite value or a NaN. -/
  finite : ∀ f ∈ l.fields, ∀ df, f.default = some df → ∀ v ∈ df.values, v.isFinite = true
  /-- The floating-point values among the defaults are written as numbers. -/
  numbers : ∀ f ∈ l.fields, ∀ df, f.default = some df → ∀ x, .float x ∈ df.values →
    Json.IsNumber (Value.float x).display

/-- **The factory assigns the initializers.** Whenever the body of a layout is written, its factory
assigns exactly the fields of the layout that have a default, each of them once and in the order of
the layout, and gives each of them the text that stands behind the equals sign in the line of this
member. No infinite value and no NaN is written.

**Proof sketch.** The body is written from members, whose lines and assignments both state the text
of the default. The default of a member has a literal, so that all of its scalars are finite, and a
finite floating-point value is written as a number. -/
theorem factory_assigns_initializers {c : Config} {d : StructDecl} {l : Layout} {text : String}
    (hl : l ∈ d.layouts) (h : (Header.layoutDefinition c d l).result = .ok text) :
    ∃ (ms : List Member) (as : List Assignment), InitializersAgree c d l text ms as := by
  obtain ⟨ms, hms, htext⟩ := Header.exists_members_of_structBody c h
  have hfinite : ∀ f ∈ l.fields, ∀ df, f.default = some df → ∀ v ∈ df.values,
      v.isFinite = true := by
    intro f hf df hdf
    rw [← hms] at hf
    obtain ⟨m, -, rfl⟩ := List.mem_map.1 hf
    exact List.all_eq_true.1 (m.isFinite_of_default hdf)
  refine ⟨ms, ms.filterMap Member.assignment?, hms, ?_, ?_, rfl, ?_, hfinite, ?_⟩
  · intro v hv
    have hversioned : d.isVersioned = true := by
      rw [← StructDecl.isSome_version_of_mem_layouts hl, hv]
      rfl
    rw [StructDecl.layouts_of_isVersioned hversioned, List.mem_map] at hl
    obtain ⟨w, -, rfl⟩ := hl
    rw [← Option.some.inj hv, Entry.resolveAll_eq_visibleFields]
  · simp only [← Member.line_eq]
    exact htext
  · rw [← hms]
    exact forall₂_assignments ms
  · intro f hf df hdf x hx
    exact Value.isNumber_display_float (hfinite f hf df hdf _ hx)

/-- The body for one release, with a repeated name, a bit-field, a tuple with a floating-point value
and a field without a default. -/
theorem factory_assigns_initializers_nested :
    let pair : TypeDescriptor := { TypeDescriptor.arrayTemplate with args := ["float", "2"] }
    let bits : Field := ⟨.numeric (.builtin .u8), "a", some 3, some (.scalar (.int 5)), none⟩
    let point : Field := ⟨.plain pair, "b", none,
      some (.aggregate [.float ⟨0x3ff0000000000000⟩, .expr "T::X"]), some "remark"⟩
    let plain : Field := ⟨.plain (.named "T"), "a", none, none, none⟩
    let d : StructDecl :=
      { name := "N", versions := some ⟨.bfa, .tbcNew⟩,
        entries := [.field bits, .block ⟨.classicNew, .any⟩ [.field point,
          .block ⟨.tbcNew, .df⟩ [.field plain]], .block ⟨.bfa, .bfa⟩ [.field plain]] }
    let l : Layout := ⟨some .tbcNew, [bits, point, plain]⟩
    l ∈ d.layouts ∧ ∃ text, (Header.layoutDefinition {} d l).result = .ok text ∧
      ∃ (ms : List Member) (as : List Assignment), InitializersAgree {} d l text ms as := by
  intro pair bits point plain d l
  have hl : l ∈ d.layouts := by
    refine List.mem_map.2 ⟨.tbcNew, ?_, rfl⟩
    decide
  have h : ∃ text, (Header.layoutDefinition {} d l).result = .ok text := ⟨_, rfl⟩
  obtain ⟨text, htext⟩ := h
  exact ⟨hl, text, htext, factory_assigns_initializers hl htext⟩

end VersionedLayout
