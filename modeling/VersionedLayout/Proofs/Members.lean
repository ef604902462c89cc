import VersionedLayout.Proofs.Faults
set_option autoImplicit false

/-!
# Members and the factory

A field without a fault is a member: its type has a full name, and its default, if it has one, has a
literal. Members are written without any failure, as lines of a body and as objects of a dump. The
factory of a body is written from its members as well, and assigns to each member the text of its
default.

## Main definitions

* `VersionedLayout.Member` — a field that can be written, with the name of its type.
* `VersionedLayout.Member.line`, `VersionedLayout.Member.json` — a member in the two languages.
* `VersionedLayout.Member.initializer` — the text of the default of a member.
* `VersionedLayout.Assignment` — an assignment of the factory.
* `VersionedLayout.Header.factoryText` — the factory with given assignments.

## Main results

* `VersionedLayout.Member.exists_of_fault?_eq_none` — which fields are members.
* `VersionedLayout.Header.defaultFactory_map_field` — the factory assigns the initializers.
-/

namespace VersionedLayout

/-! ## Members -/

/-- A field that can be written, with the full name of its type. -/
structure Member where
  /-- The field. -/
  field : Field
  /-- The full name of its type. -/
  typeName : String
  /-- The name is that of the type. -/
  fullName_eq : field.type.fullName = .ok typeName
  /-- The default, if any, has a literal. -/
  checkedDefault_eq : field.checkedDefault = .ok field.default

namespace Member

variable (m : Member)

/-- The line that declares a member: type and name, then the width of a bit-field and the default
behind their signs, and a comment behind the semicolon. -/
def line : String :=
  m.typeName ++ " " ++ m.field.name ++
    (m.field.bits.elim "" fun n => " : " ++ Decimal.natural n) ++
    (m.field.default.elim "" fun d => " = " ++ d.display) ++ ";" ++
    m.field.comment.elim "" fun s => " ///< " ++ s

/-- The JSON form of a member: name and type, and what else is set. -/
def json : Json :=
  .object <| [("name", .string m.field.name), ("type", .string m.typeName)] ++
    (m.field.bits.map fun n => ("bits", Json.number (Decimal.natural n))).toList ++
    (m.field.default.map fun d => ("default", d.toJson)).toList ++
    (m.field.comment.map fun s => ("comment", Json.string s)).toList

/-- The line of the field of a member is that of the member. -/
lemma memberLine_field : Header.memberLine m.field = .ok m.line := by
  rw [Header.memberLine, m.fullName_eq, m.checkedDefault_eq, line]
  cases m.field.bits <;> cases m.field.default <;> cases m.field.comment <;> rfl

/-- The dump of the field of a member is that of the member. -/
lemma dump_field : Dump.field m.field = .ok m.json := by
  rw [Dump.field, m.fullName_eq, ok_bind, m.checkedDefault_eq, ok_bind, json]
  simp only [Dump.optional, Option.map_map]
  rfl

/-- A field without a fault can be written. -/
lemma exists_of_fault?_eq_none {f : Field} (h : f.fault? = none) : ∃ m : Member, m.field = f := by
  obtain ⟨⟨name, hname⟩, hdefault⟩ := Field.fault?_eq_none_iff.1 h
  refine ⟨⟨f, name, hname, ?_⟩, rfl⟩
  rw [Field.checkedDefault]
  cases hd : f.default with
  | none => rfl
  | some d => exact if_pos (hdefault d hd)

end Member

/-! ## The factory -/

/-- An assignment of the factory: a member, and the text that it is given. -/
structure Assignment where
  /-- The name of the member. -/
  member : String
  /-- The text behind the equals sign. -/
  value : String

namespace Member

variable (m : Member)

/-- The text of the default, if there is one. -/
def initializer : Option String :=
  m.field.default.map DefaultValue.display

/-- The assignment by which the factory states the initializer of a member. -/
def assignment? : Option Assignment :=
  m.initializer.map fun s => ⟨m.field.name, s⟩

/-- A member is assigned its default, if it has one. -/
lemma assignment?_eq :
    m.assignment? = m.field.default.map fun d => ⟨m.field.name, d.display⟩ := by
  rw [assignment?, initializer, Option.map_map]
  rfl

end Member

namespace Header

variable (c : Config)

/-- The line of an assignment. -/
def assignmentLine (a : Assignment) : String :=
  c.indentation 2 ++ "ret." ++ a.member ++ " = " ++ a.value ++ ";\n"

/-- The static factory of a struct with the given assignments. -/
def factoryText (structName : String) (as : List Assignment) : String :=
  c.indentation 1 ++ "static " ++ structName ++ " " ++ c.defaultInit ++ "()\n" ++
  c.indentation 1 ++ "\x7b\n" ++
  c.indentation 2 ++ "auto ret = " ++ structName ++ "\x7b\x7d;\n" ++
  String.join (as.map (assignmentLine c)) ++
  c.indentation 2 ++ "return ret;\n" ++
  c.indentation 1 ++ "\x7d\n"

/-- A member is assigned its initializer, or nothing. -/
lemma assignment_field (m : Member) :
    assignment c m.field = m.assignment?.elim "" (assignmentLine c) := by
  rw [assignment, Member.assignment?_eq]
  cases m.field.default <;> rfl

/-- **The factory assigns the initializers** of the members, in their order.

**Proof sketch.** Induction on the members, for the lines between the first and the last one of the
factory. -/
theorem defaultFactory_map_field (structName : String) (ms : List Member) :
    defaultFactory c structName (ms.map Member.field) =
      factoryText c structName (ms.filterMap Member.assignment?) := by
  have hlines : String.join ((ms.map Member.field).map (assignment c)) =
      String.join ((ms.filterMap Member.assignment?).map (assignmentLine c)) := by
    induction ms with
    | nil => rfl
    | cons m ms ih =>
      rw [List.map_cons, List.map_cons, String.join_cons, ih, assignment_field]
      cases h : m.assignment? with
      | none => rw [List.filterMap_cons_none h, Option.elim_none, String.empty_append]
      | some a =>
        rw [List.filterMap_cons_some h, Option.elim_some, List.map_cons, String.join_cons]
  -- `delta`, since the equations of such long texts take seconds to generate
  delta defaultFactory factoryText
  rw [hlines]

end Header

end VersionedLayout
