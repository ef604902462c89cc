import Mathlib.Data.List.Forall2
import VersionedLayout.Dump
import VersionedLayout.Proofs.FloatTexts
import VersionedLayout.Proofs.Naming
import VersionedLayout.Proofs.Printing
set_option autoImplicit false

/-!
# What a dump holds

The text of a dump is JSON, and read back it describes the schema: an array with one object for
each struct, in which every layout and every field is found again. What the object of a struct holds
is said here by relations between the model and JSON trees, one for each kind of thing, which do
not refer to the way in which the dump is made.

## Main definitions

* `VersionedLayout.Value.DumpedAs`, `VersionedLayout.DefaultValue.DumpedAs`,
  `VersionedLayout.Field.DumpedAs`, `VersionedLayout.Layout.DumpedAs`,
  `VersionedLayout.StructDecl.DumpedAs` — a value, a default, a field, a layout or a struct is
  described by a JSON tree.
* `VersionedLayout.Json.Filled` — a tree without `null`, the numbers of which are numbers of the
  grammar.

## Main results

* `VersionedLayout.StructDecl.dumpedAs_of_struct` — the object made for a struct describes it.
* `VersionedLayout.Dump.ofText_generate` — a dump is JSON, and holds what it has to.
-/

namespace VersionedLayout

open Json

/-! ## Descriptions -/

/-- A scalar is described by the number of an integer, by the shortest number of a finite
floating-point value, which has a fraction or an exponent, or by the string of an expression. -/
inductive Value.DumpedAs : Value → Json → Prop where
  | int {m : Int} {t : String} (denotes : Decimal.Denotes t m) : DumpedAs (.int m) (.number t)
  | float {x : Binary64} {n : Numeral} (finite : x.isFinite = true) (wellFormed : n.WellFormed)
      (text : n.text = (numberStyle.write x).toList)
      (notInteger : n.fraction ≠ [] ∨ n.exponentText ≠ []) :
      DumpedAs (.float x) (.number (numberStyle.write x))
  | expr {s : String} : DumpedAs (.expr s) (.string s)

/-- A default is described like its scalar, or by the array of the descriptions of its scalars, in
their order. -/
inductive DefaultValue.DumpedAs : DefaultValue → Json → Prop where
  | scalar {v : Value} {j : Json} : v.DumpedAs j → DumpedAs (.scalar v) j
  | aggregate {vs : List Value} {js : List Json} :
      List.Forall₂ Value.DumpedAs vs js → DumpedAs (.aggregate vs) (.array js)

/-- A member of the given name that is present exactly if a value is set, and then describes the
value. -/
inductive SetMember {α : Type} (name : String) (describes : α → Json → Prop) :
    Option α → List (String × Json) → Prop where
  | unset : SetMember name describes none []
  | set {a : α} {j : Json} : describes a j → SetMember name describes (some a) [(name, j)]

/-- A field is described by its name and the full name of its type, and by its width, its default
and its comment as far as they are set. -/
inductive Field.DumpedAs (f : Field) : Json → Prop where
  | object {type : String} {bits default comment : List (String × Json)}
      (fullName_eq : f.type.fullName = .ok type)
      (bits_set : SetMember "bits" (fun n j => ∃ t, j = .number t ∧ Decimal.Denotes t (n : Nat))
        f.bits bits)
      (default_set : SetMember "default" DefaultValue.DumpedAs f.default default)
      (comment_set : SetMember "comment" (fun s j => j = .string s) f.comment comment) :
      DumpedAs f (.object ([("name", .string f.name), ("type", .string type)] ++ bits ++ default ++
        comment))

/-- A layout of a struct is described by its version, if it has one, by the full name of the struct
for this version, and by its fields, in their order. -/
inductive Layout.DumpedAs (c : Config) (d : StructDecl) (l : Layout) : Json → Prop where
  | object {version : List (String × Json)} {fields : List Json}
      (version_set : SetMember "version" (fun v j => j = .string v.name) l.version version)
      (fields_dumped : List.Forall₂ Field.DumpedAs l.fields fields) :
      DumpedAs c d l (.object (version ++
        [("type", .string (d.layoutName c.versionEnum l.version)), ("fields", .array fields)]))

/-- A struct is described by its name, its namespace, whether it is versioned, and its layouts, in
their order. -/
inductive StructDecl.DumpedAs (c : Config) (d : StructDecl) : Json → Prop where
  | object {layouts : List Json}
      (layouts_dumped : List.Forall₂ (Layout.DumpedAs c d) d.layouts layouts) :
      DumpedAs c d (.object [("name", .string d.name), ("namespace", .string d.scope),
        ("versioned", .bool d.isVersioned), ("layouts", .array layouts)])

/-! ## The trees of a dump are descriptions -/

/-- A scalar with a literal is described by its JSON form. -/
lemma Value.dumpedAs_toJson {v : Value} (h : v.isFinite = true) : v.DumpedAs v.toJson := by
  cases v with
  | int m => exact .int (Decimal.denotes_integer m)
  | expr s => exact .expr
  | float x =>
    obtain ⟨n, hn, -, hlayout, htext, -⟩ := numberStyle.exists_numeral_write x
    have hx : x.isFinite = true := h
    -- a value that is not finite would have become `null` here
    rw [toJson, ofFloat, if_pos hx]
    refine .float hx hn htext (hlayout.imp And.left fun hscientific => ?_)
    rw [hscientific.2]
    exact List.cons_ne_nil _ _

/-- A default whose scalars have literals is described by its JSON form. -/
lemma DefaultValue.dumpedAs_toJson {d : DefaultValue} (h : d.isFinite = true) :
    d.DumpedAs d.toJson := by
  have hvalues : ∀ v ∈ d.values, v.DumpedAs v.toJson := fun v hv =>
    Value.dumpedAs_toJson (List.all_eq_true.1 h v hv)
  cases d with
  | scalar v => exact .scalar (hvalues v List.mem_cons_self)
  | aggregate vs =>
    refine .aggregate ?_
    rw [List.forall₂_map_right_iff, List.forall₂_same]
    exact hvalues

/-- What is written only when it is set describes the value, given that its JSON form does. -/
lemma setMember_optional {α : Type} {name : String} {describes : α → Json → Prop}
    {toJson : α → Json} {value : Option α} (h : ∀ a ∈ value, describes a (toJson a)) :
    SetMember name describes value (Dump.optional name (value.map toJson)) := by
  cases value with
  | none => exact .unset
  | some a => exact .set (h a rfl)

/-- A default that passes the check is that of the field, and its scalars have literals. -/
lemma Field.isFinite_of_checkedDefault {f : Field} {default : Option DefaultValue}
    (h : f.checkedDefault = .ok default) :
    default = f.default ∧ ∀ d ∈ f.default, d.isFinite = true := by
  rw [checkedDefault] at h
  split at h
  · rename_i hnone
    rw [hnone]
    exact ⟨(Except.ok.inj h).symm, nofun⟩
  · rename_i d hsome
    split at h
    · rename_i hfinite
      rw [hsome]
      exact ⟨(Except.ok.inj h).symm, fun e he => Option.some.inj he ▸ hfinite⟩
    · cases h

/-- A field is described by what is dumped of it. -/
lemma Field.dumpedAs_of_field {f : Field} {j : Json} (h : Dump.field f = .ok j) : f.DumpedAs j := by
  obtain ⟨type, htype, h⟩ := bind_eq_ok_iff.1 h
  obtain ⟨default, hdefault, h⟩ := bind_eq_ok_iff.1 h
  obtain ⟨rfl, hfinite⟩ := isFinite_of_checkedDefault hdefault
  rw [← Except.ok.inj h]
  exact .object htype (setMember_optional fun n _ => ⟨_, rfl, Decimal.denotes_natural n⟩)
    (setMember_optional fun d hd => DefaultValue.dumpedAs_toJson (hfinite d hd))
    (setMember_optional fun s _ => rfl)

/-- A layout of a struct is described by what is dumped of it. -/
lemma Layout.dumpedAs_of_layout {c : Config} {d : StructDecl} {l : Layout} {j : Json}
    (hl : l ∈ d.layouts) (h : Dump.layout c d l = .ok j) : l.DumpedAs c d j := by
  obtain ⟨type, htype, hname⟩ := StructDecl.exists_layoutType hl c.versionEnum
  rw [Dump.layout, htype, ok_bind] at h
  obtain ⟨fields, hfields, h⟩ := bind_eq_ok_iff.1 h
  rw [hname, ok_bind] at h
  rw [← Except.ok.inj h]
  exact .object (setMember_optional fun v _ => rfl)
    ((forall₂_of_mapM_eq_ok hfields).imp fun _ _ => Field.dumpedAs_of_field)

/-- The object made for a struct describes it. -/
theorem StructDecl.dumpedAs_of_struct {c : Config} {d : StructDecl} {j : Json}
    (h : Dump.struct c d = .ok j) : d.DumpedAs c j := by
  obtain ⟨layouts, hlayouts, h⟩ := bind_eq_ok_iff.1 h
  rw [← Except.ok.inj h]
  have hmem := (List.forall₂_and_left _ _).2 ⟨fun l hl => hl, forall₂_of_mapM_eq_ok hlayouts⟩
  exact .object (hmem.imp fun l j hlj => Layout.dumpedAs_of_layout hlj.1 hlj.2)

/-! ## Descriptions hold no null -/

namespace Json

/-- Nowhere in the tree is there a `null`, or a number that is not one of the grammar. -/
def Filled (j : Json) : Prop :=
  ¬ Occurs .null j ∧ Writable j

/-- A number of the grammar is filled. -/
lemma filled_number {t : String} (h : IsNumber t) : Filled (.number t) :=
  ⟨nofun, fun _ ht => by cases ht; exact h⟩

/-- A string is filled. -/
lemma filled_string (s : String) : Filled (.string s) :=
  ⟨nofun, writable_string s⟩

/-- A truth value is filled. -/
lemma filled_bool (b : Bool) : Filled (.bool b) :=
  ⟨nofun, fun _ ht => nomatch ht⟩

/-- An array of filled items is filled. -/
lemma filled_array {xs : List Json} (h : ∀ x ∈ xs, x.Filled) : Filled (.array xs) := by
  refine ⟨fun hnull => ?_, writable_array fun x hx => (h x hx).2⟩
  cases hnull with
  | item hy hnull => exact (h _ hy).1 hnull

/-- An object whose members have filled values is filled. -/
lemma filled_object {ms : List (String × Json)} (h : ∀ m ∈ ms, m.2.Filled) :
    Filled (.object ms) := by
  refine ⟨fun hnull => ?_, writable_object fun m hm => (h m hm).2⟩
  cases hnull with
  | member hm hnull => exact (h _ hm).1 hnull

/-- An array of descriptions is filled if every description is. -/
lemma filled_of_forall₂ {α : Type} {describes : α → Json → Prop} {as : List α} {js : List Json}
    (h : List.Forall₂ describes as js) (hdescribes : ∀ a j, describes a j → j.Filled) :
    Filled (.array js) := by
  refine filled_array ?_
  induction h with
  | nil => exact nofun
  | cons hj _ ih => exact List.forall_mem_cons.2 ⟨hdescribes _ _ hj, ih⟩

end Json

/-- What describes a scalar is filled. -/
lemma Value.DumpedAs.filled {v : Value} {j : Json} (h : v.DumpedAs j) : j.Filled := by
  cases h with
  | int denotes => exact filled_number (isNumber_of_denotes denotes)
  | @float x n _ wellFormed text => exact filled_number ⟨n, wellFormed, text⟩
  | expr => exact filled_string _

/-- What describes a default is filled. -/
lemma DefaultValue.DumpedAs.filled {d : DefaultValue} {j : Json} (h : d.DumpedAs j) :
    j.Filled := by
  cases h with
  | scalar hv => exact hv.filled
  | aggregate hvs => exact filled_of_forall₂ hvs fun _ _ => Value.DumpedAs.filled

/-- The value of a member that is present only if it is set is filled. -/
lemma SetMember.filled {α : Type} {name : String} {describes : α → Json → Prop} {value : Option α}
    {ms : List (String × Json)} (h : SetMember name describes value ms)
    (hdescribes : ∀ a j, describes a j → j.Filled) : ∀ m ∈ ms, m.2.Filled := by
  cases h with
  | unset => exact nofun
  | set hj => exact List.forall_mem_singleton.2 (hdescribes _ _ hj)

/-- What describes a field is filled. -/
lemma Field.DumpedAs.filled {f : Field} {j : Json} (h : f.DumpedAs j) : j.Filled := by
  cases h with
  | object _ bits_set default_set comment_set =>
    refine filled_object ?_
    simp only [List.forall_mem_append, List.forall_mem_cons]
    refine ⟨⟨⟨⟨filled_string _, filled_string _, nofun⟩, ?_⟩, ?_⟩, ?_⟩
    · refine bits_set.filled ?_
      rintro n _ ⟨t, rfl, ht⟩
      exact filled_number (isNumber_of_denotes ht)
    · exact default_set.filled fun _ _ => DefaultValue.DumpedAs.filled
    · refine comment_set.filled ?_
      rintro s _ rfl
      exact filled_string s

/-- What describes a layout is filled. -/
lemma Layout.DumpedAs.filled {c : Config} {d : StructDecl} {l : Layout} {j : Json}
    (h : l.DumpedAs c d j) : j.Filled := by
  cases h with
  | object version_set fields_dumped =>
    refine filled_object ?_
    simp only [List.forall_mem_append, List.forall_mem_cons]
    refine ⟨version_set.filled ?_, filled_string _, ?_, nofun⟩
    · rintro v _ rfl
      exact filled_string _
    · exact filled_of_forall₂ fields_dumped fun _ _ => Field.DumpedAs.filled

/-- What describes a struct is filled. -/
lemma StructDecl.DumpedAs.filled {c : Config} {d : StructDecl} {j : Json} (h : d.DumpedAs c j) :
    j.Filled := by
  cases h with
  | object layouts_dumped =>
    refine filled_object ?_
    simp only [List.forall_mem_cons]
    exact ⟨filled_string _, filled_string _, filled_bool _,
      filled_of_forall₂ layouts_dumped fun _ _ => Layout.DumpedAs.filled, nofun⟩

/-! ## The dump -/

/-- **A dump is JSON, and holds what it has to.** Whenever a dump is made, its text is JSON, and it
is read back as an array without any `null` in it, which has one description for each struct, in
their order.

**Proof sketch.** The trees that the dump is made of are descriptions. All numbers in a description
are written forms of integers or of finite floating-point values, so they are numbers of the
grammar, and the printed tree is read back. There is no `null` in it, because a default that is not
finite has no place in a dump. -/
theorem Dump.ofText_generate {c : Config} {ds : List StructDecl} {text : String}
    (h : Dump.generate c ds = .ok text) :
    ∃ js, Json.Written text.toList (.array js) ∧ Json.ofText text = .ok (.array js) ∧
      List.Forall₂ (StructDecl.DumpedAs c) ds js ∧ ¬ Json.Occurs .null (.array js) := by
  obtain ⟨j, hj, h⟩ := bind_eq_ok_iff.1 h
  obtain ⟨js, hjs, hj⟩ := bind_eq_ok_iff.1 hj
  rw [← Except.ok.inj hj] at h
  rw [← Except.ok.inj h]
  have hdumped : List.Forall₂ (StructDecl.DumpedAs c) ds js :=
    (forall₂_of_mapM_eq_ok hjs).imp fun _ _ => StructDecl.dumpedAs_of_struct
  obtain ⟨hnull, hwritable⟩ := filled_of_forall₂ hdumped fun _ _ => StructDecl.DumpedAs.filled
  exact ⟨js, written_pretty hwritable, ofText_pretty hwritable, hdumped, hnull⟩

/-- A versioned struct with a bit-field, whose comment needs escapes of every kind, and in a block
an array with a tuple of an integer, a floating-point value and an expression as its default; and
an unversioned struct with a floating-point default that has an exponent. -/
theorem Dump.ofText_generate_escapes :
    let triple : TypeDescriptor := { TypeDescriptor.arrayTemplate with args := ["T<\"x\">", "3"] }
    let a : StructDecl :=
      { name := "A", scope := "M::N", versions := some ⟨.mop, .wod⟩,
        entries := [.field ⟨.numeric (.builtin .u8), "a", some 3, some (.scalar (.int 5)),
            some "say \"\\\" \n\t\x01 – 😀"⟩,
          .block ⟨.wod, .any⟩ [.field ⟨.plain triple, "b", none,
            some (.aggregate [.int (-7), .float ⟨0x3ff8000000000000⟩, .expr "T::X"]), none⟩]] }
    let b : StructDecl :=
      { name := "B", entries := [.field ⟨.plain (.named "double"), "x", none,
          some (.scalar (.float ⟨0x4341c37937e08000⟩)), none⟩] }
    ∃ text, Dump.generate {} [a, b] = .ok text ∧
      ∃ js, Json.Written text.toList (.array js) ∧ Json.ofText text = .ok (.array js) ∧
        List.Forall₂ (StructDecl.DumpedAs {}) [a, b] js ∧ ¬ Json.Occurs .null (.array js) := by
  intro triple a b
  have h : ∃ text, Dump.generate {} [a, b] = .ok text := ⟨_, rfl⟩
  obtain ⟨text, htext⟩ := h
  exact ⟨text, htext, Dump.ofText_generate htext⟩

end VersionedLayout
