import VersionedLayout.Proofs.Arrays
import VersionedLayout.Proofs.WellFormed
set_option autoImplicit false

/-!
# Types under construction

A type is made by one operation after another, from a bare name on. An array of numbers records the
numeric type of its elements when it is made, beside the arguments that name these elements. Later
operations may bind the arguments anew, and none of them touches the record. The two belong
together as long as no array with a record is bound to other arguments, and no array is made of one
that has been moved out of the namespace of arrays: the recorded type is then the one that the
first argument names, possibly inside further arrays. An array that is bound anew keeps the record
of the elements it had.

## Main definitions

* `VersionedLayout.TypeDescriptor.Operation` — the operations by which types are made.
* `VersionedLayout.TypeDescriptor.Built` — the types to which sequences of operations lead.
* `VersionedLayout.TypeDescriptor.BindsTo` — the first argument of a type names a numeric type,
  possibly inside arrays.
* `VersionedLayout.TypeDescriptor.KeepsRecord` — the operations that keep record and arguments
  together.

## Main results

* `VersionedLayout.TypeDescriptor.Operation.isNumericArray_apply` — one such operation keeps them
  together.
* `VersionedLayout.TypeDescriptor.recorded_elements_bound` — so does every sequence of them.
* `VersionedLayout.TypeDescriptor.recorded_element_outlives_binding` — an array bound anew.
-/

namespace VersionedLayout

/-! ## Operations -/

/-- What makes a numeric type out of its base: a primitive kind, or two bounds. -/
inductive NumericType.Origin where
  | kind (k : PrimitiveKind)
  | bounds (low high : Value)

/-- The numeric type that is made out of a base. -/
def NumericType.make (base : TypeDescriptor) : NumericType.Origin → Except SchemaError NumericType
  | .kind k => .ok (primitive k base)
  | .bounds low high => between base low high

namespace TypeDescriptor

/-- An operation on a type under construction. -/
inductive Operation where
  /-- Moving the type into a namespace. -/
  | withScope (scope : String)
  /-- Adding a header. -/
  | withHeader (header : String)
  /-- Declaring the parameters, which become the arguments. -/
  | withParams (params : List String)
  /-- Declaring the number of parameters, without arguments. -/
  | withArity (arity : Nat)
  /-- Binding the arguments. -/
  | specialize (args : List TemplateArg)
  /-- Making an array of the type. -/
  | arrayOf (dim : Nat)
  /-- Making a numeric type, and an array of it. -/
  | numericArrayOf (origin : NumericType.Origin) (dim : Nat)
  /-- Making a numeric type, and taking its base. -/
  | numericBase (origin : NumericType.Origin)

/-- The type to which an operation leads. -/
def Operation.apply (t : TypeDescriptor) : Operation → Except SchemaError TypeDescriptor
  | .withScope scope => .ok (t.withScope scope)
  | .withHeader header => .ok (t.withHeader header)
  | .withParams params => .ok (t.withParams params)
  | .withArity arity => .ok (t.withArity arity)
  | .specialize args => t.specialize args
  | .arrayOf dim => t.arrayOf dim
  | .numericArrayOf origin dim => NumericType.make t origin >>= fun n => n.arrayOf dim
  | .numericBase origin => NumericType.make t origin >>= fun n => .ok n.base

/-- The types to which sequences of operations lead, where `allowed` says which operations may be
applied to which types. -/
inductive Built (allowed : TypeDescriptor → Operation → Prop) : TypeDescriptor → Prop
  | named (name : String) : Built allowed (.named name)
  | standard (name header : String) : Built allowed (.standard name header)
  | step {t u : TypeDescriptor} (op : Operation) : Built allowed t → allowed t op →
    op.apply t = .ok u → Built allowed u

/-! ## What a record means -/

/-- The text of a type around which any number of arrays have been put. -/
inductive InArrays (name : String) : String → Prop
  | self : InArrays name name
  | array {inner : String} (dim : Nat) : InArrays name inner →
    InArrays name ("std::array" ++ bracketed [inner, Decimal.natural dim])

/-- The first argument of a type names a numeric type, possibly inside arrays. -/
def BindsTo (t : TypeDescriptor) (n : NumericType) : Prop :=
  ∃ name first rest, n.base.fullName = .ok name ∧ t.args = first :: rest ∧ InArrays name first

/-- An operation leaves alone what a type records of its elements: it does not bind the arguments
of a type that has a record anew, and it makes an array of such a type only where this type is in
the namespace of arrays. -/
def KeepsRecord (t : TypeDescriptor) : Operation → Prop
  | .withParams _ | .withArity _ | .specialize _ => t.element = none
  | .arrayOf _ => t.element = none ∨ t.scope = "std"
  | .withScope _ | .withHeader _ | .numericArrayOf .. | .numericBase _ => True

/-- A type with a record is an array whose first argument names the recorded type, possibly inside
further arrays. Its namespace may be another one. -/
structure IsNumericArray (t : TypeDescriptor) (n : NumericType) : Prop where
  /-- It is called an array. -/
  name_eq : t.name = "array"
  /-- It has two parameters. -/
  arity_eq : t.arity = 2
  /-- They are bound to the elements and to a number. -/
  args_eq : ∃ name inner dim, n.base.fullName = .ok name ∧ InArrays name inner ∧
    t.args = [inner, Decimal.natural dim]

namespace IsNumericArray

variable {t : TypeDescriptor} {n : NumericType}

/-- A numeric array binds the type of its numbers. -/
lemma bindsTo (h : t.IsNumericArray n) : t.BindsTo n := by
  obtain ⟨name, inner, dim, hname, hinner, hargs⟩ := h.args_eq
  exact ⟨name, inner, _, hname, hargs, hinner⟩

/-- In the namespace of arrays, such a type has the name of an array around what it binds. -/
lemma fullName (h : t.IsNumericArray n) (hscope : t.scope = "std") :
    ∃ name text, n.base.fullName = .ok name ∧ InArrays name text ∧ t.fullName = .ok text := by
  obtain ⟨name, inner, dim, hname, hinner, hargs⟩ := h.args_eq
  refine ⟨name, _, hname, .array dim hinner, ?_⟩
  have htemplate : t.isTemplate = true := by simp [isTemplate, h.arity_eq]
  have hqualified : t.qualifiedName = "std::array" := by
    rw [qualifiedName, hscope, h.name_eq]
    decide
  rw [TypeDescriptor.fullName, if_pos htemplate, if_pos (by simp [hargs, h.arity_eq]), hqualified,
    hargs]

end IsNumericArray

/-! ## One operation -/

section

variable {t u : TypeDescriptor} {n : NumericType} {origin : NumericType.Origin} {dim : Nat}

/-- Making a numeric type changes nothing that is seen of its base. -/
lemma make_eq_ok (h : NumericType.make t origin = .ok n) :
    n.base.element = t.element ∧ n.base.name = t.name ∧ n.base.arity = t.arity ∧
      n.base.args = t.args := by
  cases origin with
  | kind k =>
    cases h
    exact ⟨rfl, rfl, rfl, rfl⟩
  | bounds low high =>
    rw [NumericType.make, NumericType.between] at h
    split at h
    · cases h
      exact ⟨rfl, rfl, rfl, rfl⟩
    · cases h

/-- An array of a numeric type binds the full name of its base. -/
lemma isNumericArray_of_numericArrayOf (h : n.arrayOf dim = .ok u) :
    u.element = some n ∧ u.IsNumericArray n := by
  obtain ⟨a, ha, hu⟩ := bind_eq_ok_iff.1 h
  obtain ⟨name, hname, rfl⟩ := arrayOf_eq_ok_iff.1 ha
  cases hu
  exact ⟨rfl, rfl, rfl, name, name, dim, hname, .self, rfl⟩

/-- An array of a type without a record binds the full name of this type, and if it records a
numeric type, then this type is its base. -/
lemma isNumericArray_of_element_eq_none (ht : t.element = none) (h : t.arrayOf dim = .ok u)
    (hn : u.element = some n) : u.IsNumericArray n := by
  obtain ⟨name, hname, rfl⟩ := arrayOf_eq_ok_iff.1 h
  have hinnermost : t.innermost = some n := hn
  rw [innermost, ht] at hinnermost
  cases hk : t.primitive with
  | none => simp [hk] at hinnermost
  | some k =>
    simp only [hk, Option.some.injEq] at hinnermost
    refine ⟨rfl, rfl, name, name, dim, ?_, .self, rfl⟩
    rw [← hinnermost]
    exact hname

/-- An array of an array with a record puts one more array around what is bound. -/
lemma isNumericArray_of_isNumericArray (ht : t.IsNumericArray n) (hscope : t.scope = "std")
    (h : t.arrayOf dim = .ok u) : u.IsNumericArray n := by
  obtain ⟨name, text, hname, htext, hfull⟩ := ht.fullName hscope
  obtain ⟨text', hfull', rfl⟩ := arrayOf_eq_ok_iff.1 h
  cases hfull.symm.trans hfull'
  exact ⟨rfl, rfl, name, text, dim, hname, htext, rfl⟩

/-- **One operation keeps the record and the arguments together.** If what a type records is an
array of its first argument, so is what the type made of it records, provided that the operation
leaves the record alone. -/
lemma Operation.isNumericArray_apply {op : Operation} (hop : t.KeepsRecord op)
    (h : op.apply t = .ok u) (ht : ∀ n, t.element = some n → t.IsNumericArray n) :
    ∀ n, u.element = some n → u.IsNumericArray n := by
  intro n hn
  cases op with
  | withScope scope =>
    cases h
    obtain ⟨hname, harity, hargs⟩ := ht n hn
    exact ⟨hname, harity, hargs⟩
  | withHeader header =>
    cases h
    obtain ⟨hname, harity, hargs⟩ := ht n hn
    exact ⟨hname, harity, hargs⟩
  | withParams params =>
    cases h
    exact nomatch hop.symm.trans hn
  | withArity arity =>
    cases h
    exact nomatch hop.symm.trans hn
  | specialize args =>
    obtain ⟨-, texts, -, rfl⟩ := specialize_eq_ok_iff.1 h
    exact nomatch hop.symm.trans hn
  | arrayOf dim =>
    cases helement : t.element with
    | none => exact isNumericArray_of_element_eq_none helement h hn
    | some m =>
      have hscope : t.scope = "std" := hop.resolve_left (by simp [helement])
      rw [element_of_arrayOf h, innermost_of_element helement] at hn
      cases hn
      exact isNumericArray_of_isNumericArray (ht n helement) hscope h
  | numericArrayOf origin dim =>
    obtain ⟨m, -, hu⟩ := bind_eq_ok_iff.1 h
    obtain ⟨helement, harray⟩ := isNumericArray_of_numericArrayOf hu
    cases helement.symm.trans hn
    exact harray
  | numericBase origin =>
    obtain ⟨m, hm, hu⟩ := bind_eq_ok_iff.1 h
    cases hu
    obtain ⟨helement, hname, harity, hargs⟩ := make_eq_ok hm
    rw [helement] at hn
    obtain ⟨hname', harity', hargs'⟩ := ht n hn
    exact ⟨hname.trans hname', harity.trans harity', by rw [hargs]; exact hargs'⟩

end

/-! ## Sequences of operations -/

/-- **Recorded elements are bound.** Where every operation leaves alone what a type records, the
first argument of a type names the recorded numeric type, possibly inside further arrays, and so
the members of a tuple default are checked against the type that the array binds.

**Proof sketch.** Induction on the operations. A bare name records nothing, and one operation after
another keeps what a type records an array of its first argument. -/
theorem recorded_elements_bound {t : TypeDescriptor} (h : Built KeepsRecord t) :
    (∀ n, t.element = some n → t.BindsTo n) ∧
      ∀ f : Field, f.type = .plain t → ∀ n, Check.defaultType? f = some n → t.BindsTo n := by
  have harray : ∀ n, t.element = some n → t.IsNumericArray n := by
    induction h with
    | named name => exact nofun
    | standard name header => exact nofun
    | step op _ hop hu ih => exact Operation.isNumericArray_apply hop hu ih
  have hbinds : ∀ n, t.element = some n → t.BindsTo n := by
    intro n hn
    exact (harray n hn).bindsTo
  refine ⟨hbinds, ?_⟩
  intro f hf n hn
  rcases Check.defaultType?_eq_some_iff.1 hn with hnumeric | ⟨u, vs, hu, -, helement⟩
  · cases hf.symm.trans hnumeric
  · cases hf.symm.trans hu
    exact hbinds n helement

/-- An array of arrays of percentages, whose inner array is given a header and whose outer array is
moved into another namespace. -/
theorem recorded_elements_bound_moved :
    let percent : NumericType := ⟨.named "percent", .between (.integral 0 100)⟩
    ∃ row matrix : TypeDescriptor, percent.arrayOf 4 = .ok row ∧
      (row.withHeader "percent").arrayOf 3 = .ok matrix ∧
      Built KeepsRecord (matrix.withScope "math") ∧
      (matrix.withScope "math").element = some percent ∧
      (matrix.withScope "math").BindsTo percent := by
  intro percent
  refine ⟨_, _, rfl, rfl, ?_⟩
  have hrow : Built KeepsRecord _ :=
    .step (.numericArrayOf (.bounds (.int 0) (.int 100)) 4) (.named "percent") trivial rfl
  have hmatrix : Built KeepsRecord _ :=
    .step (.arrayOf 3) (.step (.withHeader "percent") hrow trivial rfl) (.inr rfl) rfl
  have hmoved : Built KeepsRecord _ := .step (.withScope "math") hmatrix trivial rfl
  exact ⟨hmoved, rfl, (recorded_elements_bound hmoved).1 percent rfl⟩

/-- An array of two bytes is bound to 32-bit integers, and still records bytes: the analysis rejects
a default that the array can hold. -/
theorem recorded_element_outlives_binding :
    let byte := NumericType.builtin .u8
    let word := NumericType.builtin .i32
    let bytes : TypeDescriptor :=
      { arrayTemplate with
        args := ["std::uint8_t", Decimal.natural 2]
        headers := arrayTemplate.headers.union byte.base.headers
        element := some byte }
    let words : TypeDescriptor :=
      { bytes with
        args := ["std::int32_t", "2"]
        headers := bytes.headers.union word.base.headers }
    byte.base.arrayOf 2 = .ok bytes ∧
      bytes.specialize [.type word.base, .literal "2"] = .ok words ∧
      Built (fun _ _ => True) words ∧ words.fullName = .ok "std::array<std::int32_t, 2>" ∧
      words.element = some byte ∧ ¬ words.BindsTo byte ∧
      analyze [{ name := "S", entries :=
          [.field ⟨.plain words, "a", none, some (.aggregate [.int 300, .int 1]), none⟩] }] =
        [.defaultOutOfBounds ⟨"S", "a"⟩ (.int 300) "std::uint8_t" (.integral 0 255)] := by
  intro byte word bytes words
  have harray : byte.base.arrayOf 2 = .ok bytes :=
    arrayOf_eq_ok_iff.2 ⟨"std::uint8_t", by decide, rfl⟩
  have hwords : bytes.specialize [.type word.base, .literal "2"] = .ok words :=
    specialize_eq_ok_iff.2 ⟨rfl, ["std::int32_t", "2"], by decide, rfl⟩
  refine ⟨harray, hwords, ?_, by decide, rfl, ?_, by decide⟩
  · have hbyte : Built (fun _ _ => True) byte.base :=
      .step (.numericBase (.kind .u8)) (.standard "uint8_t" "cstdint") trivial rfl
    have hbytes : Built (fun _ _ => True) bytes := .step (.arrayOf 2) hbyte trivial harray
    exact .step (.specialize _) hbytes trivial hwords
  · rintro ⟨name, first, rest, hname, hargs, hinner⟩
    cases hargs
    have hbyte : byte.base.fullName = .ok "std::uint8_t" := by decide
    cases hbyte.symm.trans hname
    generalize htext : "std::int32_t" = text at hinner
    cases hinner with
    | self => exact absurd htext (by decide)
    | array dim _ =>
      have hchars := congrArg String.toList htext
      simp [String.toList_append] at hchars

end TypeDescriptor

end VersionedLayout
