import VersionedLayout.Proofs.Specialization
set_option autoImplicit false

/-!
# Arrays of numeric values

An array remembers the numeric type of its innermost elements, whatever the number of its
dimensions. It learns of it in two ways: an array of a numeric type takes this type, and an array
of a bare type asks the bare type, which knows when it is an array itself or the base of a
primitive numeric type. For primitive numeric types the two ways lead to the same arrays. Only the
name of the elements can be missing: once there is an array, there are arrays of it.

## Main definitions

* `VersionedLayout.TypeDescriptor.arrayName` — the name of an array.
* `VersionedLayout.TypeDescriptor.nestedIn` — a type as the element of arrays of arrays.
* `VersionedLayout.NumericType.nestedArray` — an array of a numeric type inside such arrays.

## Main results

* `VersionedLayout.TypeDescriptor.arrayOf_eq_ok_iff`,
  `VersionedLayout.TypeDescriptor.arrayOf_eq_error_iff` — what an array is, and when there is none.
* `VersionedLayout.TypeDescriptor.exists_nestedIn` — name and headers of arrays of arrays.
* `VersionedLayout.NumericType.element_of_nestedArray` — the elements keep their numeric type.
* `VersionedLayout.NumericType.nestedIn_primitive` — the two ways to primitive arrays agree.
* `VersionedLayout.NumericType.nestedArray_describes_elements` — arrays of numeric elements.
-/

namespace VersionedLayout

namespace TypeDescriptor

variable {t u : TypeDescriptor} {n : NumericType} {dim : Nat} {dims : List Nat}

/-! ## One dimension -/

/-- An array is the template of arrays, bound to the full name of the elements and to their
number. -/
lemma arrayOf_eq (t : TypeDescriptor) (dim : Nat) :
    t.arrayOf dim = t.fullName >>= fun name => .ok { arrayTemplate with
      args := [name, Decimal.natural dim]
      headers := arrayTemplate.headers.union t.headers
      element := t.innermost } := by
  have harity : [TemplateArg.type t, .literal (Decimal.natural dim)].length =
      arrayTemplate.arity := rfl
  rw [arrayOf, specialize, if_pos harity]
  simp only [List.mapM_cons, List.mapM_nil, TemplateArg.text]
  cases t.fullName <;> rfl

/-- **What an array is**: the template of arrays, bound to the full name of the elements and to
their number, with the headers of both and with the innermost elements of the type. -/
theorem arrayOf_eq_ok_iff :
    t.arrayOf dim = .ok u ↔ ∃ name, t.fullName = .ok name ∧
      u = { arrayTemplate with
        args := [name, Decimal.natural dim]
        headers := arrayTemplate.headers.union t.headers
        element := t.innermost } := by
  rw [arrayOf_eq, bind_eq_ok_iff]
  simp only [Except.ok.injEq, eq_comm]

/-- There is no array of a type without a full name, and there is one of every other type. -/
theorem arrayOf_eq_error_iff {e : SchemaError} :
    t.arrayOf dim = .error e ↔ t.fullName = .error e := by
  rw [arrayOf_eq, ← failure?_eq_some_iff, failure?_bind fun _ => failure?_ok _, Option.or_none,
    failure?_eq_some_iff]

/-- An array has the elements of what it is an array of, down to the innermost. -/
lemma element_of_arrayOf (h : t.arrayOf dim = .ok u) : u.element = t.innermost := by
  obtain ⟨name, -, rfl⟩ := arrayOf_eq_ok_iff.1 h
  rfl

/-- The name of an array, given that of its elements and its length in decimal. -/
def arrayName (elements : String) (dim : Nat) : String :=
  "std::array<" ++ elements ++ ", " ++ Decimal.natural dim ++ ">"

/-- The name of an array is that of the template with the name of the elements and the dimension in
brackets. -/
lemma arrayName_eq (elements : String) (dim : Nat) :
    arrayName elements dim = "std::array" ++ bracketed [elements, Decimal.natural dim] := by
  have hprefix : "std::array" ++ "<" = "std::array<" := rfl
  rw [arrayName, ← hprefix, bracketed, String.intercalate_cons_cons, String.intercalate_singleton]
  simp only [String.append_assoc]

/-- The name and the headers of an array. -/
lemma exists_arrayOf {name : String} (hname : t.fullName = .ok name) (dim : Nat) :
    ∃ u, t.arrayOf dim = .ok u ∧ u.fullName = .ok (arrayName name dim) ∧
      ∀ h, h ∈ u.headers ↔ h = "array" ∨ h ∈ t.headers := by
  refine ⟨_, arrayOf_eq_ok_iff.2 ⟨name, hname, rfl⟩,
    fullName_eq_ok_iff.2 ⟨rfl, arrayName_eq name dim⟩, fun h => ?_⟩
  have harray : h ∈ arrayTemplate.headers ↔ h = "array" := by
    simp [arrayTemplate, standard, withArity, withHeader, withScope, named]
  rw [HeaderSet.mem_union, harray]

/-- An array passes on the numeric type of its elements. -/
lemma innermost_of_element (h : t.element = some n) : t.innermost = some n := by
  rw [innermost, h]

/-! ## Several dimensions -/

/-- Arrays of arrays, one dimension around the other, the innermost first. -/
def nestedIn (t : TypeDescriptor) (dims : List Nat) : Except SchemaError TypeDescriptor :=
  dims.foldlM arrayOf t

/-- The first dimension is the innermost one. -/
lemma nestedIn_cons (t : TypeDescriptor) (dim : Nat) (dims : List Nat) :
    t.nestedIn (dim :: dims) = t.arrayOf dim >>= fun a => a.nestedIn dims :=
  List.foldlM_cons

/-- Further dimensions leave the numeric type of the elements alone. -/
lemma element_of_nestedIn (ht : t.element = some n) (h : t.nestedIn dims = .ok u) :
    u.element = some n := by
  induction dims generalizing t with
  | nil =>
    cases h
    exact ht
  | cons dim dims ih =>
    rw [nestedIn_cons] at h
    obtain ⟨a, ha, hu⟩ := bind_eq_ok_iff.1 h
    have hkept : a.element = some n := by
      rw [element_of_arrayOf ha, innermost_of_element ht]
    exact ih hkept hu

/-- **Arrays of arrays** can be made of any array. Each dimension stands around the name of what it
is made of, and adds no header. -/
theorem exists_nestedIn {name : String} (hname : t.fullName = .ok name)
    (harray : "array" ∈ t.headers) (dims : List Nat) :
    ∃ u, t.nestedIn dims = .ok u ∧ u.fullName = .ok (dims.foldl arrayName name) ∧
      ∀ h, h ∈ u.headers ↔ h ∈ t.headers := by
  induction dims generalizing t name with
  | nil => exact ⟨t, rfl, hname, fun _ => Iff.rfl⟩
  | cons dim dims ih =>
    obtain ⟨a, ha, haname, haheaders⟩ := exists_arrayOf hname dim
    obtain ⟨u, hu, huname, huheaders⟩ := ih haname ((haheaders _).2 (.inl rfl))
    refine ⟨u, by rw [nestedIn_cons, ha, ok_bind, hu], huname, fun h => ?_⟩
    rw [huheaders, haheaders]
    exact or_iff_right_of_imp fun h => h ▸ harray

/-! ## Equality -/

/-- A type equals itself if the numeric type of its elements does. -/
lemma same_self (h : ∀ n, t.element = some n → n.same n = true) : t.same t = true := by
  obtain ⟨name, scope, headers, arity, args, primitive, element⟩ := t
  cases element with
  | none => simp [TypeDescriptor.same]
  | some n => simp [TypeDescriptor.same, h n rfl]

end TypeDescriptor

namespace NumericType

/-! ## Numeric elements -/

/-- An array of a numeric type, inside arrays of arrays. -/
def nestedArray (n : NumericType) (dim : Nat) (dims : List Nat) :
    Except SchemaError TypeDescriptor :=
  n.arrayOf dim >>= fun a => a.nestedIn dims

/-- **The elements keep their numeric type** in arrays of any number of dimensions. -/
theorem element_of_nestedArray {n : NumericType} {dim : Nat} {dims : List Nat} {t : TypeDescriptor}
    (h : n.nestedArray dim dims = .ok t) : t.element = some n := by
  obtain ⟨a, ha, ht⟩ := bind_eq_ok_iff.1 h
  obtain ⟨array, -, hfirst⟩ := bind_eq_ok_iff.1 ha
  have hkept : a.element = some n := by
    cases hfirst
    rfl
  exact TypeDescriptor.element_of_nestedIn hkept ht

section

variable {kind : PrimitiveKind} {base : TypeDescriptor}

/-- The base of a primitive numeric type stands for the numeric type, unless it is an array
itself. -/
lemma innermost_primitive (h : base.element = none) :
    (primitive kind base).base.innermost = some (primitive kind base) := by
  simp [primitive, TypeDescriptor.innermost, h]

/-- An array of a primitive type is an array of its base. -/
lemma arrayOf_primitive (h : base.element = none) (dim : Nat) :
    (primitive kind base).arrayOf dim = (primitive kind base).base.arrayOf dim := by
  rw [arrayOf]
  cases harray : (primitive kind base).base.arrayOf dim with
  | error e => rfl
  | ok a =>
    have helement : a.element = some (primitive kind base) := by
      rw [TypeDescriptor.element_of_arrayOf harray, innermost_primitive h]
    rw [ok_bind, ← helement]
    cases a
    rfl

/-- **The two ways to arrays of a primitive numeric type agree**, from the numeric type and from its
base, whatever the dimensions. -/
theorem nestedIn_primitive (h : base.element = none) (dim : Nat) (dims : List Nat) :
    (primitive kind base).base.nestedIn (dim :: dims) =
      (primitive kind base).nestedArray dim dims := by
  rw [TypeDescriptor.nestedIn_cons, nestedArray, arrayOf_primitive h]

/-- A primitive numeric type equals itself. -/
lemma same_primitive (h : base.element = none) :
    (primitive kind base).same (primitive kind base) = true := by
  have hbase : (primitive kind base).base.same (primitive kind base).base = true :=
    TypeDescriptor.same_self fun n hn => nomatch h.symm.trans hn
  rw [primitive] at hbase ⊢
  simp [NumericType.same, NumericRange.same, hbase]

end

/-- An array of a numeric type takes the name and the headers of its base. -/
lemma exists_arrayOf {n : NumericType} {name : String} (hname : n.base.fullName = .ok name)
    (dim : Nat) : ∃ a, n.arrayOf dim = .ok a ∧
      a.fullName = .ok (TypeDescriptor.arrayName name dim) ∧
      ∀ h, h ∈ a.headers ↔ h = "array" ∨ h ∈ n.base.headers := by
  obtain ⟨a, ha, haname, haheaders⟩ := TypeDescriptor.exists_arrayOf hname dim
  refine ⟨{ a with element := some n }, ?_, ?_, haheaders⟩
  · rw [arrayOf, ha]
    rfl
  · exact haname

/-- **Arrays of numeric elements**, of any number of dimensions.

* There is none exactly when the base of the elements has no full name, which is then the error.
* Otherwise the elements keep their numeric type, base and bounds and kind. The dimensions stand
  around the name of the base, and the headers are those of the base and that of arrays.
* For a primitive type whose base is no array itself, the same arrays are made of its base.

**Proof sketch.** The first array has a name as soon as its elements have one, and every further
dimension finds the name, the header and the elements of the one before. -/
theorem nestedArray_describes_elements (n : NumericType) (dim : Nat) (dims : List Nat) :
    (∀ e, n.nestedArray dim dims = .error e ↔ n.base.fullName = .error e) ∧
    (∀ name, n.base.fullName = .ok name → ∃ t, n.nestedArray dim dims = .ok t ∧
      t.element = some n ∧ t.fullName = .ok ((dim :: dims).foldl TypeDescriptor.arrayName name) ∧
      ∀ h, h ∈ t.headers ↔ h = "array" ∨ h ∈ n.base.headers) ∧
    ∀ k base, n = primitive k base → base.element = none →
      n.base.nestedIn (dim :: dims) = n.nestedArray dim dims ∧
        ∀ t, n.nestedArray dim dims = .ok t → t.same t = true := by
  have hok : ∀ name, n.base.fullName = .ok name → ∃ t, n.nestedArray dim dims = .ok t ∧
      t.element = some n ∧ t.fullName = .ok ((dim :: dims).foldl TypeDescriptor.arrayName name) ∧
      ∀ h, h ∈ t.headers ↔ h = "array" ∨ h ∈ n.base.headers := by
    intro name hname
    obtain ⟨a, ha, haname, haheaders⟩ := exists_arrayOf hname dim
    obtain ⟨t, ht, htname, htheaders⟩ :=
      TypeDescriptor.exists_nestedIn haname ((haheaders _).2 (.inl rfl)) dims
    have hnested : n.nestedArray dim dims = .ok t := by rw [nestedArray, ha, ok_bind, ht]
    refine ⟨t, hnested, element_of_nestedArray hnested, htname, fun h => ?_⟩
    rw [htheaders, haheaders]
  have hfails : ∀ {e}, n.base.fullName = .error e → n.nestedArray dim dims = .error e := by
    intro e he
    rw [nestedArray, arrayOf, TypeDescriptor.arrayOf_eq_error_iff.2 he]
    rfl
  refine ⟨fun e => ⟨fun h => ?_, hfails⟩, hok, ?_⟩
  · cases hname : n.base.fullName with
    | ok name =>
      obtain ⟨t, ht, -⟩ := hok name hname
      cases h.symm.trans ht
    | error e' =>
      cases (hfails hname).symm.trans h
      rfl
  · rintro k base rfl hbase
    refine ⟨nestedIn_primitive hbase dim dims, fun t ht => TypeDescriptor.same_self fun n hn => ?_⟩
    cases (element_of_nestedArray ht).symm.trans hn
    exact same_primitive hbase

/-- A matrix of percentages, a matrix of bytes that is made in two ways, and an array of a template
without arguments. -/
theorem nestedArray_describes_elements_matrix :
    let percent : NumericType := ⟨.standard "percent" "ratio", .between (.integral 0 100)⟩
    let byte := builtin .u8
    let loose : NumericType := ⟨(TypeDescriptor.named "loose").withArity 1, .between (.integral 0 1)⟩
    (∃ t, percent.nestedArray 4 [12] = .ok t ∧ t.element = some percent ∧
      t.fullName = .ok "std::array<std::array<std::percent, 4>, 12>" ∧ "ratio" ∈ t.headers) ∧
    (∃ t, byte.base.nestedIn [4, 12] = .ok t ∧ t.element = some byte ∧ t.same t = true) ∧
    loose.nestedArray 4 [12] = .error (.arity "loose" 1 0) := by
  intro percent byte loose
  refine ⟨?_, ?_, ?_⟩
  · obtain ⟨t, ht, helement, hname, hheaders⟩ :=
      (nestedArray_describes_elements percent 4 [12]).2.1 "std::percent" (by decide)
    exact ⟨t, ht, helement, hname.trans (by cbv),
      (hheaders _).2 (.inr (HeaderSet.mem_toList.1 (by decide)))⟩
  · obtain ⟨-, hok, hprimitive⟩ := nestedArray_describes_elements byte 4 [12]
    obtain ⟨t, ht, helement, -, -⟩ := hok "std::uint8_t" (by decide)
    obtain ⟨hsame, hself⟩ := hprimitive .u8 (.standard "uint8_t" "cstdint") rfl rfl
    exact ⟨t, hsame.trans ht, helement, hself t ht⟩
  · exact ((nestedArray_describes_elements loose 4 [12]).1 _).2 (by decide)

end NumericType

end VersionedLayout
