import VersionedLayout.Proofs.Arrays
import VersionedLayout.Proofs.WellFormed
set_option autoImplicit false

/-!
# Accepted defaults are values of their type

The analysis compares the scalars of a default with the bounds of a numeric type: with those of the
field, or, for a tuple on an array, with those of its innermost elements. For an accepted schema
this means that an integer type initialised by the default can hold it, whether the type is that of
the field or stands inside arrays of any number of dimensions.

## Main definitions

* `VersionedLayout.PrimitiveKind.Holds` — the integers of a kind.
* `VersionedLayout.Field.InitialisedAs` — the scalars of the default of a field are given to values
  of a numeric type.

## Main results

* `VersionedLayout.NumericType.admits_primitive_iff` — the values of primitive integer types.
* `VersionedLayout.admits_of_analyze` — the scalars of accepted defaults lie within the bounds.
* `VersionedLayout.accepted_integer_defaults_fit` — accepted defaults of integer types are integers
  of these types.
-/

namespace VersionedLayout

/-! ## Integers of a type -/

/-- The integers that the representation of an integral kind holds: those of its width in two's
complement, or those without a sign. -/
def PrimitiveKind.Holds (k : PrimitiveKind) (m : Int) : Prop :=
  if k.isSigned then -Int.pow 2 (k.width - 1) ≤ m ∧ m < Int.pow 2 (k.width - 1)
  else 0 ≤ m ∧ m < Int.pow 2 k.width

/-- The bounds of an integral kind are those of its width in two's complement or without a sign. -/
lemma PrimitiveKind.bounds_of_isIntegral {k : PrimitiveKind} (h : k.isIntegral = true) :
    k.bounds =
      if k.isSigned then .integral (-Int.pow 2 (k.width - 1)) (Int.pow 2 (k.width - 1) - 1)
      else .integral 0 (Int.pow 2 k.width - 1) := by
  cases k with
  | f32 => cases h
  | f64 => cases h
  | _ => rfl

namespace NumericType

/-- **The values of a primitive integer type** are the integers that its representation holds. -/
theorem admits_primitive_iff {k : PrimitiveKind} (h : k.isIntegral = true) {base : TypeDescriptor}
    {v : Value} : (primitive k base).admits v = true ↔ ∃ m, v = .int m ∧ k.Holds m := by
  have hbounds : (primitive k base).bounds = k.bounds := rfl
  rw [admits, hbounds, PrimitiveKind.bounds_of_isIntegral h]
  unfold PrimitiveKind.Holds
  split
  · rw [Bounds.admits_integral]
    exact exists_congr fun m => and_congr_right fun _ => and_congr_right fun _ => Int.le_sub_one_iff
  · rw [Bounds.admits_integral]
    exact exists_congr fun m => and_congr_right fun _ => and_congr_right fun _ => Int.le_sub_one_iff

/-- The values of a type with integers as its bounds are the integers between them. -/
lemma admits_between_iff {base : TypeDescriptor} {low high : Int} {n : NumericType}
    (h : between base (.int low) (.int high) = .ok n) {v : Value} :
    n.admits v = true ↔ ∃ m, v = .int m ∧ low ≤ m ∧ m ≤ high := by
  cases h
  exact Bounds.admits_integral

end NumericType

/-! ## Accepted defaults -/

/-- The scalars of the default `dv` of a field are given to values of a numeric type: the field has
this type itself, or the default is a tuple and the field is an array with these elements. -/
def Field.InitialisedAs (f : Field) (dv : DefaultValue) (n : NumericType) : Prop :=
  f.default = some dv ∧ (f.type = .numeric n ∨
    (∃ vs, dv = .aggregate vs) ∧ ∃ t, f.type = .plain t ∧ t.element = some n)

/-- **The scalars of accepted defaults lie within the bounds**, unless they are expressions. -/
theorem admits_of_analyze {ds : List StructDecl} (h : analyze ds = []) {d : StructDecl}
    (hd : d ∈ ds) {rs : List VersionRange} {f : Field} (hf : Entry.Stands (.field f) rs d.entries)
    {dv : DefaultValue} {n : NumericType} (hn : f.InitialisedAs dv n) {v : Value}
    (hv : v ∈ dv.values) (hexpr : v.isExpr = false) : n.admits v = true := by
  have htyped : f.WellTyped := wellTyped_of_analyze h hd hf
  obtain ⟨hdefault, hnumeric | ⟨⟨vs, rfl⟩, t, ht, helement⟩⟩ := hn
  · exact htyped.default_admitted dv n hdefault hnumeric v hv hexpr
  · exact htyped.members_admitted vs t n hdefault ht helement v hv hexpr

/-- **Accepted defaults of integer types fit into them.** In an accepted schema, a scalar of the
default of a field is an expression or an integer of the type that it initialises, where this type
is

* a primitive integer type, or such a type inside arrays, to which either way leads if its base is
  no array already, or
* a type with two integers as its bounds, or such a type inside arrays.

**Proof sketch.** An array remembers the numeric type of its innermost elements however many arrays
are put around it, and for a primitive type it does not matter whether the first array is made of
the numeric type or of its base. The analysis asks for the bounds of the remembered type. -/
theorem accepted_integer_defaults_fit {ds : List StructDecl} (h : analyze ds = []) :
    ∀ d ∈ ds, ∀ rs f, Entry.Stands (.field f) rs d.entries →
      ∀ dv, f.default = some dv → ∀ v ∈ dv.values, v.isExpr = false →
        (∀ k base, k.isIntegral = true →
          (f.type = .numeric (.primitive k base) ∨
            base.element = none ∧ (∃ vs, dv = .aggregate vs) ∧ ∃ t dim dims, f.type = .plain t ∧
              ((NumericType.primitive k base).nestedArray dim dims = .ok t ∨
                (NumericType.primitive k base).base.nestedIn (dim :: dims) = .ok t)) →
          ∃ m, v = .int m ∧ k.Holds m) ∧
        (∀ base low high n, NumericType.between base (.int low) (.int high) = .ok n →
          (f.type = .numeric n ∨
            (∃ vs, dv = .aggregate vs) ∧ ∃ t dim dims, f.type = .plain t ∧
              n.nestedArray dim dims = .ok t) →
          ∃ m, v = .int m ∧ low ≤ m ∧ m ≤ high) := by
  intro d hd rs f hf dv hdv v hv hexpr
  have hadmits : ∀ {n}, f.InitialisedAs dv n → n.admits v = true := fun hn =>
    admits_of_analyze h hd hf hn hv hexpr
  refine ⟨fun k base hk htype => ?_, fun base low high n hn htype => ?_⟩
  · have hinitialised : f.InitialisedAs dv (.primitive k base) := by
      refine ⟨hdv, ?_⟩
      obtain hnumeric | ⟨hbase, htuple, t, dim, dims, ht, harray⟩ := htype
      · exact .inl hnumeric
      · rw [NumericType.nestedIn_primitive hbase, or_self] at harray
        exact .inr ⟨htuple, t, ht, NumericType.element_of_nestedArray harray⟩
    exact (NumericType.admits_primitive_iff hk).1 (hadmits hinitialised)
  · have hinitialised : f.InitialisedAs dv n := by
      refine ⟨hdv, ?_⟩
      obtain hnumeric | ⟨htuple, t, dim, dims, ht, harray⟩ := htype
      · exact .inl hnumeric
      · exact .inr ⟨htuple, t, ht, NumericType.element_of_nestedArray harray⟩
    exact (NumericType.admits_between_iff hn).1 (hadmits hinitialised)

/-- In a block inside a block of an accepted struct: an array of arrays of 16-bit integers, made
from the base of their type, and an array of percentages. The defaults are tuples, the first of
which ends with the least 16-bit integer. -/
theorem accepted_integer_defaults_fit_nested :
    let percent : NumericType := ⟨.named "percent", .between (.integral 0 100)⟩
    NumericType.between (.named "percent") (.int 0) (.int 100) = .ok percent ∧
    ∃ matrix row,
      (NumericType.builtin .i16).base.nestedIn [2, 3] = .ok matrix ∧
      percent.nestedArray 4 [] = .ok row ∧
      let a : Field := ⟨.plain matrix, "a", none,
        some (.aggregate [.int 7, .expr "X", .int (-32768)]), none⟩
      let b : Field := ⟨.plain row, "b", none, some (.aggregate [.int 0, .int 100]), none⟩
      let d : StructDecl :=
        { name := "D", versions := some ⟨.classic, .any⟩,
          entries := [.block ⟨.tbc, .any⟩ [.block ⟨.df, .df⟩ [.field a, .field b]]] }
      analyze [d] = [] ∧
      Entry.Stands (.field a) [⟨.tbc, .any⟩, ⟨.df, .df⟩] d.entries ∧
      Entry.Stands (.field b) [⟨.tbc, .any⟩, ⟨.df, .df⟩] d.entries ∧
      (∃ m, Value.int (-32768) = .int m ∧ PrimitiveKind.i16.Holds m) ∧
      ∃ m, Value.int 100 = .int m ∧ 0 ≤ m ∧ m ≤ 100 := by
  intro percent
  refine ⟨rfl, _, _, rfl, rfl, ?_⟩
  intro a b d
  have haccepted : analyze [d] = [] := by decide
  have ha : Entry.Stands (.field a) [⟨.tbc, .any⟩, ⟨.df, .df⟩] d.entries :=
    .inside List.mem_cons_self (.inside List.mem_cons_self (.here List.mem_cons_self))
  have hb : Entry.Stands (.field b) [⟨.tbc, .any⟩, ⟨.df, .df⟩] d.entries :=
    .inside List.mem_cons_self (.inside List.mem_cons_self
      (.here (List.mem_cons_of_mem _ List.mem_cons_self)))
  refine ⟨haccepted, ha, hb, ?_, ?_⟩
  · have hfits := accepted_integer_defaults_fit haccepted d List.mem_cons_self _ a ha _ rfl
      (.int (-32768)) (by decide) rfl
    exact hfits.1 .i16 (.standard "int16_t" "cstdint") rfl
      (.inr ⟨rfl, ⟨_, rfl⟩, _, 2, [3], rfl, .inr rfl⟩)
  · have hfits := accepted_integer_defaults_fit haccepted d List.mem_cons_self _ b hb _ rfl
      (.int 100) (by decide) rfl
    exact hfits.2 (.named "percent") 0 100 percent rfl (.inr ⟨⟨_, rfl⟩, _, 4, [], rfl, rfl⟩)

end VersionedLayout
