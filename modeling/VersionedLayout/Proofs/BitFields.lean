import VersionedLayout.Proofs.WellFormed
set_option autoImplicit false

/-!
# Accepted bit-fields

The width of a bit-field is checked against the primitive kind of its type. A kind tells whether
its values are integers and how many bits they have, and an accepted bit-field of a known kind is
an integer that is wide enough. A numeric type that is given by its bounds has no kind, and of its
bit-fields only those without a bit are reported. They may be floating-point values: among the
accepted bit-fields of numeric types, those that are no integers are exactly the ones between two
floating bounds.

## Main definitions

* `VersionedLayout.StructDecl.HasBitField` — a struct has a bit-field of a numeric type.

## Main results

* `VersionedLayout.accepted_bitFields` — the accepted bit-fields of numeric types.
-/

namespace VersionedLayout

namespace NumericType

variable {n : NumericType} {k : PrimitiveKind}

/-- The values of a type of known kind are integers when those of the kind are. -/
lemma isIntegral_of_kind? (h : n.kind? = some k) : n.isIntegral = k.isIntegral := by
  rw [kind?] at h
  rw [isIntegral, bounds]
  cases hrange : n.range with
  | primitive l =>
    rw [hrange] at h
    cases h
    exact PrimitiveKind.isIntegral_bounds _
  | between b =>
    rw [hrange] at h
    cases h

/-- A type that is given by two bounds has no kind. -/
lemma kind?_of_between {base : TypeDescriptor} {low high : Value}
    (h : between base low high = .ok n) : n.kind? = none := by
  rw [between] at h
  split at h
  · cases h
    rfl
  · cases h

/-- A type without a kind is given by two bounds, and its values are no integers when these are
floating-point values. -/
lemma isIntegral_eq_false_iff_of_kind? (h : n.kind? = none) :
    n.isIntegral = false ↔
      ∃ base low high, between base (.float low) (.float high) = .ok n := by
  obtain ⟨base, range⟩ := n
  cases range with
  | primitive l => cases h
  | between b =>
    cases b with
    | integral l u =>
      refine iff_of_false (fun hfalse => nomatch hfalse) ?_
      rintro ⟨base', low, high, hn⟩
      cases hn
    | floating l u => exact iff_of_true rfl ⟨base, l, u, rfl⟩

end NumericType

/-- A struct has, at some depth, a bit-field of the given width and numeric type. -/
def StructDecl.HasBitField (d : StructDecl) (b : Nat) (n : NumericType) : Prop :=
  ∃ rs f, Entry.Stands (.field f) rs d.entries ∧ f.bits = some b ∧ f.type = .numeric n

/-- **Accepted bit-fields of numeric types** have a bit. Those of a primitive kind hold integers and
fit into the kind. Those that do not hold integers are the ones whose type is given by two floating
bounds.

**Proof sketch.** Where the kind of the type is known, the analysis asks it. Where it is not, the
type is given by two bounds of one kind, which say whether its values are integers. -/
theorem accepted_bitFields {ds : List StructDecl} (h : analyze ds = []) {d : StructDecl}
    (hd : d ∈ ds) {b : Nat} {n : NumericType} (hbits : d.HasBitField b n) :
    0 < b ∧ (∀ k base, n = .primitive k base → n.isIntegral = true ∧ b ≤ k.width) ∧
      (n.isIntegral = false ↔
        ∃ base low high, NumericType.between base (.float low) (.float high) = .ok n) := by
  obtain ⟨rs, f, hf, hb, htype⟩ := hbits
  have htyped : f.WellTyped := wellTyped_of_analyze h hd hf
  have hfits : ∀ k, n.kind? = some k → k.isIntegral = true ∧ b ≤ k.width := fun k hk =>
    htyped.bits_fit b n k hb htype hk
  refine ⟨Nat.pos_of_ne_zero (htyped.bits_ne_zero b hb), ?_, ?_⟩
  · rintro k base rfl
    obtain ⟨hintegral, hwidth⟩ := hfits k rfl
    exact ⟨(NumericType.isIntegral_of_kind? rfl).trans hintegral, hwidth⟩
  · cases hk : n.kind? with
    | none => exact NumericType.isIntegral_eq_false_iff_of_kind? hk
    | some k =>
      have hintegral : n.isIntegral = true :=
        (NumericType.isIntegral_of_kind? hk).trans (hfits k hk).1
      refine iff_of_false (by simp [hintegral]) ?_
      rintro ⟨base, low, high, hn⟩
      rw [NumericType.kind?_of_between hn] at hk
      cases hk

/-- A struct with a bit-field of three bits inside two blocks, and one of five bits for the numbers
between zero and one. -/
theorem accepted_bitFields_nested :
    let flags : Field := ⟨.numeric (.builtin .u8), "flags", some 3, none, none⟩
    let ratio : NumericType := ⟨.named "ratio", .between (.floating ⟨0⟩ ⟨0x3ff0000000000000⟩)⟩
    let d : StructDecl :=
      { name := "D", versions := some .full,
        entries := [.block ⟨.tbc, .any⟩ [.block ⟨.df, .df⟩ [.field flags]],
          .field ⟨.numeric ratio, "share", some 5, none, none⟩] }
    analyze [d] = [] ∧ d.HasBitField 3 (.builtin .u8) ∧ d.HasBitField 5 ratio ∧
      (NumericType.builtin .u8).isIntegral = true ∧ 3 ≤ PrimitiveKind.u8.width ∧
      (ratio.isIntegral = false ↔
        ∃ base low high, NumericType.between base (.float low) (.float high) = .ok ratio) := by
  intro flags ratio d
  have haccepted : analyze [d] = [] := by decide
  have hflags : d.HasBitField 3 (.builtin .u8) :=
    ⟨_, flags, .inside List.mem_cons_self (.inside List.mem_cons_self (.here List.mem_cons_self)),
      rfl, rfl⟩
  have hshare : d.HasBitField 5 ratio :=
    ⟨[], _, .here (List.mem_cons_of_mem _ List.mem_cons_self), rfl, rfl⟩
  have hkind := (accepted_bitFields haccepted List.mem_cons_self hflags).2.1 .u8 _ rfl
  exact ⟨haccepted, hflags, hshare, hkind.1, hkind.2,
    (accepted_bitFields haccepted List.mem_cons_self hshare).2.2⟩

/-- A bit-field of four bits for the numbers between zero and one is accepted, although its type
holds no integers. -/
theorem floating_bitField_accepted :
    let ratio : NumericType := ⟨.named "ratio", .between (.floating ⟨0⟩ ⟨0x3ff0000000000000⟩)⟩
    let d : StructDecl :=
      { name := "S", entries := [.field ⟨.numeric ratio, "x", some 4, none, none⟩] }
    NumericType.between (.named "ratio") (.float ⟨0⟩) (.float ⟨0x3ff0000000000000⟩) = .ok ratio ∧
      analyze [d] = [] ∧ d.HasBitField 4 ratio ∧ ratio.isIntegral = false := by
  intro ratio d
  exact ⟨rfl, by decide, ⟨[], _, .here List.mem_cons_self, rfl, rfl⟩, rfl⟩

end VersionedLayout
