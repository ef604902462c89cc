import VersionedLayout.Proofs.Flattening
import VersionedLayout.Proofs.Specialization
set_option autoImplicit false

/-!
# Names of types and structs

A type has a full name when its arguments are as many as its parameters. For the types of structs
that is always so once a layout is given: a layout has a version exactly when its struct is a
template, and the version binds the only parameter. The full name of a struct for one of its layouts
is `StructDecl.layoutName`.

## Main definitions

* `VersionedLayout.StructDecl.specialName` — the name of a struct for one of its layouts, inside
  the namespace of the struct.
* `VersionedLayout.StructDecl.layoutName` — this name behind the namespace.

## Main results

* `VersionedLayout.TypeDescriptor.specialize_literals` — binding the parameters to texts.
* `VersionedLayout.StructDecl.exists_layoutType` — the type of a layout exists and has a name.
-/

namespace VersionedLayout

namespace TypeDescriptor

/-! ## Types -/

/-- Texts bind the parameters of a template as they are, and bring no headers. -/
lemma specialize_literals {t : TypeDescriptor} {texts : List String} (h : texts.length = t.arity) :
    t.specialize (texts.map .literal) = .ok { t with args := texts } := by
  have hheaders : (texts.map TemplateArg.literal).foldl (fun hs a => hs.union a.headers)
      t.headers = t.headers := by
    rw [List.foldl_map]
    exact List.foldl_fixed' (fun _ => rfl) texts
  refine specialize_eq_ok_iff.2 ⟨by rw [List.length_map, h], texts, ?_, by rw [hheaders]⟩
  rw [TemplateArg.mapM_text_eq_ok_iff, List.forall₂_map_left_iff, List.forall₂_same]
  exact fun text _ => .literal text

/-- A namespace other than the global one stands in front of a name, with a double colon in
between. -/
lemma qualify_eq (scope name : String) :
    qualify scope name = (if scope.isEmpty then "" else scope ++ "::") ++ name := by
  rw [qualify]
  split
  · rw [String.empty_append]
  · rfl

end TypeDescriptor

namespace StructDecl

/-! ## Structs -/

variable {d : StructDecl}

/-- The type of a struct that is not versioned is named in its namespace. -/
lemma asType_of_not_isVersioned (h : d.isVersioned = false) :
    d.asType = (TypeDescriptor.named d.name).withScope d.scope := by
  simp [asType, h]

/-- The type of a versioned struct is a template with one argument. -/
lemma asType_of_isVersioned (h : d.isVersioned = true) :
    d.asType = ((TypeDescriptor.named d.name).withScope d.scope).withArity 1 := by
  simp [asType, h]

/-- The version binds the only parameter of a versioned struct. -/
lemma specializedType_of_isVersioned (h : d.isVersioned = true) (versionEnum : String)
    (v : Version) :
    d.specializedType versionEnum v =
      .ok { d.asType with args := [versionEnum ++ "::" ++ v.name] } := by
  rw [specializedType, if_pos h]
  have harity : [versionEnum ++ "::" ++ v.name].length = d.asType.arity := by
    rw [asType_of_isVersioned h]
    rfl
  exact TypeDescriptor.specialize_literals harity

/-- The name of a struct inside its namespace: with the version between angle brackets where a
version is given. -/
def specialName (d : StructDecl) (versionEnum : String) : Option Version → String
  | some v => d.name ++ "<" ++ versionEnum ++ "::" ++ v.name ++ ">"
  | none => d.name

/-- The full name of a struct for one of its layouts: the name behind the namespace of the struct,
unless that is the global one. -/
def layoutName (d : StructDecl) (versionEnum : String) (version : Option Version) : String :=
  (if d.scope.isEmpty then "" else d.scope ++ "::") ++ d.specialName versionEnum version

/-- **The type of a layout exists and has a full name**, namely the name of the struct for the
version of the layout, behind the namespace of the struct.

**Proof sketch.** A layout has a version exactly when the struct is versioned. Then the struct is a
template of one parameter, which the version binds. Otherwise it is no template, and its name is
its qualified name. -/
theorem exists_layoutType {l : Layout} (hl : l ∈ d.layouts) (versionEnum : String) :
    ∃ t, d.layoutType versionEnum l = .ok t ∧
      t.fullName = .ok (d.layoutName versionEnum l.version) := by
  have hv := isSome_version_of_mem_layouts hl
  cases h : l.version with
  | none =>
    rw [h, Option.isSome_none] at hv
    refine ⟨d.asType, by rw [layoutType, h], ?_⟩
    rw [asType_of_not_isVersioned hv.symm]
    refine TypeDescriptor.fullName_eq_ok_iff.2 ⟨rfl, ?_⟩
    rw [layoutName, specialName, ← TypeDescriptor.qualify_eq]
    rfl
  | some v =>
    rw [h, Option.isSome_some] at hv
    refine ⟨{ d.asType with args := [versionEnum ++ "::" ++ v.name] }, ?_, ?_⟩
    · rw [layoutType, h]
      exact specializedType_of_isVersioned hv.symm versionEnum v
    · rw [asType_of_isVersioned hv.symm]
      refine TypeDescriptor.fullName_eq_ok_iff.2 ⟨rfl, ?_⟩
      change _ = TypeDescriptor.qualify d.scope d.name ++
        TypeDescriptor.bracketed [versionEnum ++ "::" ++ v.name]
      rw [TypeDescriptor.qualify_eq, TypeDescriptor.bracketed, String.intercalate_singleton,
        layoutName, specialName]
      simp only [String.append_assoc]

end StructDecl

end VersionedLayout
