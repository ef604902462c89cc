import VersionedLayout.Proofs.Deletion
import VersionedLayout.Proofs.Likeness
set_option autoImplicit false

/-!
# Locality of releases

What is generated for one release depends on the blocks for that release alone. Deleting all blocks
that exclude the release, at every depth, leaves what this release sees of a struct; two structs of
the same name, namespace and range of which the same is left have the same layout for the release,
and the same definition, reflection descriptor and dump of it. So a block may be added, changed or
removed without touching the layouts of any release outside its range.

What is generated for a struct as a whole is made of what is generated for its layouts: the texts of
one layout stand in the definition, among the reflection descriptors and in the dump of the struct,
behind those of the layouts before it and in front of those of the layouts behind it.

## Main definitions

* `VersionedLayout.Entry.seenBy` — what one version sees of a forest.
* `VersionedLayout.StructDecl.WritesBetween` — where the texts of a layout stand in those of its
  struct.

## Main results

* `VersionedLayout.Entry.resolveAll_seenBy` — a version resolves to what it sees.
* `VersionedLayout.StructDecl.mem_layouts_and_version_iff` — the layout for one release.
* `VersionedLayout.StructDecl.exists_writesBetween` — every layout has its place in the texts.
* `VersionedLayout.layout_texts_eq_of_seenBy_eq` — the texts for one release.
-/

namespace VersionedLayout

namespace Entry

/-- What a version sees of a forest: all of it but the blocks, at any depth, whose range excludes
the version. -/
def seenBy (v : Version) (es : List Entry) : List Entry :=
  without (fun _ r => !r.contains v) es

/-- The fields for a version are those of what it sees. -/
theorem resolveAll_seenBy (v : Version) (es : List Entry) :
    resolveAll v (seenBy v es) = resolveAll v es :=
  resolveAll_without fun _ r hdel _ => by simpa using hdel

end Entry

namespace StructDecl

variable {d e : StructDecl} {v : Version}

/-- A release for which the struct exists is listed among its releases. -/
lemma mem_enabledVersions_of_ne_any (hv : v ≠ .any) :
    v ∈ d.enabledVersions ↔ d.isEnabledFor v = true := by
  rw [mem_enabledVersions, isEnabledFor_iff, and_iff_right hv]

/-- Structs with the same range exist for the same releases. -/
lemma isEnabledFor_congr (h : d.versions = e.versions) : d.isEnabledFor v = e.isEnabledFor v := by
  rw [isEnabledFor, isEnabledFor, h]

/-- A versioned struct has one layout for each of its releases, with the fields for the release. -/
lemma mem_layouts_and_version_iff (hd : d.isVersioned = true) {l : Layout} :
    l ∈ d.layouts ∧ l.version = some v ↔
      v ∈ d.enabledVersions ∧ l = ⟨some v, Entry.resolveAll v d.entries⟩ := by
  rw [layouts_of_isVersioned hd, List.mem_map]
  constructor
  · rintro ⟨⟨w, hw, rfl⟩, hversion⟩
    cases hversion
    exact ⟨hw, rfl⟩
  · rintro ⟨hv, rfl⟩
    exact ⟨⟨v, hv, rfl⟩, rfl⟩

end StructDecl

/-! ## The place of a layout in the texts -/

/-- The texts of a struct are those of the layout `l` between those of the layouts before it and of
those behind it. An error of an earlier layout comes first. -/
structure StructDecl.WritesBetween (c : Config) (d : StructDecl) (before : List Layout) (l : Layout)
    (after : List Layout) : Prop where
  /-- The layout stands among those of the struct. -/
  layouts_eq : d.layouts = before ++ l :: after
  /-- In the definition, the documentation and the template precede all layouts. -/
  definition_eq : (Header.definition c d).result = do
    let front ← before.mapM fun k => (Header.layoutDefinition c d k).result
    let text ← (Header.layoutDefinition c d l).result
    let behind ← after.mapM fun k => (Header.layoutDefinition c d k).result
    return Header.docText d ++ Header.primaryTemplate c d ++
      (String.join front ++ text ++ String.join behind)
  /-- There are no descriptors but those of the layouts. -/
  reflection_eq : Header.reflection c d = do
    let front ← before.mapM (Header.layoutReflection c d)
    let text ← Header.layoutReflection c d l
    let behind ← after.mapM (Header.layoutReflection c d)
    return String.join front ++ text ++ String.join behind
  /-- In the dump, the layouts are the elements of an array. -/
  dump_eq : Dump.struct c d = do
    let front ← before.mapM (Dump.layout c d)
    let j ← Dump.layout c d l
    let behind ← after.mapM (Dump.layout c d)
    return .object [("name", .string d.name), ("namespace", .string d.scope),
      ("versioned", .bool d.isVersioned), ("layouts", .array (front ++ j :: behind))]

/-- **Every layout has its place in the texts** of its struct. -/
theorem StructDecl.exists_writesBetween {d : StructDecl} {l : Layout} (hl : l ∈ d.layouts)
    (c : Config) : ∃ before after, d.WritesBetween c before l after := by
  obtain ⟨before, after, hlayouts⟩ := List.append_of_mem hl
  have hjoin : ∀ (front : List String) (text : String) (behind : List String),
      String.join (front ++ text :: behind) =
        String.join front ++ text ++ String.join behind := by
    intro front text behind
    rw [String.join_append, String.join_cons, String.append_assoc]
  refine ⟨before, after, hlayouts, ?_, ?_, ?_⟩
  · simp only [Header.definition, Emission.result_bind, Emission.result_record,
      Emission.result_pure, Emission.result_mapM, ok_bind, hlayouts, mapM_append_cons_bind, hjoin]
    rfl
  · rw [Header.reflection, hlayouts, mapM_append_cons_bind]
    simp only [hjoin]
  · rw [Dump.struct, hlayouts, mapM_append_cons_bind]

/-! ## One release -/

/-- **What is generated for a release depends on what it sees.** Of two versioned structs with the
same name, namespace and range, let the release see the same. Then it has a layout in neither of
them, or it has one layout in each, these have the same fields, and the definition, the reflection
descriptor and the dump of the layout, or the errors that its fields raise there, are the same. In
the texts of either struct, these stand between those of its other layouts.

**Proof sketch.** Whether the release has a layout depends on the range of the struct. The fields of
the layout are those of what the release sees. The texts of a layout depend on its version and its
fields, on the name and the namespace of the struct, and on its being versioned. The emitters go
through the layouts one after another. -/
theorem layout_texts_eq_of_seenBy_eq {d e : StructDecl} {v : Version} (hv : v ≠ .any)
    (hd : d.isVersioned = true) (he : e.isVersioned = true) (hname : d.name = e.name)
    (hscope : d.scope = e.scope) (hrange : d.versions = e.versions)
    (hseen : Entry.seenBy v d.entries = Entry.seenBy v e.entries) (c : Config) :
    (d.isEnabledFor v = false ∧ e.isEnabledFor v = false ∧
      (∀ l ∈ d.layouts, l.version ≠ some v) ∧ ∀ l ∈ e.layouts, l.version ≠ some v) ∨
    (d.isEnabledFor v = true ∧ e.isEnabledFor v = true ∧
      ∃ l : Layout,
        (∀ l', l' ∈ d.layouts ∧ l'.version = some v ↔ l' = l) ∧
        (∀ l', l' ∈ e.layouts ∧ l'.version = some v ↔ l' = l) ∧
        Header.layoutDefinition c d l = Header.layoutDefinition c e l ∧
        Header.layoutReflection c d l = Header.layoutReflection c e l ∧
        Dump.layout c d l = Dump.layout c e l ∧
        (∃ before after, d.WritesBetween c before l after) ∧
        ∃ before after, e.WritesBetween c before l after) := by
  have henabled : e.isEnabledFor v = d.isEnabledFor v := StructDecl.isEnabledFor_congr hrange.symm
  have halike : d.TypedAlike e := ⟨hname, hscope, hd.trans he.symm⟩
  cases hv' : d.isEnabledFor v with
  | false =>
    rw [hv'] at henabled
    have hnone : ∀ x : StructDecl, x.isVersioned = true → x.isEnabledFor v = false →
        ∀ l ∈ x.layouts, l.version ≠ some v := by
      intro x hx hdisabled l hl hversion
      have hmem := ((StructDecl.mem_layouts_and_version_iff hx).1 ⟨hl, hversion⟩).1
      rw [StructDecl.mem_enabledVersions_of_ne_any hv, hdisabled] at hmem
      cases hmem
    exact .inl ⟨rfl, henabled, hnone d hd hv', hnone e he henabled⟩
  | true =>
    rw [hv'] at henabled
    have hfields : Entry.resolveAll v e.entries = Entry.resolveAll v d.entries := by
      rw [← Entry.resolveAll_seenBy v e.entries, ← hseen, Entry.resolveAll_seenBy]
    have hlayout : ∀ l, l ∈ d.layouts ∧ l.version = some v ↔
        l = ⟨some v, Entry.resolveAll v d.entries⟩ := by
      intro l
      rw [StructDecl.mem_layouts_and_version_iff hd, StructDecl.mem_enabledVersions_of_ne_any hv]
      exact and_iff_right hv'
    have hlayout' : ∀ l, l ∈ e.layouts ∧ l.version = some v ↔
        l = ⟨some v, Entry.resolveAll v d.entries⟩ := by
      intro l
      rw [StructDecl.mem_layouts_and_version_iff he, StructDecl.mem_enabledVersions_of_ne_any hv,
        hfields]
      exact and_iff_right henabled
    exact .inr ⟨rfl, henabled, _, hlayout, hlayout', halike.layoutDefinition_eq c _,
      halike.layoutReflection_eq c _, halike.dump_layout_eq c _,
      StructDecl.exists_writesBetween ((hlayout _).2 rfl).1 c,
      StructDecl.exists_writesBetween ((hlayout' _).2 rfl).1 c⟩

/-- A struct whose blocks for other releases than `SL` are added, changed and removed, also inside
a block for `SL`. -/
theorem layout_texts_eq_of_seenBy_eq_edited :
    let field (name : String) : Entry :=
      .field ⟨.numeric (.builtin .u8), name, some 3, some (.scalar (.int 5)), none⟩
    let d : StructDecl :=
      { name := "N", scope := "A::B", versions := some ⟨.bfa, .tbcNew⟩, doc := some "// N",
        entries := [field "a", .block ⟨.bfa, .classicNew⟩ [field "b"],
          .block ⟨.sl, .any⟩ [field "c", .block ⟨.tbcNew, .tbcNew⟩ [field "d"], field "e"]] }
    let e : StructDecl :=
      { name := "N", scope := "A::B", versions := some ⟨.bfa, .tbcNew⟩,
        entries := [.block ⟨.any, .classic⟩ [], field "a",
          .block ⟨.sl, .any⟩ [.block ⟨.bfa, .bfa⟩ [field "c"], field "c", field "e"]] }
    Version.sl ≠ .any ∧ d.isVersioned = true ∧ e.isVersioned = true ∧ d.name = e.name ∧
      d.scope = e.scope ∧ d.versions = e.versions ∧
      Entry.seenBy .sl d.entries = Entry.seenBy .sl e.entries ∧
      ∃ l : Layout,
        (∀ l', l' ∈ d.layouts ∧ l'.version = some .sl ↔ l' = l) ∧
        (∀ l', l' ∈ e.layouts ∧ l'.version = some .sl ↔ l' = l) ∧
        Header.layoutDefinition {} d l = Header.layoutDefinition {} e l ∧
        Header.layoutReflection {} d l = Header.layoutReflection {} e l ∧
        Dump.layout {} d l = Dump.layout {} e l ∧
        (∃ before after, d.WritesBetween {} before l after) ∧
        ∃ before after, e.WritesBetween {} before l after := by
  intro field d e
  have hany : Version.sl ≠ .any := by decide
  have hseen : Entry.seenBy .sl d.entries = Entry.seenBy .sl e.entries := rfl
  refine ⟨hany, rfl, rfl, rfl, rfl, rfl, hseen, ?_⟩
  rcases layout_texts_eq_of_seenBy_eq (d := d) (e := e) hany rfl rfl rfl rfl rfl hseen {} with
    ⟨hdisabled, -⟩ | ⟨-, -, hlayout⟩
  · cases hdisabled
  · exact hlayout

end VersionedLayout
