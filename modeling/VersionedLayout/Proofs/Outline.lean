import VersionedLayout.Proofs.Members
set_option autoImplicit false

/-!
# One outline behind all texts of a struct

The definition of a struct, its reflection descriptors and its dump are made by three loops over the
layouts, each of which names the type of a layout in its own way. Here all of them are written from
the same data, a list of outlines: the version of each layout, and its fields with the names of
their types. An outline cannot be built from a field that has no text, so that no failure occurs in
what is written from it.

## Main definitions

* `VersionedLayout.Outline` — a layout of fields that can be written.
* `VersionedLayout.Outline.body`, `VersionedLayout.Outline.descriptor`,
  `VersionedLayout.Outline.json` — the three texts of a layout.
* `VersionedLayout.TextsAgree` — what is written of a struct is written from given outlines.

## Main results

* `VersionedLayout.exists_outlines` — a struct without a fault has outlines.
* `VersionedLayout.definition_reflection_dump_agree` — whenever the definition of a struct succeeds,
  its texts agree.
-/

namespace VersionedLayout

/-! ## Outlines -/

/-- What the texts of a layout are written from. -/
structure Outline where
  /-- The version of the layout, if it belongs to one. -/
  version : Option Version
  /-- Its members in order. -/
  members : List Member

namespace Outline

variable (c : Config) (d : StructDecl) (o : Outline)

/-- The layout that an outline is one of. -/
def layout : Layout :=
  ⟨o.version, o.members.map Member.field⟩

/-- The definition of a layout: the declarator, as a full specialization if the layout belongs to a
version, a line for each member, and the factory with an assignment for each default. -/
def body : String :=
  (if o.version.isSome then "template<>\n" else "") ++
    "struct " ++ d.specialName c.versionEnum o.version ++ "\n\x7b\n" ++
    String.join (o.members.map fun m => c.indentation 1 ++ m.line ++ "\n") ++ "\n" ++
    Header.factoryText c d.name (o.members.filterMap Member.assignment?) ++ "\x7d;\n\n"

/-- The name of the type of a layout, with the namespace of the struct. -/
def typeName : String :=
  d.layoutName c.versionEnum o.version

/-- The reflection descriptor of a layout: its type, and the name of each member. -/
def descriptor : String :=
  c.reflectionMacro ++ "(\n" ++ c.indentation 1 ++ o.typeName c d ++ "\n" ++
    String.join (o.members.map fun m => c.indentation 1 ++ ", " ++ m.field.name ++ "\n") ++ ");\n\n"

/-- The JSON form of a layout: its version, if it belongs to one, its type and its members. -/
def json : Json :=
  .object <| (o.version.map fun v => ("version", Json.string v.name)).toList ++
    [("type", .string (o.typeName c d)), ("fields", .array (o.members.map Member.json))]

/-! ## What the emitters write -/

/-- The definition of the layout of an outline is its body. -/
lemma layoutDefinition_layout :
    (Header.layoutDefinition c d o.layout).result = .ok (o.body c d) := by
  have hlines : o.layout.fields.mapM Header.memberLine = .ok (o.members.map Member.line) := by
    rw [layout, List.mapM_map]
    exact mapM_eq_ok_map fun m _ => m.memberLine_field
  have hdeclarator : Header.declarator c d o.layout =
      (if o.version.isSome then "template<>\n" else "") ++ "struct " ++
        d.specialName c.versionEnum o.version := by
    rw [Header.declarator, layout]
    cases o.version with
    | none => rfl
    | some v => simp [StructDecl.specialName, Config.enumerator, String.append_assoc]
  rw [Header.layoutDefinition, Header.structBody, hlines, ok_bind, List.map_map, hdeclarator, body,
    ← Header.defaultFactory_map_field]
  rfl

variable {c d o}

/-- The reflection descriptor of the layout of an outline is its descriptor. -/
lemma layoutReflection_layout (ho : o.layout ∈ d.layouts) :
    Header.layoutReflection c d o.layout = .ok (o.descriptor c d) := by
  obtain ⟨t, ht, hname⟩ := StructDecl.exists_layoutType ho c.versionEnum
  rw [Header.layoutReflection, ht, ok_bind, hname, ok_bind, layout, List.map_map]
  rfl

/-- The dump of the layout of an outline is its JSON form. -/
lemma dump_layout (ho : o.layout ∈ d.layouts) :
    Dump.layout c d o.layout = .ok (o.json c d) := by
  have hfields : o.layout.fields.mapM Dump.field = .ok (o.members.map Member.json) := by
    rw [layout, List.mapM_map]
    exact mapM_eq_ok_map fun m _ => m.dump_field
  obtain ⟨t, ht, hname⟩ := StructDecl.exists_layoutType ho c.versionEnum
  rw [Dump.layout, ht, ok_bind, hfields, ok_bind, hname, ok_bind, Dump.optional, Option.map_map]
  rfl

end Outline

/-! ## Outlines of a struct -/

section

variable {c : Config} {d : StructDecl} {os : List Outline}

/-- **A struct without a fault has outlines**, one for each of its layouts. -/
theorem exists_outlines (h : d.fault? = none) :
    ∃ os : List Outline, os.map Outline.layout = d.layouts := by
  have hlayouts : d.layouts ∈ Set.range (List.map Outline.layout) := by
    rw [Set.range_list_map]
    intro l hl
    have hfields : l.fields ∈ Set.range (List.map Member.field) := by
      rw [Set.range_list_map]
      intro f hf
      exact Member.exists_of_fault?_eq_none (StructDecl.fault?_eq_none_iff.1 h l hl f hf)
    obtain ⟨ms, hms⟩ := hfields
    exact ⟨⟨l.version, ms⟩, by rw [Outline.layout, hms]⟩
  exact hlayouts

variable (hos : os.map Outline.layout = d.layouts)
include hos

/-- The layout of an outline is one of the struct. -/
lemma layout_mem_layouts {o : Outline} (ho : o ∈ os) : o.layout ∈ d.layouts := by
  rw [← hos]
  exact List.mem_map_of_mem ho

/-- The definition of a struct has the bodies of its outlines. -/
lemma result_definition : (Header.definition c d).result =
    .ok (Header.docText d ++ Header.primaryTemplate c d ++
      String.join (os.map (Outline.body c d))) := by
  have hbodies : d.layouts.mapM (fun l => (Header.layoutDefinition c d l).result) =
      .ok (os.map (Outline.body c d)) := by
    rw [← hos, List.mapM_map]
    exact mapM_eq_ok_map fun o _ => Outline.layoutDefinition_layout c d o
  simp only [Header.definition, Emission.result_bind, Emission.result_record, Emission.result_pure,
    Emission.result_mapM, ok_bind, hbodies]

/-- The reflection of a struct has the descriptors of its outlines. -/
lemma reflection_eq_ok : Header.reflection c d =
    .ok (String.join (os.map (Outline.descriptor c d))) := by
  have hdescriptors : d.layouts.mapM (Header.layoutReflection c d) =
      .ok (os.map (Outline.descriptor c d)) := by
    conv_lhs => rw [← hos]
    rw [List.mapM_map]
    exact mapM_eq_ok_map fun o ho => Outline.layoutReflection_layout (layout_mem_layouts hos ho)
  rw [Header.reflection, hdescriptors]
  rfl

/-- The dump of a struct has the JSON forms of its outlines. -/
lemma dump_struct : Dump.struct c d =
    .ok (.object
      [("name", .string d.name), ("namespace", .string d.scope),
       ("versioned", .bool d.isVersioned),
       ("layouts", .array (os.map (Outline.json c d)))]) := by
  have hlayouts : d.layouts.mapM (Dump.layout c d) = .ok (os.map (Outline.json c d)) := by
    conv_lhs => rw [← hos]
    rw [List.mapM_map]
    exact mapM_eq_ok_map fun o ho => Outline.dump_layout (layout_mem_layouts hos ho)
  rw [Dump.struct, hlayouts]
  rfl

end

/-! ## Agreement of the texts -/

/-- The texts of a struct, of which the definition is given, are written from a list of outlines. -/
structure TextsAgree (c : Config) (d : StructDecl) (text : String) (os : List Outline) :
    Prop where
  /-- The outlines are those of the layouts, in their order. -/
  layouts_eq : os.map Outline.layout = d.layouts
  /-- They belong to versions exactly when the struct is a template over the version. -/
  isSome_version : ∀ o ∈ os, o.version.isSome = d.isVersioned
  /-- The definition begins with the documentation, if there is one, the last line of which is
  ended. Then comes the declaration of the template, but only of one over the version, and then one
  body for each outline. -/
  definition_eq : text =
    (d.doc.elim "" fun doc => if doc.toList.getLast? = some '\n' then doc else doc ++ "\n") ++
    (if d.isVersioned then
      "template<" ++ c.versionEnum ++ " " ++ c.versionParam ++ ">\nstruct " ++ d.name ++ ";\n\n"
      else "") ++
    String.join (os.map (Outline.body c d))
  /-- Reflection succeeds with the descriptors. -/
  reflection_eq : Header.reflection c d = .ok (String.join (os.map (Outline.descriptor c d)))
  /-- The dump of the struct alone succeeds, and has the outlines in its list of layouts. -/
  dump_eq : Dump.generate c [d] = .ok (Json.array [.object
    [("name", .string d.name), ("namespace", .string d.scope), ("versioned", .bool d.isVersioned),
     ("layouts", .array (os.map (Outline.json c d)))]]).pretty

/-- **All texts of a struct describe the same layouts.** Whenever the definition of a struct
succeeds, there are outlines of its layouts from which the definition, the reflection descriptors
and the dump are written.

**Proof sketch.** The definition succeeds only if no field of a layout has a fault, and then there
are outlines. Each emitter, taken over them, writes the text of one outline after another: the
fields have texts by what a member carries, and the type of a layout has the name that its
declarator has, behind the namespace. -/
theorem definition_reflection_dump_agree {c : Config} {d : StructDecl} {text : String}
    (h : (Header.definition c d).result = .ok text) :
    ∃ os : List Outline, TextsAgree c d text os := by
  have hfault : d.fault? = none := by
    rw [← Header.failure?_definition c d, h, failure?_ok]
  obtain ⟨os, hos⟩ := exists_outlines hfault
  refine ⟨os, hos, fun o ho => ?_, ?_, reflection_eq_ok hos, ?_⟩
  · exact StructDecl.isSome_version_of_mem_layouts (layout_mem_layouts hos ho)
  · rw [result_definition hos] at h
    rw [← Except.ok.inj h, Header.docText, Header.primaryTemplate]
    cases d.doc <;> rfl
  · rw [Dump.generate, Dump.tree, List.mapM_cons, dump_struct hos]
    rfl

/-- A documented struct in a namespace, with a bit-field, a block inside a block, an array with a
tuple as its default and a remark on a field. -/
theorem definition_reflection_dump_agree_nested :
    let pair : TypeDescriptor := { TypeDescriptor.arrayTemplate with args := ["T", "2"] }
    let d : StructDecl :=
      { name := "N", scope := "A::B", versions := some ⟨.bfa, .tbcNew⟩, doc := some "// N",
        entries := [.field ⟨.numeric (.builtin .u8), "a", some 3, some (.scalar (.int 5)), none⟩,
          .block ⟨.classicNew, .any⟩ [.field ⟨.plain (.named "T"), "b", none, none, some "remark"⟩,
            .block ⟨.tbcNew, .df⟩ [.field ⟨.plain pair, "c", none,
              some (.aggregate [.int 1, .expr "T::X"]), none⟩]]] }
    ∃ text, (Header.definition {} d).result = .ok text ∧
      ∃ os : List Outline, TextsAgree {} d text os := by
  intro pair d
  have h : ∃ text, (Header.definition {} d).result = .ok text := ⟨_, rfl⟩
  obtain ⟨text, htext⟩ := h
  exact ⟨text, htext, definition_reflection_dump_agree htext⟩

end VersionedLayout
