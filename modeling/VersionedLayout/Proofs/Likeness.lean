import VersionedLayout.Dump
import VersionedLayout.Proofs.Boundaries
import VersionedLayout.Proofs.Failure
set_option autoImplicit false

/-!
# Structs that are written alike

The emitters see of a struct its name, its namespace, its documentation, whether it is versioned,
and its layouts. How its entries are nested, and which range it declares, they see only through
these. Structs that agree in what is seen may replace each other in a schema without any effect on
the header, on the log of its emission, or on the dump. For a single layout, the documentation and
the other layouts do not matter either.

## Main definitions

* `VersionedLayout.StructDecl.TypedAlike` — the types of the layouts have the same names.
* `VersionedLayout.StructDecl.WrittenAlike` — all that the emitters see is the same.

## Main results

* `VersionedLayout.StructDecl.TypedAlike.layoutReflection_eq`,
  `VersionedLayout.StructDecl.TypedAlike.dump_layout_eq`,
  `VersionedLayout.StructDecl.TypedAlike.layoutDefinition_eq` — the texts of a single layout.
* `VersionedLayout.Header.file_map`, `VersionedLayout.Dump.generate_map` — replacing the structs of
  a schema.
-/

namespace VersionedLayout

/-! ## One layout -/

namespace StructDecl

/-- The layouts of two structs have types of the same names: the structs have the same name and
namespace, and are both versioned or both not. -/
structure TypedAlike (d e : StructDecl) : Prop where
  name_eq : d.name = e.name
  scope_eq : d.scope = e.scope
  isVersioned_eq : d.isVersioned = e.isVersioned

namespace TypedAlike

variable {d e : StructDecl} (h : d.TypedAlike e) (c : Config) (l : Layout)
include h

/-- The structs have the same type. -/
lemma asType_eq : d.asType = e.asType := by
  rw [asType, asType, h.name_eq, h.scope_eq, h.isVersioned_eq]

/-- The layout has the same type for both structs. -/
lemma layoutType_eq (versionEnum : String) :
    d.layoutType versionEnum l = e.layoutType versionEnum l := by
  unfold layoutType specializedType
  rw [h.asType_eq, h.isVersioned_eq]

/-- The definition of a layout depends on the name of its struct alone. -/
lemma layoutDefinition_eq : Header.layoutDefinition c d l = Header.layoutDefinition c e l := by
  rw [Header.layoutDefinition, Header.layoutDefinition, Header.layoutRecord, Header.layoutRecord,
    Header.declarator, Header.declarator, h.name_eq]

/-- The descriptor of a layout depends on the name of its type alone. -/
lemma layoutReflection_eq : Header.layoutReflection c d l = Header.layoutReflection c e l := by
  rw [Header.layoutReflection, Header.layoutReflection, h.layoutType_eq]

/-- The dump of a layout depends on the name of its type alone. -/
lemma dump_layout_eq : Dump.layout c d l = Dump.layout c e l := by
  rw [Dump.layout, Dump.layout, h.layoutType_eq]

end TypedAlike

/-! ## One struct -/

/-- All that the emitters see of two structs is the same. -/
structure WrittenAlike (d e : StructDecl) : Prop extends d.TypedAlike e where
  doc_eq : d.doc = e.doc
  layouts_eq : d.layouts = e.layouts

namespace WrittenAlike

variable {d e : StructDecl} (h : d.WrittenAlike e) (c : Config)
include h

/-- The structs have the same definition. -/
lemma definition_eq : Header.definition c d = Header.definition c e := by
  have hlayouts : Header.layoutDefinition c d = Header.layoutDefinition c e :=
    funext fun l => h.layoutDefinition_eq c l
  have hname : d.qualifiedName = e.qualifiedName := by
    rw [qualifiedName, qualifiedName, h.name_eq, h.scope_eq]
  simp only [Header.definition, Header.startRecord, Header.docText, Header.primaryTemplate,
    hlayouts, hname, h.name_eq, h.isVersioned_eq, h.doc_eq, h.layouts_eq]

/-- The structs have the same reflection descriptors. -/
lemma reflection_eq : Header.reflection c d = Header.reflection c e := by
  have hlayouts : Header.layoutReflection c d = Header.layoutReflection c e :=
    funext fun l => h.layoutReflection_eq c l
  rw [Header.reflection, Header.reflection, hlayouts, h.layouts_eq]

/-- The structs have the same dump. -/
lemma dump_struct_eq : Dump.struct c d = Dump.struct c e := by
  have hlayouts : Dump.layout c d = Dump.layout c e := funext fun l => h.dump_layout_eq c l
  rw [Dump.struct, Dump.struct, hlayouts, h.name_eq, h.scope_eq, h.isVersioned_eq, h.layouts_eq]

end WrittenAlike

end StructDecl

/-! ## A schema -/

section

variable {p : StructDecl → StructDecl} {ds : List StructDecl}

namespace Header

/-- A group whose structs are replaced. -/
def Group.replace (p : StructDecl → StructDecl) (g : Group) : Group :=
  ⟨g.scope, g.structs.map p⟩

section

variable (h : ∀ d ∈ ds, (p d).scope = d.scope)
include h

/-- The structs of a namespace are replaced where they stand. -/
lemma inScope_map (s : String) : inScope (ds.map p) s = (inScope ds s).map p := by
  rw [inScope, inScope, List.filter_map]
  refine congrArg _ (List.filter_congr fun d hd => ?_)
  rw [Function.comp_apply, h d hd]

/-- The namespaces stay the same. -/
lemma scopes_map : scopes (ds.map p) = scopes ds := by
  refine (pairwise_scopes _).eq_of_mem_iff (pairwise_scopes ds) fun s => ?_
  simp only [mem_scopes, List.mem_map, exists_exists_and_eq_and]
  exact exists_congr fun d => and_congr_right fun hd => by rw [h d hd]

/-- A struct and its replacement stand in the same group. -/
lemma grouped_map : grouped (ds.map p) = (grouped ds).map (Group.replace p) := by
  rw [grouped_eq_map, grouped_eq_map, scopes_map h, List.map_map]
  refine List.map_congr_left fun s _ => ?_
  rw [inScope_map h]
  rfl

end

/-- A group has the same text when its structs are replaced. -/
lemma groupText_replace {g : Group} (h : ∀ d ∈ g.structs, (p d).WrittenAlike d) (c : Config) :
    groupText c (g.replace p) = groupText c g := by
  have hdefinitions : (g.structs.map p).mapM (definition c) = g.structs.mapM (definition c) := by
    rw [List.mapM_map]
    exact mapM_congr fun d hd => (h d hd).definition_eq c
  rw [groupText, groupText, Group.replace, hdefinitions]

variable (h : ∀ d ∈ ds, (p d).WrittenAlike d) (c : Config)
include h

/-- What precedes the definitions stays the same. -/
lemma opening_map : opening c (ds.map p) = opening c ds := by
  have hheaders : requiredHeaders (ds.map p) = requiredHeaders ds := by
    rw [requiredHeaders, requiredHeaders, List.flatMap_map]
    refine congrArg _ (List.flatMap_congr fun d hd => ?_)
    rw [(h d hd).layouts_eq]
  rw [opening, opening, typeHeaders, typeHeaders, hheaders]

/-- **Replacing the structs of a schema** by structs that are written alike changes neither the
header nor the log of its emission. -/
theorem file_map : file c (ds.map p) = file c ds := by
  have hgroups : (grouped (ds.map p)).mapM (groupText c) = (grouped ds).mapM (groupText c) := by
    rw [grouped_map fun d hd => (h d hd).scope_eq, List.mapM_map]
    refine mapM_congr fun g hg => groupText_replace (fun d hd => h d ?_) c
    exact mem_grouped.1 ⟨g, hg, hd⟩
  have hdescriptors : (ds.map p).mapM (reflection c) = ds.mapM (reflection c) := by
    rw [List.mapM_map]
    exact mapM_congr fun d hd => (h d hd).reflection_eq c
  rw [file, file, contents_eq_groups, contents_eq_groups, hgroups, hdescriptors, opening_map h,
    List.length_map]

/-- Replacing the structs of a schema by structs that are written alike does not change the header.
-/
theorem generate_map : generate c (ds.map p) = generate c ds := by
  rw [generate, generate, file_map h]

end Header

/-- Replacing the structs of a schema by structs that are written alike does not change the dump. -/
theorem Dump.generate_map (h : ∀ d ∈ ds, (p d).WrittenAlike d) (c : Config) :
    Dump.generate c (ds.map p) = Dump.generate c ds := by
  have hstructs : (ds.map p).mapM (Dump.struct c) = ds.mapM (Dump.struct c) := by
    rw [List.mapM_map]
    exact mapM_congr fun d hd => (h d hd).dump_struct_eq c
  rw [Dump.generate, Dump.generate, Dump.tree, Dump.tree, hstructs]

end

end VersionedLayout
