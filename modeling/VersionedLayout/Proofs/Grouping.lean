import Mathlib.Data.List.Sort
import VersionedLayout.Header.File
set_option autoImplicit false

/-!
# Groups of structs

Grouping the structs of a schema by namespace rearranges them and nothing else: every struct is
put into exactly one group, as often as it is declared. The groups are given by the namespaces of
the schema, in increasing order and each once, and the group of a namespace holds what a filter by
that namespace leaves of the schema. They are therefore determined by these filters alone, and the
structs of all groups, one group after another, are the schema sorted stably by namespace.

## Main definitions

* `VersionedLayout.Header.grouped` — the groups of a schema.
* `VersionedLayout.Header.scopes` — the namespaces of a schema, in the order of its groups.
* `VersionedLayout.Header.inScope` — the structs of one namespace, in declared order.

## Main results

* `VersionedLayout.Header.grouped_eq_map` — the group of a namespace is a filter of the schema.
* `VersionedLayout.Header.grouped_congr` — the filters determine the groups.
* `VersionedLayout.Header.flatMap_structs_grouped` — the groups list the schema in stable order.
* `VersionedLayout.Header.perm_grouped`, `VersionedLayout.Header.mem_grouped` — the structs of all
  groups are those of the schema.
-/

namespace VersionedLayout

namespace Header

/-! ## The namespaces -/

/-- The structs of one namespace. -/
structure Group where
  /-- The namespace. -/
  scope : String
  /-- Its structs, in declared order. -/
  structs : List StructDecl

/-- A struct put in front of the group of its namespace, which is opened at its place if it does
not exist. -/
def joinGroup (d : StructDecl) : List Group → List Group
  | [] => [⟨d.scope, [d]⟩]
  | g :: gs =>
    if d.scope < g.scope then ⟨d.scope, [d]⟩ :: g :: gs
    else if d.scope = g.scope then ⟨g.scope, d :: g.structs⟩ :: gs
    else g :: joinGroup d gs

/-- The structs of a schema, grouped by namespace. -/
def grouped (ds : List StructDecl) : List Group :=
  ds.foldr joinGroup []

/-- The namespaces of a schema, in the order of its groups. -/
def scopes (ds : List StructDecl) : List String :=
  (grouped ds).map Group.scope

/-- The structs of one namespace, in declared order. -/
def inScope (ds : List StructDecl) (s : String) : List StructDecl :=
  ds.filter fun d => d.scope = s

/-- The structs in a namespace are those of the schema that declare it. -/
@[simp] lemma mem_inScope {ds : List StructDecl} {s : String} {d : StructDecl} :
    d ∈ inScope ds s ↔ d ∈ ds ∧ d.scope = s := by
  simp [inScope]

/-- A struct of the namespace comes first if it is declared first. -/
lemma inScope_cons_of_eq {d : StructDecl} {s : String} (h : d.scope = s) (ds : List StructDecl) :
    inScope (d :: ds) s = d :: inScope ds s :=
  List.filter_cons_of_pos (by simpa using h)

/-- A struct of another namespace is not in this one. -/
lemma inScope_cons_of_ne {d : StructDecl} {s : String} (h : d.scope ≠ s) (ds : List StructDecl) :
    inScope (d :: ds) s = inScope ds s :=
  List.filter_cons_of_neg (by simpa using h)

/-- A group is opened for a namespace as a name is put at its place into an increasing list. -/
lemma map_scope_joinGroup (d : StructDecl) (gs : List Group) :
    (joinGroup d gs).map Group.scope = HeaderSet.place d.scope (gs.map Group.scope) := by
  induction gs with
  | nil => rfl
  | cons g gs ih =>
    rw [joinGroup, List.map_cons, HeaderSet.place]
    split
    · rfl
    · split
      · rfl
      · rw [List.map_cons, ih]

/-- The namespace of a struct is placed among those of the others. -/
lemma scopes_cons (d : StructDecl) (ds : List StructDecl) :
    scopes (d :: ds) = HeaderSet.place d.scope (scopes ds) :=
  map_scope_joinGroup d (grouped ds)

/-- The namespaces of the groups strictly increase. -/
theorem pairwise_scopes (ds : List StructDecl) : (scopes ds).Pairwise (· < ·) := by
  induction ds with
  | nil => exact List.Pairwise.nil
  | cons d ds ih =>
    rw [scopes_cons]
    exact HeaderSet.sorted_place ih

/-- The namespaces of the groups are those of the structs. -/
theorem mem_scopes {ds : List StructDecl} {s : String} :
    s ∈ scopes ds ↔ ∃ d ∈ ds, d.scope = s := by
  induction ds with
  | nil => simp [scopes, grouped]
  | cons d ds ih =>
    rw [scopes_cons, HeaderSet.mem_place, ih, List.exists_mem_cons_iff]
    exact or_congr_left eq_comm

/-! ## The groups -/

/-- A struct joins groups that are filters of a schema.

**Proof sketch.** Induction on the namespaces. At a greater namespace a new group is opened, which
holds the struct alone since no struct of the schema has its namespace. At an equal one the struct
goes in front. The groups of all other namespaces do not see it. -/
lemma joinGroup_map {d : StructDecl} {ds : List StructDecl} {ss : List String}
    (hss : ss.Pairwise (· < ·)) (hmem : (∃ e ∈ ds, e.scope = d.scope) → d.scope ∈ ss) :
    joinGroup d (ss.map fun s => ⟨s, inScope ds s⟩) =
      (HeaderSet.place d.scope ss).map fun s => ⟨s, inScope (d :: ds) s⟩ := by
  have hfresh : d.scope ∉ ss → inScope (d :: ds) d.scope = [d] := by
    intro hnot
    have hnone : inScope ds d.scope = [] := by
      rw [List.eq_nil_iff_forall_not_mem]
      intro e he
      exact hnot (hmem ⟨e, mem_inScope.1 he⟩)
    rw [inScope_cons_of_eq rfl, hnone]
  have hothers : ∀ {ts : List String}, d.scope ∉ ts →
      (ts.map fun s => (⟨s, inScope ds s⟩ : Group)) =
        ts.map fun s => ⟨s, inScope (d :: ds) s⟩ := by
    intro ts hts
    refine List.map_congr_left fun s hs => ?_
    rw [inScope_cons_of_ne fun h => hts (h ▸ hs)]
  induction ss with
  | nil => simp [joinGroup, HeaderSet.place, hfresh List.not_mem_nil]
  | cons s ss ih =>
    obtain ⟨hhead, htail⟩ := List.pairwise_cons.1 hss
    rw [List.map_cons, joinGroup, HeaderSet.place]
    split
    · -- the namespace lies before all of the list, so that it does not occur there
      rename_i hlt
      have hnot : d.scope ∉ s :: ss := by
        intro hin
        rcases List.mem_cons.1 hin with h | h
        · exact String.lt_irrefl s (h ▸ hlt)
        · exact String.lt_irrefl s (String.lt_trans (hhead _ h) hlt)
      rw [List.map_cons, hfresh hnot, ← hothers hnot, List.map_cons]
    · split
      · rename_i heq
        have hnot : d.scope ∉ ss := by
          intro h
          have hlt := hhead _ h
          rw [heq] at hlt
          exact String.lt_irrefl s hlt
        rw [List.map_cons, ← hothers hnot, inScope_cons_of_eq heq]
      · rename_i hne
        have hmem' : (∃ e ∈ ds, e.scope = d.scope) → d.scope ∈ ss := by
          intro h
          exact (List.mem_cons.1 (hmem h)).resolve_left hne
        have hfresh' : d.scope ∉ ss → inScope (d :: ds) d.scope = [d] := by
          intro hnot
          exact hfresh (List.not_mem_cons_of_ne_of_not_mem hne hnot)
        rw [List.map_cons, inScope_cons_of_ne hne, ih htail hmem' hfresh']

/-- **The group of a namespace is a filter of the schema.** -/
theorem grouped_eq_map (ds : List StructDecl) :
    grouped ds = (scopes ds).map fun s => ⟨s, inScope ds s⟩ := by
  induction ds with
  | nil => rfl
  | cons d ds ih =>
    have hmem : (∃ e ∈ ds, e.scope = d.scope) → d.scope ∈ scopes ds := mem_scopes.2
    calc grouped (d :: ds)
        = joinGroup d (grouped ds) := rfl
      _ = joinGroup d ((scopes ds).map fun s => ⟨s, inScope ds s⟩) := by rw [← ih]
      _ = (scopes (d :: ds)).map fun s => ⟨s, inScope (d :: ds) s⟩ := by
          rw [joinGroup_map (pairwise_scopes ds) hmem, scopes_cons]

/-- The namespaces are those whose filters leave a struct. -/
lemma scopes_congr {ds es : List StructDecl} (h : ∀ s, inScope ds s = inScope es s) :
    scopes ds = scopes es := by
  refine (pairwise_scopes ds).eq_of_mem_iff (pairwise_scopes es) fun s => ?_
  have hmem : ∀ xs : List StructDecl, s ∈ scopes xs ↔ ∃ d, d ∈ inScope xs s := by
    intro xs
    rw [mem_scopes]
    simp
  rw [hmem, hmem, h]

/-- **The filters determine the groups.** Schemas with the same structs in every namespace, in the
same order, are grouped alike. -/
theorem grouped_congr {ds es : List StructDecl} (h : ∀ s, inScope ds s = inScope es s) :
    grouped ds = grouped es := by
  rw [grouped_eq_map, grouped_eq_map, scopes_congr h]
  exact List.map_congr_left fun s _ => by rw [h]

/-! ## Stable order -/

/-- The order of structs by their namespaces is transitive. -/
lemma scope_le_trans (a b c : StructDecl) (hab : decide (a.scope ≤ b.scope) = true)
    (hbc : decide (b.scope ≤ c.scope) = true) : decide (a.scope ≤ c.scope) = true :=
  decide_eq_true (String.le_trans (of_decide_eq_true hab) (of_decide_eq_true hbc))

/-- Any two structs are ordered by their namespaces. -/
lemma scope_le_total (a b : StructDecl) :
    (decide (a.scope ≤ b.scope) || decide (b.scope ≤ a.scope)) = true := by
  simpa using String.le_total a.scope b.scope

/-- The structs are sorted by their namespaces. -/
lemma pairwise_byScope (ds : List StructDecl) :
    (byScope ds).Pairwise fun d e => d.scope ≤ e.scope := by
  have hsorted := List.pairwise_mergeSort scope_le_trans scope_le_total ds
  exact hsorted.imp of_decide_eq_true

/-- Sorting is stable: it leaves the structs of a namespace in their order.

**Proof sketch.** They are a sorted sublist of the schema, hence a sublist of the sorted schema as
well, and there are no others of this namespace in it. -/
lemma inScope_byScope (ds : List StructDecl) (s : String) :
    inScope (byScope ds) s = inScope ds s := by
  have hequal : (inScope ds s).Pairwise fun d e => decide (d.scope ≤ e.scope) = true := by
    refine List.pairwise_of_forall_mem_list fun d hd e he => ?_
    rw [(mem_inScope.1 hd).2, (mem_inScope.1 he).2]
    exact decide_eq_true (String.le_refl s)
  have hsublist : (inScope ds s).Sublist (byScope ds) :=
    List.sublist_mergeSort scope_le_trans scope_le_total hequal List.filter_sublist
  have hfiltered : (inScope ds s).Sublist (inScope (byScope ds) s) := by
    have hfilter := hsublist.filter fun d => decide (d.scope = s)
    simpa only [inScope, List.filter_filter, Bool.and_self] using hfilter
  have hlength : (inScope ds s).length = (inScope (byScope ds) s).length :=
    ((List.mergeSort_perm ds _).filter _).length_eq.symm
  exact (hfiltered.eq_of_length hlength).symm

/-- A struct that lies before all groups, or in the first one, becomes the first of all structs. -/
lemma flatMap_structs_joinGroup {d : StructDecl} {gs : List Group}
    (h : ∀ g ∈ gs, d.scope ≤ g.scope) :
    (joinGroup d gs).flatMap Group.structs = d :: gs.flatMap Group.structs := by
  cases gs with
  | nil => rfl
  | cons g gs =>
    have hle := h g List.mem_cons_self
    rw [joinGroup]
    split
    · rfl
    · rename_i hlt
      rw [if_pos (String.le_antisymm hle (String.not_lt.1 hlt))]
      rfl

/-- The groups of a sorted schema list it as it is. -/
lemma flatMap_structs_grouped_of_pairwise {ds : List StructDecl}
    (h : ds.Pairwise fun d e => d.scope ≤ e.scope) :
    (grouped ds).flatMap Group.structs = ds := by
  induction ds with
  | nil => rfl
  | cons d ds ih =>
    obtain ⟨hd, hds⟩ := List.pairwise_cons.1 h
    have hle : ∀ g ∈ grouped ds, d.scope ≤ g.scope := by
      intro g hg
      obtain ⟨e, he, hscope⟩ := mem_scopes.1 (List.mem_map_of_mem hg)
      rw [← hscope]
      exact hd e he
    exact (flatMap_structs_joinGroup hle).trans (by rw [ih hds])

/-- **The groups list the schema in stable order** of the namespaces. -/
theorem flatMap_structs_grouped (ds : List StructDecl) :
    (grouped ds).flatMap Group.structs = byScope ds := by
  rw [← grouped_congr (inScope_byScope ds)]
  exact flatMap_structs_grouped_of_pairwise (pairwise_byScope ds)

/-- **Grouping rearranges the structs**: the groups together hold the structs of the schema. -/
theorem perm_grouped (ds : List StructDecl) :
    ((grouped ds).flatMap Group.structs).Perm ds := by
  rw [flatMap_structs_grouped]
  exact List.mergeSort_perm ds _

/-- The groups have the structs of the schema, and no others. -/
lemma mem_grouped {ds : List StructDecl} {d : StructDecl} :
    (∃ g ∈ grouped ds, d ∈ g.structs) ↔ d ∈ ds := by
  rw [← (perm_grouped ds).mem_iff, List.mem_flatMap]

end Header

end VersionedLayout
