import VersionedLayout.Proofs.Grouping
set_option autoImplicit false

/-!
# Boundaries between namespaces

The definitions of a header are written by a loop over the sorted schema, which knows of the structs
before only the namespace that it has opened last. Here the loop is proved to write the groups of
the schema, one after another, each between the braces of its own namespace. It writes them with the
same log and, if a definition fails, with the same error. The closing brace of a group comes with
the boundary to the next group, or at the end of the loop.

## Main definitions

* `VersionedLayout.Header.groupText` — the text of one group.

## Main results

* `VersionedLayout.Header.foldlM_add_groups` — the loop over groups of different namespaces.
* `VersionedLayout.Header.contents_eq_groups` — the contents of a header, group by group.
-/

namespace VersionedLayout

namespace Header

/-- The definitions of a group, between the braces of its namespace unless that is the global
one. -/
def groupText (c : Config) (g : Group) : Emission String := do
  if g.scope.isEmpty then
    let definitions ← g.structs.mapM (definition c)
    return String.join definitions
  else
    Emission.record (.openNamespace g.scope)
    let definitions ← g.structs.mapM (definition c)
    return "namespace " ++ g.scope ++ "\n\x7b\n\n" ++ String.join definitions ++
      "\x7d // namespace " ++ g.scope ++ "\n\n"

variable (c : Config)

/-- A group is written like its definitions, with what opens the namespace in front and what closes
it behind. -/
lemma groupText_eq (g : Group) : groupText c g = do
    let opening ← openNamespace g.scope
    let definitions ← g.structs.mapM (definition c)
    return opening ++ String.join definitions ++ closeNamespace g.scope := by
  rw [groupText, openNamespace, closeNamespace]
  split
  · simp only [pure_bind, String.empty_append, String.append_empty]
  · simp only [bind_assoc, pure_bind, String.append_assoc]

namespace Definitions

variable {t : Definitions} {s : String}

/-- Within the namespace of the last definition nothing is closed or opened. -/
lemma enter_of_eq (h : t.current = some s) : t.enter s = pure t := by
  rw [enter, if_pos h]

/-- At a boundary the last namespace is closed and the next one opened. -/
lemma enter_of_ne (h : t.current ≠ some s) :
    t.enter s = (openNamespace s >>= fun opening => pure ⟨t.closed ++ opening, some s⟩) := by
  rw [enter, if_neg h]

/-- The structs of the namespace that is open are written one after another.

**Proof sketch.** Induction on the structs. Each of them leaves the namespace open for the next
one. -/
lemma foldlM_add_of_current {ds : List StructDecl} (hds : ∀ d ∈ ds, d.scope = s)
    (ht : t.current = some s) : ds.foldlM (add c) t = do
      let definitions ← ds.mapM (definition c)
      return ⟨t.text ++ String.join definitions, some s⟩ := by
  induction ds generalizing t with
  | nil =>
    rw [List.foldlM_nil, List.mapM_nil, pure_bind, String.join_nil, String.append_empty, ← ht]
  | cons d ds ih =>
    obtain ⟨hd, hds⟩ := List.forall_mem_cons.1 hds
    have hadd : add c t d = (definition c d >>= fun text => pure ⟨t.text ++ text, some s⟩) := by
      rw [add, hd, enter_of_eq ht, pure_bind, ← ht]
    have hrest : ∀ text, ds.foldlM (add c) ⟨text, some s⟩ =
        (ds.mapM (definition c) >>= fun definitions =>
          pure ⟨text ++ String.join definitions, some s⟩) := fun text => ih hds rfl
    rw [List.foldlM_cons, hadd, List.mapM_cons]
    simp only [bind_assoc, pure_bind, hrest, String.join_cons, String.append_assoc]

/-- The structs of a group, the namespace of which is not open, are written behind the boundary. -/
lemma foldlM_add_of_boundary {ds : List StructDecl} (hne : ds ≠ []) (hds : ∀ d ∈ ds, d.scope = s)
    (ht : t.current ≠ some s) : ds.foldlM (add c) t = do
      let opening ← openNamespace s
      let definitions ← ds.mapM (definition c)
      return ⟨t.closed ++ opening ++ String.join definitions, some s⟩ := by
  obtain ⟨d, ds, rfl⟩ := List.exists_cons_of_ne_nil hne
  obtain ⟨hd, hds⟩ := List.forall_mem_cons.1 hds
  have hadd : add c t d = (openNamespace s >>= fun opening => definition c d >>= fun text =>
      pure ⟨t.closed ++ opening ++ text, some s⟩) := by
    rw [add, hd, enter_of_ne ht]
    simp only [bind_assoc, pure_bind]
  have hrest : ∀ text, ds.foldlM (add c) ⟨text, some s⟩ =
      (ds.mapM (definition c) >>= fun definitions =>
        pure ⟨text ++ String.join definitions, some s⟩) :=
    fun text => foldlM_add_of_current c hds rfl
  rw [List.foldlM_cons, hadd, List.mapM_cons]
  simp only [bind_assoc, pure_bind, hrest, String.join_cons, String.append_assoc]

end Definitions

/-- **The loop over groups of different namespaces** writes one group after another.

**Proof sketch.** Induction on the groups. The first group lies behind a boundary, and leaves its
namespace open, which is none of the groups behind it. What closes it is written with the next
boundary or at the end. -/
theorem foldlM_add_groups {gs : List Group} (hne : ∀ g ∈ gs, g.structs ≠ [])
    (hscope : ∀ g ∈ gs, ∀ d ∈ g.structs, d.scope = g.scope) (hgs : (gs.map Group.scope).Nodup)
    {t : Definitions} (ht : ∀ g ∈ gs, t.current ≠ some g.scope) :
    ((gs.flatMap Group.structs).foldlM (Definitions.add c) t >>= fun u => pure u.closed) = do
      let texts ← gs.mapM (groupText c)
      return t.closed ++ String.join texts := by
  induction gs generalizing t with
  | nil =>
    rw [List.flatMap_nil, List.foldlM_nil, pure_bind, List.mapM_nil, pure_bind, String.join_nil,
      String.append_empty]
  | cons g gs ih =>
    obtain ⟨hg, hgs⟩ := List.nodup_cons.1 hgs
    obtain ⟨hneg, hne⟩ := List.forall_mem_cons.1 hne
    obtain ⟨hscopeg, hscope⟩ := List.forall_mem_cons.1 hscope
    obtain ⟨htg, ht⟩ := List.forall_mem_cons.1 ht
    -- what the first group leaves open is none of the namespaces behind it
    have hnext : ∀ g' ∈ gs, some g.scope ≠ some g'.scope := fun g' hg' heq =>
      hg (List.mem_map.2 ⟨g', hg', (Option.some.inj heq).symm⟩)
    have hrest : ∀ text, ((gs.flatMap Group.structs).foldlM (Definitions.add c)
        ⟨text, some g.scope⟩ >>= fun u => pure u.closed) =
        (gs.mapM (groupText c) >>= fun texts =>
          pure (text ++ closeNamespace g.scope ++ String.join texts)) :=
      fun text => ih hne hscope hgs hnext
    rw [List.flatMap_cons, List.foldlM_append,
      Definitions.foldlM_add_of_boundary c hneg hscopeg htg, List.mapM_cons, groupText_eq]
    simp only [bind_assoc, pure_bind, hrest, String.join_cons, String.append_assoc]

/-- **The contents of a header are written group by group**: the loop over the sorted schema, which
closes and opens namespaces at the boundaries, leaves the text, the error and the log of the groups.
-/
theorem contents_eq_groups (ds : List StructDecl) : contents c ds = do
    Emission.record (.header ds.length)
    let definitions ← (grouped ds).mapM (groupText c)
    let descriptors ← Emission.ofExcept (ds.mapM (reflection c))
    return opening c ds ++ String.join definitions ++ String.join descriptors := by
  have hmem : ∀ g ∈ grouped ds, g.structs ≠ [] ∧ ∀ d ∈ g.structs, d.scope = g.scope := by
    intro g hg
    rw [grouped_eq_map] at hg
    obtain ⟨s, hs, rfl⟩ := List.mem_map.1 hg
    obtain ⟨d, hd, hscope⟩ := mem_scopes.1 hs
    exact ⟨List.ne_nil_of_mem (mem_inScope.2 ⟨hd, hscope⟩), fun d hd => (mem_inScope.1 hd).2⟩
  have hnodup : ((grouped ds).map Group.scope).Nodup :=
    (pairwise_scopes ds).imp fun hlt heq => String.ne_of_lt hlt heq
  have hloop := foldlM_add_groups c (fun g hg => (hmem g hg).1) (fun g hg => (hmem g hg).2) hnodup
    (t := .empty) fun g _ => nofun
  have hstart : ∀ text, Definitions.empty.closed ++ text = text := fun text =>
    String.empty_append
  simp only [flatMap_structs_grouped, hstart] at hloop
  -- the descriptors follow the loop, so that the equation is used in front of a continuation
  have hbehind : ∀ k : String → Emission String,
      ((byScope ds).foldlM (Definitions.add c) .empty >>= fun t => k t.closed) =
        ((grouped ds).mapM (groupText c) >>= fun texts => k (String.join texts)) := by
    intro k
    have hbind := congrArg (fun m : Emission String => m >>= k) hloop
    simpa only [bind_assoc, pure_bind] using hbind
  exact congrArg (fun m : Emission String => Emission.record (.header ds.length) >>= fun _ => m)
    (hbehind fun definitions => do
      let descriptors ← Emission.ofExcept (ds.mapM (reflection c))
      return opening c ds ++ definitions ++ String.join descriptors)

end Header

end VersionedLayout
