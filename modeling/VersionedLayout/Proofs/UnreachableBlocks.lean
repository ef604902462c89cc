import Mathlib.Data.List.Infix
import VersionedLayout.Proofs.DeadBlocks
set_option autoImplicit false

/-!
# Which blocks are reported as unreachable

A block is reported when no release of its struct lies in its range and in all ranges around it,
although every block around it is active for some release. The check finds these blocks while it
descends, by narrowing the list of the releases that are left. Here they are said by the ranges
alone, at any depth, and the reports are those blocks in the order of the enumeration.

That a reported block contributes nothing is said of the place of the block, not of its fields: a
field of the same name and type may well stand elsewhere in the struct. A place is given by the
blocks around it, each with what it holds before and behind the place, and what stands at the place
of a reported block can be exchanged without a change to any layout.

## Main definitions

* `VersionedLayout.Enclosure`, `VersionedLayout.Entry.enclose` — the blocks around a place, and an
  entry put at the place.
* `VersionedLayout.StructDecl.IsUnreachable` — a block is an outermost one that is never active.

## Main results

* `VersionedLayout.Entry.stands_iff_enclose` — what stands in a forest stands at a place.
* `VersionedLayout.Entry.resolve_enclose_of_inactive` — what an inactive block holds is not seen.
* `VersionedLayout.Check.reachability_reports` — the reports on unreachable blocks.
-/

namespace VersionedLayout

/-! ## Places -/

/-- A block around a place: its range, and what it holds before and behind the entry that leads to
the place. -/
structure Enclosure where
  /-- The range of the block. -/
  range : VersionRange
  /-- Its entries before the place. -/
  before : List Entry
  /-- Its entries behind the place. -/
  behind : List Entry

namespace Entry

/-- An entry inside the given blocks, the outermost of which comes first. -/
def enclose : List Enclosure → Entry → Entry
  | [], e => e
  | b :: bs, e => .block b.range (b.before ++ enclose bs e :: b.behind)

/-- What stands in a forest behind given ranges is enclosed by blocks with these ranges, the
outermost of which is an entry of the forest. -/
theorem stands_iff_enclose {e : Entry} {rs : List VersionRange} {es : List Entry} :
    Stands e rs es ↔ ∃ bs : List Enclosure, enclose bs e ∈ es ∧ bs.map Enclosure.range = rs := by
  constructor
  · intro h
    induction h with
    | here h => exact ⟨[], h, rfl⟩
    | @inside r inner es rs hblock _ ih =>
      obtain ⟨bs, hmem, hranges⟩ := ih
      obtain ⟨before, behind, rfl⟩ := List.append_of_mem hmem
      exact ⟨⟨r, before, behind⟩ :: bs, hblock, by rw [List.map_cons, hranges]⟩
  · rintro ⟨bs, hmem, rfl⟩
    induction bs generalizing es with
    | nil => exact .here hmem
    | cons b bs ih => exact .inside hmem (ih (List.mem_append_right _ List.mem_cons_self))

section

variable (v : Version)

/-- The fields of two forests side by side are those of each. -/
lemma resolveAll_append (es fs : List Entry) :
    resolveAll v (es ++ fs) = resolveAll v es ++ resolveAll v fs := by
  induction es with
  | nil => rfl
  | cons e es ih => rw [List.cons_append, resolveAll, resolveAll, ih, List.append_assoc]

/-- The fields of an enclosed entry stand between those of the entries around it. -/
lemma resolve_enclose_cons (b : Enclosure) (bs : List Enclosure) (e : Entry) :
    resolve v (enclose (b :: bs) e) =
      if b.range.contains v then
        resolveAll v b.before ++ (resolve v (enclose bs e) ++ resolveAll v b.behind)
      else [] := by
  rw [enclose, resolve, resolveAll_append, resolveAll]

end

/-- **What an inactive block holds is not seen**: for a version that is not in the range of the
block and in all ranges around it, the entries of the block can be exchanged.

**Proof sketch.** Induction on the blocks around it. Either the outermost one excludes the version
and has no fields, or the version is not in all of the other ranges. -/
theorem resolve_enclose_of_inactive {v : Version} {bs : List Enclosure} {r : VersionRange}
    (h : ¬ v.LiesWithin (bs.map Enclosure.range ++ [r])) (inner other : List Entry) :
    resolve v (enclose bs (.block r inner)) = resolve v (enclose bs (.block r other)) := by
  induction bs with
  | nil =>
    have hr : ¬ r.contains v = true := by simpa using h
    rw [enclose, enclose, resolve, resolve, if_neg hr, if_neg hr]
  | cons b bs ih =>
    rw [resolve_enclose_cons, resolve_enclose_cons]
    by_cases hb : b.range.contains v = true
    · have hrest : ¬ v.LiesWithin (bs.map Enclosure.range ++ [r]) := by
        intro hin
        exact h (Version.liesWithin_cons.2 ⟨hb, hin⟩)
      rw [ih hrest]
    · rw [if_neg hb, if_neg hb]

end Entry

/-! ## Unreachable blocks -/

namespace StructDecl

variable {d : StructDecl} {rs : List VersionRange} {r : VersionRange}

/-- A block of a struct, given by the ranges around it and its own, is never active, while every
block around it is active for a release of the struct. -/
structure IsUnreachable (d : StructDecl) (rs : List VersionRange) (r : VersionRange) : Prop where
  /-- No release of the struct lies in the range of the block and in all ranges around it. -/
  inactive : ¬ d.IsReached (rs ++ [r])
  /-- Of every block around it, some release lies in its range and in all ranges around it. -/
  enclosed : ∀ outer, outer <+: rs → outer ≠ [] → d.IsReached outer

/-- A release that reaches a place reaches all places around it. -/
lemma IsReached.of_isPrefix {outer : List VersionRange} (h : d.IsReached rs) (ho : outer <+: rs) :
    d.IsReached outer := by
  obtain ⟨v, hv, hin⟩ := h
  obtain ⟨rest, rfl⟩ := ho
  exact ⟨v, hv, (Version.liesWithin_append.1 hin).1⟩

/-- The blocks that the check reports, by the releases that reach their places, are the unreachable
ones. -/
lemma isReportedAt_iff_isUnreachable {p : List VersionRange × Block} :
    Check.isReportedAt d.enabledVersions p = true ↔ d.IsUnreachable p.1 p.2.range := by
  rw [Check.isReportedAt, decide_eq_true_eq, ← not_isReached_append_iff, ← isReached_iff]
  constructor
  · rintro ⟨hinactive, hplace⟩
    refine ⟨hinactive, fun outer hprefix hne => ?_⟩
    rcases hplace with htop | hreached
    · rw [htop, List.prefix_nil] at hprefix
      exact absurd hprefix hne
    · exact hreached.of_isPrefix hprefix
  · intro h
    refine ⟨h.inactive, ?_⟩
    rcases eq_or_ne p.1 [] with htop | hne
    · exact .inl htop
    · exact .inr (h.enclosed p.1 List.prefix_rfl hne)

instance : Decidable (d.IsUnreachable rs r) :=
  decidable_of_iff _ (isReportedAt_iff_isUnreachable (p := (rs, ⟨r, []⟩)))

/-- No block inside an unreachable one is unreachable itself: it is not enclosed by active blocks.
-/
lemma IsUnreachable.not_inside (h : d.IsUnreachable rs r) (ss : List VersionRange)
    (s : VersionRange) : ¬ d.IsUnreachable (rs ++ r :: ss) s := by
  intro hs
  refine h.inactive (hs.enclosed (rs ++ [r]) ⟨ss, ?_⟩ (by simp))
  rw [List.append_assoc, List.singleton_append]

/-- The releases of a struct that reach a place are those in its range and in all ranges around the
place. -/
lemma reaching_enabledVersions (d : StructDecl) (rs : List VersionRange) :
    Version.reaching d.enabledVersions rs =
      Version.all.filter fun v => v.LiesWithin (d.versions.toList ++ rs) := by
  rw [Version.reaching, enabledVersions, List.filter_filter]
  refine List.filter_congr fun v _ => ?_
  rw [Bool.eq_iff_iff, Bool.and_eq_true, decide_eq_true_eq, decide_eq_true_eq, isEnabledFor_iff,
    Version.liesWithin_append, and_comm]

end StructDecl

/-! ## The reports -/

namespace Check

/-- **The reports on unreachable blocks.** The structs are reported on in their order, with one
report for each unreachable block, in the order in which the blocks are enumerated: depth first, and
each before the blocks inside it. The note of a report lists, in declared order, the releases in the
range of the struct and in all ranges around the block. Every block of the enumeration stands at a
place, which the blocks around it make. Nothing inside a reported block is reported. For no release
of the struct do the fields of the entry that encloses a reported block depend on what this block
holds.

**Proof sketch.** The check reports a block when the releases that are left on the way down to it
are none of those in its range, and some are left. These are the releases in all ranges around it,
and some being left in front of the block means the same for all blocks around it. A release of the
struct is therefore not in all ranges down to that of the reported block, and what is enclosed by
them is not seen for it. -/
theorem reachability_reports (ds : List StructDecl) :
    (reachability ds = ds.flatMap fun d =>
      ((Entry.guardedBlocks d.entries).filter fun p => d.IsUnreachable p.1 p.2.range).map fun p =>
        d.unreachableReport p.1 p.2.range) ∧
    (∀ (d : StructDecl) rs r, (d.unreachableReport rs r).code = .unreachableBlock ∧
      (d.unreachableReport rs r).notes = ["note: the enclosing scope is enabled for " ++
        ", ".intercalate ((Version.all.filter fun v =>
          v.LiesWithin (d.versions.toList ++ rs)).map Version.name)]) ∧
    (∀ d ∈ ds, ∀ p ∈ Entry.guardedBlocks d.entries, ∃ bs : List Enclosure,
      Entry.enclose bs (.block p.2.range p.2.entries) ∈ d.entries ∧
        bs.map Enclosure.range = p.1) ∧
    ∀ d ∈ ds, ∀ bs r inner, Entry.enclose bs (.block r inner) ∈ d.entries →
      d.IsUnreachable (bs.map Enclosure.range) r →
        (∀ ss s, ¬ d.IsUnreachable (bs.map Enclosure.range ++ r :: ss) s) ∧
        ∀ v ∈ d.enabledVersions, ∀ other,
          Entry.resolve v (Entry.enclose bs (.block r other)) =
            Entry.resolve v (Entry.enclose bs (.block r inner)) := by
  refine ⟨?_, fun d rs r => ⟨rfl, ?_⟩, fun d _ p hp => ?_,
    fun d _ bs r inner _ h => ⟨h.not_inside, ?_⟩⟩
  · rw [reachability]
    refine List.flatMap_congr fun d _ => ?_
    rw [unreachable_eq_map]
    congr 1
    refine List.filter_congr fun p _ => ?_
    rw [Bool.eq_iff_iff, decide_eq_true_eq, StructDecl.isReportedAt_iff_isUnreachable]
  · rw [← StructDecl.reaching_enabledVersions]
    rfl
  · exact Entry.stands_iff_enclose.1 (Entry.mem_guardedBlocks.1 hp)
  · intro v hv other
    have hinactive : ¬ v.LiesWithin (bs.map Enclosure.range ++ [r]) := fun hin =>
      h.inactive ⟨v, hv, hin⟩
    exact Entry.resolve_enclose_of_inactive hinactive other inner

/-- Two blocks are reported, each of them once: one at the top with a block inside it, and one
between two fields of a block that is active. -/
theorem reachability_reports_nested :
    let field (name : String) : Entry := .field ⟨.plain (.named "T"), name, none, none, none⟩
    let bs : List Enclosure := [⟨⟨.sl, .any⟩, [field "c"], [field "e"]⟩]
    let d : StructDecl :=
      { name := "N", versions := some ⟨.bfa, .tbcNew⟩,
        entries := [.block ⟨.cata, .mop⟩ [field "a", .block ⟨.cata, .cata⟩ [field "b"]],
          Entry.enclose bs (.block ⟨.bfa, .classicNew⟩ [field "c"])] }
    reachability [d] =
        [.unreachableBlock "N" ⟨.cata, .mop⟩ [.bfa, .sl, .classicNew, .tbcNew],
          .unreachableBlock "N" ⟨.bfa, .classicNew⟩ [.sl, .tbcNew]] ∧
      d.IsUnreachable [⟨.sl, .any⟩] ⟨.bfa, .classicNew⟩ ∧
      ∀ v ∈ d.enabledVersions, ∀ other,
        Entry.resolve v (Entry.enclose bs (.block ⟨.bfa, .classicNew⟩ other)) =
          Entry.resolve v (Entry.enclose bs (.block ⟨.bfa, .classicNew⟩ [field "c"])) := by
  intro field bs d
  have hunreachable : d.IsUnreachable [⟨.sl, .any⟩] ⟨.bfa, .classicNew⟩ := by decide
  obtain ⟨hreports, -, -, hplaces⟩ := reachability_reports [d]
  refine ⟨?_, hunreachable, ?_⟩
  · rw [hreports]
    decide
  · exact (hplaces d List.mem_cons_self bs _ _ (.tail _ (.head _)) hunreachable).2

end Check

end VersionedLayout
