import VersionedLayout.Proofs.DeadBlocks
set_option autoImplicit false

/-!
# What accepted blocks contribute

A block of an accepted schema is active for a release of its struct. Whether it has a field for such
a release is another matter, which the ranges alone do not decide: a block may be empty, or hold
nothing but empty blocks. This is the only way in which an accepted block fails to contribute. As
soon as a field stands in it, at any depth, the innermost block around this field is active for some
release, and the block has the field for that release.

## Main results

* `VersionedLayout.Entry.resolve_block_ne_nil_iff` — when a block has fields for a version.
* `VersionedLayout.StructDecl.isReached_of_analyze` — accepted blocks are active for a release.
* `VersionedLayout.accepted_blocks_contribute` — which accepted blocks have a field for a release.
-/

namespace VersionedLayout

/-- A list has an item unless it is empty. -/
lemma ne_nil_iff_exists_mem {α : Type} {l : List α} : l ≠ [] ↔ ∃ a, a ∈ l :=
  ⟨List.exists_mem_of_ne_nil l, fun ⟨_, h⟩ => List.ne_nil_of_mem h⟩

namespace Entry

/-- A forest has fields when a field stands in it. -/
lemma allFields_ne_nil_iff {es : List Entry} :
    allFields es ≠ [] ↔ ∃ ss f, Stands (.field f) ss es := by
  rw [ne_nil_iff_exists_mem]
  simp only [mem_allFields]
  exact exists_comm

/-- A block has fields for a version when a field stands in it behind ranges that, like its own,
contain the version. -/
theorem resolve_block_ne_nil_iff {v : Version} {r : VersionRange} {inner : List Entry} :
    resolve v (.block r inner) ≠ [] ↔
      ∃ ss f, Stands (.field f) ss inner ∧ v.LiesWithin (r :: ss) := by
  rw [ne_nil_iff_exists_mem, resolve]
  constructor
  · rintro ⟨f, hf⟩
    split at hf
    · rename_i hr
      obtain ⟨ss, hs, hin⟩ := mem_resolveAll.1 hf
      exact ⟨ss, f, hs, Version.liesWithin_cons.2 ⟨hr, hin⟩⟩
    · cases hf
  · rintro ⟨ss, f, hs, hin⟩
    obtain ⟨hr, hin⟩ := Version.liesWithin_cons.1 hin
    refine ⟨f, ?_⟩
    rw [if_pos hr]
    exact mem_resolveAll.2 ⟨ss, hs, hin⟩

end Entry

namespace StructDecl

variable {ds : List StructDecl} {d : StructDecl} {rs ss : List VersionRange} {r : VersionRange}
variable {inner : List Entry} {f : Field}

/-- The blocks of an accepted schema are active for a release of their struct. -/
theorem isReached_of_analyze (h : analyze ds = []) (hd : d ∈ ds)
    (hs : Entry.Stands (.block r inner) rs d.entries) : d.IsReached (rs ++ [r]) := by
  have hblocks : Check.reachability ds = [] := by
    refine analyze_eq_nil_iff.1 h Check.reachability ?_
    simp [Check.all]
  obtain ⟨v, hany, hrange, hrs, hr⟩ := Check.reachability_eq_nil_iff.1 hblocks d hd rs r inner hs
  refine ⟨v, mem_enabledVersions.2 ⟨hany, hrange⟩, Version.liesWithin_append.2 ⟨hrs, ?_⟩⟩
  exact Version.liesWithin_cons.2 ⟨hr, Version.liesWithin_nil v⟩

/-- A release of the struct lies in all ranges around a field that stands in an accepted block.

**Proof sketch.** These are the ranges of the innermost block around the field and of the blocks
around that one. -/
lemma isReached_of_field (h : analyze ds = []) (hd : d ∈ ds)
    (hs : Entry.Stands (.block r inner) rs d.entries) (hf : Entry.Stands (.field f) ss inner) :
    d.IsReached (rs ++ r :: ss) := by
  rcases ss.eq_nil_or_concat' with rfl | ⟨around, innermost, rfl⟩
  · exact isReached_of_analyze h hd hs
  · obtain ⟨held, hblock, -⟩ := Entry.stands_append_cons.1 hf
    have hstands : Entry.Stands (.block innermost held) (rs ++ r :: around) d.entries :=
      Entry.stands_append_cons.2 ⟨inner, hs, hblock⟩
    have hreached := isReached_of_analyze h hd hstands
    rwa [List.append_assoc, List.cons_append] at hreached

end StructDecl

/-- **Accepted blocks** are active for a release of their struct, which lies in all ranges around
the block. The block has a field for such a release exactly when a field stands in it at some depth.

**Proof sketch.** A field that the block has for a version stands in it. Conversely, the innermost
block around a field is itself accepted, and hence active for a release of the struct, which then
sees the field. -/
theorem accepted_blocks_contribute {ds : List StructDecl} (h : analyze ds = []) {d : StructDecl}
    (hd : d ∈ ds) {rs : List VersionRange} {r : VersionRange} {inner : List Entry}
    (hs : Entry.Stands (.block r inner) rs d.entries) :
    d.IsReached (rs ++ [r]) ∧
      ((∃ v ∈ d.enabledVersions, v.LiesWithin rs ∧ Entry.resolve v (.block r inner) ≠ []) ↔
        Entry.allFields inner ≠ []) := by
  refine ⟨StructDecl.isReached_of_analyze h hd hs, ?_⟩
  rw [Entry.allFields_ne_nil_iff]
  constructor
  · rintro ⟨v, -, -, hfields⟩
    obtain ⟨ss, f, hf, -⟩ := Entry.resolve_block_ne_nil_iff.1 hfields
    exact ⟨ss, f, hf⟩
  · rintro ⟨ss, f, hf⟩
    obtain ⟨v, hv, hin⟩ := StructDecl.isReached_of_field h hd hs hf
    obtain ⟨hrs, hrest⟩ := Version.liesWithin_append.1 hin
    exact ⟨v, hv, hrs, Entry.resolve_block_ne_nil_iff.2 ⟨ss, f, hf, hrest⟩⟩

/-- A block that holds a field only in a block inside it, next to one that holds an empty block. -/
theorem accepted_blocks_contribute_nested :
    let deep : List Entry :=
      [.block ⟨.df, .wotlkNew⟩ [.field ⟨.plain (.named "T"), "x", none, none, none⟩]]
    let hollow : List Entry := [.block ⟨.sl, .sl⟩ []]
    let d : StructDecl :=
      { name := "A", versions := some ⟨.bfa, .df⟩,
        entries := [.block ⟨.sl, .any⟩ deep, .block ⟨.bfa, .any⟩ hollow] }
    analyze [d] = [] ∧ d.IsReached [⟨.sl, .any⟩] ∧
      (∃ v ∈ d.enabledVersions, v.LiesWithin [] ∧
        Entry.resolve v (.block ⟨.sl, .any⟩ deep) ≠ []) ∧
      d.IsReached [⟨.bfa, .any⟩] ∧
      ¬ ∃ v ∈ d.enabledVersions, v.LiesWithin [] ∧
        Entry.resolve v (.block ⟨.bfa, .any⟩ hollow) ≠ [] := by
  intro deep hollow d
  have haccepted : analyze [d] = [] := by decide
  have hdeep := accepted_blocks_contribute haccepted List.mem_cons_self
    (.here List.mem_cons_self : Entry.Stands (.block ⟨.sl, .any⟩ deep) [] d.entries)
  have hhollow := accepted_blocks_contribute haccepted List.mem_cons_self
    (.here (.tail _ (.head _)) : Entry.Stands (.block ⟨.bfa, .any⟩ hollow) [] d.entries)
  exact ⟨haccepted, hdeep.1, hdeep.2.2 (List.cons_ne_nil _ _), hhollow.1,
    fun hfields => hhollow.2.1 hfields rfl⟩

/-- A block without entries is accepted, although it has no field for any version. -/
theorem hollow_block_accepted :
    let d : StructDecl :=
      { name := "A", versions := some .full, entries := [.block ⟨.cata, .mop⟩ []] }
    analyze [d] = [] ∧ Entry.Stands (.block ⟨.cata, .mop⟩ []) [] d.entries ∧
      ¬ ∃ v ∈ d.enabledVersions, v.LiesWithin [] ∧
        Entry.resolve v (.block ⟨.cata, .mop⟩ []) ≠ [] := by
  intro d
  refine ⟨by decide, .here List.mem_cons_self, ?_⟩
  rintro ⟨v, -, -, hfields⟩
  obtain ⟨ss, f, hf, -⟩ := Entry.resolve_block_ne_nil_iff.1 hfields
  exact Entry.not_stands_nil hf

end VersionedLayout
