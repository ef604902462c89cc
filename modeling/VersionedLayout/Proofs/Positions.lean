import Mathlib.Data.List.Lex
import Mathlib.Data.List.Sort
import VersionedLayout.Proofs.Forest
set_option autoImplicit false

/-!
# Positions in a forest

The entries of a forest are addressed by *positions*, the indices of the entries on the way down to
an entry. The lexicographic order of positions is the depth-first order, in which a block comes
before what is inside it: a position is less than the positions that it is a beginning of. The
entries are enumerated with their positions in this order, and so are the fields and the blocks
among them. A strictly increasing list is determined by its members, so that an order of positions
and the entries at these positions are all that has to be said of such an enumeration.

## Main definitions

* `VersionedLayout.Entry.entryAt?`, `VersionedLayout.Entry.blockAt?` — the entry and the block at a
  position.
* `VersionedLayout.Entry.Precedes` — the depth-first order.
* `VersionedLayout.Entry.placed` — the enumeration of a forest with the positions.

## Main results

* `VersionedLayout.Entry.mem_placed_zero`, `VersionedLayout.Entry.pairwise_placed` — the
  enumeration goes through the positions of a forest in increasing order.
* `VersionedLayout.Entry.eq_of_precedes` — such an enumeration is determined by its members.
* `VersionedLayout.Entry.filterMap_placed` — depth-first functions find what the enumeration has.
* `VersionedLayout.Entry.map_snd_placedFields`, `VersionedLayout.Entry.map_snd_placedBlocks` — the
  fields and the blocks are enumerated in this order.
-/

namespace VersionedLayout

namespace Entry

/-- The block that an entry is, if it is not a field. -/
def block? : Entry → Option Block
  | field _ => none
  | block r inner => some ⟨r, inner⟩

/-! ## Positions -/

/-- The entry at a position of a forest: the first index says which entry it is or leads to it, and
the others are its position in what this entry holds. -/
def entryAt? : List Nat → List Entry → Option Entry
  | [], _ => none
  | i :: p, es =>
    match es[i]? with
    | some (.field f) => if p.isEmpty then some (.field f) else none
    | some (.block r inner) => if p.isEmpty then some (.block r inner) else entryAt? p inner
    | none => none

/-- The block at a position of a forest, if the entry there is one. -/
def blockAt? (p : List Nat) (es : List Entry) : Option Block :=
  (entryAt? p es).bind block?

/-- One position comes before another one in depth-first order, a block before what is inside
it. -/
def Precedes : List Nat → List Nat → Prop :=
  List.Lex fun i j => i < j

/-- No position comes before itself, nor do two positions come before each other. -/
lemma asymm_precedes : Std.Asymm Precedes :=
  have : Std.Asymm fun i j : Nat => i < j := ⟨fun _ _ => Nat.lt_asymm⟩
  inferInstanceAs (Std.Asymm (List.Lex fun i j : Nat => i < j))

/-- Items are listed once and in increasing order of their positions in one way only. -/
theorem eq_of_precedes {α : Type} {ps qs : List (List Nat × α)}
    (hp : ps.Pairwise fun p q => Precedes p.1 q.1) (hq : qs.Pairwise fun p q => Precedes p.1 q.1)
    (h : ∀ q, q ∈ ps ↔ q ∈ qs) : ps = qs :=
  have : Std.Asymm fun p q : List Nat × α => Precedes p.1 q.1 :=
    ⟨fun p q => asymm_precedes.asymm p.1 q.1⟩
  hp.eq_of_mem_iff hq h

/-! ## The enumeration of a forest -/

mutual

/-- The entries from an entry of index `i` on downwards, with their positions in the forest around
it. -/
def placedOf : Nat → Entry → List (List Nat × Entry)
  | i, .field f => [([i], .field f)]
  | i, .block r inner => ([i], .block r inner) :: (placed 0 inner).map fun q => (i :: q.1, q.2)

/-- The entries of a forest at all depths with their positions, when its first entry has the
index `i`. -/
def placed : Nat → List Entry → List (List Nat × Entry)
  | _, [] => []
  | i, e :: es => placedOf i e ++ placed (i + 1) es

end

section Equations

variable (i : Nat) (f : Field) (r : VersionRange) (inner es : List Entry) (p : List Nat)

/-- From a field no position leads further down. -/
lemma entryAt?_zero_field :
    entryAt? (0 :: p) (.field f :: es) = if p.isEmpty then some (.field f) else none := rfl

/-- From a block the rest of a position leads into it. -/
lemma entryAt?_zero_block : entryAt? (0 :: p) (.block r inner :: es) =
    if p.isEmpty then some (.block r inner) else entryAt? p inner := rfl

/-- A forest without entries has no positions. -/
lemma placed_nil : placed i [] = [] := rfl

/-- A field has one position. -/
lemma placed_field : placed i (.field f :: es) = ([i], .field f) :: placed (i + 1) es := rfl

/-- A block has a position, and those of what is inside it continue this one. -/
lemma placed_block : placed i (.block r inner :: es) =
    ([i], .block r inner) :: (placed 0 inner).map (fun q => (i :: q.1, q.2)) ++
      placed (i + 1) es := rfl

end Equations

/-- **The entries of a forest are enumerated with their positions.**

**Proof sketch.** Induction on the forest. An entry is the first one of the forest, or stands in
it, or its first index leads to the entries behind it. -/
theorem mem_placed {i : Nat} {es : List Entry} {q : List Nat} {e : Entry} :
    (q, e) ∈ placed i es ↔ ∃ j p, q = (i + j) :: p ∧ entryAt? (j :: p) es = some e := by
  induction es using forest_induction generalizing i q with
  | nil => simp [placed_nil, entryAt?]
  | field f es ih =>
    rw [placed_field, List.mem_cons, ih]
    constructor
    · rintro (h | ⟨j, p, rfl, he⟩)
      · cases h
        exact ⟨0, [], rfl, rfl⟩
      · exact ⟨j + 1, p, by rw [Nat.add_assoc, Nat.add_comm 1], he⟩
    · rintro ⟨_ | j, p, rfl, he⟩
      · rw [entryAt?_zero_field] at he
        cases p with
        | nil => exact .inl (by rw [← Option.some.inj he]; rfl)
        | cons j p => cases he
      · exact .inr ⟨j, p, by rw [Nat.add_assoc, Nat.add_comm 1], he⟩
  | block r inner es ihInner ih =>
    rw [placed_block, List.cons_append, List.mem_cons, List.mem_append, ih]
    constructor
    · rintro (h | h | ⟨j, p, rfl, he⟩)
      · cases h
        exact ⟨0, [], rfl, rfl⟩
      · obtain ⟨⟨p, e⟩, hp, heq⟩ := List.mem_map.1 h
        cases heq
        obtain ⟨j, p, rfl, he⟩ := ihInner.1 hp
        refine ⟨0, (0 + j) :: p, rfl, ?_⟩
        rw [entryAt?_zero_block, Nat.zero_add]
        exact he
      · exact ⟨j + 1, p, by rw [Nat.add_assoc, Nat.add_comm 1], he⟩
    · rintro ⟨_ | j, p, rfl, he⟩
      · rw [entryAt?_zero_block] at he
        cases p with
        | nil => exact .inl (by rw [← Option.some.inj he]; rfl)
        | cons j p =>
          refine .inr (.inl (List.mem_map.2 ⟨(j :: p, e), ihInner.2 ?_, rfl⟩))
          exact ⟨j, p, by rw [Nat.zero_add], he⟩
      · exact .inr (.inr ⟨j, p, by rw [Nat.add_assoc, Nat.add_comm 1], he⟩)

/-- The enumeration of a forest lists the entry at each of its positions. -/
lemma mem_placed_zero {es : List Entry} {q : List Nat} {e : Entry} :
    (q, e) ∈ placed 0 es ↔ entryAt? q es = some e := by
  rw [mem_placed]
  constructor
  · rintro ⟨j, p, rfl, he⟩
    rwa [Nat.zero_add]
  · intro h
    cases q with
    | nil => cases h
    | cons j p => exact ⟨j, p, by rw [Nat.zero_add], h⟩

/-- **The enumeration goes through the positions in increasing order**: a block comes before what is
inside it, and this before the entries behind the block. -/
theorem pairwise_placed (i : Nat) (es : List Entry) :
    (placed i es).Pairwise fun p q => Precedes p.1 q.1 := by
  -- the first index alone puts the entries behind an entry after all that it leads to
  have hbehind : ∀ (i : Nat) (es : List Entry), ∀ q ∈ placed (i + 1) es, ∀ p,
      Precedes (i :: p) q.1 := by
    intro i es q hq p
    obtain ⟨j, p', hposition, -⟩ := mem_placed.1 hq
    rw [hposition]
    exact .rel (by omega)
  induction es using forest_induction generalizing i with
  | nil => exact .nil
  | field f es ih =>
    rw [placed_field, List.pairwise_cons]
    exact ⟨fun q hq => hbehind i es q hq [], ih (i + 1)⟩
  | block r inner es ihInner ih =>
    rw [placed_block, List.pairwise_append, List.pairwise_cons]
    refine ⟨⟨fun _ hmem => ?_, ?_⟩, ih (i + 1), fun q hq q' hq' => ?_⟩
    · obtain ⟨q, hq, rfl⟩ := List.mem_map.1 hmem
      obtain ⟨j, p, hposition, -⟩ := mem_placed.1 hq
      dsimp only
      rw [hposition]
      exact .cons .nil
    · exact List.pairwise_map.2 ((ihInner 0).imp .cons)
    · rcases List.mem_cons.1 hq with rfl | hq
      · exact hbehind i es q' hq' []
      · obtain ⟨q, -, rfl⟩ := List.mem_map.1 hq
        exact hbehind i es q' hq' q.1

/-! ## Fields and blocks -/

section

variable {α : Type}

/-- The entries of an enumeration that are of one kind, as what they are then. -/
def pick (kind? : Entry → Option α) (qs : List (List Nat × Entry)) : List (List Nat × α) :=
  qs.filterMap fun q => (kind? q.2).map fun a => (q.1, a)

/-- The entries of one kind keep their positions. -/
lemma mem_pick_placed {kind? : Entry → Option α} {es : List Entry} {q : List Nat × α} :
    q ∈ pick kind? (placed 0 es) ↔ (entryAt? q.1 es).bind kind? = some q.2 := by
  rw [pick, List.mem_filterMap, Option.bind_eq_some_iff]
  constructor
  · rintro ⟨⟨p, e⟩, he, hq⟩
    obtain ⟨a, ha, rfl⟩ := Option.map_eq_some_iff.1 hq
    exact ⟨e, mem_placed_zero.1 he, ha⟩
  · rintro ⟨e, he, ha⟩
    exact ⟨(q.1, e), mem_placed_zero.2 he, Option.map_eq_some_iff.2 ⟨q.2, ha, rfl⟩⟩

/-- The entries of one kind keep their order. -/
lemma pairwise_pick_placed (kind? : Entry → Option α) (es : List Entry) :
    (pick kind? (placed 0 es)).Pairwise fun p q => Precedes p.1 q.1 := by
  refine List.pairwise_filterMap.2 ((pairwise_placed 0 es).imp fun {p q} h a ha b hb => ?_)
  obtain ⟨_, -, rfl⟩ := Option.map_eq_some_iff.1 ha
  obtain ⟨_, -, rfl⟩ := Option.map_eq_some_iff.1 hb
  exact h

/-- Without their positions, the entries of one kind are what is found along the enumeration. -/
lemma map_snd_pick (kind? : Entry → Option α) (qs : List (List Nat × Entry)) :
    (pick kind? qs).map Prod.snd = qs.filterMap fun q => kind? q.2 := by
  rw [pick, List.map_filterMap]
  refine List.filterMap_congr fun q _ => ?_
  cases kind? q.2 <;> rfl

/-- The positions in a forest around it do not matter for what is found along an enumeration. -/
lemma filterMap_map_cons (kind? : Entry → Option α) (i : Nat) (qs : List (List Nat × Entry)) :
    (qs.map fun q => (i :: q.1, q.2)).filterMap (fun q => kind? q.2) =
      qs.filterMap fun q => kind? q.2 := by
  rw [List.filterMap_map]
  rfl

/-- **What is found along the enumeration** is what any depth-first function finds that takes each
block before what is inside it, and this before the entries behind the block. -/
theorem filterMap_placed {kind? : Entry → Option α} {found : List Entry → List α}
    (nil : found [] = [])
    (field : ∀ f es, found (.field f :: es) = (kind? (.field f)).toList ++ found es)
    (block : ∀ r inner es, found (.block r inner :: es) =
      (kind? (.block r inner)).toList ++ found inner ++ found es) (i : Nat) (es : List Entry) :
    (placed i es).filterMap (fun q => kind? q.2) = found es := by
  have hcons : ∀ (q : List Nat × Entry) (qs : List (List Nat × Entry)),
      (q :: qs).filterMap (fun q => kind? q.2) =
        (kind? q.2).toList ++ qs.filterMap fun q => kind? q.2 := by
    intro q qs
    rw [List.filterMap_cons]
    cases kind? q.2 <;> rfl
  induction es using forest_induction generalizing i with
  | nil => rw [placed_nil, nil, List.filterMap_nil]
  | field f es ih => rw [placed_field, hcons, ih, field]
  | block r inner es ihInner ih =>
    rw [placed_block, List.filterMap_append, hcons, filterMap_map_cons, ihInner, ih, block]

end

/-- The fields of a forest with their positions. -/
def placedFields (es : List Entry) : List (List Nat × Field) :=
  pick field? (placed 0 es)

/-- The blocks of a forest with their positions. -/
def placedBlocks (es : List Entry) : List (List Nat × Block) :=
  pick block? (placed 0 es)

/-- **All fields of a forest** are enumerated in the order of their positions. -/
theorem map_snd_placedFields (es : List Entry) : (placedFields es).map Prod.snd = allFields es := by
  rw [placedFields, map_snd_pick]
  refine filterMap_placed rfl (fun _ _ => rfl) (fun r inner es => ?_) 0 es
  simp only [allFields, guardedFields_block, List.map_append, List.map_map]
  rfl

/-- **All blocks of a forest** are enumerated in the order of their positions. -/
theorem map_snd_placedBlocks (es : List Entry) : (placedBlocks es).map Prod.snd = allBlocks es := by
  rw [placedBlocks, map_snd_pick]
  refine filterMap_placed rfl (fun _ _ => rfl) (fun r inner es => ?_) 0 es
  simp only [allBlocks, guardedBlocks_block, List.map_append, List.map_cons, List.map_map]
  rfl

/-- A field is listed with a position exactly when it is the entry there. -/
lemma mem_placedFields {es : List Entry} {q : List Nat × Field} :
    q ∈ placedFields es ↔ entryAt? q.1 es = some (.field q.2) := by
  rw [placedFields, mem_pick_placed, Option.bind_eq_some_iff]
  constructor
  · rintro ⟨f | ⟨r, inner⟩, he, hf⟩
    · cases hf
      exact he
    · cases hf
  · exact fun he => ⟨_, he, rfl⟩

/-- A block is listed with a position exactly when it stands there. -/
lemma mem_placedBlocks {es : List Entry} {q : List Nat × Block} :
    q ∈ placedBlocks es ↔ blockAt? q.1 es = some q.2 := by
  rw [placedBlocks, mem_pick_placed, blockAt?]

/-- The positions of the fields increase. -/
lemma pairwise_placedFields (es : List Entry) :
    (placedFields es).Pairwise fun p q => Precedes p.1 q.1 :=
  pairwise_pick_placed field? es

/-- The positions of the blocks increase. -/
lemma pairwise_placedBlocks (es : List Entry) :
    (placedBlocks es).Pairwise fun p q => Precedes p.1 q.1 :=
  pairwise_pick_placed block? es

end Entry

end VersionedLayout
