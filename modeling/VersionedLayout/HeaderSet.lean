set_option autoImplicit false

/-!
# Sets of headers

The headers that a type needs, each once, in code-point order of their names. The list of a set is
its canonical form: two sets with the same members are equal.

## Main definitions

* `VersionedLayout.HeaderSet` — a strictly increasing list of header names.
* `VersionedLayout.HeaderSet.insert`, `VersionedLayout.HeaderSet.union` — the operations, each with
  its membership law.
-/

namespace VersionedLayout

/-- A set of header names. -/
structure HeaderSet where
  /-- The members, in order. -/
  toList : List String
  /-- Every member stands once and at its place. -/
  sorted : toList.Pairwise (· < ·)
  deriving DecidableEq

namespace HeaderSet

/-- A name put at its place into a list of names, unless it is there already. -/
def place (h : String) : List String → List String
  | [] => [h]
  | x :: xs => if h < x then h :: x :: xs else if h = x then x :: xs else x :: place h xs

/-- Placing a header adds it, and nothing else. -/
theorem mem_place {h y : String} {xs : List String} : y ∈ place h xs ↔ y = h ∨ y ∈ xs := by
  induction xs with
  | nil => simp [place]
  | cons x xs ih =>
    rw [place]
    split
    · simp
    · split
      · rename_i hx
        subst hx
        simp
      · simp only [List.mem_cons, ih]
        constructor
        · rintro (rfl | rfl | hy) <;> simp [*]
        · rintro (rfl | rfl | hy) <;> simp [*]

/-- Placing a header keeps a list in order. -/
theorem sorted_place {h : String} {xs : List String} (hs : xs.Pairwise (· < ·)) :
    (place h xs).Pairwise (· < ·) := by
  induction xs with
  | nil => simp [place]
  | cons x xs ih =>
    rw [List.pairwise_cons] at hs
    rw [place]
    split
    · rename_i hx
      refine List.pairwise_cons.2 ⟨?_, List.pairwise_cons.2 hs⟩
      intro y hy
      rcases List.mem_cons.1 hy with rfl | hy
      · exact hx
      · exact String.lt_trans hx (hs.1 y hy)
    · split
      · exact List.pairwise_cons.2 hs
      · rename_i hlt hne
        refine List.pairwise_cons.2 ⟨?_, ih hs.2⟩
        intro y hy
        rcases mem_place.1 hy with rfl | hy
        · exact String.not_le.1 fun hle => hne (String.le_antisymm hle (String.not_lt.1 hlt))
        · exact hs.1 y hy

/-- The set without members. -/
def empty : HeaderSet :=
  ⟨[], .nil⟩

/-- A set with one more member. -/
def insert (s : HeaderSet) (h : String) : HeaderSet :=
  ⟨place h s.toList, sorted_place s.sorted⟩

/-- A set with the members of a list added. -/
def insertAll (s : HeaderSet) (hs : List String) : HeaderSet :=
  hs.foldl insert s

/-- The members of both sets. -/
def union (s t : HeaderSet) : HeaderSet :=
  s.insertAll t.toList

instance : Membership String HeaderSet where
  mem s h := h ∈ s.toList

/-- The list of a set has its members. -/
theorem mem_toList {s : HeaderSet} {h : String} : h ∈ s.toList ↔ h ∈ s :=
  Iff.rfl

/-- The empty set has no members. -/
@[simp]
theorem not_mem_empty (h : String) : ¬ h ∈ empty := by
  simp [← mem_toList, empty]

/-- Insertion adds a header, and nothing else. -/
@[simp]
theorem mem_insert {s : HeaderSet} {h y : String} : y ∈ s.insert h ↔ y = h ∨ y ∈ s :=
  mem_place

/-- Insertion of a list adds its headers, and nothing else. -/
@[simp]
theorem mem_insertAll {s : HeaderSet} {hs : List String} {y : String} :
    y ∈ s.insertAll hs ↔ y ∈ hs ∨ y ∈ s := by
  induction hs generalizing s with
  | nil => simp [insertAll]
  | cons h hs ih =>
    have h' := @ih (s.insert h)
    simp only [insertAll, List.foldl_cons] at h' ⊢
    rw [h', mem_insert, List.mem_cons]
    constructor
    · rintro (h | h | h) <;> simp [h]
    · rintro ((h | h) | h) <;> simp [h]

/-- A union has the members of both sets. -/
@[simp]
theorem mem_union {s t : HeaderSet} {y : String} : y ∈ s.union t ↔ y ∈ s ∨ y ∈ t := by
  rw [union, mem_insertAll, mem_toList]
  exact Or.comm

end HeaderSet

end VersionedLayout
