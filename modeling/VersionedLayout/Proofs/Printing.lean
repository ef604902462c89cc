import VersionedLayout.Proofs.Grammar
set_option autoImplicit false

/-!
# Reading back what was printed

What the printer makes of a tree is JSON and stands for that tree, whichever blanks it puts between
the tokens. Only the numbers of the tree have to be numbers of the grammar; strings and keys are
arbitrary. The reader therefore reads the tree back.

## Main definitions

* `VersionedLayout.Json.Occurs` — a value occurs in a tree.
* `VersionedLayout.Json.Writable` — all numbers of a tree are numbers of the grammar.
* `VersionedLayout.Json.Spacing.Blank` — a spacing of blanks alone.

## Main results

* `VersionedLayout.Json.written_print` — a printed tree is a text of the tree.
* `VersionedLayout.Json.ofText_pretty` — the indented form is read back as the tree.
-/

namespace VersionedLayout

namespace Json

/-! ## Values in a tree -/

/-- The value `x` occurs in a tree: it is the tree, or occurs in an item or in the value of a
member. -/
inductive Occurs (x : Json) : Json → Prop
  | root : Occurs x x
  | item {y : Json} {ys : List Json} : y ∈ ys → Occurs x y → Occurs x (.array ys)
  | member {m : String × Json} {ms : List (String × Json)} :
    m ∈ ms → Occurs x m.2 → Occurs x (.object ms)

/-- All numbers that occur in a tree are numbers of the grammar. -/
def Writable (j : Json) : Prop :=
  ∀ t, Occurs (.number t) j → IsNumber t

/-- A string can be written. -/
lemma writable_string (s : String) : Writable (.string s) :=
  fun _ ht => nomatch ht

/-- An array can be written when its items can. -/
lemma writable_array {xs : List Json} (h : ∀ x ∈ xs, x.Writable) : Writable (.array xs) := by
  intro t ht
  cases ht with
  | item hx ht => exact h _ hx t ht

/-- An object can be written when the values of its members can. -/
lemma writable_object {ms : List (String × Json)} (h : ∀ m ∈ ms, m.2.Writable) :
    Writable (.object ms) := by
  intro t ht
  cases ht with
  | member hm ht => exact h _ hm t ht

/-- The items of an array that can be written can be written. -/
lemma Writable.item {xs : List Json} (h : Writable (.array xs)) {x : Json} (hx : x ∈ xs) :
    Writable x :=
  fun t ht => h t (.item hx ht)

/-- The values of the members of an object that can be written can be written. -/
lemma Writable.member {ms : List (String × Json)} (h : Writable (.object ms)) {m : String × Json}
    (hm : m ∈ ms) : Writable m.2 :=
  fun t ht => h t (.member hm ht)

/-! ## Blanks -/

/-- A spacing that consists of blanks. -/
structure Spacing.Blank (s : Spacing) : Prop where
  lineBreak : ∀ depth, ∀ c ∈ s.lineBreak depth, isBlank c = true
  afterColon : ∀ c ∈ s.afterColon, isBlank c = true

/-- No spacing is blank. -/
lemma Spacing.blank_none : Spacing.none.Blank where
  lineBreak _ := nofun
  afterColon := nofun

/-- Line breaks and indentation are blank. -/
lemma Spacing.blank_indented : Spacing.indented.Blank where
  lineBreak depth c hc := by
    rcases List.mem_cons.1 hc with rfl | hc
    · rfl
    · rw [(List.mem_replicate.1 hc).2]
      rfl
  afterColon c hc := by
    rw [List.mem_singleton.1 hc]
    rfl

/-- Blank characters may precede a text of a tree. -/
lemma Written.blanksBefore {bs t : List Char} {j : Json} (hbs : ∀ b ∈ bs, isBlank b = true)
    (h : Written t j) : Written (bs ++ t) j := by
  induction bs with
  | nil => exact h
  | cons b bs ih =>
    exact .blankBefore (hbs b List.mem_cons_self) (ih fun c hc => hbs c (List.mem_cons_of_mem b hc))

/-! ## Printed trees -/

section Print

variable {s : Spacing} {depth : Nat}

/-- A quoted string is a text of the string. -/
lemma written_quoted (t : String) : Written (quoted t) (.string t) :=
  .string (spells_escape t.toList)

/-- The items of a printed array have commas in between. -/
lemma append_printItems (x : Json) (xs : List Json) :
    s.lineBreak depth ++ print s depth x ++ printItems s depth xs =
      [','].intercalate ((x :: xs).map fun y => s.lineBreak depth ++ print s depth y) := by
  induction xs generalizing x with
  | nil => rw [printItems, intercalate_map_singleton, List.append_nil]
  | cons y xs ih => rw [printItems, intercalate_map_cons_cons, ← ih y, List.cons_append]; rfl

/-- The texts of a printed member. -/
def printedMember (s : Spacing) (depth : Nat) (m : String × Json) : MemberText where
  keyText := s.lineBreak depth ++ quoted m.1
  key := m.1
  valueText := s.afterColon ++ print s depth m.2
  value := m.2

/-- A member is printed on a line of its own, the name in front of a colon and the value. -/
lemma text_printedMember (m : String × Json) : (printedMember s depth m).text =
    s.lineBreak depth ++ quoted m.1 ++ [':'] ++ s.afterColon ++ print s depth m.2 := by
  simp only [printedMember, MemberText.text, List.append_assoc, List.cons_append, List.nil_append]

/-- The members of a printed object have commas in between. -/
lemma append_printMembers (m : String × Json) (ms : List (String × Json)) :
    (printedMember s depth m).text ++ printMembers s depth ms =
      [','].intercalate ((m :: ms).map fun n => (printedMember s depth n).text) := by
  induction ms generalizing m with
  | nil => rw [printMembers, intercalate_map_singleton, List.append_nil]
  | cons n ms ih =>
    rw [printMembers, intercalate_map_cons_cons, ← ih n, text_printedMember n]
    simp only [List.cons_append]

/-- **A printed tree is a text of the tree**, at any depth and with any blanks. -/
theorem written_print (hs : s.Blank) (j : Json) (hj : j.Writable) (depth : Nat) :
    Written (print s depth j) j := by
  induction j using tree_induction generalizing depth with
  | null =>
    rw [print]
    exact .null
  | bool b =>
    cases b with
    | true =>
      rw [print]
      exact .boolTrue
    | false =>
      rw [print]
      exact .boolFalse
  | number t =>
    rw [print]
    exact .number (hj t .root)
  | string t =>
    rw [print]
    exact written_quoted t
  | array xs ih =>
    cases xs with
    | nil =>
      rw [print]
      exact @Written.array [] [] nofun nofun
    | cons x xs =>
      have hitems : ∀ p ∈ (x :: xs).map fun y =>
          (s.lineBreak (depth + 1) ++ print s (depth + 1) y, y), Written p.1 p.2 := by
        intro p hp
        obtain ⟨y, hy, rfl⟩ := List.mem_map.1 hp
        exact (ih y hy (hj.item hy) (depth + 1)).blanksBefore (hs.lineBreak (depth + 1))
      have h := Written.array hitems (hs.lineBreak depth)
      have hxs : Prod.snd ∘ (fun y => (s.lineBreak (depth + 1) ++ print s (depth + 1) y, y)) = id :=
        rfl
      rw [List.map_map, List.map_map, hxs, List.map_id] at h
      rw [print]
      simp only [List.cons_append] at h ⊢
      rw [append_printItems]
      exact h
  | object ms ih =>
    cases ms with
    | nil =>
      rw [print]
      exact @Written.object [] [] nofun nofun nofun
    | cons m ms =>
      have hkeys : ∀ n ∈ (m :: ms).map (printedMember s (depth + 1)),
          Written n.keyText (.string n.key) := by
        intro n hn
        obtain ⟨k, -, rfl⟩ := List.mem_map.1 hn
        exact (written_quoted k.1).blanksBefore (hs.lineBreak (depth + 1))
      have hvalues : ∀ n ∈ (m :: ms).map (printedMember s (depth + 1)),
          Written n.valueText n.value := by
        intro n hn
        obtain ⟨k, hk, rfl⟩ := List.mem_map.1 hn
        exact (ih k hk (hj.member hk) (depth + 1)).blanksBefore hs.afterColon
      have h := Written.object hkeys hvalues (hs.lineBreak depth)
      have hmembers : MemberText.member ∘ printedMember s (depth + 1) = id := rfl
      rw [List.map_map, List.map_map, hmembers, List.map_id] at h
      rw [print]
      simp only [List.cons_append] at h ⊢
      rw [← text_printedMember, append_printMembers]
      exact h

end Print

/-- The compact form of a tree is JSON and stands for the tree. -/
lemma written_compact {j : Json} (hj : j.Writable) : Written j.compact.toList j := by
  rw [compact, String.toList_ofList]
  exact written_print Spacing.blank_none j hj 0

/-- The indented form of a tree is JSON and stands for the tree. -/
lemma written_pretty {j : Json} (hj : j.Writable) : Written j.pretty.toList j := by
  rw [pretty, String.toList_ofList]
  exact written_print Spacing.blank_indented j hj 0

/-- **The indented form of a tree is read back as the tree.** -/
theorem ofText_pretty {j : Json} (hj : j.Writable) : ofText j.pretty = .ok j :=
  (written_pretty hj).ofText_eq

end Json

end VersionedLayout
