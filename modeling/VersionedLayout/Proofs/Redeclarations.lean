import Mathlib.Data.List.NodupEquivFin
import VersionedLayout.Check.StructNames
set_option autoImplicit false

/-!
# Reports on redeclared structs

A struct is reported when its qualified name is taken by an earlier one, and the report refers to
one of the structs that have taken it. This is the last of them before the struct, so that the
reports on a name form a chain: each refers to the struct of the report before. The first report on
a name refers to its first declaration, and a later one does not. The note that calls the struct
the first declaration is therefore right throughout a schema exactly when no name is declared more
than twice.

## Main definitions

* `VersionedLayout.Check.IsPrevious`, `VersionedLayout.Check.IsFirst` — the last and the first
  position before another one with the same name.

## Main results

* `VersionedLayout.Check.structNamesFrom_eq` — the reports, position by position.
* `VersionedLayout.Check.structNames_reports` — which structs are reported, and to which struct
  each report refers.
-/

namespace VersionedLayout

namespace Check

/-! ## Positions with the same name -/

/-- Before `j`, the position `i` is the last one with the name at `j`. -/
structure IsPrevious (names : List String) (i j : Nat) : Prop where
  lt : i < j
  same : names[i]? = names[j]?
  last : ∀ k, i < k → k < j → names[k]? ≠ names[j]?

/-- Before `j`, the position `i` is the first one with the name at `j`. -/
structure IsFirst (names : List String) (i j : Nat) : Prop where
  lt : i < j
  same : names[i]? = names[j]?
  first : ∀ k < i, names[k]? ≠ names[j]?

section

variable {names : List String} {name : String} {i j : Nat}

/-- The last position before `j` that has the name `name`. -/
def lastBefore? (names : List String) (name : String) : Nat → Option Nat
  | 0 => none
  | j + 1 => if names[j]? = some name then some j else lastBefore? names name j

/-- There is no last position before `j` when the name stands at none before `j`. -/
lemma lastBefore?_eq_none_iff :
    lastBefore? names name j = none ↔ ∀ i < j, names[i]? ≠ some name := by
  induction j with
  | zero => simp [lastBefore?]
  | succ j ih =>
    rw [lastBefore?]
    rw [Nat.forall_lt_succ_right]
    split
    · rename_i h
      exact iff_of_false nofun fun hnone => hnone.2 h
    · rename_i h
      rw [ih, and_iff_left h]

/-- The last position before `j` is the one behind which the name does not stand again. -/
lemma lastBefore?_eq_some_iff :
    lastBefore? names name j = some i ↔
      i < j ∧ names[i]? = some name ∧ ∀ k, i < k → k < j → names[k]? ≠ some name := by
  induction j with
  | zero => simp [lastBefore?]
  | succ j ih =>
    rw [lastBefore?]
    split
    · rename_i h
      constructor
      · rintro ⟨⟩
        exact ⟨Nat.lt_succ_self _, h, fun k hik hkj => absurd hkj (by omega)⟩
      · rintro ⟨hij, -, hlast⟩
        by_contra hne
        have hlt : i < j := by
          have : i ≠ j := fun h => hne (by rw [h])
          omega
        exact hlast j hlt (Nat.lt_succ_self j) h
    · rename_i h
      rw [ih]
      constructor
      · rintro ⟨hij, hi, hlast⟩
        refine ⟨by omega, hi, fun k hik hkj => ?_⟩
        rcases Nat.lt_succ_iff_lt_or_eq.1 hkj with hk | rfl
        · exact hlast k hik hk
        · exact h
      · rintro ⟨hij, hi, hlast⟩
        have hne : i ≠ j := by
          rintro rfl
          exact h hi
        exact ⟨by omega, hi, fun k hik hkj => hlast k hik (by omega)⟩

/-- The position to which a report on the struct at `j` refers, if the struct is reported. -/
def referred? (names : List String) (j : Nat) : Option Nat :=
  names[j]?.bind fun name => lastBefore? names name j

/-- A report refers to the last struct before with the same name. -/
lemma referred?_eq_some_iff :
    referred? names j = some i ↔ j < names.length ∧ IsPrevious names i j := by
  rw [referred?, Option.bind_eq_some_iff]
  constructor
  · rintro ⟨name, hname, hlast⟩
    obtain ⟨hij, hi, hlast⟩ := lastBefore?_eq_some_iff.1 hlast
    have hj := (List.getElem?_eq_some_iff.1 hname).1
    rw [← hname] at hi hlast
    exact ⟨hj, hij, hi, hlast⟩
  · rintro ⟨hj, hij, hi, hlast⟩
    have hname := List.getElem?_eq_getElem hj
    rw [hname] at hi hlast
    exact ⟨_, hname, lastBefore?_eq_some_iff.2 ⟨hij, hi, hlast⟩⟩

/-- A struct is reported when an earlier one has its name. -/
lemma exists_referred?_iff :
    (∃ i, referred? names j = some i) ↔ j < names.length ∧ ∃ i < j, names[i]? = names[j]? := by
  constructor
  · rintro ⟨i, hi⟩
    obtain ⟨hj, h⟩ := referred?_eq_some_iff.1 hi
    exact ⟨hj, i, h.lt, h.same⟩
  · rintro ⟨hj, i, hij, hi⟩
    have hname := List.getElem?_eq_getElem hj
    rw [← Option.isSome_iff_exists, referred?, hname, Option.bind_some, ← Option.ne_none_iff_isSome]
    intro hnone
    exact lastBefore?_eq_none_iff.1 hnone i hij (hi.trans hname)

/-- A name stands at three positions when it is counted three times. -/
lemma three_le_count_iff :
    3 ≤ names.count name ↔ ∃ k i j : Nat, k < i ∧ i < j ∧
      names[k]? = some name ∧ names[i]? = some name ∧ names[j]? = some name := by
  constructor
  · intro h
    obtain ⟨f, hf⟩ := List.sublist_iff_exists_orderEmbedding_getElem?_eq.1
      (List.replicate_sublist_iff.2 h)
    have h01 : f 0 < f 1 := f.strictMono Nat.zero_lt_one
    have h12 : f 1 < f 2 := f.strictMono Nat.one_lt_two
    exact ⟨f 0, f 1, f 2, h01, h12, (hf 0).symm, (hf 1).symm, (hf 2).symm⟩
  · rintro ⟨k, i, j, hki, hij, hk, hi, hj⟩
    obtain ⟨hlt, hi⟩ := List.getElem?_eq_some_iff.1 hi
    have hbefore : name ∈ names.take i := by
      rw [← List.getElem?_take_of_lt hki] at hk
      exact List.mem_of_getElem? hk
    have hbehind : name ∈ names.drop (i + 1) := by
      obtain ⟨m, rfl⟩ := Nat.exists_eq_add_of_lt hij
      rw [show i + m + 1 = i + 1 + m by omega, ← List.getElem?_drop] at hj
      exact List.mem_of_getElem? hj
    have hsplit : names = names.take i ++ name :: names.drop (i + 1) := by
      rw [← hi, ← List.drop_eq_getElem_cons hlt, List.take_append_drop]
    rw [hsplit, List.count_append, List.count_cons_self]
    have h1 := List.one_le_count_iff.2 hbefore
    have h2 := List.one_le_count_iff.2 hbehind
    omega

/-- The positions of the reported structs, each behind the position to which its report refers. -/
def referrals (names : List String) : List (Nat × Nat) :=
  (List.range names.length).filterMap fun j => (referred? names j).map fun i => (i, j)

/-- A position is listed behind the one to which its report refers. -/
lemma mem_referrals : (i, j) ∈ referrals names ↔ referred? names j = some i := by
  simp only [referrals, List.mem_filterMap, List.mem_range, Option.map_eq_some_iff, Prod.mk.injEq]
  constructor
  · rintro ⟨_, -, _, hi, rfl, rfl⟩
    exact hi
  · intro hi
    exact ⟨j, (referred?_eq_some_iff.1 hi).1, i, hi, rfl, rfl⟩

/-- There is one report for every reported struct, in the order of the structs. -/
lemma pairwise_referrals (names : List String) :
    ((referrals names).map Prod.snd).Pairwise (· < ·) := by
  have hsnd : (referrals names).map Prod.snd =
      (List.range names.length).filter fun j => (referred? names j).isSome := by
    rw [referrals, List.map_filterMap, ← List.filterMap_eq_filter]
    refine List.filterMap_congr fun j _ => ?_
    cases h : referred? names j <;> simp [Option.guard, h]
  rw [hsnd]
  exact List.pairwise_lt_range.filter _

/-- A report refers to the first declaration of a name unless two structs with the name stand before
the reported one. -/
lemma forall_isFirst_iff :
    (∀ i j, referred? names j = some i → IsFirst names i j) ↔ ∀ name, names.count name ≤ 2 := by
  constructor
  · intro h name
    by_contra hcount
    obtain ⟨k, i, j, hki, hij, hk, hi, hj⟩ := three_le_count_iff.1 (Nat.lt_of_not_le hcount)
    have hlt := (List.getElem?_eq_some_iff.1 hj).1
    obtain ⟨m, hm⟩ := exists_referred?_iff.2 ⟨hlt, i, hij, hi.trans hj.symm⟩
    have hlast := (referred?_eq_some_iff.1 hm).2.last
    -- the report refers to `i` or to a later struct, which is not the first one
    have him : i ≤ m := by
      by_contra hmi
      exact hlast i (by omega) hij (hi.trans hj.symm)
    exact (h m j hm).first k (by omega) (hk.trans hj.symm)
  · intro h i j hi
    obtain ⟨hj, hprevious⟩ := referred?_eq_some_iff.1 hi
    refine ⟨hprevious.lt, hprevious.same, fun k hk heq => ?_⟩
    have hname := List.getElem?_eq_getElem hj
    have hthree : 3 ≤ names.count names[j] := three_le_count_iff.2
      ⟨k, i, j, hk, hprevious.lt, heq.trans hname, hprevious.same.trans hname, hname⟩
    have htwo := h names[j]
    omega

end

/-! ## The reports -/

/-- **The reports from some struct on**, position by position, where `seen` leads from each name to
the last struct before that has it.

**Proof sketch.** Induction on the structs. The struct in front is looked up among the names seen
before. Behind it, its own name leads to it, and all other names lead where they led. -/
lemma structNamesFrom_eq {names : List String} {seen : List (String × Nat)} {index : Nat}
    {ds : List StructDecl} (hds : names.drop index = ds.map StructDecl.qualifiedName)
    (hseen : ∀ name, (seen.find? fun p => p.1 == name).map Prod.snd =
      lastBefore? names name index) :
    structNamesFrom seen index ds =
      (List.range' index ds.length).filterMap fun j =>
        (referred? names j).map fun i => .duplicateStruct (names.getD j "") i j := by
  induction ds generalizing seen index with
  | nil => rfl
  | cons d ds ih =>
    have hname : names[index]? = some d.qualifiedName := by
      rw [← List.head?_drop, hds]
      rfl
    have hrest : names.drop (index + 1) = ds.map StructDecl.qualifiedName := by
      rw [← List.tail_drop, hds]
      rfl
    have hseen' : ∀ name, (((d.qualifiedName, index) :: seen).find? fun p => p.1 == name).map
        Prod.snd = lastBefore? names name (index + 1) := by
      intro name
      rw [lastBefore?, hname, List.find?_cons, ← hseen]
      by_cases h : d.qualifiedName = name
      · simp [h]
      · rw [beq_eq_false_iff_ne.2 h]
        simp [h]
    rw [structNamesFrom, ih hrest hseen', List.length_cons, List.range'_succ, List.filterMap_cons,
      referred?, hname, Option.bind_some, ← hseen]
    cases seen.find? fun p => p.1 == d.qualifiedName with
    | none => rfl
    | some p => simp [hname]

/-- The reports on a schema, one for each referral. -/
lemma structNames_eq (ds : List StructDecl) :
    let names := ds.map StructDecl.qualifiedName
    structNames ds =
      (referrals names).map fun p => .duplicateStruct (names.getD p.2 "") p.1 p.2 := by
  intro names
  have hseen : ∀ name, (([] : List (String × Nat)).find? fun p => p.1 == name).map Prod.snd =
      lastBefore? names name 0 := fun _ => rfl
  rw [structNames, structNamesFrom_eq List.drop_zero hseen, ← List.range_eq_range', referrals,
    List.map_filterMap, List.length_map]
  refine List.filterMap_congr fun j _ => ?_
  rw [Option.map_map]
  rfl

/-- **The reports on redeclared structs.** One report is made of every struct whose qualified name
an earlier struct has, in the order of the structs, and of no other. It refers to the last such
struct before it. This is the first struct of the name in all reports exactly when no name is
declared three times.

**Proof sketch.** While the structs are passed, each name leads to the last struct that has it. No
struct of a name stands between this one and the next, and one stands before it only if the name is
declared three times. -/
theorem structNames_reports (ds : List StructDecl) :
    let names := ds.map StructDecl.qualifiedName
    ∃ pairs : List (Nat × Nat),
      structNames ds = pairs.map (fun p => .duplicateStruct (names.getD p.2 "") p.1 p.2) ∧
      (pairs.map Prod.snd).Pairwise (· < ·) ∧
      (∀ j, j ∈ pairs.map Prod.snd ↔ j < names.length ∧ ∃ i < j, names[i]? = names[j]?) ∧
      (∀ p ∈ pairs, IsPrevious names p.1 p.2) ∧
      ((∀ p ∈ pairs, IsFirst names p.1 p.2) ↔ ∀ name, names.count name ≤ 2) := by
  intro names
  refine ⟨referrals names, structNames_eq ds, pairwise_referrals names, ?_, ?_, ?_⟩
  · intro j
    rw [← exists_referred?_iff]
    simp [mem_referrals]
  · rintro ⟨i, j⟩ hp
    exact (referred?_eq_some_iff.1 (mem_referrals.1 hp)).2
  · rw [← forall_isFirst_iff]
    constructor
    · intro h i j hi
      exact h (i, j) (mem_referrals.2 hi)
    · rintro h ⟨i, j⟩ hp
      exact h i j (mem_referrals.1 hp)

/-- The third struct of a name is reported with the second one as its first declaration. -/
theorem structNames_declared_thrice :
    let d : StructDecl := { name := "A" }
    structNames [d, d, d] = [.duplicateStruct "A" 0 1, .duplicateStruct "A" 1 2] ∧
      (Diagnostic.duplicateStruct "A" 1 2).notes =
        ["`A` is first declared by struct #1, redeclared by struct #2"] ∧
      IsFirst ["A", "A", "A"] 0 2 ∧ ¬ IsFirst ["A", "A", "A"] 1 2 := by
  refine ⟨by decide, by decide +kernel, ⟨by decide, rfl, nofun⟩, ?_⟩
  intro h
  exact h.first 0 Nat.zero_lt_one rfl

end Check

end VersionedLayout
