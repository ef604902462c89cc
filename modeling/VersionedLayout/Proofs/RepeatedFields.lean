import Mathlib.Data.List.Induction
import Mathlib.Data.List.Nodup
import VersionedLayout.Check.FieldNames
import VersionedLayout.Proofs.Flattening
set_option autoImplicit false

/-!
# Reports on repeated fields

A name is repeated in a struct when some layout has two fields of it. The check passes the layouts
one after another and keeps a list of the names that it has found repeated, each with the versions
for which it is. A name enters the list with its first repetition, and at every later one it
learns of the version, if it does not have it yet. In terms of the declarations, a name is repeated
unless its declarations lie apart, that is, unless no release of the struct sees two of them.

## Main definitions

* `VersionedLayout.Layout.Repeats` — a layout has a name twice.
* `VersionedLayout.Check.DiscoveredBefore` — the order in which layouts show names to be repeated.
* `VersionedLayout.StructDecl.versionsRepeating` — the versions of the layouts that repeat a name.
* `VersionedLayout.StructDecl.DeclaredApart` — no release sees two declarations of a name.

## Main results

* `VersionedLayout.Check.foldl_addRepetition` — what a list of repetitions comes to.
* `VersionedLayout.Check.pairwise_repeatedNames` — the names stand in the order of discovery.
* `VersionedLayout.StructDecl.exists_repeats_iff_not_declaredApart` — which names are repeated.
* `VersionedLayout.Check.fieldNames_reports` — the reports on a schema.
-/

namespace VersionedLayout

/-- Whether a layout has at least two fields of a name. -/
def Layout.Repeats (l : Layout) (n : String) : Prop :=
  2 ≤ (l.fields.map Field.name).count n

instance (l : Layout) (n : String) : Decidable (l.Repeats n) :=
  inferInstanceAs (Decidable (2 ≤ (l.fields.map Field.name).count n))

/-! ## Lists without their repetitions -/

section

variable {α : Type} [BEq α] [LawfulBEq α]

/-- An item behind a list is kept when it is new. -/
lemma eraseDups_concat (l : List α) (a : α) :
    (l ++ [a]).eraseDups = if a ∈ l then l.eraseDups else l.eraseDups ++ [a] := by
  rw [List.eraseDups_append]
  by_cases h : a ∈ l <;> simp [List.removeAll, h, List.eraseDups_cons]

/-- Without repetitions, no item occurs twice. -/
lemma nodup_eraseDups (l : List α) : l.eraseDups.Nodup := by
  induction l using List.reverseRecOn with
  | nil => exact List.nodup_nil
  | append_singleton l a ih =>
    rw [eraseDups_concat]
    split
    · exact ih
    · rename_i h
      have hnew : ∀ b ∈ l.eraseDups, b ≠ a := by
        rintro b hb rfl
        exact h (List.mem_eraseDups.1 hb)
      rw [List.nodup_append]
      exact ⟨ih, List.pairwise_singleton _ a, by simpa using hnew⟩

/-- The kept items of a filtered list are the kept ones that pass the filter. -/
lemma eraseDups_filter (p : α → Bool) (l : List α) :
    (l.filter p).eraseDups = l.eraseDups.filter p := by
  induction l using List.reverseRecOn with
  | nil => rfl
  | append_singleton l a ih =>
    rw [List.filter_append, eraseDups_concat]
    cases hp : p a with
    | false => split <;> simp [hp, ih]
    | true =>
      rw [List.filter_singleton, hp, cond_true, eraseDups_concat, ih]
      by_cases h : a ∈ l <;> simp [h, hp]

/-- A new item behind a list is kept once, however often it stands there. -/
lemma eraseDups_append_replicate {l : List α} {a : α} (h : a ∉ l) (k : Nat) :
    (l ++ List.replicate k a).eraseDups = l.eraseDups ++ if k = 0 then [] else [a] := by
  induction k with
  | zero => simp
  | succ k ih =>
    rw [List.replicate_succ', ← List.append_assoc, eraseDups_concat, ih]
    cases k <;> simp [h]

end

/-- Two items of a list pass a filter unless of any two items one does not. -/
lemma two_le_length_filter_iff {α : Type} {p : α → Prop} [DecidablePred p] {l : List α} :
    2 ≤ (l.filter fun a => p a).length ↔ ¬ l.Pairwise fun a b => ¬ (p a ∧ p b) := by
  have hfilter : (l.Pairwise fun a b => ¬ (p a ∧ p b)) ↔
      (l.filter fun a => p a).Pairwise fun _ _ => False := by
    rw [List.pairwise_filter]
    simp
  rw [hfilter]
  match l.filter fun a => p a with
  | [] => simp
  | [a] => simp
  | a :: b :: m =>
    have : ¬ (a :: b :: m).Pairwise fun _ _ => False := by
      intro h
      exact (List.pairwise_cons.1 h).1 b List.mem_cons_self
    simp [this]

namespace Check

/-! ## The names of one layout -/

/-- The position of the second occurrence of a name in a list. -/
def secondIndex (names : List String) (n : String) : Nat :=
  let first := names.idxOf n
  first + 1 + (names.drop (first + 1)).idxOf n

/-- A name behind a list is an occurrence of a repeated name when it stands before. -/
lemma repeatsFrom_concat (seen names : List String) (n : String) :
    repeatsFrom seen (names ++ [n]) =
      repeatsFrom seen names ++ if n ∈ seen ∨ n ∈ names then [n] else [] := by
  induction names generalizing seen with
  | nil => by_cases h : n ∈ seen <;> simp [repeatsFrom, h]
  | cons m names ih =>
    rw [List.cons_append, repeatsFrom, repeatsFrom]
    split
    · rename_i hm
      rw [ih, List.cons_append]
      have : (n ∈ seen ∨ n ∈ m :: names) ↔ (n ∈ seen ∨ n ∈ names) := by
        simp only [List.mem_cons, List.contains_iff_mem] at hm ⊢
        constructor
        · rintro (h | rfl | h) <;> simp [*]
        · rintro (h | h) <;> simp [h]
      simp only [this]
    · rw [ih]
      have : (n ∈ m :: seen ∨ n ∈ names) ↔ (n ∈ seen ∨ n ∈ m :: names) := by
        simp only [List.mem_cons]
        tauto
      simp only [this]

/-- Every occurrence of a name but the first is listed. -/
lemma count_repeatsFrom (names : List String) (n : String) :
    (repeatsFrom [] names).count n = names.count n - 1 := by
  induction names using List.reverseRecOn with
  | nil => rfl
  | append_singleton names m ih =>
    rw [repeatsFrom_concat, List.count_append, List.count_append, ih]
    by_cases hm : m = n
    · subst hm
      by_cases h : m ∈ names
      · have hone := List.one_le_count_iff.2 h
        simp only [h, or_true, if_true, List.count_singleton_self]
        omega
      · simp [h, List.count_eq_zero_of_not_mem h]
    · have hzero : [m].count n = 0 := by simp [hm]
      rw [hzero]
      split <;> simp [hm]

/-- The listed names are those that occur at least twice. -/
lemma mem_repeatsFrom {names : List String} {n : String} :
    n ∈ repeatsFrom [] names ↔ 2 ≤ names.count n := by
  rw [← List.one_le_count_iff, count_repeatsFrom]
  omega

/-- Behind the first occurrence of a name, the second one is the first. -/
lemma secondIndex_append_cons {before : List String} {n : String} (h : n ∉ before)
    (behind : List String) :
    secondIndex (before ++ n :: behind) n = before.length + 1 + behind.idxOf n := by
  have hfirst : (before ++ n :: behind).idxOf n = before.length := by
    rw [List.idxOf_append_of_notMem h, List.idxOf_cons_self, Nat.add_zero]
  have hdrop : (before ++ n :: behind).drop (before.length + 1) = behind := by
    rw [List.drop_append, List.drop_of_length_le (Nat.le_succ _)]
    simp
  rw [secondIndex, hfirst, hdrop]

section

variable {names : List String} {n : String}

/-- A name that occurs twice occurs again behind its first occurrence. -/
lemma exists_append_cons_of_two_le_count (h : 2 ≤ names.count n) :
    ∃ before behind, names = before ++ n :: behind ∧ n ∉ before ∧ n ∈ behind := by
  have hmem : n ∈ names := List.one_le_count_iff.1 (by omega)
  obtain ⟨before, behind, rfl, hbefore⟩ := List.eq_append_cons_of_mem hmem
  refine ⟨before, behind, rfl, hbefore, ?_⟩
  rw [List.count_append, List.count_eq_zero_of_not_mem hbefore, List.count_cons_self] at h
  exact List.one_le_count_iff.1 (by omega)

/-- Later names leave a second occurrence where it is. -/
lemma secondIndex_concat (h : 2 ≤ names.count n) (m : String) :
    secondIndex (names ++ [m]) n = secondIndex names n := by
  obtain ⟨before, behind, rfl, hbefore, hbehind⟩ := exists_append_cons_of_two_le_count h
  rw [List.append_assoc, List.cons_append, secondIndex_append_cons hbefore,
    secondIndex_append_cons hbefore, List.idxOf_append_of_mem hbehind]

/-- A second occurrence at the end of a list. -/
lemma secondIndex_concat_self (h : names.count n = 1) :
    secondIndex (names ++ [n]) n = names.length := by
  have hmem : n ∈ names := List.one_le_count_iff.1 (by omega)
  obtain ⟨before, behind, rfl, hbefore⟩ := List.eq_append_cons_of_mem hmem
  rw [List.count_append, List.count_eq_zero_of_not_mem hbefore, List.count_cons_self] at h
  have hbehind : n ∉ behind := List.count_eq_zero.1 (by omega)
  rw [List.append_assoc, List.cons_append, secondIndex_append_cons hbefore,
    List.idxOf_append_of_notMem hbehind, List.length_append, List.length_cons]
  simp
  omega

/-- A name that occurs twice has its second occurrence in the list. -/
lemma secondIndex_lt (h : 2 ≤ names.count n) : secondIndex names n < names.length := by
  obtain ⟨before, behind, rfl, hbefore, hbehind⟩ := exists_append_cons_of_two_le_count h
  have hlt := List.idxOf_lt_length_of_mem hbehind
  rw [secondIndex_append_cons hbefore, List.length_append, List.length_cons]
  omega

end

/-- The repeated names of a layout are discovered in the order of their second occurrences. -/
lemma pairwise_repeatsFrom (names : List String) :
    (repeatsFrom [] names).eraseDups.Pairwise fun m n =>
      secondIndex names m < secondIndex names n := by
  induction names using List.reverseRecOn with
  | nil => exact List.Pairwise.nil
  | append_singleton names x ih =>
    have hcount : ∀ n ∈ (repeatsFrom [] names).eraseDups, 2 ≤ names.count n := by
      intro n hn
      exact mem_repeatsFrom.1 (List.mem_eraseDups.1 hn)
    have hkept : (repeatsFrom [] names).eraseDups.Pairwise fun m n =>
        secondIndex (names ++ [x]) m < secondIndex (names ++ [x]) n := by
      refine ih.imp_of_mem fun hm hn hlt => ?_
      rw [secondIndex_concat (hcount _ hm), secondIndex_concat (hcount _ hn)]
      exact hlt
    rw [repeatsFrom_concat]
    by_cases hx : x ∈ names
    · rw [if_pos (.inr hx), eraseDups_concat]
      split
      · exact hkept
      · rename_i hnew
        rw [List.pairwise_append]
        refine ⟨hkept, List.pairwise_singleton _ _, ?_⟩
        rintro m hm _ (_ | ⟨_, ⟨⟩⟩)
        have hone : names.count x = 1 := by
          have := List.one_le_count_iff.2 hx
          rw [mem_repeatsFrom] at hnew
          omega
        rw [secondIndex_concat (hcount m hm), secondIndex_concat_self hone]
        exact secondIndex_lt (hcount m hm)
    · rw [if_neg (by simp [hx]), List.append_nil]
      exact hkept

/-! ## The repetitions of all layouts -/

/-- A repetition added to what is known of each name: a new name is put behind the others, and a
known one learns of the version. -/
lemma addRepetition_map (v : Option Version) (n : String) {names : List String}
    {known : String → List (Option Version)} (hnames : names.Nodup)
    (hknown : n ∉ names → known n = []) :
    addRepetition v n (names.map fun m => ⟨m, known m⟩) =
      (if n ∈ names then names else names ++ [n]).map fun m =>
        ⟨m, if m = n ∧ v ∉ known m then known m ++ [v] else known m⟩ := by
  induction names with
  | nil => simp [addRepetition, hknown List.not_mem_nil]
  | cons m names ih =>
    obtain ⟨hm, hnames⟩ := List.nodup_cons.1 hnames
    rw [List.map_cons, addRepetition]
    by_cases heq : m = n
    · subst heq
      have hothers : ∀ k ∈ names, (⟨k, known k⟩ : Repetition) =
          ⟨k, if k = m ∧ v ∉ known k then known k ++ [v] else known k⟩ := by
        intro k hk
        have hne : k ≠ m := fun h => hm (h ▸ hk)
        simp [hne]
      rw [if_pos rfl, if_pos List.mem_cons_self, List.map_cons, List.map_congr_left hothers]
      by_cases hv : v ∈ known m <;> simp [hv]
    · have hmem : n ∈ m :: names ↔ n ∈ names := by simp [Ne.symm heq]
      have hknown' : n ∉ names → known n = [] := fun h => hknown (by rwa [hmem])
      simp only [heq, if_false, ih hnames hknown', hmem]
      by_cases hn : n ∈ names <;> simp [hn, heq]

/-- **What a list of repetitions comes to**: each name once, in the order in which they are
discovered, with each of its versions once.

**Proof sketch.** Induction on the list from the back. What is known of a name before the last
repetition are the versions of the earlier ones, none for a new name, and the last repetition
changes this for its own name only. -/
lemma foldl_addRepetition (ps : List (Option Version × String)) :
    ps.foldl (fun known p => addRepetition p.1 p.2 known) [] =
      (ps.map Prod.snd).eraseDups.map fun n =>
        ⟨n, ((ps.filter fun p => p.2 = n).map Prod.fst).eraseDups⟩ := by
  induction ps using List.reverseRecOn with
  | nil => rfl
  | append_singleton ps p ih =>
    obtain ⟨v, n⟩ := p
    have hknown : n ∉ (ps.map Prod.snd).eraseDups →
        ((ps.filter fun p => p.2 = n).map Prod.fst).eraseDups = [] := by
      intro hn
      rw [List.mem_eraseDups] at hn
      have hnone : ps.filter (fun p => p.2 = n) = [] := by
        rw [List.filter_eq_nil_iff]
        intro p hp hpn
        exact hn (List.mem_map.2 ⟨p, hp, of_decide_eq_true hpn⟩)
      simp [hnone]
    rw [List.foldl_append, ih, List.foldl_cons, List.foldl_nil,
      addRepetition_map v n (nodup_eraseDups _) hknown]
    simp only [List.map_append, List.map_cons, List.map_nil, eraseDups_concat, List.mem_eraseDups]
    refine List.map_congr_left fun m _ => ?_
    rw [List.filter_append, List.map_append]
    by_cases hm : m = n
    · subst hm
      have hlast : ([(v, m)].filter fun p => p.2 = m).map Prod.fst = [v] := by simp
      rw [hlast, eraseDups_concat]
      by_cases hv : v ∈ (ps.filter fun p => p.2 = m).map Prod.fst <;>
        simp only [hv, true_and, not_true, not_false_iff, if_true, if_false]
    · simp [hm, Ne.symm hm]

/-- The second and later occurrences of names in layouts, each with the version of its layout. -/
def occurrences (ls : List Layout) : List (Option Version × String) :=
  ls.flatMap fun l => (repeatsFrom [] (l.fields.map Field.name)).map fun n => (l.version, n)

/-- The repeated names of layouts, each where it occurs first in the list of occurrences. -/
def repeatedNames (ls : List Layout) : List String :=
  ((occurrences ls).map Prod.snd).eraseDups

/-- Repetitions are added layout by layout as they are occurrence by occurrence. -/
lemma foldl_addLayout (ls : List Layout) (known : List Repetition) :
    ls.foldl addLayout known =
      (occurrences ls).foldl (fun known p => addRepetition p.1 p.2 known) known := by
  induction ls generalizing known with
  | nil => rfl
  | cons l ls ih =>
    rw [List.foldl_cons, ih, occurrences, occurrences, List.flatMap_cons, List.foldl_append,
      List.foldl_map]
    rfl

section

variable (ls : List Layout) (l : Layout) (n : String)

/-- A further layout adds the names that it repeats. -/
lemma occurrences_concat :
    occurrences (ls ++ [l]) = occurrences ls ++
      (repeatsFrom [] (l.fields.map Field.name)).map fun n => (l.version, n) := by
  simp [occurrences]

/-- A further layout adds the names that it repeats, whatever its version. -/
lemma map_snd_occurrences_concat :
    (occurrences (ls ++ [l])).map Prod.snd =
      (occurrences ls).map Prod.snd ++ repeatsFrom [] (l.fields.map Field.name) := by
  simp [occurrences_concat, Function.comp_def]

/-- The names that occur are those that some layout repeats. -/
lemma mem_map_snd_occurrences :
    n ∈ (occurrences ls).map Prod.snd ↔ ∃ l ∈ ls, l.Repeats n := by
  simp [occurrences, mem_repeatsFrom, Layout.Repeats]

/-- The repeated names are those that some layout repeats. -/
lemma mem_repeatedNames : n ∈ repeatedNames ls ↔ ∃ l ∈ ls, l.Repeats n := by
  rw [repeatedNames, List.mem_eraseDups, mem_map_snd_occurrences]

end

/-! ## The order of discovery -/

/-- Where layouts show that a name is repeated: the position of the first layout that repeats it,
and the position of its second occurrence there. -/
def discovery (ls : List Layout) (n : String) : Nat × Nat :=
  (ls.findIdx fun l => l.Repeats n,
    ((ls.find? fun l => l.Repeats n).map fun l => secondIndex (l.fields.map Field.name) n).getD 0)

/-- Whether a name shows to be repeated before another one does: in an earlier layout, or at an
earlier position of the same one. -/
def DiscoveredBefore (ls : List Layout) (m n : String) : Prop :=
  Prod.Lex (· < ·) (· < ·) (discovery ls m) (discovery ls n)

section

variable {ls : List Layout} {l : Layout} {m n : String}

/-- Later layouts leave a discovery where it is. -/
lemma discovery_concat (h : ∃ k ∈ ls, k.Repeats n) : discovery (ls ++ [l]) n = discovery ls n := by
  have hlt : (ls.findIdx fun k => decide (k.Repeats n)) < ls.length := by
    simpa [List.findIdx_lt_length] using h
  have hsome : (ls.find? fun k => decide (k.Repeats n)).isSome := by
    simpa using h
  rw [discovery, List.findIdx_append, if_pos hlt, List.find?_append, Option.or_of_isSome hsome]
  rfl

/-- A discovery in the last layout. -/
lemma discovery_concat_self (h : ¬ ∃ k ∈ ls, k.Repeats n) (hl : l.Repeats n) :
    discovery (ls ++ [l]) n = (ls.length, secondIndex (l.fields.map Field.name) n) := by
  have hge : ¬ (ls.findIdx fun k => decide (k.Repeats n)) < ls.length := by
    simpa [List.findIdx_lt_length] using h
  have hnone : (ls.find? fun k => decide (k.Repeats n)) = none := by
    simpa using h
  rw [discovery, List.findIdx_append, if_neg hge, List.find?_append, hnone]
  simp [hl, List.findIdx_cons]

/-- A name that is repeated is discovered in one of the layouts. -/
lemma discovery_fst_lt (h : ∃ k ∈ ls, k.Repeats n) : (discovery ls n).1 < ls.length := by
  simpa [discovery, List.findIdx_lt_length] using h

end

/-- **The repeated names stand in the order of discovery.**

**Proof sketch.** Induction on the layouts from the back. The last layout leaves the discoveries in
the others alone. Those of its repeated names that are new come behind, and among themselves they
stand in the order of their second occurrences. -/
lemma pairwise_repeatedNames (ls : List Layout) :
    (repeatedNames ls).Pairwise (DiscoveredBefore ls) := by
  induction ls using List.reverseRecOn with
  | nil => exact List.Pairwise.nil
  | append_singleton ls l ih =>
    rw [repeatedNames, map_snd_occurrences_concat, List.eraseDups_append, List.removeAll,
      eraseDups_filter, List.pairwise_append]
    have hold : ∀ n ∈ repeatedNames ls, discovery (ls ++ [l]) n = discovery ls n := by
      intro n hn
      exact discovery_concat ((mem_repeatedNames ls n).1 hn)
    have hnew : ∀ n ∈ (repeatsFrom [] (l.fields.map Field.name)).eraseDups.filter
        (fun n => !((occurrences ls).map Prod.snd).elem n),
        discovery (ls ++ [l]) n = (ls.length, secondIndex (l.fields.map Field.name) n) := by
      intro n hn
      rw [List.mem_filter, List.mem_eraseDups, mem_repeatsFrom] at hn
      refine discovery_concat_self ?_ hn.1
      rw [← mem_map_snd_occurrences]
      simpa using hn.2
    refine ⟨?_, ?_, ?_⟩
    · refine ih.imp_of_mem fun hm hn hlt => ?_
      rw [DiscoveredBefore, hold _ hm, hold _ hn]
      exact hlt
    · refine ((pairwise_repeatsFrom _).filter _).imp_of_mem fun hm hn hlt => ?_
      rw [DiscoveredBefore, hnew _ hm, hnew _ hn]
      exact .right _ hlt
    · intro m hm n hn
      rw [DiscoveredBefore, hold m hm, hnew n hn, Prod.lex_def]
      exact .inl (discovery_fst_lt ((mem_repeatedNames ls m).1 hm))

/-! ## The versions of a repeated name -/

/-- The occurrences of a name in one layout. -/
lemma filter_map_version (v : Option Version) (n : String) (names : List String) :
    ((names.map fun m => (v, m)).filter fun p => p.2 = n).map Prod.fst =
      List.replicate (names.count n) v := by
  rw [List.filter_map, List.map_map, List.count_eq_countP, List.countP_eq_length_filter]
  exact List.map_const' ..

/-- In layouts of different versions, a name is repeated for the versions of the layouts that repeat
it. -/
lemma eraseDups_versions {ls : List Layout} (hls : (ls.map Layout.version).Nodup) (n : String) :
    (((occurrences ls).filter fun p => p.2 = n).map Prod.fst).eraseDups =
      (ls.filter fun l => l.Repeats n).map Layout.version := by
  induction ls using List.reverseRecOn with
  | nil => rfl
  | append_singleton ls l ih =>
    rw [List.map_append, List.nodup_append] at hls
    obtain ⟨hls, -, hl⟩ := hls
    have hnew : l.version ∉ ((occurrences ls).filter fun p => p.2 = n).map Prod.fst := by
      intro hmem
      have : l.version ∈ ls.map Layout.version := by
        simp only [List.mem_map, List.mem_filter, occurrences, List.mem_flatMap] at hmem
        obtain ⟨_, ⟨⟨k, hk, _, _, rfl⟩, -⟩, hv⟩ := hmem
        exact List.mem_map.2 ⟨k, hk, hv⟩
      exact hl _ this _ (List.mem_singleton_self _) rfl
    rw [occurrences_concat, List.filter_append, List.map_append, filter_map_version,
      eraseDups_append_replicate hnew, ih hls, count_repeatsFrom, List.filter_append,
      List.map_append]
    congr 1
    have hcount : (l.fields.map Field.name).count n - 1 = 0 ↔ ¬ l.Repeats n := by
      unfold Layout.Repeats
      omega
    by_cases hrep : l.Repeats n <;> simp [hcount, hrep]

end Check

namespace StructDecl

variable {d : StructDecl} {n : String}

/-- The versions of the layouts that repeat a name. -/
def versionsRepeating (d : StructDecl) (n : String) : List (Option Version) :=
  (d.layouts.filter fun l => l.Repeats n).map Layout.version

/-- Whether no release for which the struct exists lies within the ranges around two declarations of
a name. -/
def DeclaredApart (d : StructDecl) (n : String) : Prop :=
  ((Entry.guardedFields d.entries).filter fun p => p.2.name = n).Pairwise fun p q =>
    ∀ v ∈ d.enabledVersions, ¬ (v.LiesWithin p.1 ∧ v.LiesWithin q.1)

/-- The layouts of a struct have different versions. -/
lemma nodup_versions (d : StructDecl) : (d.layouts.map Layout.version).Nodup := by
  cases h : d.isVersioned with
  | false =>
    rw [layouts_of_not_isVersioned h]
    exact List.pairwise_singleton _ _
  | true =>
    rw [layouts_of_isVersioned h, List.map_map]
    exact (Version.all_nodup.filter _).map (Option.some_injective _)

/-- A name repeated in the single layout of an unversioned struct. -/
lemma versionsRepeating_of_not_isVersioned (h : d.isVersioned = false)
    (hn : ∃ l ∈ d.layouts, l.Repeats n) : d.versionsRepeating n = [none] := by
  rw [layouts_of_not_isVersioned h] at hn
  have hsingle : Layout.Repeats ⟨none, d.entries.filterMap Entry.field?⟩ n := by
    simpa using hn
  rw [versionsRepeating, layouts_of_not_isVersioned h, List.filter_singleton,
    decide_eq_true hsingle]
  rfl

end StructDecl

/-! ## Declarations that meet -/

namespace Entry

/-- A name stands twice among the visible fields unless no two of its declarations are visible
together. -/
lemma two_le_count_visibleFields_iff {v : Version} {n : String} {es : List Entry} :
    2 ≤ ((visibleFields v es).map Field.name).count n ↔
      ¬ ((guardedFields es).filter fun p => p.2.name = n).Pairwise fun p q =>
        ¬ (v.LiesWithin p.1 ∧ v.LiesWithin q.1) := by
  have hcount : ((visibleFields v es).map Field.name).count n =
      (((guardedFields es).filter fun p => p.2.name = n).filter fun p =>
        v.LiesWithin p.1).length := by
    rw [visibleFields, List.map_map, List.count_eq_countP, List.countP_map,
      List.countP_eq_length_filter, List.filter_filter, List.filter_filter]
    congr 1
    refine List.filter_congr fun p _ => ?_
    rw [Bool.and_comm]
    rfl
  rw [hcount, two_le_length_filter_iff]

end Entry

namespace StructDecl

variable {d : StructDecl} {n : String}

/-- Layouts repeat a name when the visible fields for a version of the struct do. -/
lemma exists_repeats_iff :
    (∃ l ∈ d.layouts, l.Repeats n) ↔
      ∃ v ∈ d.enabledVersions, 2 ≤ ((Entry.visibleFields v d.entries).map Field.name).count n := by
  simp only [← Entry.resolveAll_eq_visibleFields]
  cases h : d.isVersioned with
  | true => simp [layouts_of_isVersioned h, Layout.Repeats]
  | false =>
    obtain ⟨hrange, hblocks⟩ := isVersioned_eq_false_iff.1 h
    obtain ⟨fs, hfs⟩ := Entry.exists_eq_map_field hblocks
    -- without a range the struct exists for every release, and all of them see the same fields
    have hclassic : Version.classic ∈ d.enabledVersions := by
      simp [mem_enabledVersions, hrange]
    simp only [layouts_of_not_isVersioned h, hfs, Entry.filterMap_field?_map_field,
      Entry.resolveAll_map_field, List.mem_singleton, exists_eq_left, Layout.Repeats]
    exact ⟨fun hn => ⟨_, hclassic, hn⟩, fun ⟨_, _, hn⟩ => hn⟩

/-- **A name is repeated unless its declarations lie apart.** -/
lemma exists_repeats_iff_not_declaredApart :
    (∃ l ∈ d.layouts, l.Repeats n) ↔ ¬ d.DeclaredApart n := by
  have hapart : d.DeclaredApart n ↔ ∀ v ∈ d.enabledVersions,
      ((Entry.guardedFields d.entries).filter fun p => p.2.name = n).Pairwise fun p q =>
        ¬ (v.LiesWithin p.1 ∧ v.LiesWithin q.1) := by
    simp only [DeclaredApart, List.pairwise_iff_forall_sublist]
    exact ⟨fun h v hv _ _ hs => h hs v hv, fun h _ _ hs v hv => h v hv hs⟩
  rw [exists_repeats_iff, hapart]
  simp only [Entry.two_le_count_visibleFields_iff, not_forall, exists_prop]

end StructDecl

/-! ## The reports -/

namespace Check

/-- Different versions have different texts. -/
lemma versionText_injective : Function.Injective Diagnostic.versionText := by
  have hnone : ∀ v : Version, Diagnostic.versionText none ≠ Diagnostic.versionText (some v) := by
    intro v
    cases v <;> decide
  rintro (_ | v) (_ | w) h
  · rfl
  · exact absurd h (hnone w)
  · exact absurd h.symm (hnone v)
  · rw [Option.some_inj, ← Option.some_inj, ← Version.ofName?_name v, ← Version.ofName?_name w]
    exact congrArg Version.ofName? h

/-- The repetitions of a struct: each repeated name once, with the versions that repeat it. -/
lemma repetitions_eq (d : StructDecl) :
    repetitions d = (repeatedNames d.layouts).map fun n => ⟨n, d.versionsRepeating n⟩ := by
  rw [repetitions, foldl_addLayout, foldl_addRepetition, repeatedNames]
  refine List.map_congr_left fun n _ => ?_
  rw [eraseDups_versions d.nodup_versions, StructDecl.versionsRepeating]

/-- The code of a report on a repeated field, and its only note, which lists the versions of the
layouts that repeat the name. -/
lemma code_and_notes_duplicateField (d : StructDecl) (n : String) :
    (Diagnostic.duplicateField d.qualifiedName n (d.versionsRepeating n)).code.text = "E2" ∧
    (Diagnostic.duplicateField d.qualifiedName n (d.versionsRepeating n)).notes =
      ["note: duplicated in " ++ ", ".intercalate ((d.layouts.filter fun l => l.Repeats n).map
        fun l => l.version.elim "all versions" Version.name)] := by
  have htexts : (d.versionsRepeating n).map Diagnostic.versionText =
      (d.layouts.filter fun l => l.Repeats n).map
        fun l => l.version.elim "all versions" Version.name := by
    rw [StructDecl.versionsRepeating, List.map_map]
    refine List.map_congr_left fun l _ => ?_
    cases hv : l.version <;> simp [Diagnostic.versionText, hv]
  exact ⟨Diagnostic.code_text _, by rw [Diagnostic.notes, htexts]⟩

/-- **The reports on repeated fields.** The structs are reported on in their order, with one report
for each name that some layout of the struct has twice, in the order of discovery. A report comes
under the code `E2`, and its note lists the versions whose layouts repeat the name, each once and in
the order of the layouts; for an unversioned struct it says that these are all versions. No name is
reported whose declarations lie apart, and every other one is.

**Proof sketch.** While the layouts are passed, each known name stands where its first repetition
has put it, with the versions of its repetitions so far. Layouts have different versions, so that a
version is new to a name exactly at the first repetition in its layout. -/
theorem fieldNames_reports (ds : List StructDecl) :
    ∃ names : StructDecl → List String,
      fieldNames ds = ds.flatMap (fun d => (names d).map fun n =>
        .duplicateField d.qualifiedName n (d.versionsRepeating n)) ∧
      ∀ d, (names d).Pairwise (DiscoveredBefore d.layouts) ∧
        (names d).Nodup ∧
        (∀ n, n ∈ names d ↔ ∃ l ∈ d.layouts, l.Repeats n) ∧
        (∀ n, n ∈ names d ↔ ¬ d.DeclaredApart n) ∧
        (∀ n, ((d.versionsRepeating n).map Diagnostic.versionText).Nodup) ∧
        (∀ n, (Diagnostic.duplicateField d.qualifiedName n (d.versionsRepeating n)).code.text =
            "E2" ∧
          (Diagnostic.duplicateField d.qualifiedName n (d.versionsRepeating n)).notes =
            ["note: duplicated in " ++ ", ".intercalate ((d.layouts.filter fun l =>
              l.Repeats n).map fun l => l.version.elim "all versions" Version.name)]) ∧
        (d.isVersioned = false → ∀ n ∈ names d,
          (Diagnostic.duplicateField d.qualifiedName n (d.versionsRepeating n)).notes =
            ["note: duplicated in all versions"]) := by
  refine ⟨fun d => repeatedNames d.layouts, ?_, fun d => ⟨?_, ?_, ?_, ?_, ?_,
    code_and_notes_duplicateField d, ?_⟩⟩
  · rw [fieldNames]
    refine List.flatMap_congr fun d _ => ?_
    rw [repetitions_eq, List.map_map]
    rfl
  · exact pairwise_repeatedNames _
  · exact nodup_eraseDups _
  · intro n
    exact mem_repeatedNames _ n
  · intro n
    rw [mem_repeatedNames, StructDecl.exists_repeats_iff_not_declaredApart]
  · intro n
    exact (d.nodup_versions.sublist (List.filter_sublist.map _)).map versionText_injective
  · intro h n hn
    rw [StructDecl.versionsRepeating_of_not_isVersioned h ((mem_repeatedNames _ n).1 hn)]
    rfl

/-- Both names are declared twice; `a` is so in blocks that are never active together. -/
example :
    let field (name : String) : Entry := .field ⟨.plain (.named "T"), name, none, none, none⟩
    repetitions { name := "S", versions := some ⟨.classic, .wotlk⟩, entries := [field "b",
      .block ⟨.classic, .classic⟩ [field "a"], .block ⟨.tbc, .any⟩ [field "a", field "b"]] } =
        [⟨"b", [some .tbc, some .wotlk]⟩] := by
  decide

end Check

end VersionedLayout
