import Mathlib.Data.List.Nodup
import VersionedLayout.Proofs.Records
set_option autoImplicit false

/-!
# Records that are given in part

An object may give some members of a record, in any order and with members in between that the
record does not know. What is read of it depends on the members that are known: all of them change
the start, one after another, unless one of them is repeated, which is refused. The array of a
record gives its members in declared order, up to some member.

The invariant of the member loop is the progress that the members before it have made
(`VersionedLayout.Json.Record.progress`).

## Main definitions

* `VersionedLayout.Json.Record.given` — the known members among some names.
* `VersionedLayout.Json.Record.progress` — what has been read behind some members.
* `VersionedLayout.Json.Record.Supplies` — the first value of each known member has its effect.

## Main results

* `VersionedLayout.Json.Record.read_array` — reading an array.
* `VersionedLayout.Json.Record.readMember_of_supplies` — reading one member keeps the invariant.
* `VersionedLayout.Json.Record.moreMembers_of_supplies` — reading all members.
* `VersionedLayout.Json.Record.read_of_supplies` — reading an object.
-/

namespace VersionedLayout

namespace Json

namespace Record

variable {κ σ : Type} (r : Record κ σ)

/-! ## Given members -/

/-- The members of the record among the given names, as often as they are named. -/
def given (names : List String) : List κ :=
  names.filterMap r.member?

/-- The members given by two lists of names are those given by each. -/
lemma given_append (names others : List String) :
    r.given (names ++ others) = r.given names ++ r.given others :=
  List.filterMap_append

/-- A name that is not known gives no member. -/
lemma given_concat_of_none {names : List String} {name : String} (h : r.member? name = none) :
    r.given (names ++ [name]) = r.given names := by
  rw [given_append, given, given, List.filterMap_cons_none h]
  exact List.append_nil _

/-- A name that is known gives its member behind the others. -/
lemma given_concat_of_some {names : List String} {name : String} {k : κ}
    (h : r.member? name = some k) : r.given (names ++ [name]) = r.given names ++ [k] := by
  rw [given_append, given, given, List.filterMap_cons_some h]
  rfl

/-- A member is given twice when it was given before. -/
lemma nodup_given_concat_iff {names : List String} {name : String} {k : κ}
    (h : r.member? name = some k) (hnodup : (r.given names).Nodup) :
    (r.given (names ++ [name])).Nodup ↔ k ∉ r.given names := by
  rw [given_concat_of_some r h, List.nodup_append_comm, List.singleton_append, List.nodup_cons,
    and_iff_left hnodup]

variable (f : κ → σ → σ) (start : σ)

/-- What has been read behind members with the given names, if a member `k` has the effect `f k` on
the result. -/
def progress (names : List String) : Progress κ σ where
  given := (r.given names).reverse
  result := (r.given names).foldl (fun s k => f k s) start

/-- A name that is not known makes no progress. -/
lemma progress_concat_of_none {names : List String} {name : String} (h : r.member? name = none) :
    r.progress f start (names ++ [name]) = r.progress f start names := by
  rw [progress, progress, given_concat_of_none r h]

/-- A name that is known sets its member. -/
lemma progress_concat_of_some {names : List String} {name : String} {k : κ}
    (h : r.member? name = some k) : r.progress f start (names ++ [name]) =
      ⟨k :: (r.progress f start names).given, f k (r.progress f start names).result⟩ := by
  rw [progress, progress, given_concat_of_some r h, List.reverse_concat, List.foldl_concat]

/-- The members of an object, as their names and the tokens of their values, have the effects `f`:
where a member of the record is named for the first time, its value is read as `f` of it. Any other
value only has to be one value. -/
structure Supplies (ms : List (String × List Token)) : Prop where
  isValue : ∀ m ∈ ms, IsValue m.2
  first : ∀ before m after k, ms = before ++ m :: after → r.member? m.1 = some k →
    k ∉ r.given (before.map Prod.fst) → ∀ rest, (r.value k).run (m.2 ++ rest) = .ok (f k, rest)

/-! ## Reading arrays -/

section Arrays

variable {f} {v : κ → Json} {ks left : List κ}

/-- At the end of an array nothing more is read. -/
lemma readItems_closeArray (p : Progress κ σ) (first : Bool) (ks : List κ) (rest : List Token) :
    r.readItems p first ks (.closeArray :: rest) = .ok (p, rest) := by
  cases ks <;> rfl

/-- Items are separated by commas. -/
lemma readItems_comma (p : Progress κ σ) (k : κ) (ks : List κ) {t : Token} (ht : t ≠ .closeArray)
    (ts : List Token) :
    r.readItems p true (k :: ks) (t :: ts) = r.readItems p false (k :: ks) (.comma :: t :: ts) := by
  cases t with
  | closeArray => exact absurd rfl ht
  | _ => rfl

/-- An array is read as if a comma stood before its first item, too. -/
lemma readItems_intercalate (p : Progress κ σ) (rest : List Token) :
    r.readItems p true (ks ++ left)
        ([.comma].intercalate (ks.map fun k => toTokens (v k)) ++ .closeArray :: rest) =
      r.readItems p false (ks ++ left)
        (ks.flatMap (fun k => .comma :: toTokens (v k)) ++ .closeArray :: rest) := by
  cases ks with
  | nil =>
    have hread (first : Bool) : r.readItems p first left (.closeArray :: rest) = .ok (p, rest) :=
      r.readItems_closeArray p first left rest
    exact (hread true).trans (hread false).symm
  | cons k ks =>
    obtain ⟨t, ts, htokens, ht⟩ := exists_toTokens_eq_cons (v k)
    rw [intercalate_map_cons, List.flatMap_cons, List.append_assoc, List.append_assoc,
      List.cons_append, htokens]
    exact r.readItems_comma p k _ ht _

/-- Reading items for the next members, each of them behind a comma. -/
lemma readItems_append (hvalues : ∀ k ∈ ks, (r.value k).Decodes (v k) (f k)) (p : Progress κ σ)
    (rest : List Token) :
    r.readItems p false (ks ++ left)
        (ks.flatMap (fun k => .comma :: toTokens (v k)) ++ .closeArray :: rest) =
      .ok (⟨ks.reverse ++ p.given, ks.foldl (fun s k => f k s) p.result⟩, rest) := by
  induction ks generalizing p with
  | nil => exact r.readItems_closeArray p false left rest
  | cons k ks ih =>
    obtain ⟨hk, hks⟩ := List.forall_mem_cons.1 hvalues
    have hread (ts : List Token) : r.readValue p k (toTokens (v k) ++ ts) =
        .ok (⟨k :: p.given, f k p.result⟩, ts) := by
      rw [readValue, hk ts]
    rw [List.flatMap_cons, List.append_assoc, List.cons_append, List.cons_append, readItems, hread,
      ok_bind]
    refine (ih hks _).trans ?_
    rw [List.reverse_cons, List.append_assoc]
    rfl

/-- **Reading an array** of values for the first members of a record: these have their effects. -/
theorem read_array [DecidableEq κ] (hmembers : r.members = ks ++ left)
    (hvalues : ∀ k ∈ ks, (r.value k).Decodes (v k) (f k)) (rest : List Token) :
    r.read start (toTokens (.array (ks.map v)) ++ rest) =
      r.finish ⟨ks.reverse, ks.foldl (fun s k => f k s) start⟩ >>= fun s => .ok (s, rest) := by
  rw [toTokens, List.map_map, List.append_assoc, List.singleton_append]
  change (r.readItems ⟨[], start⟩ true r.members
    ([.comma].intercalate (ks.map fun k => toTokens (v k)) ++ .closeArray :: rest) >>=
      fun x => r.finish x.1 >>= fun s => .ok (s, x.2)) = _
  rw [hmembers, readItems_intercalate, r.readItems_append hvalues, ok_bind, List.append_nil]

end Arrays

/-! ## Reading objects -/

/-- The tokens of a member of an object with the given name. -/
def namedTokens (m : String × List Token) : List Token :=
  keyed (.ok m.1, m.2)

variable [DecidableEq κ] {f} {seen ms : List (String × List Token)}

/-- **Reading one member** behind members without a repetition: it is refused if it repeats one of
them, and otherwise it makes the progress that is due. -/
theorem readMember_of_supplies {m : String × List Token} (h : r.Supplies f (seen ++ m :: ms))
    (hnodup : (r.given (seen.map Prod.fst)).Nodup) (rest : List Token) :
    r.readMember (r.progress f start (seen.map Prod.fst)) (namedTokens m ++ rest) =
      if (r.given ((seen ++ [m]).map Prod.fst)).Nodup then
        .ok (r.progress f start ((seen ++ [m]).map Prod.fst), rest)
      else .error .mismatch := by
  rw [List.map_append, List.map_singleton]
  cases hmember : r.member? m.1 with
  | none =>
    have hvalue := h.isValue m (List.mem_append_right seen List.mem_cons_self)
    rw [given_concat_of_none r hmember, if_pos hnodup, progress_concat_of_none r f start hmember]
    exact readMember_unknown hmember (hvalue.skipValue_append rest)
  | some k =>
    have hconcat := r.nodup_given_concat_iff hmember hnodup
    rw [progress_concat_of_some r f start hmember]
    by_cases hk : k ∈ r.given (seen.map Prod.fst)
    · rw [if_neg (mt hconcat.1 (not_not_intro hk))]
      exact readMember_repeated hmember (List.mem_reverse.2 hk)
    · rw [if_pos (hconcat.2 hk)]
      exact readMember_known hmember (mt List.mem_reverse.1 hk)
        (h.first seen m ms k rfl hmember hk rest)

/-- **Reading the members behind others** without a repetition, up to the closing bracket.

**Proof sketch.** Induction on the members to come, with the members before them generalised. If the
next member repeats one, the names of all members repeat it, too. Otherwise it joins the members
before, and the hypothesis applies. -/
theorem moreMembers_of_supplies (h : r.Supplies f (seen ++ ms))
    (hnodup : (r.given (seen.map Prod.fst)).Nodup) (rest : List Token) :
    r.moreMembers (r.progress f start (seen.map Prod.fst))
        (ms.flatMap (fun m => .comma :: namedTokens m) ++ .closeObject :: rest) =
      if (r.given ((seen ++ ms).map Prod.fst)).Nodup then
        .ok (r.progress f start ((seen ++ ms).map Prod.fst), rest)
      else .error .mismatch := by
  induction ms generalizing seen with
  | nil => rw [List.flatMap_nil, List.nil_append, moreMembers, List.append_nil, if_pos hnodup]
  | cons m ms ih =>
    have hsplit : seen ++ m :: ms = seen ++ [m] ++ ms := List.append_cons seen m ms
    rw [List.flatMap_cons, List.append_assoc, List.cons_append, moreMembers_comma,
      r.readMember_of_supplies start h hnodup]
    by_cases hm : (r.given ((seen ++ [m]).map Prod.fst)).Nodup
    · rw [hsplit] at h ⊢
      rw [if_pos hm, ok_bind]
      exact ih h hm
    · have hms : ¬ (r.given ((seen ++ m :: ms).map Prod.fst)).Nodup := by
        rw [hsplit, List.map_append, given_append]
        exact fun hall => hm hall.of_append_left
      rw [if_neg hm, if_neg hms]
      rfl

/-- **Reading an object** whose members have the effects `f`: a repeated member is refused, and
otherwise all known members have had their effects. -/
theorem read_of_supplies (h : r.Supplies f ms) (rest : List Token) :
    r.read start
        (.openObject :: [.comma].intercalate (ms.map namedTokens) ++ .closeObject :: rest) =
      if (r.given (ms.map Prod.fst)).Nodup then
        r.finish (r.progress f start (ms.map Prod.fst)) >>= fun s => .ok (s, rest)
      else .error .mismatch := by
  have hkeyed : ms.map namedTokens = (ms.map fun m => (.ok m.1, m.2)).map keyed := by
    rw [List.map_map]
    rfl
  have hsupplies : r.Supplies f ([] ++ ms) := h
  have hmore := r.moreMembers_of_supplies start hsupplies List.nodup_nil rest
  rw [List.map_nil, List.nil_append] at hmore
  rw [hkeyed, read_object, List.flatMap_map]
  change r.moreMembers (r.progress f start [])
    (ms.flatMap (fun m => .comma :: namedTokens m) ++ .closeObject :: rest) >>= _ = _
  rw [hmore]
  split <;> rfl

end Record

end Json

end VersionedLayout
