import Mathlib.Data.List.Basic
import VersionedLayout.Emission
set_option autoImplicit false

/-!
# Failures of sequenced computations

A schema is written out by computations that are made one after another, and the first one that
fails decides the error of the whole. Here the error is taken apart from the result: `failure?`
maps every computation to the error that it ends with, and turns sequencing into a choice and
traversal into a search for the first failing item. Which error an emitter ends with is then a
statement about options, in which the emitted text no longer occurs.

## Main definitions

* `VersionedLayout.failure?` — the error with which a computation ends, if it fails.

## Main results

* `VersionedLayout.failure?_bind`, `VersionedLayout.failure?_mapM` — the failure of a sequence, and
  of a traversal.
* `VersionedLayout.mapM_eq_ok_map` — the result of a traversal none of whose items fails.
* `VersionedLayout.mapM_eq_ok_iff`, `VersionedLayout.mapM_eq_error_iff` — a traversal has a result,
  or fails, as its items do one by one.
* `VersionedLayout.Emission.result_mapM` — records leave the result of a traversal alone.
-/

namespace VersionedLayout

variable {ε α β : Type}

/-- A computation goes on with a result. -/
@[simp] lemma ok_bind (a : α) (k : α → Except ε β) : (Except.ok a >>= k) = k a := rfl

/-- The error with which a computation ends, if it fails. -/
def failure? : Except ε α → Option ε
  | .ok _ => none
  | .error e => some e

/-- A result is no failure. -/
@[simp] lemma failure?_ok (a : α) : failure? (.ok a : Except ε α) = none := rfl

/-- A mere result is no failure. -/
@[simp] lemma failure?_pure (a : α) : failure? (pure a : Except ε α) = none := rfl

/-- An error is the failure. -/
@[simp] lemma failure?_error (e : ε) : failure? (.error e : Except ε α) = some e := rfl

/-- What does not fail has a result. -/
lemma failure?_eq_none_iff {r : Except ε α} : failure? r = none ↔ ∃ a, r = .ok a := by
  cases r <;> simp

/-- What fails is the error. -/
lemma failure?_eq_some_iff {r : Except ε α} {e : ε} : failure? r = some e ↔ r = .error e := by
  cases r <;> simp

/-- What does not have a result fails. -/
lemma failure?_ne_none_iff {r : Except ε α} : failure? r ≠ none ↔ ∃ e, r = .error e := by
  cases r <;> simp

/-- There is an error or a result. -/
lemma exists_error_iff {r : Except ε α} : (∃ e, r = .error e) ↔ ¬ ∃ a, r = .ok a := by
  rw [← failure?_ne_none_iff, ne_eq, failure?_eq_none_iff]

/-- A sequence has a result when its first part has one from which its second part has one. -/
lemma bind_eq_ok_iff {r : Except ε α} {k : α → Except ε β} {b : β} :
    (r >>= k) = .ok b ↔ ∃ a, r = .ok a ∧ k a = .ok b := by
  cases r with
  | ok a => simp
  | error e => exact iff_of_false nofun fun ⟨_, h, _⟩ => nomatch h

/-- A sequence ends with the failure of its first part, or else with that of its second part,
provided that the latter does not depend on the result of the former. -/
lemma failure?_bind {r : Except ε α} {k : α → Except ε β} {o : Option ε}
    (h : ∀ a, failure? (k a) = o) : failure? (r >>= k) = (failure? r).or o := by
  cases r with
  | ok a => exact h a
  | error e => rfl

/-- What follows without ever failing does not change the failure. -/
lemma failure?_bind_pure {r : Except ε α} {k : α → β} :
    failure? (r >>= fun a => pure (k a)) = failure? r := by
  rw [failure?_bind fun _ => failure?_pure _, Option.or_none]

/-- **A traversal fails as its first failing item does.** -/
theorem failure?_mapM {f : α → Except ε β} {p : α → Option ε} {l : List α}
    (h : ∀ a ∈ l, failure? (f a) = p a) : failure? (l.mapM f) = l.findSome? p := by
  induction l with
  | nil => rfl
  | cons a l ih =>
    rw [List.mapM_cons, List.findSome?_cons, failure?_bind fun _ => failure?_bind_pure,
      h a List.mem_cons_self, ih fun b hb => h b (List.mem_cons_of_mem a hb)]
    cases p a <;> rfl

/-- A search through several lists, one after another, is a search through all of them. -/
lemma findSome?_flatMap {g : α → List β} {p : β → Option ε} {l : List α} :
    (l.flatMap g).findSome? p = l.findSome? fun a => (g a).findSome? p := by
  induction l with
  | nil => rfl
  | cons a l ih =>
    rw [List.flatMap_cons, List.findSome?_append, ih, List.findSome?_cons]
    cases (g a).findSome? p <;> rfl

/-- The result of a traversal each of whose items has a result. -/
lemma mapM_eq_ok_map {f : α → Except ε β} {g : α → β} {l : List α}
    (h : ∀ a ∈ l, f a = .ok (g a)) : l.mapM f = .ok (l.map g) := by
  induction l with
  | nil => rfl
  | cons a l ih =>
    rw [List.mapM_cons, h a List.mem_cons_self, ih fun b hb => h b (List.mem_cons_of_mem a hb)]
    rfl

/-- The items of a traversal with a result have results one by one. -/
lemma forall₂_of_mapM_eq_ok {f : α → Except ε β} {l : List α} {bs : List β}
    (h : l.mapM f = .ok bs) : List.Forall₂ (fun a b => f a = .ok b) l bs := by
  induction l generalizing bs with
  | nil =>
    rw [← Except.ok.inj h]
    exact .nil
  | cons a l ih =>
    rw [List.mapM_cons] at h
    obtain ⟨b, hb, h⟩ := bind_eq_ok_iff.1 h
    obtain ⟨cs, hcs, h⟩ := bind_eq_ok_iff.1 h
    rw [← Except.ok.inj h]
    exact .cons hb (ih hcs)

/-- **A traversal has a result** when its items have results one by one. -/
lemma mapM_eq_ok_iff {f : α → Except ε β} {l : List α} {bs : List β} :
    l.mapM f = .ok bs ↔ List.Forall₂ (fun a b => f a = .ok b) l bs := by
  refine ⟨forall₂_of_mapM_eq_ok, fun h => ?_⟩
  induction h with
  | nil => rfl
  | cons hb _ ih =>
    rw [List.mapM_cons, hb, ih]
    rfl

/-- A traversal each of whose items has a result of some kind has results of this kind. -/
lemma exists_mapM_eq_ok {f : α → Except ε β} {R : α → β → Prop} {l : List α}
    (h : ∀ a ∈ l, ∃ b, f a = .ok b ∧ R a b) : ∃ bs, l.mapM f = .ok bs ∧ List.Forall₂ R l bs := by
  induction l with
  | nil => exact ⟨[], rfl, .nil⟩
  | cons a l ih =>
    obtain ⟨b, hb, hab⟩ := h a List.mem_cons_self
    obtain ⟨bs, hbs, hl⟩ := ih fun x hx => h x (List.mem_cons_of_mem a hx)
    refine ⟨b :: bs, ?_, .cons hab hl⟩
    rw [List.mapM_cons, hb, hbs]
    rfl

/-- **A traversal fails** with the error of an item that fails behind items that do not. -/
lemma mapM_eq_error_iff {f : α → Except ε β} {l : List α} {e : ε} :
    l.mapM f = .error e ↔ ∃ before a after, l = before ++ a :: after ∧ f a = .error e ∧
      ∀ b ∈ before, ∃ c, f b = .ok c := by
  rw [← failure?_eq_some_iff, failure?_mapM fun _ _ => rfl, List.findSome?_eq_some_iff]
  simp only [failure?_eq_some_iff, failure?_eq_none_iff]

/-- Traversals agree when they do the same with every item of the list. -/
lemma mapM_congr {m : Type → Type} [Monad m] [LawfulMonad m] {f g : α → m β} {l : List α}
    (h : ∀ a ∈ l, f a = g a) : l.mapM f = l.mapM g := by
  induction l with
  | nil => rw [List.mapM_nil, List.mapM_nil]
  | cons a l ih =>
    rw [List.mapM_cons, List.mapM_cons, h a List.mem_cons_self,
      ih fun b hb => h b (List.mem_cons_of_mem a hb)]

/-- A traversal goes through what precedes an item, then through the item, and then through what
follows it. -/
lemma mapM_append_cons_bind {γ : Type} {f : α → Except ε β} {before after : List α} {a : α}
    {k : List β → Except ε γ} :
    (before ++ a :: after).mapM f >>= k =
      before.mapM f >>= fun front => f a >>= fun b => after.mapM f >>= fun behind =>
        k (front ++ b :: behind) := by
  simp only [List.mapM_append, List.mapM_cons, bind_assoc, pure_bind]

namespace Emission

/-- A result without a record comes out. -/
@[simp] lemma result_ofExcept (r : Except SchemaError α) : (ofExcept r).result = r := rfl

/-- A record comes out as nothing. -/
@[simp] lemma result_record (r : LogRecord) : (record r).result = .ok () := rfl

/-- The result of a traversal is that of the traversal without its records. -/
lemma result_mapM (f : α → Emission β) (l : List α) :
    (l.mapM f).result = l.mapM fun a => (f a).result := by
  induction l with
  | nil => rfl
  | cons a l ih =>
    simp only [List.mapM_cons, result_bind, result_pure, ih]
    rfl

end Emission

end VersionedLayout
