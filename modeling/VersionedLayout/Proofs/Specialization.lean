import Mathlib.Data.List.Forall2
import VersionedLayout.Proofs.Failure
import VersionedLayout.TypeDescriptor
set_option autoImplicit false

/-!
# Specializations

A template is specialized by as many arguments as it has parameters, each of which must have a text.
What it is bound to then shows in its full name, and the headers of its arguments join its own. Both
go through specializations of specializations: the full name of a tree of them is the tree written
out from the leaves up, and the headers are those of all types in the tree. A template that is
specialized once more forgets the arguments that it was bound to, but not their headers.

## Main definitions

* `VersionedLayout.TypeDescriptor.boundName` — the name of a type with given arguments.
* `VersionedLayout.TemplateArg.Prints` — the text of an argument.
* `VersionedLayout.TypeDescriptor.IsBoundTo` — a template with its parameters bound to arguments.
* `VersionedLayout.TemplateTree` — specializations inside specializations.

## Main results

* `VersionedLayout.TypeDescriptor.fullName_eq_ok_iff` — which types have a full name.
* `VersionedLayout.TypeDescriptor.specialize_eq_ok_iff`,
  `VersionedLayout.TypeDescriptor.specialize_eq_error_iff` — when a specialization succeeds, and how
  it fails.
* `VersionedLayout.TemplateTree.eval_of_bound` — what a tree of specializations is.
* `VersionedLayout.TypeDescriptor.specialize_binds_and_composes` — all of this at once.
-/

namespace VersionedLayout

namespace TypeDescriptor

/-! ## Full names -/

section

variable {t : TypeDescriptor}

/-- The name of a type with the given texts as its arguments. Without parameters there are no angle
brackets. -/
def boundName (t : TypeDescriptor) (texts : List String) : String :=
  if t.arity = 0 then t.qualifiedName else t.qualifiedName ++ bracketed texts

/-- A type is no template when it has neither an arity nor arguments. -/
lemma isTemplate_eq_false_iff : t.isTemplate = false ↔ t.arity = 0 ∧ t.args = [] := by
  simp [isTemplate]

/-- **A type has a full name** if its arguments are as many as its parameters. -/
theorem fullName_eq_ok_iff {name : String} :
    t.fullName = .ok name ↔ t.args.length = t.arity ∧ name = t.boundName t.args := by
  rw [fullName, boundName]
  cases htemplate : t.isTemplate with
  | false =>
    obtain ⟨harity, hargs⟩ := isTemplate_eq_false_iff.1 htemplate
    simp [harity, hargs, eq_comm]
  | true =>
    have hne : t.args.length = t.arity → t.arity ≠ 0 := by
      intro hlength harity
      have hargs : t.args = [] := List.length_eq_zero_iff.1 (hlength.trans harity)
      rw [isTemplate_eq_false_iff.2 ⟨harity, hargs⟩] at htemplate
      cases htemplate
    by_cases hlength : t.args.length = t.arity
    · simp [hlength, hne hlength, eq_comm]
    · simp [hlength]

/-- A type has a full name when its arguments are as many as its arity says. -/
lemma exists_fullName_iff : (∃ name, t.fullName = .ok name) ↔ t.args.length = t.arity := by
  simp [fullName_eq_ok_iff]

/-- Only the number of its arguments can keep a type from having a full name. -/
theorem fullName_eq_error_iff {e : SchemaError} :
    t.fullName = .error e ↔
      t.args.length ≠ t.arity ∧ e = .arity t.qualifiedName t.arity t.args.length := by
  rw [fullName]
  cases htemplate : t.isTemplate with
  | false =>
    obtain ⟨harity, hargs⟩ := isTemplate_eq_false_iff.1 htemplate
    simp [harity, hargs]
  | true =>
    by_cases hlength : t.args.length = t.arity
    · simp [hlength]
    · simp [hlength, eq_comm]

end

end TypeDescriptor

/-! ## Arguments -/

/-- An item of a list has a partner among the items that are related one by one to those of the
list. -/
lemma exists_mem_of_forall₂ {α β : Type} {R : α → β → Prop} {as : List α} {bs : List β}
    (h : List.Forall₂ R as bs) {a : α} (ha : a ∈ as) : ∃ b ∈ bs, R a b := by
  induction h with
  | nil => cases ha
  | @cons x b as bs hxb _ ih =>
    rcases List.mem_cons.1 ha with rfl | ha
    · exact ⟨b, List.mem_cons_self, hxb⟩
    · obtain ⟨c, hc, hac⟩ := ih ha
      exact ⟨c, List.mem_cons_of_mem b hc, hac⟩

namespace TemplateArg

/-- The text that an argument puts between the brackets: a literal is taken as it is, and a type
gives its full name. -/
inductive Prints : TemplateArg → String → Prop
  | literal (text : String) : Prints (.literal text) text
  | type {t : TypeDescriptor} {name : String} : t.fullName = .ok name → Prints (.type t) name

/-- An argument is printed as its text. -/
lemma prints_iff {a : TemplateArg} {text : String} : a.Prints text ↔ a.text = .ok text := by
  constructor
  · intro h
    cases h with
    | literal => rfl
    | type hname => exact hname
  · intro h
    cases a with
    | literal s =>
      cases h
      exact .literal _
    | type t => exact .type h

/-- Arguments have texts when each of them is printed. -/
lemma mapM_text_eq_ok_iff {args : List TemplateArg} {texts : List String} :
    args.mapM text = .ok texts ↔ List.Forall₂ Prints args texts := by
  rw [mapM_eq_ok_iff]
  exact ⟨fun h => h.imp fun _ _ => prints_iff.2, fun h => h.imp fun _ _ => prints_iff.1⟩

/-- Every argument has a text if every type among them has a full name. -/
lemma exists_texts_iff {args : List TemplateArg} : (∃ texts, List.Forall₂ Prints args texts) ↔
    ∀ t, .type t ∈ args → ∃ name, t.fullName = .ok name := by
  constructor
  · rintro ⟨texts, h⟩ t ht
    obtain ⟨name, -, hname⟩ := exists_mem_of_forall₂ h ht
    exact ⟨name, prints_iff.1 hname⟩
  · intro h
    have htext : ∀ a ∈ args, ∃ s, a.text = .ok s ∧ a.Prints s := by
      intro a ha
      cases a with
      | literal s => exact ⟨s, rfl, .literal s⟩
      | type t =>
        obtain ⟨name, hname⟩ := h t ha
        exact ⟨name, hname, .type hname⟩
    obtain ⟨texts, -, htexts⟩ := exists_mapM_eq_ok htext
    exact ⟨texts, htexts⟩

/-- Only a type can be without a text. -/
lemma text_eq_error_iff {a : TemplateArg} {e : SchemaError} :
    a.text = .error e ↔ ∃ t, a = .type t ∧ t.fullName = .error e := by
  cases a with
  | literal s => simp [text]
  | type t => simp [text]

/-- Only a type brings headers. -/
lemma mem_headers {a : TemplateArg} {h : String} :
    h ∈ a.headers ↔ ∃ t, a = .type t ∧ h ∈ t.headers := by
  cases a with
  | literal s => simp [headers]
  | type t => simp [headers]

/-- The headers of arguments are added to those before. -/
lemma mem_foldl_union {args : List TemplateArg} {hs : HeaderSet} {h : String} :
    h ∈ args.foldl (fun hs a => hs.union a.headers) hs ↔
      h ∈ hs ∨ ∃ a ∈ args, h ∈ a.headers := by
  induction args generalizing hs with
  | nil => simp
  | cons a args ih => rw [List.foldl_cons, ih, HeaderSet.mem_union]; simp [or_assoc]

end TemplateArg

namespace TypeDescriptor

/-! ## One specialization -/

section

variable {t u : TypeDescriptor} {args : List TemplateArg} {texts : List String}

/-- The template `t` with its parameters bound to the arguments. -/
structure IsBoundTo (t : TypeDescriptor) (args : List TemplateArg) (u : TypeDescriptor) : Prop where
  /-- The name is that of the template. -/
  name_eq : u.name = t.name
  /-- So is the namespace. -/
  scope_eq : u.scope = t.scope
  /-- So is the number of parameters. -/
  arity_eq : u.arity = t.arity
  /-- The full name has the texts of the arguments between its brackets, in their order. -/
  fullName_eq : ∃ texts, List.Forall₂ TemplateArg.Prints args texts ∧
    u.fullName = .ok (t.boundName texts)
  /-- The headers are those of the template and of the types among the arguments. -/
  mem_headers : ∀ h, h ∈ u.headers ↔ h ∈ t.headers ∨ ∃ v, .type v ∈ args ∧ h ∈ v.headers

/-- **What a specialization is**: the template with the texts of the arguments, which are as many as
its parameters, and with the headers of the arguments besides its own. -/
theorem specialize_eq_ok_iff :
    t.specialize args = .ok u ↔ args.length = t.arity ∧
      ∃ texts, args.mapM TemplateArg.text = .ok texts ∧
        u = { t with
          args := texts
          headers := args.foldl (fun hs a => hs.union a.headers) t.headers } := by
  rw [specialize]
  split
  · rename_i hlength
    cases args.mapM TemplateArg.text with
    | error e =>
      refine iff_of_false (fun h => by cases h) ?_
      rintro ⟨-, texts, htexts, -⟩
      cases htexts
    | ok texts => simp [hlength, pure, Except.pure, eq_comm]
  · rename_i hlength
    refine iff_of_false (fun h => by cases h) ?_
    rintro ⟨h, -⟩
    exact hlength h

/-- **How a specialization fails**: a wrong number of arguments comes first, and otherwise the first
type among the arguments that has no full name decides. -/
theorem specialize_eq_error_iff {e : SchemaError} :
    t.specialize args = .error e ↔
      args.length ≠ t.arity ∧ e = .arity t.qualifiedName t.arity args.length ∨
      args.length = t.arity ∧ ∃ before v after, args = before ++ .type v :: after ∧
        v.fullName = .error e ∧ ∀ w, .type w ∈ before → ∃ name, w.fullName = .ok name := by
  rw [specialize]
  split
  · rename_i hlength
    have hbefore : ∀ before : List TemplateArg, (∀ b ∈ before, ∃ text, b.text = .ok text) ↔
        ∀ w, .type w ∈ before → ∃ name, w.fullName = .ok name := by
      intro before
      refine ⟨fun h w hw => h (.type w) hw, fun h b hb => ?_⟩
      cases b with
      | literal s => exact ⟨s, rfl⟩
      | type w => exact h w hb
    rw [← failure?_eq_some_iff, failure?_bind_pure, failure?_eq_some_iff, mapM_eq_error_iff]
    simp only [hlength, hbefore, TemplateArg.text_eq_error_iff, ne_eq, not_true_eq_false,
      false_and, true_and, false_or]
    constructor
    · rintro ⟨before, _, after, hargs, ⟨v, rfl, hv⟩, h⟩
      exact ⟨before, v, after, hargs, hv, h⟩
    · rintro ⟨before, v, after, hargs, hv, h⟩
      exact ⟨before, .type v, after, hargs, ⟨v, rfl, hv⟩, h⟩
  · rename_i hlength
    simp [hlength, eq_comm]

/-- **When a specialization succeeds**: the arguments are as many as the parameters, and each of
them has a text. -/
theorem exists_specialize_iff : (∃ u, t.specialize args = .ok u) ↔
    args.length = t.arity ∧ ∃ texts, List.Forall₂ TemplateArg.Prints args texts := by
  simp only [specialize_eq_ok_iff, TemplateArg.mapM_text_eq_ok_iff]
  constructor
  · rintro ⟨u, hlength, texts, htexts, -⟩
    exact ⟨hlength, texts, htexts⟩
  · rintro ⟨hlength, texts, htexts⟩
    exact ⟨_, hlength, texts, htexts, rfl⟩

/-- The full name of a specialization has the texts of the arguments between its brackets. -/
lemma fullName_of_specialize (h : t.specialize args = .ok u)
    (htexts : List.Forall₂ TemplateArg.Prints args texts) :
    u.fullName = .ok (t.boundName texts) := by
  obtain ⟨hlength, bound, hbound, rfl⟩ := specialize_eq_ok_iff.1 h
  cases hbound.symm.trans (TemplateArg.mapM_text_eq_ok_iff.2 htexts)
  exact fullName_eq_ok_iff.2 ⟨htexts.length_eq.symm.trans hlength, rfl⟩

/-- A specialization needs the headers of the template and those of its arguments. -/
lemma mem_headers_of_specialize (h : t.specialize args = .ok u) {header : String} :
    header ∈ u.headers ↔ header ∈ t.headers ∨ ∃ a ∈ args, header ∈ a.headers := by
  obtain ⟨-, texts, -, rfl⟩ := specialize_eq_ok_iff.1 h
  exact TemplateArg.mem_foldl_union

/-- **A specialization is the template bound to the arguments.** -/
theorem isBoundTo_of_specialize (h : t.specialize args = .ok u) : t.IsBoundTo args u := by
  obtain ⟨-, texts, htexts, hu⟩ := specialize_eq_ok_iff.1 h
  have hprints := TemplateArg.mapM_text_eq_ok_iff.1 htexts
  have hname := fullName_of_specialize h hprints
  refine ⟨by rw [hu], by rw [hu], by rw [hu], ⟨texts, hprints, hname⟩, fun header => ?_⟩
  rw [mem_headers_of_specialize h]
  simp only [TemplateArg.mem_headers]
  constructor
  · rintro (ht | ⟨_, ha, v, rfl, hv⟩)
    · exact .inl ht
    · exact .inr ⟨v, ha, hv⟩
  · rintro (ht | ⟨v, ha, hv⟩)
    · exact .inl ht
    · exact .inr ⟨_, ha, v, rfl, hv⟩

end

/-- **Specializing once more** binds the parameters anew. The headers of the former arguments
stay. -/
theorem specialize_specialize {t u v : TypeDescriptor} {a b : List TemplateArg}
    (hu : t.specialize a = .ok u) (hv : t.specialize b = .ok v) :
    ∃ w, u.specialize b = .ok w ∧ w.fullName = v.fullName ∧
      ∀ h, h ∈ w.headers ↔ h ∈ u.headers ∨ h ∈ v.headers := by
  obtain ⟨hlength, texts, htexts, rfl⟩ := specialize_eq_ok_iff.1 hv
  obtain ⟨-, former, -, rfl⟩ := specialize_eq_ok_iff.1 hu
  refine ⟨_, specialize_eq_ok_iff.2 ⟨hlength, texts, htexts, rfl⟩, rfl, fun h => ?_⟩
  simp only [TemplateArg.mem_foldl_union]
  grind

end TypeDescriptor

/-! ## Trees of specializations -/

/-- Specializations inside specializations. -/
inductive TemplateTree where
  /-- A text. -/
  | literal (text : String)
  /-- A type as it stands. -/
  | type (t : TypeDescriptor)
  /-- A template that is specialized by the arguments below it. -/
  | specialized (t : TypeDescriptor) (args : List TemplateTree)

namespace TemplateTree

/-- The argument that a tree is evaluated to, from the leaves up. -/
def eval : TemplateTree → Except SchemaError TemplateArg
  | literal text => .ok (.literal text)
  | type t => .ok (.type t)
  | specialized t args => do
    let args ← args.mapM eval
    let u ← t.specialize args
    return .type u

/-- A tree written out. -/
def render : TemplateTree → String
  | literal text => text
  | type t => t.boundName t.args
  | specialized t args => t.boundName (args.map render)

/-- The types in a tree. -/
def types : TemplateTree → List TypeDescriptor
  | literal _ => []
  | type t => [t]
  | specialized t args => t :: args.flatMap types

/-- Every type in a tree has as many arguments as parameters. -/
inductive Bound : TemplateTree → Prop
  | literal (text : String) : Bound (.literal text)
  | type {t : TypeDescriptor} : t.args.length = t.arity → Bound (.type t)
  | specialized {t : TypeDescriptor} {args : List TemplateTree} : args.length = t.arity →
    (∀ a ∈ args, Bound a) → Bound (.specialized t args)

/-- The argument is what the tree says: it prints the tree written out, and its headers are those of
all types in the tree. -/
structure Means (b : TemplateTree) (a : TemplateArg) : Prop where
  prints : a.Prints b.render
  mem_headers : ∀ h, h ∈ a.headers ↔ ∃ v ∈ b.types, h ∈ v.headers

/-- A template in a tree is specialized by what its arguments are evaluated to. -/
lemma eval_specialized_eq_ok_iff {t : TypeDescriptor} {bs : List TemplateTree} {a : TemplateArg} :
    (specialized t bs).eval = .ok a ↔
      ∃ args u, bs.mapM eval = .ok args ∧ t.specialize args = .ok u ∧ a = .type u := by
  rw [eval, bind_eq_ok_iff]
  refine exists_congr fun args => ?_
  rw [bind_eq_ok_iff]
  simp [pure, Except.pure, eq_comm]

/-- **A tree of specializations is evaluated to what it says**, provided that every type in it has
as many arguments as parameters.

**Proof sketch.** Induction on the tree. The arguments below a template are evaluated to arguments
that print what is written out there, so the template can be bound to them, and each of them has the
headers of the types below it. -/
theorem eval_of_bound {b : TemplateTree} (h : b.Bound) : ∃ a, b.eval = .ok a ∧ b.Means a := by
  induction h with
  | literal text =>
    rw [eval]
    refine ⟨_, rfl, ?_, by simp [types, TemplateArg.headers]⟩
    rw [render]
    exact .literal text
  | @type t hlength =>
    rw [eval]
    refine ⟨_, rfl, ?_, by simp [types, TemplateArg.headers]⟩
    rw [render]
    exact .type (TypeDescriptor.fullName_eq_ok_iff.2 ⟨hlength, rfl⟩)
  | @specialized t bs hlength _ ih =>
    obtain ⟨args, hargs, hmeans⟩ := exists_mapM_eq_ok ih
    have hprints : List.Forall₂ TemplateArg.Prints args (bs.map render) := by
      rw [List.forall₂_map_right_iff]
      exact hmeans.flip.imp fun _ _ h => h.prints
    obtain ⟨u, hu⟩ := TypeDescriptor.exists_specialize_iff.2
      ⟨hmeans.length_eq.symm.trans hlength, _, hprints⟩
    refine ⟨.type u, eval_specialized_eq_ok_iff.2 ⟨args, u, hargs, hu, rfl⟩, ?_, fun h => ?_⟩
    · rw [render]
      exact .type (TypeDescriptor.fullName_of_specialize hu hprints)
    · simp only [TemplateArg.headers, TypeDescriptor.mem_headers_of_specialize hu, types,
        List.mem_cons, List.mem_flatMap]
      constructor
      · rintro (ht | ⟨a, ha, hheader⟩)
        · exact ⟨t, .inl rfl, ht⟩
        · obtain ⟨b, hb, hba⟩ := exists_mem_of_forall₂ hmeans.flip ha
          obtain ⟨v, hv, hheader⟩ := (hba.mem_headers h).1 hheader
          exact ⟨v, .inr ⟨b, hb, hv⟩, hheader⟩
      · rintro ⟨v, rfl | ⟨b, hb, hv⟩, hheader⟩
        · exact .inl hheader
        · obtain ⟨a, ha, hba⟩ := exists_mem_of_forall₂ hmeans hb
          exact .inr ⟨a, ha, (hba.mem_headers h).2 ⟨v, hv, hheader⟩⟩

/-- A tree whose evaluation has a text has as many arguments as parameters everywhere. -/
lemma bound_of_eval {b : TemplateTree} {a : TemplateArg} {text : String} (ha : b.eval = .ok a)
    (htext : a.Prints text) : b.Bound := by
  fun_induction eval b generalizing a text with
  | case1 text => exact .literal _
  | case2 t =>
    cases ha
    cases htext with
    | type hname => exact .type (TypeDescriptor.fullName_eq_ok_iff.1 hname).1
  | case3 t bs ih =>
    obtain ⟨args, u, hargs, hu, -⟩ := eval_specialized_eq_ok_iff.1 ((eval.eq_3 t bs).trans ha)
    obtain ⟨hlength, texts, htexts⟩ := TypeDescriptor.exists_specialize_iff.1 ⟨u, hu⟩
    have hevaluated := mapM_eq_ok_iff.1 hargs
    refine .specialized (hevaluated.length_eq.trans hlength) fun b hb => ?_
    obtain ⟨x, hx, hbx⟩ := exists_mem_of_forall₂ hevaluated hb
    obtain ⟨s, -, hxs⟩ := exists_mem_of_forall₂ htexts hx
    exact ih b hb hbx hxs

end TemplateTree

/-! ## Everything at once -/

namespace TypeDescriptor

/-- **A template is bound to its arguments, and specializations compose.**

* A specialization fails exactly when the arguments are not as many as the parameters or a type
  among them has no full name. The wrong number comes first; otherwise the first such type decides.
* A specialization that succeeds is the template bound to the arguments.
* A tree of specializations is evaluated to a type exactly when every type in it has as many
  arguments as parameters. The full name of the result is the tree written out, and its headers are
  those of all types in the tree.
* Specializing once more leads to the full name of the second specialization alone, and to the
  headers of both.

**Proof sketch.** The first two parts follow the traversal of the arguments: it has a result when
each of them has a text, and otherwise ends with the error of the first one that has none. For trees
this is repeated from the leaves up. What a specialization changes is the arguments, which the next
one replaces, and the headers, to which the next one adds. -/
theorem specialize_binds_and_composes (t : TypeDescriptor) :
    (∀ args,
      ((∃ e, t.specialize args = .error e) ↔
        args.length ≠ t.arity ∨ ∃ v, .type v ∈ args ∧ ∃ e, v.fullName = .error e) ∧
      (∀ e, t.specialize args = .error e ↔
        args.length ≠ t.arity ∧ e = .arity t.qualifiedName t.arity args.length ∨
        args.length = t.arity ∧ ∃ before v after, args = before ++ .type v :: after ∧
          v.fullName = .error e ∧ ∀ w, .type w ∈ before → ∃ name, w.fullName = .ok name) ∧
      ∀ u, t.specialize args = .ok u → t.IsBoundTo args u) ∧
    (∀ bs, let b := TemplateTree.specialized t bs
      b.Bound ∧ (∃ u, b.eval = .ok (.type u) ∧ u.fullName = .ok b.render ∧
        ∀ h, h ∈ u.headers ↔ ∃ v ∈ b.types, h ∈ v.headers) ∨
      ¬ b.Bound ∧ ∃ e, b.eval = .error e) ∧
    ∀ a b u v, t.specialize a = .ok u → t.specialize b = .ok v →
      ∃ w, u.specialize b = .ok w ∧ w.fullName = v.fullName ∧
        ∀ h, h ∈ w.headers ↔ h ∈ u.headers ∨ h ∈ v.headers := by
  refine ⟨fun args => ⟨?_, fun e => specialize_eq_error_iff, fun u => isBoundTo_of_specialize⟩,
    fun bs => ?_, fun a b u v => specialize_specialize⟩
  · rw [exists_error_iff, exists_specialize_iff, TemplateArg.exists_texts_iff, not_and_or,
      not_forall]
    simp only [Classical.not_imp, exists_error_iff, ne_eq]
  · intro b
    by_cases hbound : b.Bound
    · refine .inl ⟨hbound, ?_⟩
      obtain ⟨a, ha, hmeans⟩ := TemplateTree.eval_of_bound hbound
      obtain ⟨args, u, -, -, rfl⟩ := TemplateTree.eval_specialized_eq_ok_iff.1 ha
      cases hmeans.prints with
      | type hname => exact ⟨u, ha, hname, hmeans.mem_headers⟩
    · refine .inr ⟨hbound, exists_error_iff.2 ?_⟩
      rintro ⟨a, ha⟩
      obtain ⟨args, u, -, hu, rfl⟩ := TemplateTree.eval_specialized_eq_ok_iff.1 ha
      obtain ⟨texts, -, hname⟩ := (isBoundTo_of_specialize hu).fullName_eq
      exact hbound (TemplateTree.bound_of_eval ha (.type hname))

/-- A map bound to numbers, and then to vectors: by its parameters, by a tree, and in vain. -/
theorem specialize_binds_and_composes_map :
    let map := (standard "map" "map").withArity 2
    let vector := (standard "vector" "vector").withParams ["T"]
    let word := (NumericType.builtin .u32).base
    let loose := (named "Loose").withArity 1
    (∃ u v w, map.specialize [.type word, .literal "V"] = .ok u ∧
      map.specialize [.literal "K", .type vector] = .ok v ∧
      u.specialize [.literal "K", .type vector] = .ok w ∧
      w.fullName = .ok "std::map<K, std::vector<T>>" ∧ "cstdint" ∈ w.headers ∧
      "vector" ∈ w.headers) ∧
    (∃ u, (TemplateTree.specialized map
        [.literal "K", .specialized vector [.type word]]).eval = .ok (.type u) ∧
      u.fullName = .ok "std::map<K, std::vector<std::uint32_t>>" ∧ "cstdint" ∈ u.headers) ∧
    map.specialize [.type loose] = .error (.arity "std::map" 2 1) ∧
    map.specialize [.literal "K", .type loose] = .error (.arity "Loose" 1 0) := by
  intro map vector word loose
  obtain ⟨hone, htree, hagain⟩ := specialize_binds_and_composes map
  refine ⟨?_, ?_, ?_, ?_⟩
  · obtain ⟨w, hw, hname, hheaders⟩ :=
      hagain [.type word, .literal "V"] [.literal "K", .type vector] _ _ rfl rfl
    exact ⟨_, _, w, rfl, rfl, hw, hname.trans (by decide),
      (hheaders _).2 (.inl (HeaderSet.mem_toList.1 (by decide))),
      (hheaders _).2 (.inr (HeaderSet.mem_toList.1 (by decide)))⟩
  · have hvector : (TemplateTree.specialized vector [.type word]).Bound :=
      .specialized rfl (by simpa using .type rfl)
    have hmap : (TemplateTree.specialized map
        [.literal "K", .specialized vector [.type word]]).Bound :=
      .specialized rfl (by simpa using ⟨.literal "K", hvector⟩)
    obtain ⟨-, u, hu, hname, hheaders⟩ := (htree _).resolve_right fun h => h.1 hmap
    refine ⟨u, hu, hname.trans ?_, (hheaders _).2 ⟨word, ?_, HeaderSet.mem_toList.1 (by decide)⟩⟩
    · simp only [TemplateTree.render, List.map_cons, List.map_nil]
      decide
    · simp [TemplateTree.types]
  · exact ((hone _).2.1 _).2 (.inl ⟨by decide, by decide⟩)
  · refine ((hone _).2.1 _).2 (.inr ⟨rfl, [.literal "K"], loose, [], rfl, by decide, ?_⟩)
    simp

end TypeDescriptor

end VersionedLayout
