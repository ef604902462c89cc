import VersionedLayout.Proofs.Construction
import VersionedLayout.Proofs.Naming
set_option autoImplicit false

/-!
# Numbers of arguments

The number of parameters of a type and its arguments are set by different operations, which may
follow each other in any order. All of them agree in one respect: afterwards the type has no
arguments, or as many as it has parameters. This is why the only type without a full name is a
template to which nothing is bound, and why every type can be specialized by as many texts as it
has parameters.

## Main definitions

* `VersionedLayout.TypeDescriptor.Reachable` — the types that can be made.
* `VersionedLayout.TypeDescriptor.ArgsFit` — no arguments, or as many as parameters.

## Main results

* `VersionedLayout.TypeDescriptor.Operation.argsFit_apply` — one operation keeps the arguments
  fitting.
* `VersionedLayout.TypeDescriptor.Reachable.argsFit` — so they fit in every type that can be made.
* `VersionedLayout.TypeDescriptor.reachable_arguments_fit` — what follows for full names and
  specializations.
-/

namespace VersionedLayout

namespace TypeDescriptor

/-! ## Types that can be made -/

/-- The types that can be made: those of bare names, of structs and of their layouts, and what any
operation makes of them. -/
inductive Reachable : TypeDescriptor → Prop
  | named (name : String) : Reachable (.named name)
  | standard (name header : String) : Reachable (.standard name header)
  | struct (d : StructDecl) : Reachable d.asType
  | specialized {d : StructDecl} {versionEnum : String} {v : Version} {t : TypeDescriptor} :
    d.specializedType versionEnum v = .ok t → Reachable t
  | step {t u : TypeDescriptor} (op : Operation) : Reachable t → op.apply t = .ok u → Reachable u

/-- No argument is bound, or as many as there are parameters. -/
def ArgsFit (t : TypeDescriptor) : Prop :=
  t.args = [] ∨ t.args.length = t.arity

section

variable {t u : TypeDescriptor}

/-! ## Types with bound arguments -/

/-- A specialization has as many arguments as its arity says. -/
lemma length_args_of_specialize {args : List TemplateArg} (h : t.specialize args = .ok u) :
    u.args.length = u.arity := by
  obtain ⟨texts, -, hname⟩ := (isBoundTo_of_specialize h).fullName_eq
  exact (fullName_eq_ok_iff.1 hname).1

/-- An array has as many arguments as its arity says. -/
lemma length_args_of_arrayOf {dim : Nat} (h : t.arrayOf dim = .ok u) :
    u.args.length = u.arity := by
  obtain ⟨name, -, rfl⟩ := arrayOf_eq_ok_iff.1 h
  rfl

/-- An array of numbers has as many arguments as its arity says. -/
lemma length_args_of_numericArrayOf {n : NumericType} {dim : Nat} (h : n.arrayOf dim = .ok u) :
    u.args.length = u.arity := by
  obtain ⟨a, ha, hu⟩ := bind_eq_ok_iff.1 h
  have hlength : a.args.length = a.arity := length_args_of_arrayOf ha
  cases hu
  exact hlength

/-! ## Sequences of operations -/

/-- **One operation keeps the arguments fitting.** Those that bind arguments compare their number
with that of the parameters, and those that declare parameters set both. -/
lemma Operation.argsFit_apply {op : Operation} (h : op.apply t = .ok u) (ht : t.ArgsFit) :
    u.ArgsFit := by
  cases op with
  | withScope scope =>
    cases h
    exact ht
  | withHeader header =>
    cases h
    exact ht
  | withParams params =>
    cases h
    exact .inr rfl
  | withArity arity =>
    cases h
    exact .inl rfl
  | specialize args => exact .inr (length_args_of_specialize h)
  | arrayOf dim => exact .inr (length_args_of_arrayOf h)
  | numericArrayOf origin dim =>
    obtain ⟨n, -, hu⟩ := bind_eq_ok_iff.1 h
    exact .inr (length_args_of_numericArrayOf hu)
  | numericBase origin =>
    obtain ⟨n, hn, hu⟩ := bind_eq_ok_iff.1 h
    cases hu
    obtain ⟨-, -, harity, hargs⟩ := make_eq_ok hn
    rw [ArgsFit, harity, hargs]
    exact ht

/-- The type of a struct has no arguments, or as many as its arity says. -/
lemma argsFit_asType (d : StructDecl) : d.asType.ArgsFit := by
  cases h : d.isVersioned with
  | false =>
    rw [StructDecl.asType_of_not_isVersioned h]
    exact .inl rfl
  | true =>
    rw [StructDecl.asType_of_isVersioned h]
    exact .inl rfl

/-- **The arguments fit in every type that can be made.** -/
theorem Reachable.argsFit (h : t.Reachable) : t.ArgsFit := by
  induction h with
  | named name => exact .inl rfl
  | standard name header => exact .inl rfl
  | struct d => exact argsFit_asType d
  | @specialized d versionEnum v t h =>
    rw [StructDecl.specializedType] at h
    split at h
    · exact .inr (length_args_of_specialize h)
    · cases h
      exact argsFit_asType d
  | step op _ hu ih => exact Operation.argsFit_apply hu ih

/-- Where the arguments fit, only their absence can keep a type from having a full name. -/
lemma ArgsFit.fullName_eq_error_iff (h : t.ArgsFit) {e : SchemaError} :
    t.fullName = .error e ↔
      (t.arity ≠ 0 ∧ t.args = []) ∧ e = .arity t.qualifiedName t.arity 0 := by
  rw [TypeDescriptor.fullName_eq_error_iff]
  rcases h with hnil | hlength
  · simp [hnil, eq_comm]
  · refine iff_of_false (fun hfails => hfails.1 hlength) ?_
    rintro ⟨⟨harity, hnil⟩, -⟩
    rw [hnil, List.length_nil] at hlength
    exact harity hlength.symm

/-- **Arguments fit, and what follows.** Whatever operations made a type,

* it has no arguments or as many as parameters;
* it has no full name exactly when it has parameters and none of them is bound, and the error then
  says so;
* specializations and arrays of it have full names;
* it can be specialized by as many texts as it has parameters.

**Proof sketch.** Induction on the operations for the first part, with the other parts following
from it and from what specializations and arrays are. -/
theorem reachable_arguments_fit (h : t.Reachable) :
    (t.args = [] ∨ t.args.length = t.arity) ∧
    ((∃ e, t.fullName = .error e) ↔ t.arity ≠ 0 ∧ t.args = []) ∧
    (∀ e, t.fullName = .error e → 0 < t.arity ∧ e = .arity t.qualifiedName t.arity 0) ∧
    (∀ args u, t.specialize args = .ok u → ∃ name, u.fullName = .ok name) ∧
    (∀ dim u, t.arrayOf dim = .ok u → ∃ name, u.fullName = .ok name) ∧
    (∀ n : NumericType, n.base = t → ∀ dim u, n.arrayOf dim = .ok u →
      ∃ name, u.fullName = .ok name) ∧
    ∀ texts : List String, texts.length = t.arity →
      ∃ u, t.specialize (texts.map .literal) = .ok u := by
  have hfit := h.argsFit
  refine ⟨hfit, ?_, ?_, ?_, ?_, ?_, ?_⟩
  · simp [hfit.fullName_eq_error_iff]
  · intro e he
    obtain ⟨⟨harity, -⟩, he⟩ := hfit.fullName_eq_error_iff.1 he
    exact ⟨Nat.pos_of_ne_zero harity, he⟩
  · intro args u hu
    exact exists_fullName_iff.2 (length_args_of_specialize hu)
  · intro dim u hu
    exact exists_fullName_iff.2 (length_args_of_arrayOf hu)
  · intro n _ dim u hu
    exact exists_fullName_iff.2 (length_args_of_numericArrayOf hu)
  · intro texts htexts
    exact ⟨_, specialize_literals htexts⟩

end

/-- A struct for one version is given parameters, bound to arguments, and stripped of them for a
single new one. -/
theorem reachable_arguments_fit_stripped :
    let d : StructDecl := { name := "Packet", scope := "Net", versions := some ⟨.tbc, .df⟩ }
    ∃ special bound : TypeDescriptor,
      d.specializedType "Version" .cata = .ok special ∧
      (special.withParams ["K", "V"]).specialize [.literal "A", .type special] = .ok bound ∧
      Reachable (bound.withArity 1) ∧
      (∃ e, (bound.withArity 1).fullName = .error e) ∧
      (∀ e, (bound.withArity 1).fullName = .error e →
        0 < (bound.withArity 1).arity ∧ e = .arity "Net::Packet" 1 0) ∧
      ∃ u, (bound.withArity 1).specialize [.literal "B"] = .ok u := by
  intro d
  obtain ⟨special, hspecial⟩ : ∃ t, d.specializedType "Version" .cata = .ok t := ⟨_, rfl⟩
  obtain ⟨bound, hbound⟩ : ∃ t,
      (special.withParams ["K", "V"]).specialize [.literal "A", .type special] = .ok t := by
    cases hspecial
    exact ⟨_, rfl⟩
  have hstripped : Reachable (bound.withArity 1) :=
    .step (.withArity 1) (.step (.specialize _) (.step (.withParams ["K", "V"])
      (.specialized hspecial) rfl) hbound) rfl
  have hname : (bound.withArity 1).qualifiedName = "Net::Packet" := by
    cases hspecial
    cases hbound
    rfl
  obtain ⟨-, hfails, herror, -, -, -, hbinds⟩ := reachable_arguments_fit hstripped
  refine ⟨special, bound, hspecial, hbound, hstripped, hfails.2 ⟨Nat.one_ne_zero, rfl⟩, ?_,
    hbinds ["B"] rfl⟩
  rw [hname] at herror
  exact herror

end TypeDescriptor

end VersionedLayout
