import VersionedLayout.Proofs.Literals
set_option autoImplicit false

/-!
# Numeric defaults keep their kind

The literals of numbers are found again in the text of a tuple, in the line of a member and in an
assignment of the factory: a default stands there behind an equals sign, and each of its scalars in
front of a character that no literal of a number contains. These texts therefore differ whenever an
integer in one of them meets a finite floating-point value in the other one.

## Main definitions

* `VersionedLayout.Value.Aligned` — values that can stand at the same position of two tuples without
  disturbing the positions behind it.
* `VersionedLayout.DefaultValue.DifferInKind` — an integer in the one default meets a finite
  floating-point value in the other one.
* `VersionedLayout.DefaultValue.WrittenApart` — the two defaults are never written alike.

## Main results

* `VersionedLayout.Value.Aligned.display_append_inj` — aligned values are read off the texts that
  they begin.
* `VersionedLayout.DefaultValue.DifferInKind.display_append_ne` — defaults that differ in kind are
  not written alike, whatever follows them.
* `VersionedLayout.numbers_keep_their_kind` — the literals, and the kinds that they show.
-/

namespace VersionedLayout

/-! ## Scalars in front of a text -/

/-- The text is empty, or begins with a character that may stand behind a scalar. -/
def EndsScalar (rest : List Char) : Prop :=
  ∀ c, rest.head? = some c → endsScalar c = true

/-- A text that begins with a character that ends scalars ends a scalar. -/
lemma endsScalar_cons {c : Char} (hc : endsScalar c = true) (cs : List Char) :
    EndsScalar (c :: cs) := by
  intro d hd
  rwa [← Option.some.inj hd]

namespace Value

variable {v w : Value}

/-- An expression stands against itself only, since it can have any text. Other values may stand
against each other. -/
def Aligned (v w : Value) : Prop :=
  v.isExpr = true ∨ w.isExpr = true → v = w

/-- **Aligned values are read off the texts that they begin.** -/
theorem Aligned.display_append_inj (h : v.Aligned w) {rest rest' : List Char}
    (hrest : EndsScalar rest) (hrest' : EndsScalar rest')
    (htext : v.display.toList ++ rest = w.display.toList ++ rest') :
    v.display = w.display ∧ rest = rest' := by
  by_cases hexpr : v.isExpr = true ∨ w.isExpr = true
  · obtain rfl := h hexpr
    exact ⟨rfl, List.append_cancel_left htext⟩
  · rw [not_or, Bool.not_eq_true, Bool.not_eq_true] at hexpr
    have hinside : ∀ {u : Value}, u.isExpr = false →
        ∀ c ∈ u.display.toList, (!endsScalar c) = true := fun hu c hc => by
      rw [not_endsScalar_of_mem_display hu c hc]
      rfl
    have hboundary : ∀ {cs : List Char}, EndsScalar cs →
        ∀ c, cs.head? = some c → (!endsScalar c) = false := fun hcs c hc => by
      rw [hcs c hc]
      rfl
    obtain ⟨hdisplay, hrests⟩ := Json.append_inj_of_head (hinside hexpr.1) (hinside hexpr.2)
      (hboundary hrest) (hboundary hrest') htext
    exact ⟨String.toList_injective hdisplay, hrests⟩

/-- An integer and a floating-point value are aligned. -/
lemma aligned_int_float (m : Int) (x : Binary64) : (Value.int m).Aligned (.float x) := by
  rintro (h | h) <;> cases h

/-- A number does not begin like a tuple. -/
lemma display_append_ne_brace (hexpr : v.isExpr = false) (hfinite : v.isFinite = true)
    (rest cs : List Char) : v.display.toList ++ rest ≠ '\x7b' :: cs := by
  obtain ⟨c, ds, hds⟩ := List.exists_cons_of_ne_nil (display_ne_nil hexpr hfinite)
  have hc := isNumberChar_of_mem_display hexpr hfinite c (hds ▸ List.mem_cons_self)
  rw [hds, List.cons_append]
  intro h
  rw [(List.cons.inj h).1, IsNumberChar] at hc
  exact absurd hc (by decide)

end Value

/-! ## Defaults in front of a text -/

/-- The scalars of a tuple and the brace behind them. -/
def itemsText (vs : List Value) : List Char :=
  [',', ' '].intercalate (vs.map fun v => v.display.toList) ++ [' ', '\x7d']

/-- A single scalar is followed by the closing brace. -/
lemma itemsText_singleton (v : Value) : itemsText [v] = v.display.toList ++ [' ', '\x7d'] := by
  rw [itemsText, List.map_singleton, List.intercalate_singleton]

/-- A scalar in front of others is followed by a comma. -/
lemma itemsText_cons_of_ne_nil (v : Value) {vs : List Value} (h : vs ≠ []) :
    itemsText (v :: vs) = v.display.toList ++ ',' :: ' ' :: itemsText vs := by
  obtain ⟨w, ws, rfl⟩ := List.exists_cons_of_ne_nil h
  rw [itemsText, List.map_cons, List.map_cons, List.intercalate_cons_cons, itemsText, List.map_cons]
  simp

/-- Behind the first scalar of a tuple stands a character that ends it. -/
lemma exists_itemsText_cons (v : Value) (vs : List Value) :
    ∃ c cs, itemsText (v :: vs) = v.display.toList ++ c :: cs ∧ endsScalar c = true := by
  by_cases h : vs = []
  · subst h
    exact ⟨' ', ['\x7d'], itemsText_singleton v, rfl⟩
  · exact ⟨',', ' ' :: itemsText vs, itemsText_cons_of_ne_nil v h, rfl⟩

namespace DefaultValue

variable {d e : DefaultValue}

/-- A tuple is written as an opening brace and its scalars. -/
lemma toList_display_aggregate (vs : List Value) :
    (aggregate vs).display.toList = '\x7b' :: ' ' :: itemsText vs := by
  rw [display, itemsText]
  simp [Function.comp_def]

/-- At some position the one default has an integer, and the other one a finite floating-point
value. The values in front of this position are aligned, and those behind it are arbitrary. -/
def DifferInKind (d e : DefaultValue) : Prop :=
  ∃ (m : Int) (x : Binary64) (before before' after after' : List Value),
    x.isFinite = true ∧ d.values = before ++ .int m :: after ∧
      e.values = before' ++ .float x :: after' ∧ List.Forall₂ Value.Aligned before before'

/-- The scalars of two tuples are not written alike from a position on at which an integer meets a
finite floating-point value.

**Proof sketch.** Induction on the aligned values in front of this position. Each of them is read
off both texts together with the comma behind it. -/
lemma itemsText_append_ne (m : Int) {x : Binary64} (hx : x.isFinite = true)
    {before before' : List Value} (h : List.Forall₂ Value.Aligned before before')
    (after after' : List Value) (rest rest' : List Char) :
    itemsText (before ++ .int m :: after) ++ rest ≠
      itemsText (before' ++ .float x :: after') ++ rest' := by
  intro htext
  induction h with
  | nil =>
    obtain ⟨c, cs, hcs, hc⟩ := exists_itemsText_cons (.int m) after
    obtain ⟨c', cs', hcs', hc'⟩ := exists_itemsText_cons (.float x) after'
    rw [List.nil_append, List.nil_append, hcs, hcs', List.append_assoc, List.append_assoc] at htext
    have hdisplay := (Value.aligned_int_float m x).display_append_inj
      (endsScalar_cons hc (cs ++ rest)) (endsScalar_cons hc' (cs' ++ rest')) htext
    exact Value.display_int_ne m hx hdisplay.1
  | cons hv hbefore ih =>
    have hcomma : ∀ cs, EndsScalar (',' :: cs) := endsScalar_cons rfl
    rw [List.cons_append, List.cons_append,
      itemsText_cons_of_ne_nil _ (List.append_ne_nil_of_right_ne_nil _ (List.cons_ne_nil _ _)),
      itemsText_cons_of_ne_nil _ (List.append_ne_nil_of_right_ne_nil _ (List.cons_ne_nil _ _)),
      List.append_assoc, List.append_assoc] at htext
    obtain ⟨-, hrests⟩ := hv.display_append_inj (hcomma _) (hcomma _) htext
    exact ih (List.cons.inj (List.cons.inj hrests).2).2

/-- **Defaults that differ in kind are not written alike**, whatever follows them. -/
theorem DifferInKind.display_append_ne (h : d.DifferInKind e) {rest rest' : List Char}
    (hrest : EndsScalar rest) (hrest' : EndsScalar rest') :
    d.display.toList ++ rest ≠ e.display.toList ++ rest' := by
  obtain ⟨m, x, before, before', after, after', hx, hd, he, hbefore⟩ := h
  have hsingle : ∀ {v w : Value} {us ws : List Value}, [v] = us ++ w :: ws → us = [] ∧ v = w := by
    intro v w us ws h
    cases us with
    | nil => exact ⟨rfl, (List.cons.inj h).1⟩
    | cons u us => simp at h
  cases d with
  | scalar v =>
    obtain ⟨rfl, rfl⟩ := hsingle hd
    cases e with
    | scalar w =>
      obtain ⟨-, rfl⟩ := hsingle he
      intro htext
      exact Value.display_int_ne m hx
        ((Value.aligned_int_float m x).display_append_inj hrest hrest' htext).1
    | aggregate ws =>
      rw [toList_display_aggregate]
      exact Value.display_append_ne_brace rfl rfl rest _
  | aggregate vs =>
    cases e with
    | scalar w =>
      obtain ⟨-, rfl⟩ := hsingle he
      have hfinite : (Value.float x).isFinite = true := hx
      rw [toList_display_aggregate]
      exact (Value.display_append_ne_brace rfl hfinite rest' _).symm
    | aggregate ws =>
      obtain rfl : vs = before ++ .int m :: after := hd
      obtain rfl : ws = before' ++ .float x :: after' := he
      rw [toList_display_aggregate, toList_display_aggregate]
      intro htext
      exact itemsText_append_ne m hx hbefore after after' rest rest'
        (List.cons.inj (List.cons.inj htext).2).2

end DefaultValue

/-! ## Defaults behind an equals sign -/

/-- Equal texts have the same text behind their first equals signs. These stand at the same place if
the texts in front of them are the same as well, and also if these contain no other one. -/
lemma eq_of_append_equals {as bs rest rest' : List Char} (h : as = bs ∨ '=' ∉ as ∧ '=' ∉ bs)
    (htext : as ++ ' ' :: '=' :: ' ' :: rest = bs ++ ' ' :: '=' :: ' ' :: rest') :
    rest = rest' := by
  rw [List.append_cons as ' ', List.append_cons bs ' '] at htext
  have hrests : '=' :: ' ' :: rest = '=' :: ' ' :: rest' := by
    rcases h with rfl | ⟨has, hbs⟩
    · exact List.append_cancel_left htext
    · have hinside : ∀ {cs : List Char}, '=' ∉ cs → ∀ c ∈ cs ++ [' '], (c != '=') = true := by
        intro cs hcs c hc
        rcases List.mem_append.1 hc with hmem | hmem
        · exact bne_iff_ne.2 (ne_of_mem_of_not_mem hmem hcs)
        · rw [List.mem_singleton.1 hmem]
          rfl
      have hboundary : ∀ {cs : List Char} (c : Char), ('=' :: cs).head? = some c →
          (c != '=') = false := fun c hc => by
        rw [← Option.some.inj hc]
        rfl
      exact (Json.append_inj_of_head (hinside has) (hinside hbs) hboundary hboundary htext).2
  exact (List.cons.inj (List.cons.inj hrests).2).2

/-- No equals sign belongs to the name of the field or to that of its type. -/
structure Field.NamesWithoutEquals (f : Field) : Prop where
  name : '=' ∉ f.name.toList
  fullName : ∀ type, f.type.fullName = .ok type → '=' ∉ type.toList

/-- In front of their defaults, two fields are declared alike: name, width and name of the type are
the same. -/
structure Field.SameDeclarator (f g : Field) : Prop where
  fullName_eq : f.type.fullName = g.type.fullName
  name_eq : f.name = g.name
  bits_eq : f.bits = g.bits

namespace Member

variable {m n : Member}

/-- A field with a line is that of a member. -/
lemma exists_of_memberLine {f : Field} {line : String} (h : Header.memberLine f = .ok line) :
    ∃ m : Member, m.field = f ∧ m.line = line := by
  have hfault : f.fault? = none := by rw [← Header.failure?_memberLine f, h, failure?_ok]
  obtain ⟨m, rfl⟩ := exists_of_fault?_eq_none hfault
  rw [m.memberLine_field] at h
  exact ⟨m, rfl, Except.ok.inj h⟩

/-- Members with the same declarator have the same text in front of their defaults. -/
lemma head_eq_of_sameDeclarator (h : m.field.SameDeclarator n.field) : m.head = n.head := by
  have hname := h.fullName_eq
  rw [m.fullName_eq, n.fullName_eq] at hname
  rw [head, head, Except.ok.inj hname, h.name_eq, h.bits_eq]

/-- Without an equals sign in the names, there is none in front of the default. -/
lemma equals_notMem_head (h : m.field.NamesWithoutEquals) : '=' ∉ m.head.toList := by
  have hbits : '=' ∉ (m.field.bits.elim "" fun n => " : " ++ Decimal.natural n).toList := by
    cases m.field.bits with
    | none => exact List.not_mem_nil
    | some n =>
      rw [Option.elim_some, String.toList_append, List.mem_append, not_or]
      refine ⟨by decide, fun hmem => ?_⟩
      exact absurd ((Decimal.denotes_natural n).isDigit_or_eq_minus _ hmem) (by decide)
  simp only [head, String.toList_append, List.mem_append, not_or]
  exact ⟨⟨⟨h.fullName _ m.fullName_eq, by decide⟩, h.name⟩, hbits⟩

/-- The line of a member with a default: behind the first equals sign stands the default, and behind
the default a semicolon. -/
lemma exists_toList_line {d : DefaultValue} (hd : m.field.default = some d) :
    ∃ rest, m.line.toList =
      m.head.toList ++ ' ' :: '=' :: ' ' :: (d.display.toList ++ ';' :: rest) := by
  refine ⟨(m.field.comment.elim "" fun s => " ///< " ++ s).toList, ?_⟩
  rw [line_eq, initializer, hd, tail]
  simp

end Member

namespace DefaultValue

variable {d e : DefaultValue}

/-- The two defaults are never written alike: neither by themselves, nor in the lines of two
members, nor in the assignments of two members. Of the members it is required that the default can
be found: what is written in front of it is the same for both, or contains no equals sign. -/
structure WrittenApart (d e : DefaultValue) : Prop where
  display_ne : d.display ≠ e.display
  memberLine_ne : ∀ f g : Field, f.default = some d → g.default = some e →
    f.SameDeclarator g ∨ f.NamesWithoutEquals ∧ g.NamesWithoutEquals →
    ∀ line, Header.memberLine f = .ok line → Header.memberLine g ≠ .ok line
  assignment_ne : ∀ (c : Config) (f g : Field), f.default = some d → g.default = some e →
    f.name = g.name ∨ '=' ∉ f.name.toList ∧ '=' ∉ g.name.toList →
    Header.assignment c f ≠ Header.assignment c g

/-- Members whose defaults differ in kind have different lines. -/
lemma DifferInKind.memberLine_ne (h : d.DifferInKind e) {f g : Field} (hd : f.default = some d)
    (he : g.default = some e)
    (hfg : f.SameDeclarator g ∨ f.NamesWithoutEquals ∧ g.NamesWithoutEquals) {line : String}
    (hf : Header.memberLine f = .ok line) : Header.memberLine g ≠ .ok line := by
  intro hg
  obtain ⟨m, rfl, rfl⟩ := Member.exists_of_memberLine hf
  obtain ⟨n, rfl, hline⟩ := Member.exists_of_memberLine hg
  have hheads : m.head.toList = n.head.toList ∨
      '=' ∉ m.head.toList ∧ '=' ∉ n.head.toList :=
    hfg.imp (fun hsame => congrArg String.toList (Member.head_eq_of_sameDeclarator hsame))
      (And.imp Member.equals_notMem_head Member.equals_notMem_head)
  obtain ⟨rest, hm⟩ := Member.exists_toList_line hd
  obtain ⟨rest', hn⟩ := Member.exists_toList_line he
  rw [← hline, hn] at hm
  exact h.display_append_ne (endsScalar_cons rfl rest) (endsScalar_cons rfl rest')
    (eq_of_append_equals hheads hm.symm)

/-- Fields whose defaults differ in kind have different assignments. -/
lemma DifferInKind.assignment_ne (h : d.DifferInKind e) (c : Config) {f g : Field}
    (hd : f.default = some d) (he : g.default = some e)
    (hfg : f.name = g.name ∨ '=' ∉ f.name.toList ∧ '=' ∉ g.name.toList) :
    Header.assignment c f ≠ Header.assignment c g := by
  have htext : ∀ {f : Field} {d : DefaultValue}, f.default = some d →
      (Header.assignment c f).toList = (c.indentation 2 ++ "ret.").toList ++
        (f.name.toList ++ ' ' :: '=' :: ' ' :: (d.display.toList ++ [';', '\n'])) := by
    intro f d hd
    rw [Header.assignment, hd]
    simp
  intro heq
  have hlists := congrArg String.toList heq
  rw [htext hd, htext he] at hlists
  exact h.display_append_ne (endsScalar_cons rfl _) (endsScalar_cons rfl _)
    (eq_of_append_equals (hfg.imp_left (congrArg String.toList))
      (List.append_cancel_left hlists))

/-- Defaults that differ in kind are written apart. -/
lemma DifferInKind.writtenApart (h : d.DifferInKind e) : d.WrittenApart e where
  display_ne heq := by
    have hnil : EndsScalar [] := fun c hc => nomatch hc
    exact h.display_append_ne hnil hnil (by rw [heq])
  memberLine_ne _ _ hd he hfg _ hf := h.memberLine_ne hd he hfg hf
  assignment_ne c _ _ hd he hfg := h.assignment_ne c hd he hfg

end DefaultValue

/-- **Numeric defaults keep their kind.** A finite floating-point value is written as a literal with
a point or an exponent, which is read as the value. An integer is written with its canonical digits,
behind a minus if it is negative, and no other integer is written alike. The texts of the two kinds
differ, and with them the tuples, lines of members and assignments in which they meet.

**Proof sketch.** The text of a floating-point value is laid out from its shortest digits, either
positionally with a fraction or scientifically with an exponent (`Value.isFloatText_display`), so
that it has a character that occurs in no integer (`Value.display_int_ne`). Numbers contain none of
the characters that stand behind a scalar. Two texts with a default in them are therefore compared
scalar by scalar from the equals sign on, up to the position at which the kinds differ
(`DefaultValue.DifferInKind.display_append_ne`). -/
theorem numbers_keep_their_kind :
    (∀ x : Binary64, x.isFinite = true → IsFloatText x (Value.float x).display) ∧
    (∀ m : Int, Decimal.Denotes (Value.int m).display m ∧
      ∀ n : Int, (Value.int n).display = (Value.int m).display → n = m) ∧
    (∀ (m : Int) (x : Binary64), x.isFinite = true →
      (Value.int m).display ≠ (Value.float x).display) ∧
    ∀ d e : DefaultValue, d.DifferInKind e → d.WrittenApart e := by
  refine ⟨fun x hx => Value.isFloatText_display hx, fun m => ⟨Decimal.denotes_integer m, ?_⟩,
    fun m x hx => Value.display_int_ne m hx, fun d e h => h.writtenApart⟩
  intro n h
  have hn : Decimal.Denotes (Value.int m).display n := h ▸ Decimal.denotes_integer n
  exact hn.unique (Decimal.denotes_integer m)

/-- The tuples of two members agree up to the second position, where one has an integer and the
other one a floating-point value. -/
theorem numbers_keep_their_kind_tuple :
    let one : Binary64 := ⟨0x3ff0000000000000⟩
    let d : DefaultValue := .aggregate [.expr "Mode::A", .int 1, .int 2]
    let e : DefaultValue := .aggregate [.expr "Mode::A", .float one]
    let f : Field := ⟨.plain (.named "T"), "x", none, some d, none⟩
    let g : Field := ⟨.plain (.named "T"), "y", none, some e, none⟩
    one.isFinite = true ∧ d.DifferInKind e ∧ IsFloatText one "1.0" ∧
      (Value.int 1).display ≠ (Value.float one).display ∧
      Header.memberLine f = .ok "T x = \x7b Mode::A, 1, 2 \x7d;" ∧
      Header.memberLine g ≠ .ok "T x = \x7b Mode::A, 1, 2 \x7d;" ∧
      Header.assignment {} f ≠ Header.assignment {} g := by
  intro one d e f g
  have hone : one.isFinite = true := by decide
  have htext : (Value.float one).display = "1.0" := by decide +kernel
  have hline : Header.memberLine f = .ok "T x = \x7b Mode::A, 1, 2 \x7d;" := by decide +kernel
  have hkind : d.DifferInKind e :=
    ⟨1, one, [.expr "Mode::A"], [.expr "Mode::A"], [.int 2], [], hone, rfl, rfl,
      .cons (fun _ => rfl) .nil⟩
  have hf : f.NamesWithoutEquals :=
    ⟨by decide, fun type htype => by rw [← Except.ok.inj htype]; decide⟩
  have hg : g.NamesWithoutEquals :=
    ⟨by decide, fun type htype => by rw [← Except.ok.inj htype]; decide⟩
  obtain ⟨hfloat, -, hne, hapart⟩ := numbers_keep_their_kind
  refine ⟨hone, hkind, htext ▸ hfloat one hone, hne 1 one hone, hline, ?_, ?_⟩
  · exact (hapart d e hkind).memberLine_ne f g rfl rfl (.inr ⟨hf, hg⟩) _ hline
  · exact (hapart d e hkind).assignment_ne {} f g rfl rfl (.inr ⟨hf.name, hg.name⟩)

end VersionedLayout
