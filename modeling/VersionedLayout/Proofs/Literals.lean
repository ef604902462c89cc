import VersionedLayout.Proofs.Initializers
import VersionedLayout.Proofs.Rounding
set_option autoImplicit false

/-!
# Literals of numbers

A number is written as a literal of C++, and the literal shows of which kind the number is: a finite
floating-point value has a point or an exponent, which an integer never has. No literal contains a
character that may stand behind a scalar in an initializer.

## Main definitions

* `VersionedLayout.FloatLiteral` — the floating-point literals, and the numbers that they denote.
* `VersionedLayout.IsFloatText` — the text of a finite floating-point value.
* `VersionedLayout.endsScalar` — the characters that may stand behind a scalar.

## Main results

* `VersionedLayout.Value.isFloatText_display` — a finite floating-point value is written as a
  literal that is read as the value.
* `VersionedLayout.Value.not_endsScalar_of_mem_display` — a number is not ended by its own text.
* `VersionedLayout.Value.display_int_ne` — an integer is not written like a finite floating-point
  value.
-/

namespace VersionedLayout

open Decimal

/-! ## Floating-point literals -/

/-- At least one digit. -/
def IsDigits (ds : List Char) : Prop :=
  ds ≠ [] ∧ ∀ c ∈ ds, c.isDigit = true

/-- A minus, if there is one. -/
def minus (negative : Bool) : List Char :=
  if negative then ['-'] else []

/-- A natural number with a sign. -/
def signed (negative : Bool) (n : Nat) : Int :=
  if negative then -n else n

/-- The floating-point literals of C++ without a sign in front, as far as they occur here, and the
numbers that they denote. -/
inductive FloatLiteral : List Char → ℚ → Prop where
  /-- Digits on both sides of a point. -/
  | positional {whole fraction : List Char} (hwhole : IsDigits whole)
      (hfraction : IsDigits fraction) :
      FloatLiteral (whole ++ '.' :: fraction)
        (valueOf (whole ++ fraction) * 10 ^ (-fraction.length : ℤ))
  /-- One digit and an exponent. -/
  | scientific {d : Char} {exponent : List Char} (negative : Bool) (hd : d.isDigit = true)
      (hexponent : IsDigits exponent) :
      FloatLiteral (d :: 'e' :: (minus negative ++ exponent))
        (valueOf [d] * 10 ^ signed negative (valueOf exponent))
  /-- One digit with a fraction, and an exponent. -/
  | scientificFraction {d : Char} {fraction exponent : List Char} (negative : Bool)
      (hd : d.isDigit = true) (hfraction : IsDigits fraction) (hexponent : IsDigits exponent) :
      FloatLiteral (d :: '.' :: (fraction ++ 'e' :: (minus negative ++ exponent)))
        (valueOf (d :: fraction) * 10 ^ (signed negative (valueOf exponent) - fraction.length))

/-- The text of a finite floating-point value. -/
structure IsFloatText (x : Binary64) (text : String) : Prop where
  /-- Behind a minus, which stands there exactly if the sign bit is set, comes a literal. The number
  that is denoted by the whole text is read as the value. -/
  literal : ∃ unsigned q, text.toList = minus x.isNegative ++ unsigned ∧ FloatLiteral unsigned q ∧
    x.IsReadFrom (Binary64.withSign x.isNegative q)
  /-- There is a point, or the letter of an exponent. -/
  marked : '.' ∈ text.toList ∨ 'e' ∈ text.toList

/-- The literal of a floating-point value has a decimal point or an exponent. -/
lemma FloatLiteral.marked {text : List Char} {q : ℚ} (h : FloatLiteral text q) :
    '.' ∈ text ∨ 'e' ∈ text := by
  cases h with
  | positional => exact .inl (List.mem_append_right _ List.mem_cons_self)
  | scientific => exact .inr (List.mem_cons_of_mem _ List.mem_cons_self)
  | scientificFraction => exact .inl (List.mem_cons_of_mem _ List.mem_cons_self)

/-- An integer is its absolute value with its sign. -/
lemma signed_natAbs (n : Int) : signed (n < 0) n.natAbs = n := by
  rw [signed]
  split
  · rename_i hneg
    rw [decide_eq_true_eq] at hneg
    omega
  · rename_i hneg
    rw [decide_eq_true_eq] at hneg
    omega

/-- A number of the grammar of JSON that is no integer is a literal behind its minus, provided that
no positive exponent carries a plus. -/
lemma Json.Numeral.exists_floatLiteral {n : Json.Numeral} (h : n.WellFormed)
    (hlayout : n.Positional ∨ n.Scientific false) :
    ∃ unsigned, n.text = minus n.negative ++ unsigned ∧ FloatLiteral unsigned n.magnitude := by
  obtain ⟨negative, whole, fraction, exponentText, exponent⟩ := n
  obtain ⟨hwhole, hfraction, hexponent⟩ := h
  simp only at hwhole hfraction hexponent
  rcases hlayout with ⟨hne, habsent⟩ | ⟨hlength, htext⟩
  · simp only at hne habsent
    subst habsent
    obtain rfl : exponent = 0 := by cases hexponent; rfl
    refine ⟨whole ++ '.' :: fraction, by simp [text, minus, hne], ?_⟩
    rw [magnitude, zero_sub]
    exact .positional ⟨hwhole.ne_nil, hwhole.isDigit⟩ ⟨hne, hfraction⟩
  · simp only at hlength htext
    obtain ⟨d, rfl⟩ := List.length_eq_one_iff.1 hlength
    have hd : d.isDigit = true := hwhole.isDigit d List.mem_cons_self
    have hdigits : IsDigits (digits exponent.natAbs) :=
      ⟨digits_ne_nil _, fun c => isDigit_of_mem_digits⟩
    have hsign : exponentText = 'e' :: (minus (exponent < 0) ++ digits exponent.natAbs) := by
      rw [htext, minus]
      simp
    have hvalue : signed (exponent < 0) (valueOf (digits exponent.natAbs)) = exponent := by
      rw [valueOf_digits, signed_natAbs]
    by_cases hne : fraction = []
    · subst hne
      refine ⟨d :: exponentText, by simp [text, minus], ?_⟩
      have hliteral := FloatLiteral.scientific (exponent < 0) hd hdigits
      rw [hvalue, ← hsign] at hliteral
      simpa [magnitude] using hliteral
    · refine ⟨d :: '.' :: (fraction ++ exponentText), by simp [text, minus, hne], ?_⟩
      have hliteral :=
        FloatLiteral.scientificFraction (exponent < 0) hd ⟨hne, hfraction⟩ hdigits
      rwa [hvalue, ← hsign] at hliteral

/-- **A finite floating-point value is written as a literal that is read as the value.** -/
theorem Value.isFloatText_display {x : Binary64} (h : x.isFinite = true) :
    IsFloatText x (Value.float x).display := by
  obtain ⟨n, hn, hnegative, hlayout, htext, hmagnitude⟩ := literalStyle.exists_numeral_write x
  obtain ⟨unsigned, hsign, hliteral⟩ := Json.Numeral.exists_floatLiteral hn hlayout
  have hdisplay : (Value.float x).display.toList = minus x.isNegative ++ unsigned := by
    rw [Value.display, Value.displayFloat, Binary64.isNaN_eq_false_of_isFinite h, h, ← hnegative,
      ← hsign, htext]
    rfl
  refine ⟨⟨unsigned, n.magnitude, hdisplay, hliteral, ?_⟩, ?_⟩
  · rw [hmagnitude]
    exact Binary64.isReadFrom_shortest _ h
  · rw [hdisplay]
    exact hliteral.marked.imp (List.mem_append_right _) (List.mem_append_right _)

/-- On both sides of the bounds of positional writing, and at zero and the least value. -/
example :
    ([0x4341c37937e07fff, 0x4341c37937e08000, 0x3f1a36e2eb1c432d, 0x3f1a36e2eb1c432c,
        0x8000000000000000, 1].map fun bits => (Value.float ⟨bits⟩).display) =
      ["9999999999999998.0", "1e16", "0.0001", "9.999999999999999e-5", "-0.0", "5e-324"] := by
  decide +kernel

/-! ## The characters of numbers -/

/-- The characters that numbers are written with. -/
def IsNumberChar (c : Char) : Prop :=
  c.isDigit = true ∨ c = '-' ∨ c = '.' ∨ c = 'e'

/-- A minus sign is a character of numbers. -/
lemma isNumberChar_of_mem_minus {negative : Bool} {c : Char} (hc : c ∈ minus negative) :
    IsNumberChar c := by
  cases negative with
  | false => exact absurd hc List.not_mem_nil
  | true => exact .inr (.inl (List.mem_singleton.1 hc))

/-- The literal of a floating-point value is made of characters of numbers. -/
lemma FloatLiteral.isNumberChar {text : List Char} {q : ℚ} (h : FloatLiteral text q) :
    ∀ c ∈ text, IsNumberChar c := by
  have hdigits : ∀ {ds : List Char}, IsDigits ds → ∀ c ∈ ds, IsNumberChar c :=
    fun hds c hc => .inl (hds.2 c hc)
  have hminus : ∀ {negative : Bool}, ∀ c ∈ minus negative, IsNumberChar c :=
    fun c => isNumberChar_of_mem_minus
  have hpoint : IsNumberChar '.' := .inr (.inr (.inl rfl))
  have hletter : IsNumberChar 'e' := .inr (.inr (.inr rfl))
  cases h with
  | positional hwhole hfraction =>
    simp only [List.forall_mem_append, List.forall_mem_cons]
    exact ⟨hdigits hwhole, hpoint, hdigits hfraction⟩
  | scientific negative hd hexponent =>
    simp only [List.forall_mem_append, List.forall_mem_cons]
    exact ⟨.inl hd, hletter, hminus, hdigits hexponent⟩
  | scientificFraction negative hd hfraction hexponent =>
    simp only [List.forall_mem_append, List.forall_mem_cons]
    exact ⟨.inl hd, hpoint, hdigits hfraction, hletter, hminus, hdigits hexponent⟩

/-- The characters that may stand behind a scalar in an initializer. -/
def endsScalar (c : Char) : Bool :=
  c = ',' || c = ' ' || c = ';'

/-- No character of a number ends a scalar. -/
lemma IsNumberChar.not_endsScalar {c : Char} (h : IsNumberChar c) : endsScalar c = false := by
  rcases h with h | rfl | rfl | rfl
  · rw [endsScalar, Bool.or_eq_false_iff, Bool.or_eq_false_iff]
    refine ⟨⟨?_, ?_⟩, ?_⟩ <;>
      · rw [decide_eq_false_iff_not]
        rintro rfl
        exact absurd h (by decide)
  · decide
  · decide
  · decide

namespace Value

variable {v w : Value}

/-- The literal of a number is made of characters of numbers. -/
lemma isNumberChar_of_mem_display (hexpr : v.isExpr = false) (hfinite : v.isFinite = true) :
    ∀ c ∈ v.display.toList, IsNumberChar c := by
  cases v with
  | int m =>
    intro c hc
    exact ((denotes_integer m).isDigit_or_eq_minus c hc).imp_right Or.inl
  | float x =>
    obtain ⟨unsigned, q, htext, hliteral, -⟩ := (isFloatText_display hfinite).literal
    rw [htext, List.forall_mem_append]
    exact ⟨fun c => isNumberChar_of_mem_minus, hliteral.isNumberChar⟩
  | expr text => cases hexpr

/-- The literal of a number is not empty. -/
lemma display_ne_nil (hexpr : v.isExpr = false) (hfinite : v.isFinite = true) :
    v.display.toList ≠ [] := by
  cases v with
  | int m => exact (denotes_integer m).ne_nil
  | float x =>
    rcases (isFloatText_display hfinite).marked with hmem | hmem
    · exact List.ne_nil_of_mem hmem
    · exact List.ne_nil_of_mem hmem
  | expr text => cases hexpr

/-- The text of a value that is no expression contains no character that may stand behind it. -/
lemma not_endsScalar_of_mem_display (hexpr : v.isExpr = false) :
    ∀ c ∈ v.display.toList, endsScalar c = false := by
  by_cases hfinite : v.isFinite = true
  · exact fun c hc => (isNumberChar_of_mem_display hexpr hfinite c hc).not_endsScalar
  · -- a value without a literal is written by a name
    cases v with
    | int m => exact absurd rfl hfinite
    | expr text => exact absurd rfl hfinite
    | float x =>
      have hx : ¬x.isFinite = true := hfinite
      rw [display, displayFloat, if_neg hx]
      split
      · simp [endsScalar]
      · split
        · simp [endsScalar]
        · simp [endsScalar]

/-- **An integer and a finite floating-point value are never written alike.** -/
lemma display_int_ne (m : Int) {x : Binary64} (hx : x.isFinite = true) :
    (Value.int m).display ≠ (Value.float x).display := by
  intro h
  have hmarked := (isFloatText_display hx).marked
  rw [← h] at hmarked
  rcases hmarked with hmem | hmem
  · exact absurd ((denotes_integer m).isDigit_or_eq_minus _ hmem) (by decide)
  · exact absurd ((denotes_integer m).isDigit_or_eq_minus _ hmem) (by decide)

end Value

end VersionedLayout
