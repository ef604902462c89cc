import VersionedLayout.Json.Lexer
import VersionedLayout.Proofs.DecimalTexts
import VersionedLayout.Proofs.Failure
set_option autoImplicit false

/-!
# Numbers in front of a text

A number is read back from its own text, whatever follows it, as long as the number ends there: the
text must not go on with a digit, a point or the letter of an exponent.

## Main definitions

* `VersionedLayout.Json.ExponentText` — the written exponents and their values.
* `VersionedLayout.Json.Numeral.WellFormed` — the numbers of the grammar of JSON.
* `VersionedLayout.Json.IsNumber` — the texts that are numbers.
* `VersionedLayout.Json.EndsNumber` — the texts that end a number before them.
* `VersionedLayout.Json.numberToken` — the token of a number.

## Main results

* `VersionedLayout.Json.scanNumeral_append` — a number is scanned back from its text.
* `VersionedLayout.Json.IsNumber.numberLexeme_append` — the token of a text that is a number.
* `VersionedLayout.Json.isNumber_of_denotes` — the written form of an integer is a number.
-/

namespace VersionedLayout

namespace Json

open Decimal

/-! ## The grammar -/

/-- An exponent as it is written, with its value: nothing, or an `e` and at least one digit with an
optional sign in between. -/
inductive ExponentText : List Char → Int → Prop where
  | absent : ExponentText [] 0
  | unsigned {e : Char} {ds : List Char} (letter : e = 'e' ∨ e = 'E') (ne_nil : ds ≠ [])
      (isDigit : ∀ c ∈ ds, c.isDigit = true) : ExponentText (e :: ds) (valueOf ds)
  | plus {e : Char} {ds : List Char} (letter : e = 'e' ∨ e = 'E') (ne_nil : ds ≠ [])
      (isDigit : ∀ c ∈ ds, c.isDigit = true) : ExponentText (e :: '+' :: ds) (valueOf ds)
  | minus {e : Char} {ds : List Char} (letter : e = 'e' ∨ e = 'E') (ne_nil : ds ≠ [])
      (isDigit : ∀ c ∈ ds, c.isDigit = true) : ExponentText (e :: '-' :: ds) (-(valueOf ds : Int))

/-- The parts of a number of the grammar. -/
structure Numeral.WellFormed (n : Numeral) : Prop where
  whole : Canonical n.whole
  fraction : ∀ c ∈ n.fraction, c.isDigit = true
  exponent : ExponentText n.exponentText n.exponent

/-- The text is a number of the grammar. -/
def IsNumber (t : String) : Prop :=
  ∃ n : Numeral, n.WellFormed ∧ n.text = t.toList

/-- The text does not go on with a character that could belong to a number before it. -/
def EndsNumber (rest : List Char) : Prop :=
  ∀ c, rest.head? = some c → c.isDigit = false ∧ c ≠ '.' ∧ c ≠ 'e' ∧ c ≠ 'E'

/-- The end of the text ends a number. -/
lemma endsNumber_nil : EndsNumber [] := nofun

/-- A character that is no part of a number ends it. -/
lemma endsNumber_cons {c : Char} {cs : List Char}
    (h : c.isDigit = false ∧ c ≠ '.' ∧ c ≠ 'e' ∧ c ≠ 'E') : EndsNumber (c :: cs) := by
  intro d hd
  rwa [← Option.some.inj hd]

/-! ## Texts in front of a boundary -/

section Boundary

variable {α : Type} {p : α → Bool} {as bs rest rest' : List α}

/-- Of items with a property in front of one without it, all are taken. -/
lemma takeWhile_append_of_head (has : ∀ a ∈ as, p a = true)
    (hrest : ∀ a, rest.head? = some a → p a = false) : (as ++ rest).takeWhile p = as := by
  have hnil : rest.takeWhile p = [] := by
    cases rest with
    | nil => rfl
    | cons a rest => exact List.takeWhile_cons_of_neg (by rw [hrest a rfl]; decide)
  rw [List.takeWhile_append_of_pos has, hnil, List.append_nil]

/-- Of items with a property in front of one without it, all are dropped. -/
lemma dropWhile_append_of_head (has : ∀ a ∈ as, p a = true)
    (hrest : ∀ a, rest.head? = some a → p a = false) : (as ++ rest).dropWhile p = rest := by
  rw [List.dropWhile_append_of_pos has]
  cases rest with
  | nil => rfl
  | cons a rest => exact List.dropWhile_cons_of_neg (by rw [hrest a rfl]; decide)

/-- Two texts with the same characters in front of a boundary are the same up to it. -/
lemma append_inj_of_head (has : ∀ a ∈ as, p a = true) (hbs : ∀ b ∈ bs, p b = true)
    (hrest : ∀ a, rest.head? = some a → p a = false)
    (hrest' : ∀ a, rest'.head? = some a → p a = false) (h : as ++ rest = bs ++ rest') :
    as = bs ∧ rest = rest' := by
  have htake := congrArg (List.takeWhile p) h
  rw [takeWhile_append_of_head has hrest, takeWhile_append_of_head hbs hrest'] at htake
  subst htake
  exact ⟨rfl, List.append_cancel_left h⟩

end Boundary

/-! ## Scanning the parts -/

/-- Digits are read up to what is no digit. -/
lemma scanDigits_append {ds rest : List Char} (hne : ds ≠ []) (hds : ∀ c ∈ ds, c.isDigit = true)
    (hrest : ∀ c, rest.head? = some c → c.isDigit = false) :
    scanDigits (ds ++ rest) = .ok (ds, rest) := by
  rw [scanDigits, takeWhile_append_of_head hds hrest, dropWhile_append_of_head hds hrest]
  obtain ⟨d, ds, rfl⟩ := List.exists_cons_of_ne_nil hne
  rfl

/-- A minus sign is read if there is one. -/
lemma scanMinus_append (negative : Bool) {cs : List Char} (h : cs.head? ≠ some '-') :
    scanMinus ((if negative then ['-'] else []) ++ cs) = (negative, cs) := by
  cases negative with
  | true => rfl
  | false =>
    rw [if_neg (by decide), List.nil_append, scanMinus]
    · intro ds hds
      exact h (by rw [hds, List.head?_cons])

/-- A whole part without a zero in front is read up to what is no digit. -/
lemma scanWhole_append {ds rest : List Char} (h : Canonical ds)
    (hrest : ∀ c, rest.head? = some c → c.isDigit = false) :
    scanWhole (ds ++ rest) = .ok (ds, rest) := by
  rw [scanWhole, scanDigits_append h.ne_nil h.isDigit hrest]
  exact if_neg fun hzero => hzero.2 (h.length_eq_one hzero.1)

/-- A fraction is read up to what is no digit, and may be absent in front of what is no point. -/
lemma scanFraction_append {ds rest : List Char} (hds : ∀ c ∈ ds, c.isDigit = true)
    (hrest : ∀ c, rest.head? = some c → c.isDigit = false ∧ c ≠ '.') :
    scanFraction ((if ds.isEmpty then [] else '.' :: ds) ++ rest) = .ok (ds, rest) := by
  cases ds with
  | nil =>
    rw [List.isEmpty_nil, if_pos rfl, List.nil_append, scanFraction]
    intro cs hcs
    exact (hrest '.' (by rw [hcs, List.head?_cons])).2 rfl
  | cons d ds =>
    exact scanDigits_append (List.cons_ne_nil d ds) hds fun c hc => (hrest c hc).1

/-- What follows an integral part and a fraction is no digit and no point. -/
lemma ExponentText.head_append {text : List Char} {value : Int} (h : ExponentText text value)
    {rest : List Char} (hrest : EndsNumber rest) (c : Char) (hc : (text ++ rest).head? = some c) :
    c.isDigit = false ∧ c ≠ '.' := by
  have hletter : c = 'e' ∨ c = 'E' → c.isDigit = false ∧ c ≠ '.' := by
    rintro (rfl | rfl) <;> decide
  cases h with
  | absent =>
    obtain ⟨hdigit, hpoint, -⟩ := hrest c hc
    exact ⟨hdigit, hpoint⟩
  | unsigned letter | plus letter | minus letter =>
    rw [List.cons_append, List.head?_cons, Option.some.injEq] at hc
    exact hletter (hc ▸ letter)

/-- An exponent is read up to what ends a number. -/
lemma ExponentText.scanExponent_append {text : List Char} {value : Int}
    (h : ExponentText text value) {rest : List Char} (hrest : EndsNumber rest) :
    scanExponent (text ++ rest) = .ok (text, value, rest) := by
  have hdigit : ∀ c, rest.head? = some c → c.isDigit = false := fun c hc => (hrest c hc).1
  cases h with
  | absent =>
    cases rest with
    | nil => rfl
    | cons c cs =>
      obtain ⟨-, -, hlower, hupper⟩ := hrest c rfl
      rw [List.nil_append, scanExponent, if_neg (by simp [hlower, hupper])]
  | @unsigned e ds letter ne_nil isDigit =>
    -- a digit is no sign
    have hsign : scanSign (ds ++ rest) = ([], ds ++ rest) := by
      obtain ⟨d, ds, rfl⟩ := List.exists_cons_of_ne_nil ne_nil
      have hd := isDigit d List.mem_cons_self
      rw [List.cons_append, scanSign]
      · rintro cs hcs
        rw [(List.cons.inj hcs).1] at hd
        exact absurd hd (by decide)
      · rintro cs hcs
        rw [(List.cons.inj hcs).1] at hd
        exact absurd hd (by decide)
    rw [List.cons_append, scanExponent, if_pos letter, hsign]
    simp only [scanDigits_append ne_nil isDigit hdigit, ok_bind]
    rfl
  | plus letter ne_nil isDigit =>
    rw [List.cons_append, scanExponent, if_pos letter, List.cons_append, scanSign]
    simp only [scanDigits_append ne_nil isDigit hdigit, ok_bind]
    rfl
  | minus letter ne_nil isDigit =>
    rw [List.cons_append, scanExponent, if_pos letter, List.cons_append, scanSign]
    simp only [scanDigits_append ne_nil isDigit hdigit, ok_bind]
    rfl

/-! ## Scanning a number -/

namespace Numeral

variable {n : Numeral}

/-- The whole part of a number begins with a digit. -/
lemma WellFormed.head_whole (h : n.WellFormed) : ∃ c cs, n.whole = c :: cs ∧ c.isDigit = true := by
  obtain ⟨c, cs, hcs⟩ := List.exists_cons_of_ne_nil h.whole.ne_nil
  exact ⟨c, cs, hcs, h.whole.isDigit c (hcs ▸ List.mem_cons_self)⟩

/-- A number begins with a minus or with a digit. -/
lemma WellFormed.exists_text_eq_cons (h : n.WellFormed) :
    ∃ c cs, n.text = c :: cs ∧ (c = '-' ∨ c.isDigit = true) := by
  obtain ⟨c, cs, hcs, hc⟩ := h.head_whole
  rw [text, hcs]
  cases n.negative with
  | true => exact ⟨'-', _, rfl, .inl rfl⟩
  | false => exact ⟨c, _, rfl, .inr hc⟩

end Numeral

/-- **A number is scanned back from its text**, whatever follows it. -/
theorem scanNumeral_append {n : Numeral} (h : n.WellFormed) {rest : List Char}
    (hrest : EndsNumber rest) : scanNumeral (n.text ++ rest) = .ok (n, rest) := by
  have hexp := h.exponent.head_append hrest
  have hfrac : ∀ c, ((if n.fraction.isEmpty then [] else '.' :: n.fraction) ++
      (n.exponentText ++ rest)).head? = some c → c.isDigit = false := by
    intro c hc
    split at hc
    · exact (hexp c hc).1
    · rw [← Option.some.inj hc]
      decide
  have hminus : (n.whole ++ ((if n.fraction.isEmpty then [] else '.' :: n.fraction) ++
      (n.exponentText ++ rest))).head? ≠ some '-' := by
    obtain ⟨c, cs, hcs, hc⟩ := h.head_whole
    rw [hcs, List.cons_append, List.head?_cons]
    rintro ⟨⟩
    exact absurd hc (by decide)
  rw [Numeral.text]
  simp only [List.append_assoc]
  simp only [scanNumeral, scanMinus_append _ hminus, scanWhole_append h.whole hfrac,
    scanFraction_append h.fraction hexp, h.exponent.scanExponent_append hrest, ok_bind]
  rfl

/-! ## Texts that are numbers -/

/-- The token of a number with the given text. -/
def numberToken (t : String) : Token :=
  .number t ((scanNumeral t.toList).toOption.any fun p => p.1.tooLarge)

/-- **A text that is a number gives its token**, whatever follows it. -/
theorem IsNumber.numberLexeme_append {t : String} (h : IsNumber t) {rest : List Char}
    (hrest : EndsNumber rest) :
    numberLexeme (t.toList ++ rest) = ⟨numberToken t, some rest⟩ := by
  obtain ⟨n, hn, htext⟩ := h
  have hscan := scanNumeral_append hn hrest
  have hself := scanNumeral_append hn endsNumber_nil
  rw [htext] at hscan hself
  rw [List.append_nil] at hself
  simp only [numberLexeme, numberToken, hscan, hself, htext, String.ofList_toList]
  rfl

/-- **The written form of an integer is a number.** -/
theorem isNumber_of_denotes {t : String} {m : Int} (h : Denotes t m) : IsNumber t := by
  obtain ⟨ds, hds, ⟨htext, -⟩ | ⟨htext, -⟩⟩ := h
  · refine ⟨⟨false, ds, [], [], 0⟩, ⟨hds, nofun, .absent⟩, ?_⟩
    rw [htext, Numeral.text]
    simp
  · refine ⟨⟨true, ds, [], [], 0⟩, ⟨hds, nofun, .absent⟩, ?_⟩
    rw [htext, Numeral.text]
    simp

end Json

end VersionedLayout
