import Mathlib.Algebra.Order.Field.Rat
import Mathlib.Data.List.Basic
import Mathlib.Tactic.Ring
import VersionedLayout.Decimal.Style
import VersionedLayout.Proofs.Numerals
set_option autoImplicit false

/-!
# Texts of floating-point values

However a format lays out the digits of a floating-point value, the text is a number of the grammar
of JSON that is no integer: it has a fraction, or it has one digit in front of an optional fraction
and an exponent. The whole part has no superfluous zero because the shortest decimal of a nonzero
value has a nonzero digit. Wherever the layout puts the point, and whichever exponent it writes, the
number denotes the decimal whose digits were laid out.

## Main definitions

* `VersionedLayout.Json.Numeral.Positional`, `VersionedLayout.Json.Numeral.Scientific` — the two
  layouts.
* `VersionedLayout.Json.Numeral.magnitude`, `VersionedLayout.Decimal.toRat` — the numbers that are
  denoted by a number of the grammar, apart from its sign, and by digits with a power of ten.

## Main results

* `VersionedLayout.Decimal.shortest_significand_pos` — the shortest decimal of a nonzero value is
  nonzero.
* `VersionedLayout.Decimal.Style.exists_numeral_write` — the text of a value is a number in one of
  the two layouts, and denotes the shortest decimal of the value.
-/

namespace VersionedLayout

/-! ## The two layouts -/

namespace Json.Numeral

/-- A number with digits on both sides of a point, and without an exponent. -/
def Positional (n : Numeral) : Prop :=
  n.fraction ≠ [] ∧ n.exponentText = []

/-- A number with one digit in front of an optional fraction, and an exponent. Whether a positive
exponent carries a plus depends on the format. -/
def Scientific (plusSign : Bool) (n : Numeral) : Prop :=
  n.whole.length = 1 ∧ n.exponentText =
    ['e'] ++ (if n.exponent < 0 then ['-'] else if plusSign then ['+'] else []) ++
      Decimal.digits n.exponent.natAbs

/-- The absolute value of a number: its digits, with the power of ten of the last one. -/
def magnitude (n : Numeral) : ℚ :=
  Decimal.valueOf (n.whole ++ n.fraction) * 10 ^ (n.exponent - n.fraction.length)

end Json.Numeral

namespace Decimal

open Json

/-- The value of a decimal number. -/
def toRat (d : Decimal) : ℚ :=
  d.significand * 10 ^ d.scale

/-! ## The shortest decimal of a nonzero value -/

namespace RoundingInterval

variable {r : RoundingInterval}

/-- The number rounded down to a grid is positive when the grid is no coarser than the number. -/
lemma floorOnGrid_pos_iff (hdenominator : 0 < r.denominator) {k : Int} :
    0 < r.floorOnGrid k ↔
      r.denominator * Nat.pow 10 k.toNat ≤ r.value * Nat.pow 10 (-k).toNat := by
  have hunit : 0 < r.denominator * Nat.pow 10 k.toNat :=
    Nat.mul_pos hdenominator (Nat.pow_pos (by decide))
  rw [floorOnGrid, Nat.div_pos_iff]
  exact and_iff_right hunit

/-- A value that reaches a power of ten reaches all smaller ones. -/
lemma floorOnGrid_pos_of_le (hdenominator : 0 < r.denominator) {k l : Int} (hl : l ≤ k)
    (hk : 0 < r.floorOnGrid k) : 0 < r.floorOnGrid l := by
  rw [floorOnGrid_pos_iff hdenominator] at hk ⊢
  calc r.denominator * Nat.pow 10 l.toNat
      ≤ r.denominator * Nat.pow 10 k.toNat :=
        Nat.mul_le_mul_left _ (Nat.pow_le_pow_right (by decide) (by omega))
    _ ≤ r.value * Nat.pow 10 (-k).toNat := hk
    _ ≤ r.value * Nat.pow 10 (-l).toNat :=
        Nat.mul_le_mul_left _ (Nat.pow_le_pow_right (by decide) (by omega))

/-- A positive value reaches the power of ten of its first digit.

**Proof sketch.** The numbers of digits of numerator and denominator bound the value between two
neighbouring powers of ten; the one that is not tested is the lower one, which the value reaches in
any case. -/
lemma floorOnGrid_leadingExponent_pos (hvalue : 0 < r.value) (hdenominator : 0 < r.denominator) :
    0 < r.floorOnGrid r.leadingExponent := by
  have hlow := pow_digitCount_le hvalue
  have hhigh := lt_pow_digitCount r.denominator
  have hpos := digitCount_pos r.value
  rw [leadingExponent]
  split
  · assumption
  · rw [floorOnGrid_pos_iff hdenominator]
    set v := digitCount r.value with hv
    set d := digitCount r.denominator with hd
    rcases Nat.lt_or_ge d v with h | h
    · -- the exponent is not negative, and the denominator is scaled
      have hexp : ((v : Int) - d - 1).toNat = v - 1 - d := by omega
      have hzero : (-((v : Int) - d - 1)).toNat = 0 := by omega
      rw [hexp, hzero]
      calc r.denominator * Nat.pow 10 (v - 1 - d)
          ≤ Nat.pow 10 d * Nat.pow 10 (v - 1 - d) := Nat.mul_le_mul_right _ (Nat.le_of_lt hhigh)
        _ = Nat.pow 10 (d + (v - 1 - d)) := (Nat.pow_add 10 d (v - 1 - d)).symm
        _ = Nat.pow 10 (v - 1) := by rw [Nat.add_sub_cancel' (by omega)]
        _ ≤ r.value * Nat.pow 10 0 := by rwa [show Nat.pow 10 0 = 1 from rfl, Nat.mul_one]
    · -- the exponent is negative, and the numerator is scaled
      have hzero : ((v : Int) - d - 1).toNat = 0 := by omega
      have hexp : (-((v : Int) - d - 1)).toNat = d - (v - 1) := by omega
      rw [hexp, hzero]
      calc r.denominator * Nat.pow 10 0
          ≤ Nat.pow 10 d := Nat.le_trans (Nat.le_of_eq (Nat.mul_one _)) (Nat.le_of_lt hhigh)
        _ = Nat.pow 10 (v - 1 + (d - (v - 1))) := by rw [Nat.add_sub_cancel' (by omega)]
        _ = Nat.pow 10 (v - 1) * Nat.pow 10 (d - (v - 1)) := Nat.pow_add 10 (v - 1) _
        _ ≤ r.value * Nat.pow 10 (d - (v - 1)) := Nat.mul_le_mul_right _ hlow

/-- What is chosen on a grid is a point of it in the interval, at or next above the value. -/
lemma exists_of_nearestOnGrid? {tie : Tie} {k : Int} {d : Decimal}
    (h : r.nearestOnGrid? tie k = some d) :
    ∃ c, d = ⟨c, k⟩ ∧ r.floorOnGrid k ≤ c ∧ r.contains c k = true := by
  simp only [nearestOnGrid?] at h
  set c := r.floorOnGrid k
  split at h
  · cases h
  · rename_i hbelow habove
    exact ⟨c, (Option.some.inj h).symm, le_refl c, hbelow⟩
  · rename_i hbelow habove
    exact ⟨c + 1, (Option.some.inj h).symm, Nat.le_succ c, habove⟩
  · -- both neighbours lie in the interval, and either may be nearer
    rename_i hbelow habove
    have hchoice : ∀ upward : Bool, ∃ c',
        (if upward then ⟨c + 1, k⟩ else ⟨c, k⟩ : Decimal) = ⟨c', k⟩ ∧
          c ≤ c' ∧ r.contains c' k = true := by
      intro upward
      cases upward with
      | true => exact ⟨c + 1, rfl, Nat.le_succ c, habove⟩
      | false => exact ⟨c, rfl, le_refl c, hbelow⟩
    rw [← Option.some.inj h]
    exact hchoice _

/-- What is nearest on a grid is positive when the number rounded down is. -/
lemma nearestOnGrid?_significand_pos {tie : Tie} {k : Int} {d : Decimal}
    (hk : 0 < r.floorOnGrid k) (h : r.nearestOnGrid? tie k = some d) : 0 < d.significand := by
  obtain ⟨c, rfl, hc, -⟩ := exists_of_nearestOnGrid? h
  exact Nat.lt_of_lt_of_le hk hc

end RoundingInterval

/-- Without its zeros at the end, a positive significand is positive. -/
lemma withoutTrailingZeros_significand_pos {d : Decimal} (h : 0 < d.significand) :
    0 < d.withoutTrailingZeros.significand := by
  fun_induction withoutTrailingZeros d with
  | case1 d hzero ih => exact ih (by simp only; omega)
  | case2 d hzero => exact h

/-- The significand of a value other than zero is positive. -/
lemma significand_pos {x : Binary64} (h : x.magnitude ≠ 0) : 0 < x.significand := by
  have hmod := Nat.div_add_mod x.magnitude (Nat.pow 2 52)
  simp only [Binary64.significand]
  split
  · rename_i hzero
    rw [Binary64.biasedExponent] at hzero
    rw [hzero, Nat.mul_zero, Nat.zero_add] at hmod
    rw [hmod]
    exact Nat.pos_of_ne_zero h
  · exact Nat.add_pos_left (Nat.pow_pos (by decide)) _

/-- **The shortest decimal of a nonzero value is nonzero.** -/
theorem shortest_significand_pos (tie : Tie) {x : Binary64} (h : x.magnitude ≠ 0) :
    0 < (shortest tie x).significand := by
  set r := RoundingInterval.of x with hr
  have hvalue : 0 < r.value :=
    Nat.mul_pos (Nat.mul_pos (by decide) (significand_pos h)) (Nat.pow_pos (by decide))
  have hdenominator : 0 < r.denominator := Nat.pow_pos (by decide)
  have hgrid : ∀ k ≤ r.leadingExponent, 0 < r.floorOnGrid k := fun k hk =>
    RoundingInterval.floorOnGrid_pos_of_le hdenominator hk
      (RoundingInterval.floorOnGrid_leadingExponent_pos hvalue hdenominator)
  rw [shortest]
  refine withoutTrailingZeros_significand_pos ?_
  cases hchosen : (List.range mostDigits).findSome?
      fun n : Nat => r.nearestOnGrid? tie (r.leadingExponent - n) with
  | none =>
    have hfinest : r.leadingExponent + 1 - mostDigits ≤ r.leadingExponent := by
      rw [mostDigits]
      omega
    exact hgrid _ hfinest
  | some d =>
    obtain ⟨n, -, hn⟩ := List.exists_of_findSome?_eq_some hchosen
    exact RoundingInterval.nearestOnGrid?_significand_pos (hgrid _ (by omega)) hn

/-! ## The layouts of its digits -/

/-- A single zero has no zero in front of others. -/
lemma canonical_zero : Canonical ['0'] where
  ne_nil := nofun
  isDigit := List.forall_mem_singleton.2 rfl
  length_eq_one _ := rfl

/-- A row of zeros is made of digits. -/
lemma isDigit_of_mem_replicate (k : Nat) : ∀ c ∈ List.replicate k '0', c.isDigit = true := by
  intro c hc
  rw [(List.mem_replicate.1 hc).2]
  rfl

/-- A whole part and digits behind a point make up a number in positional form. -/
lemma exists_numeral_of_canonical {whole fraction : List Char} (hwhole : Canonical whole)
    (hne : fraction ≠ []) (hfraction : ∀ c ∈ fraction, c.isDigit = true) :
    ∃ n : Numeral, n.WellFormed ∧ n.negative = false ∧ n.Positional ∧
      n.text = whole ++ '.' :: fraction ∧
      n.magnitude = valueOf (whole ++ fraction) * 10 ^ (-fraction.length : ℤ) := by
  refine ⟨⟨false, whole, fraction, [], 0⟩, ⟨hwhole, hfraction, .absent⟩, rfl, ⟨hne, rfl⟩, ?_, ?_⟩
  · simp [Numeral.text, hne]
  · simp [Numeral.magnitude]

/-- A zero in front does not change the value. -/
lemma valueOf_zero_cons (ds : List Char) : valueOf ('0' :: ds) = valueOf ds :=
  rfl

/-- Zeros behind the digits count as powers of ten. -/
lemma cast_valueOf_append_zeros (ds : List Char) (k : Nat) :
    (valueOf (ds ++ List.replicate k '0') : ℚ) = valueOf ds * 10 ^ (k : ℤ) := by
  rw [valueOf_append, valueOf_zeros, List.length_replicate, Nat.add_zero, Nat.pow_eq,
    Nat.cast_mul, Nat.cast_pow, zpow_natCast]
  rfl

section Layout

variable {ds : List Char} (hne : ds ≠ []) (hds : ∀ c ∈ ds, c.isDigit = true) (e : Int)

include hne hds

/-- Digits that do not begin with a zero have a positional form with digits on both sides of the
point. -/
lemma exists_numeral_positional (hhead : ds.head? ≠ some '0') :
    ∃ n : Numeral, n.WellFormed ∧ n.negative = false ∧ n.Positional ∧
      n.text = positional ds e ∧ n.magnitude = valueOf ds * 10 ^ (e + 1 - ds.length) := by
  rw [positional]
  split
  · -- all digits stand behind the point
    obtain ⟨n, hn, hnegative, hpositional, htext, hmagnitude⟩ :=
      exists_numeral_of_canonical canonical_zero
        (List.append_ne_nil_of_right_ne_nil (List.replicate (-e - 1).toNat '0') hne)
        (List.forall_mem_append.2 ⟨isDigit_of_mem_replicate _, hds⟩)
    refine ⟨n, hn, hnegative, hpositional, htext, hmagnitude.trans ?_⟩
    have hexponent : (-((List.replicate (-e - 1).toNat '0' ++ ds).length : ℤ)) =
        e + 1 - ds.length := by
      rw [List.length_append, List.length_replicate]
      omega
    rw [List.singleton_append, valueOf_zero_cons, valueOf_append, valueOf_zeros, Nat.zero_mul,
      Nat.zero_add, hexponent]
  · have htake : ds.take (e.toNat + 1) ≠ [] := by
      rw [ne_eq, List.take_eq_nil_iff]
      exact not_or.2 ⟨nofun, hne⟩
    have hwhole : Canonical
        (ds.take (e.toNat + 1) ++ List.replicate (e.toNat + 1 - ds.length) '0') := by
      refine ⟨List.append_ne_nil_of_left_ne_nil htake _, List.forall_mem_append.2
        ⟨fun c hc => hds c (List.mem_of_mem_take hc), isDigit_of_mem_replicate _⟩, fun hzero => ?_⟩
      rw [List.head?_append_of_ne_nil _ htake, List.head?_take, if_neg (by omega)] at hzero
      exact absurd hzero hhead
    simp only
    rw [List.append_assoc _ ['.']]
    split
    · -- all digits stand in front of the point
      rename_i hdrop
      have hlength : ds.length ≤ e.toNat + 1 := by
        rwa [List.isEmpty_iff, List.drop_eq_nil_iff] at hdrop
      obtain ⟨n, hn, hnegative, hpositional, htext, hmagnitude⟩ :=
        exists_numeral_of_canonical hwhole (List.cons_ne_nil '0' []) canonical_zero.isDigit
      refine ⟨n, hn, hnegative, hpositional, htext, hmagnitude.trans ?_⟩
      have hexponent : ((e.toNat + 1 - ds.length + 1 : ℕ) : ℤ) + -1 = e + 1 - ds.length := by
        omega
      rw [List.take_of_length_le hlength, List.append_assoc,
        show ['0'] = List.replicate 1 '0' from rfl, List.replicate_append_replicate,
        cast_valueOf_append_zeros, List.length_replicate, mul_assoc, ← zpow_add₀ (by norm_num)]
      exact congrArg _ (congrArg _ hexponent)
    · rename_i hdrop
      obtain ⟨n, hn, hnegative, hpositional, htext, hmagnitude⟩ :=
        exists_numeral_of_canonical hwhole (fun hnil => hdrop (List.isEmpty_iff.2 hnil))
          fun c hc => hds c (List.mem_of_mem_drop hc)
      refine ⟨n, hn, hnegative, hpositional, htext, hmagnitude.trans ?_⟩
      have hlength : e.toNat + 1 < ds.length := by
        rwa [List.isEmpty_iff, List.drop_eq_nil_iff, Nat.not_le] at hdrop
      have hexponent : (-((ds.drop (e.toNat + 1)).length : ℤ)) = e + 1 - ds.length := by
        rw [List.length_drop]
        omega
      rw [Nat.sub_eq_zero_of_le hlength.le, List.replicate_zero, List.append_nil,
        List.take_append_drop, hexponent]

/-- Digits have a scientific form with one digit in front. -/
lemma exists_numeral_scientific (plusSign : Bool) :
    ∃ n : Numeral, n.WellFormed ∧ n.negative = false ∧ n.Scientific plusSign ∧
      n.text = scientific plusSign ds e ∧
      n.magnitude = valueOf ds * 10 ^ (e + 1 - ds.length) := by
  obtain ⟨d, fraction, rfl⟩ := List.exists_cons_of_ne_nil hne
  obtain ⟨hd, hfraction⟩ := List.forall_mem_cons.1 hds
  set exponentText := ['e'] ++ (if e < 0 then ['-'] else if plusSign then ['+'] else []) ++
    digits e.natAbs with htext
  have hletter : 'e' = 'e' ∨ 'e' = 'E' := .inl rfl
  have hdigits : ∀ c ∈ digits e.natAbs, c.isDigit = true := fun c => isDigit_of_mem_digits
  have hexponent : ExponentText exponentText e := by
    rw [htext]
    split
    · have h := ExponentText.minus hletter (digits_ne_nil e.natAbs) hdigits
      rwa [valueOf_digits, show (-(e.natAbs : Int)) = e by omega] at h
    · have hvalue : (e.natAbs : Int) = e := by omega
      split
      · have h := ExponentText.plus hletter (digits_ne_nil e.natAbs) hdigits
        rwa [valueOf_digits, hvalue] at h
      · have h := ExponentText.unsigned hletter (digits_ne_nil e.natAbs) hdigits
        rwa [valueOf_digits, hvalue] at h
  refine ⟨⟨false, [d], fraction, exponentText, e⟩,
    ⟨⟨nofun, by simpa using hd, fun _ => rfl⟩, hfraction, hexponent⟩, rfl, ⟨rfl, htext⟩, ?_, ?_⟩
  · cases fraction with
    | nil => simp [Numeral.text, scientific, htext]
    | cons c cs => simp [Numeral.text, scientific, htext]
  · have hscale : e - (fraction.length : ℤ) = e + 1 - ((d :: fraction).length : ℕ) := by
      rw [List.length_cons]
      omega
    rw [Numeral.magnitude, hscale, List.singleton_append]

end Layout

/-! ## The text of a value -/

/-- The digits of a nonzero value are laid out as a number that denotes them. -/
lemma Style.exists_numeral_layOut (s : Style) {x : Binary64} (hx : x.magnitude ≠ 0) :
    ∃ n : Numeral, n.WellFormed ∧ n.negative = false ∧
      (n.Positional ∨ n.Scientific s.plusSign) ∧ n.text = s.layOut (shortest s.tie x) ∧
      n.magnitude = (shortest s.tie x).toRat := by
  set d := shortest s.tie x with hd
  have hpos := shortest_significand_pos s.tie hx
  have hne := digits_ne_nil d.significand
  have hds : ∀ c ∈ digits d.significand, c.isDigit = true := fun c => isDigit_of_mem_digits
  have hhead : (digits d.significand).head? ≠ some '0' := fun h =>
    Nat.ne_of_gt hpos (eq_zero_of_head?_digits h)
  -- the last digit has the power of ten of the decimal
  have hmagnitude : (valueOf (digits d.significand) : ℚ) *
      10 ^ (d.leadingExponent + 1 - (digits d.significand).length) = d.toRat := by
    rw [valueOf_digits, leadingExponent, digitCount, Int.sub_add_cancel, Int.add_sub_cancel, toRat]
  rw [layOut, ← hmagnitude]
  split
  · obtain ⟨n, hn, hnegative, hpositional, htext⟩ := exists_numeral_positional hne hds _ hhead
    exact ⟨n, hn, hnegative, .inl hpositional, htext⟩
  · obtain ⟨n, hn, hnegative, hscientific, htext⟩ :=
      exists_numeral_scientific hne hds d.leadingExponent s.plusSign
    exact ⟨n, hn, hnegative, .inr hscientific, htext⟩

/-- **The text of a floating-point value is a number that is no integer**: it is positional with
digits on both sides of the point, or scientific with one digit in front. It carries a minus exactly
if the sign bit is set, and apart from its sign it denotes the shortest decimal of the value. -/
theorem Style.exists_numeral_write (s : Style) (x : Binary64) :
    ∃ n : Numeral, n.WellFormed ∧ n.negative = x.isNegative ∧
      (n.Positional ∨ n.Scientific s.plusSign) ∧ n.text = (s.write x).toList ∧
      n.magnitude = if x.magnitude = 0 then 0 else (shortest s.tie x).toRat := by
  have hunsigned : ∃ n : Numeral, n.WellFormed ∧ n.negative = false ∧
      (n.Positional ∨ n.Scientific s.plusSign) ∧
      (n.text = if x.magnitude = 0 then ['0', '.', '0'] else s.layOut (shortest s.tie x)) ∧
      n.magnitude = if x.magnitude = 0 then 0 else (shortest s.tie x).toRat := by
    split
    · obtain ⟨n, hn, hnegative, hpositional, htext, hmagnitude⟩ :=
        exists_numeral_of_canonical canonical_zero (List.cons_ne_nil '0' []) canonical_zero.isDigit
      refine ⟨n, hn, hnegative, .inl hpositional, htext, hmagnitude.trans ?_⟩
      rw [show valueOf (['0'] ++ ['0']) = 0 from rfl, Nat.cast_zero, zero_mul]
    · rename_i hx
      exact s.exists_numeral_layOut hx
  obtain ⟨n, hn, hnegative, hlayout, htext, hmagnitude⟩ := hunsigned
  refine ⟨{ n with negative := x.isNegative }, ⟨hn.whole, hn.fraction, hn.exponent⟩, rfl,
    hlayout, ?_, hmagnitude⟩
  rw [write, String.toList_ofList, ← htext, Numeral.text, Numeral.text, hnegative]
  simp

end Decimal

end VersionedLayout
