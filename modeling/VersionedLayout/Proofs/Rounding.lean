import Mathlib.Algebra.Order.Field.Power
import Mathlib.Tactic.Linarith
import VersionedLayout.Proofs.FloatTexts
set_option autoImplicit false

/-!
# Reading decimals

A decimal number is read as the finite floating-point value nearest to it, and of two equally near
values as the one with an even significand. The decimal that is chosen for a value lies in the
rounding interval of the value, and no other finite value is as near to a number of this interval,
an end of it apart. Seventeen digits are always enough, because the points of a grid with seventeen
digits lie closer to each other than the ends of the interval do.

## Main definitions

* `VersionedLayout.Binary64.absRat`, `VersionedLayout.Binary64.toRat` — the number that a finite
  value stands for, without and with its sign.
* `VersionedLayout.Binary64.IsReadFrom` — the value as which a number is read.
* `VersionedLayout.Decimal.RoundingInterval.Mem` — the numbers of a rounding interval.

## Main results

* `VersionedLayout.Binary64.gap` — the distance of a value to the others.
* `VersionedLayout.Decimal.mem_shortest` — the shortest decimal of a value lies in its rounding
  interval.
* `VersionedLayout.Binary64.isReadFrom_shortest` — the shortest decimal of a value is read as it.
-/

namespace VersionedLayout

/-! ## The values of `binary64` -/

namespace Binary64

variable (x y : Binary64)

/-- The absolute value of a finite value. -/
def absRat : ℚ :=
  x.significand * 2 ^ x.exponent

/-- A sign in front of a number. -/
def withSign (negative : Bool) (q : ℚ) : ℚ :=
  if negative then -q else q

/-- The number that a finite value stands for. -/
def toRat : ℚ :=
  withSign x.isNegative x.absRat

/-- A number is read as the finite value that is nearest to it. Where another value is equally near,
the significand is even; and the number is not so large that it is read as an infinity. -/
structure IsReadFrom (q : ℚ) : Prop where
  isFinite : x.isFinite = true
  nearest : ∀ y : Binary64, y.isFinite = true → |q - x.toRat| ≤ |q - y.toRat|
  even : ∀ y : Binary64, y.isFinite = true → y.toRat ≠ x.toRat →
    |q - y.toRat| = |q - x.toRat| → x.significand % 2 = 0
  inRange : |q| < 2 ^ 1024 - 2 ^ 970

/-- The significand has 53 bits at most. -/
lemma significand_lt : x.significand < 2 ^ 53 := by
  have hmod := Nat.mod_lt x.magnitude (show 0 < Nat.pow 2 52 by decide)
  have hpow : Nat.pow 2 52 + Nat.pow 2 52 = 2 ^ 53 := by decide
  rw [significand]
  split <;> omega

/-- The exponent is that of the subnormal values at least. -/
lemma least_le_exponent : -1074 ≤ x.exponent := by
  rw [exponent]
  split <;> omega

variable {x} in
/-- The exponent of a finite value is that of the largest one at most. -/
lemma exponent_le (h : x.isFinite = true) : x.exponent ≤ 971 := by
  rw [isFinite, decide_eq_true_eq, infinityMagnitude, Nat.mul_comm] at h
  have hbiased : x.biasedExponent < 2047 := Nat.div_lt_of_lt_mul h
  rw [exponent]
  split <;> omega

variable {x} in
/-- Above the least exponent the significand has its leading bit. -/
lemma le_significand (h : -1074 < x.exponent) : 2 ^ 52 ≤ x.significand := by
  rw [exponent] at h
  rw [significand]
  split at h
  · omega
  · rename_i hbiased
    rw [if_neg hbiased]
    exact Nat.le_add_right _ _

/-- The exponent is above the least one when its biased form is above one. -/
lemma one_lt_biasedExponent_iff : 1 < x.biasedExponent ↔ -1074 < x.exponent := by
  rw [exponent]
  split <;> omega

/-- Powers of two are positive. -/
lemma two_zpow_pos (e : ℤ) : (0 : ℚ) < 2 ^ e :=
  zpow_pos (by norm_num) e

/-- The distance from a value to the next smaller one. It is halved at a power of two. -/
def gapBelow : ℚ :=
  if x.significand = Nat.pow 2 52 ∧ 1 < x.biasedExponent then 2 ^ (x.exponent - 1)
  else 2 ^ x.exponent

/-- The gap to the neighbour below is positive. -/
lemma gapBelow_pos : 0 < x.gapBelow := by
  rw [gapBelow]
  split <;> exact two_zpow_pos _

/-- The gap to the neighbour below is no larger than the one above. -/
lemma gapBelow_le : x.gapBelow ≤ 2 ^ x.exponent := by
  rw [gapBelow]
  split
  · exact zpow_le_zpow_right₀ (by norm_num) (by omega)
  · exact le_refl _

variable {x y}

/-- A power of two is twice the one before it. -/
lemma two_zpow_eq (e : ℤ) : (2 : ℚ) ^ e = 2 * 2 ^ (e - 1) := by
  rw [← zpow_one_add₀ (by norm_num)]
  congr 1
  omega

/-- **No value lies between a value and its neighbours**: any other one is larger by at least the
unit of the last digit, or smaller by at least the gap below. -/
theorem gap (h : y.absRat ≠ x.absRat) :
    x.absRat + 2 ^ x.exponent ≤ y.absRat ∨ y.absRat + x.gapBelow ≤ x.absRat := by
  have hunit := two_zpow_pos x.exponent
  have hbelow := x.gapBelow_le
  have hx : (x.significand : ℚ) + 1 ≤ 2 ^ 53 := by exact_mod_cast x.significand_lt
  have hy : (y.significand : ℚ) + 1 ≤ 2 ^ 53 := by exact_mod_cast y.significand_lt
  rcases lt_trichotomy x.exponent y.exponent with hexp | hexp | hexp
  · -- the other value lies in a higher binade
    left
    have hleast := x.least_le_exponent
    have hnormal : (2 ^ 52 : ℚ) ≤ y.significand := by
      exact_mod_cast le_significand (by omega)
    have hscale : (2 : ℚ) * 2 ^ x.exponent ≤ 2 ^ y.exponent := by
      rw [two_zpow_eq y.exponent]
      exact mul_le_mul_of_nonneg_left (zpow_le_zpow_right₀ (by norm_num) (by omega)) (by norm_num)
    calc x.absRat + 2 ^ x.exponent = (x.significand + 1) * 2 ^ x.exponent := by rw [absRat]; ring
      _ ≤ 2 ^ 53 * 2 ^ x.exponent := mul_le_mul_of_nonneg_right hx hunit.le
      _ = 2 ^ 52 * (2 * 2 ^ x.exponent) := by ring
      _ ≤ 2 ^ 52 * 2 ^ y.exponent := mul_le_mul_of_nonneg_left hscale (by norm_num)
      _ ≤ y.absRat := mul_le_mul_of_nonneg_right hnormal (two_zpow_pos _).le
  · -- both are multiples of the same unit
    have hne : y.significand ≠ x.significand := fun hsignificand =>
      h (by rw [absRat, absRat, hsignificand, hexp])
    rcases Nat.lt_or_gt_of_ne hne with hlt | hgt
    · right
      have hstep : (y.significand : ℚ) + 1 ≤ x.significand := by exact_mod_cast hlt
      have := mul_le_mul_of_nonneg_right hstep hunit.le
      rw [absRat, absRat, ← hexp]
      linarith
    · left
      have hstep : (x.significand : ℚ) + 1 ≤ y.significand := by exact_mod_cast hgt
      have := mul_le_mul_of_nonneg_right hstep hunit.le
      rw [absRat, absRat, ← hexp]
      linarith
  · -- the other value lies in a lower binade, below the power of two that the binade begins with
    right
    have hleast := y.least_le_exponent
    have hlower : y.absRat ≤ (2 ^ 53 - 1) * 2 ^ (x.exponent - 1) := by
      calc y.absRat ≤ (2 ^ 53 - 1) * 2 ^ y.exponent :=
            mul_le_mul_of_nonneg_right (by linarith) (two_zpow_pos _).le
        _ ≤ (2 ^ 53 - 1) * 2 ^ (x.exponent - 1) :=
            mul_le_mul_of_nonneg_left (zpow_le_zpow_right₀ (by norm_num) (by omega)) (by norm_num)
    have hhalf := two_zpow_pos (x.exponent - 1)
    have hnormal := le_significand (show -1074 < x.exponent by omega)
    rw [gapBelow, show x.absRat = x.significand * 2 ^ x.exponent from rfl, two_zpow_eq x.exponent]
    split
    · rename_i hpower
      rw [hpower.1, Nat.pow_eq]
      push_cast
      linarith
    · rename_i hpower
      have hne : x.significand ≠ 2 ^ 52 := fun hsignificand =>
        hpower ⟨hsignificand, x.one_lt_biasedExponent_iff.2 (by omega)⟩
      have hlarger : (2 ^ 52 + 1 : ℚ) ≤ x.significand := by
        have : 2 ^ 52 + 1 ≤ x.significand := by omega
        exact_mod_cast this
      have := mul_le_mul_of_nonneg_right hlarger hhalf.le
      linarith

end Binary64

namespace Decimal

/-! ## Rounding intervals -/

/-- A power with an integer exponent as a fraction. -/
lemma zpow_eq_div {b : ℕ} (hb : 0 < b) (k : ℤ) :
    (b : ℚ) ^ k = (Nat.pow b k.toNat : ℕ) / (Nat.pow b (-k).toNat : ℕ) := by
  have hne : (b : ℚ) ≠ 0 := by exact_mod_cast hb.ne'
  rw [Nat.pow_eq, Nat.pow_eq, Nat.cast_pow, Nat.cast_pow, ← zpow_natCast, ← zpow_natCast,
    ← zpow_sub₀ hne]
  congr 1
  omega

/-- A power of ten is a fraction of powers with natural exponents, one of which is one. -/
lemma ten_zpow_eq (k : ℤ) :
    (10 : ℚ) ^ k = (Nat.pow 10 k.toNat : ℕ) / (Nat.pow 10 (-k).toNat : ℕ) :=
  zpow_eq_div (by decide) k

section Fractions

variable {a c d : ℕ} {k : ℤ} (hd : 0 < d)

include hd

/-- That a fraction is at most a decimal is said by natural numbers. -/
lemma div_le_mul_zpow_iff : (a / d : ℚ) ≤ c * 10 ^ k ↔
    a * Nat.pow 10 (-k).toNat ≤ c * Nat.pow 10 k.toNat * d := by
  have hpow : 0 < Nat.pow 10 (-k).toNat := Nat.pow_pos (by decide)
  rw [ten_zpow_eq, ← mul_div_assoc, div_le_div_iff₀ (by exact_mod_cast hd) (by exact_mod_cast hpow)]
  exact_mod_cast Iff.rfl

/-- That a decimal is at most a fraction is said by natural numbers. -/
lemma mul_zpow_le_div_iff : c * 10 ^ k ≤ (a / d : ℚ) ↔
    c * Nat.pow 10 k.toNat * d ≤ a * Nat.pow 10 (-k).toNat := by
  have hpow : 0 < Nat.pow 10 (-k).toNat := Nat.pow_pos (by decide)
  rw [ten_zpow_eq, ← mul_div_assoc, div_le_div_iff₀ (by exact_mod_cast hpow) (by exact_mod_cast hd)]
  exact_mod_cast Iff.rfl

end Fractions

namespace RoundingInterval

variable (r : RoundingInterval)

/-- The lower end as a number. -/
def lowEnd : ℚ :=
  r.low / r.denominator

/-- The value as a number. -/
def center : ℚ :=
  r.value / r.denominator

/-- The upper end as a number. -/
def highEnd : ℚ :=
  r.high / r.denominator

/-- The numbers of the interval. -/
structure Mem (q : ℚ) : Prop where
  lowEnd_le : r.lowEnd ≤ q
  le_highEnd : q ≤ r.highEnd
  closed_of_end : q = r.lowEnd ∨ q = r.highEnd → r.closed = true

variable {r} (hdenominator : 0 < r.denominator)

include hdenominator

/-- The interval contains the decimals whose values lie in it. -/
lemma contains_iff {c : ℕ} {k : ℤ} : r.contains c k = true ↔ r.Mem (c * 10 ^ k) := by
  rw [contains]
  split
  · rename_i hclosed
    rw [Bool.and_eq_true, decide_eq_true_eq, decide_eq_true_eq,
      ← div_le_mul_zpow_iff hdenominator, ← mul_zpow_le_div_iff hdenominator]
    exact ⟨fun h => ⟨h.1, h.2, fun _ => hclosed⟩, fun h => ⟨h.lowEnd_le, h.le_highEnd⟩⟩
  · rename_i hopen
    rw [Bool.and_eq_true, decide_eq_true_eq, decide_eq_true_eq, ← not_le, ← not_le,
      ← div_le_mul_zpow_iff hdenominator, ← mul_zpow_le_div_iff hdenominator, not_le, not_le]
    refine ⟨fun h => ⟨h.1.le, h.2.le, ?_⟩, fun h => ⟨?_, ?_⟩⟩
    · rintro (hend | hend)
      · exact absurd hend h.1.ne'
      · exact absurd hend h.2.ne
    · exact lt_of_le_of_ne h.lowEnd_le fun hend => hopen (h.closed_of_end (.inl hend.symm))
    · exact lt_of_le_of_ne h.le_highEnd fun hend => hopen (h.closed_of_end (.inr hend))

/-- The centre rounded down to a grid is no larger than the centre. -/
lemma floorOnGrid_le_center (k : ℤ) : r.floorOnGrid k * 10 ^ k ≤ r.center := by
  rw [center, mul_zpow_le_div_iff hdenominator, floorOnGrid, Nat.mul_assoc,
    Nat.mul_comm (Nat.pow 10 k.toNat)]
  exact Nat.div_mul_le_self _ _

/-- The next point of the grid lies above the centre. -/
lemma center_lt_floorOnGrid_succ (k : ℤ) : r.center < (r.floorOnGrid k + 1 : ℕ) * 10 ^ k := by
  have hunit : 0 < r.denominator * Nat.pow 10 k.toNat :=
    Nat.mul_pos hdenominator (Nat.pow_pos (by decide))
  rw [center, ← not_le, mul_zpow_le_div_iff hdenominator, floorOnGrid, Nat.mul_assoc,
    Nat.mul_comm (Nat.pow 10 k.toNat), not_le, Nat.succ_mul]
  exact Nat.lt_div_mul_add hunit

/-- A value in the interior of its interval has a neighbour in it on every grid whose points lie
closer to each other than the ends of the interval do. -/
lemma exists_nearestOnGrid (hlow : r.lowEnd < r.center) (hhigh : r.center < r.highEnd) {k : ℤ}
    (hgrid : (10 : ℚ) ^ k < r.highEnd - r.lowEnd) (tie : Tie) :
    ∃ d, r.nearestOnGrid? tie k = some d := by
  have hbelow := floorOnGrid_le_center hdenominator k
  have habove := center_lt_floorOnGrid_succ hdenominator k
  set c := r.floorOnGrid k with hc
  have hcontains : r.contains c k = true ∨ r.contains (c + 1) k = true := by
    by_contra hnone
    rw [not_or, contains_iff hdenominator, contains_iff hdenominator] at hnone
    have hleft : (c : ℚ) * 10 ^ k ≤ r.lowEnd := by
      by_contra hinside
      refine hnone.1 ⟨(not_le.1 hinside).le, (hbelow.trans_lt hhigh).le, ?_⟩
      rintro (hend | hend)
      · exact absurd hend (not_le.1 hinside).ne'
      · exact absurd hend (hbelow.trans_lt hhigh).ne
    have hright : r.highEnd ≤ (c + 1 : ℕ) * 10 ^ k := by
      by_contra hinside
      refine hnone.2 ⟨(hlow.trans habove).le, (not_le.1 hinside).le, ?_⟩
      rintro (hend | hend)
      · exact absurd hend (hlow.trans habove).ne'
      · exact absurd hend (not_le.1 hinside).ne
    push_cast at hright
    linarith
  rw [nearestOnGrid?]
  rcases hcontains with h | h
  · rw [← hc, h]
    cases r.contains (c + 1) k <;> exact ⟨_, rfl⟩
  · rw [← hc, h]
    cases r.contains c k <;> exact ⟨_, rfl⟩

/-- The point that is chosen on a grid lies in the interval. -/
lemma mem_of_nearestOnGrid {tie : Tie} {k : ℤ} {d : Decimal}
    (h : r.nearestOnGrid? tie k = some d) : r.Mem d.toRat := by
  obtain ⟨c, rfl, -, hc⟩ := exists_of_nearestOnGrid? h
  exact (contains_iff hdenominator).1 hc

omit hdenominator

/-! ## The rounding interval of a value -/

variable (x : Binary64)

/-- The denominator of the interval of a value is positive. -/
lemma denominator_of_pos : 0 < (RoundingInterval.of x).denominator :=
  Nat.pow_pos (by decide)

/-- The factor by which the ends and the value are scaled is a quarter of the last digit's unit. -/
lemma unit_div_denominator :
    ((Nat.pow 2 (x.exponent - 2).toNat : ℕ) : ℚ) / (RoundingInterval.of x).denominator =
      2 ^ x.exponent / 4 := by
  have hquarter : (2 : ℚ) ^ x.exponent / 4 = 2 ^ (x.exponent - 2) := by
    rw [zpow_sub₀ (by norm_num)]
    norm_num
  have hfraction := zpow_eq_div (b := 2) (by decide) (x.exponent - 2)
  rw [neg_sub] at hfraction
  rw [hquarter]
  exact hfraction.symm

/-- The centre of the interval of a value is its absolute value. -/
lemma center_of : (RoundingInterval.of x).center = x.absRat := by
  have hunit := unit_div_denominator x
  rw [center, show (RoundingInterval.of x).value =
    4 * x.significand * Nat.pow 2 (x.exponent - 2).toNat from rfl, Nat.cast_mul, mul_div_assoc,
    hunit, Binary64.absRat]
  push_cast
  ring

/-- The high end lies half a gap above the absolute value. -/
lemma highEnd_of : (RoundingInterval.of x).highEnd = x.absRat + 2 ^ x.exponent / 2 := by
  have hunit := unit_div_denominator x
  rw [highEnd, show (RoundingInterval.of x).high =
    (4 * x.significand + 2) * Nat.pow 2 (x.exponent - 2).toNat from rfl, Nat.cast_mul,
    mul_div_assoc, hunit, Binary64.absRat]
  push_cast
  ring

variable {x} in
/-- The low end lies half a gap below the absolute value. -/
lemma lowEnd_of (hx : 0 < x.significand) :
    (RoundingInterval.of x).lowEnd = x.absRat - x.gapBelow / 2 := by
  have hunit := unit_div_denominator x
  rw [lowEnd, show (RoundingInterval.of x).low =
    (4 * x.significand - if x.significand = Nat.pow 2 52 ∧ 1 < x.biasedExponent then 1 else 2) *
      Nat.pow 2 (x.exponent - 2).toNat from rfl, Nat.cast_mul, mul_div_assoc, hunit,
    Binary64.absRat, Binary64.gapBelow]
  split
  · rw [Nat.cast_sub (by omega), Binary64.two_zpow_eq x.exponent]
    push_cast
    ring
  · rw [Nat.cast_sub (by omega)]
    push_cast
    ring

/-- The ends belong to the interval when the significand is even. -/
lemma closed_of : (RoundingInterval.of x).closed = decide (x.significand % 2 = 0) :=
  rfl

variable {x} in
/-- The interval is wider than the unit of the seventeenth digit of the value. -/
lemma grid_lt_width (hx : x.magnitude ≠ 0) :
    (10 : ℚ) ^ ((RoundingInterval.of x).leadingExponent - 16) <
      (RoundingInterval.of x).highEnd - (RoundingInterval.of x).lowEnd := by
  have hsignificand := significand_pos hx
  have hunit := Binary64.two_zpow_pos x.exponent
  have hleading : (10 : ℚ) ^ (RoundingInterval.of x).leadingExponent ≤ x.absRat := by
    set e := (RoundingInterval.of x).leadingExponent
    have hvalue : 0 < (RoundingInterval.of x).value :=
      Nat.mul_pos (Nat.mul_pos (by decide) hsignificand) (Nat.pow_pos (by decide))
    have hpos : (1 : ℚ) ≤ (RoundingInterval.of x).floorOnGrid e := by
      exact_mod_cast floorOnGrid_leadingExponent_pos hvalue (denominator_of_pos x)
    calc (10 : ℚ) ^ e ≤ (RoundingInterval.of x).floorOnGrid e * 10 ^ e :=
          le_mul_of_one_le_left (zpow_pos (by norm_num) e).le hpos
      _ ≤ (RoundingInterval.of x).center := floorOnGrid_le_center (denominator_of_pos x) e
      _ = x.absRat := center_of x
  rw [highEnd_of, lowEnd_of hsignificand, zpow_sub₀ (by norm_num), div_lt_iff₀ (by norm_num),
    Binary64.gapBelow]
  rw [Binary64.absRat] at hleading ⊢
  split
  · -- a power of two, whose gap below is the smaller one
    rename_i hpower
    have hhalf : (2 : ℚ) ^ (x.exponent - 1) = 2 ^ x.exponent / 2 := by
      rw [Binary64.two_zpow_eq x.exponent]
      ring
    rw [hpower.1, Nat.pow_eq] at hleading
    rw [hhalf]
    push_cast at hleading
    norm_num at hleading ⊢
    linarith
  · have hbound : (x.significand : ℚ) * 2 ^ x.exponent < 2 ^ 53 * 2 ^ x.exponent :=
      mul_lt_mul_of_pos_right (by exact_mod_cast x.significand_lt) hunit
    norm_num at hbound ⊢
    linarith

end RoundingInterval

/-- Without its zeros at the end a decimal has the same value. -/
lemma toRat_withoutTrailingZeros (d : Decimal) : d.withoutTrailingZeros.toRat = d.toRat := by
  fun_induction withoutTrailingZeros d with
  | case1 d hzero ih =>
    rw [ih, toRat, toRat, zpow_add_one₀ (by norm_num)]
    have hten : (d.significand : ℚ) = (d.significand / 10 : ℕ) * 10 := by
      have : d.significand = d.significand / 10 * 10 := by omega
      exact_mod_cast this
    rw [hten]
    ring
  | case2 d hzero => rfl

/-- **The shortest decimal of a value lies in its rounding interval.** -/
theorem mem_shortest (tie : Tie) {x : Binary64} (hx : x.magnitude ≠ 0) :
    (RoundingInterval.of x).Mem (shortest tie x).toRat := by
  set r := RoundingInterval.of x with hr
  have hdenominator : 0 < r.denominator := RoundingInterval.denominator_of_pos x
  have hlow : r.lowEnd < r.center := by
    rw [hr, RoundingInterval.center_of, RoundingInterval.lowEnd_of (significand_pos hx)]
    linarith [x.gapBelow_pos]
  have hhigh : r.center < r.highEnd := by
    rw [hr, RoundingInterval.center_of, RoundingInterval.highEnd_of]
    linarith [Binary64.two_zpow_pos x.exponent]
  rw [shortest, toRat_withoutTrailingZeros]
  cases hchosen : (List.range mostDigits).findSome?
      fun n : Nat => r.nearestOnGrid? tie (r.leadingExponent - n) with
  | none =>
    -- the finest grid has a point in the interval
    obtain ⟨d, hd⟩ := RoundingInterval.exists_nearestOnGrid hdenominator hlow hhigh
      (RoundingInterval.grid_lt_width hx) tie
    have hnone := List.findSome?_eq_none_iff.1 hchosen 16 (List.mem_range.2 (by decide))
    exact absurd (hd.symm.trans hnone) (Option.some_ne_none d)
  | some d =>
    obtain ⟨n, -, hn⟩ := List.exists_of_findSome?_eq_some hchosen
    exact RoundingInterval.mem_of_nearestOnGrid hdenominator hn

end Decimal

/-! ## Reading a decimal -/

namespace Binary64

open Decimal

variable {x y : Binary64} {q : ℚ}

/-- To a number of the rounding interval of a value no other value is nearer, and another value is
equally near only if the number is an end of the interval. -/
theorem abs_sub_absRat_le (hx : x.magnitude ≠ 0) (hq : (RoundingInterval.of x).Mem q)
    (h : y.absRat ≠ x.absRat) : |q - x.absRat| ≤ |q - y.absRat| ∧
      (|q - y.absRat| = |q - x.absRat| → x.significand % 2 = 0) := by
  have hlow := hq.lowEnd_le
  have hhigh := hq.le_highEnd
  have hclosed := hq.closed_of_end
  rw [RoundingInterval.lowEnd_of (significand_pos hx)] at hlow hclosed
  rw [RoundingInterval.highEnd_of] at hhigh hclosed
  rw [RoundingInterval.closed_of, decide_eq_true_eq] at hclosed
  have hpos := x.gapBelow_pos
  have hle := x.gapBelow_le
  rcases gap h with hgap | hgap
  · -- the other value is larger
    have hfar : y.absRat - q ≤ |q - y.absRat| := by
      rw [abs_sub_comm]
      exact le_abs_self _
    have hnear : |q - x.absRat| ≤ 2 ^ x.exponent / 2 := abs_le.2 ⟨by linarith, by linarith⟩
    refine ⟨by linarith, fun heq => hclosed (.inr (le_antisymm hhigh ?_))⟩
    linarith
  · -- the other value is smaller
    have hfar : q - y.absRat ≤ |q - y.absRat| := le_abs_self _
    rcases le_total x.absRat q with hside | hside
    · rw [abs_of_nonneg (sub_nonneg.2 hside)]
      refine ⟨by linarith, fun heq => ?_⟩
      linarith
    · rw [abs_of_nonpos (sub_nonpos.2 hside)]
      refine ⟨by linarith, fun heq => hclosed (.inl (le_antisymm ?_ hlow))⟩
      linarith

/-- Two numbers of the same sign are as far apart as their absolute values. -/
lemma abs_withSign_sub (negative : Bool) (p q : ℚ) :
    |withSign negative p - withSign negative q| = |p - q| := by
  cases negative with
  | false => rfl
  | true =>
    rw [withSign, withSign, if_pos rfl, if_pos rfl, neg_sub_neg, abs_sub_comm]

/-- Two numbers of different signs are as far apart as the sum of their absolute values. -/
lemma abs_withSign_sub_of_ne {p q : ℚ} (hp : 0 ≤ p) (hq : 0 ≤ q) {negative negative' : Bool}
    (h : negative ≠ negative') : |withSign negative p - withSign negative' q| = p + q := by
  have hsum : |p + q| = p + q := abs_of_nonneg (add_nonneg hp hq)
  cases negative <;> cases negative'
  · exact absurd rfl h
  · rw [withSign, withSign, if_neg (by decide), if_pos rfl, sub_neg_eq_add, hsum]
  · rw [withSign, withSign, if_pos rfl, if_neg (by decide), ← neg_add', abs_neg, hsum]
  · exact absurd rfl h

/-- An absolute value is not negative. -/
lemma absRat_nonneg (x : Binary64) : 0 ≤ x.absRat :=
  mul_nonneg (Nat.cast_nonneg _) (two_zpow_pos _).le

/-- The absolute value of a value other than zero is positive. -/
lemma absRat_pos (hx : x.magnitude ≠ 0) : 0 < x.absRat :=
  mul_pos (by exact_mod_cast significand_pos hx) (two_zpow_pos _)

/-- The numbers that are read as a finite value are smaller than half a unit above the largest one.

**Proof sketch.** The significand of the largest finite value is odd, so that the upper end of its
interval does not belong to the interval; the upper ends of all other values are smaller. -/
lemma lt_of_mem (hfinite : x.isFinite = true) (hq : (RoundingInterval.of x).Mem q) :
    q < 2 ^ 1024 - 2 ^ 970 := by
  have hscale : (2 : ℚ) ^ x.exponent ≤ 2 ^ (971 : ℤ) :=
    zpow_le_zpow_right₀ (by norm_num) (exponent_le hfinite)
  have hthreshold : (2 : ℚ) ^ 1024 - 2 ^ 970 = (2 ^ 53 - 1 / 2) * 2 ^ (971 : ℤ) := by
    have hlarge : (2 : ℚ) ^ 1024 = 2 ^ 54 * 2 ^ 970 := by rw [← pow_add]
    have hunit : (2 : ℚ) ^ (971 : ℤ) = 2 * 2 ^ 970 := by rw [zpow_ofNat, ← pow_succ']
    rw [hlarge, hunit]
    generalize (2 : ℚ) ^ 970 = unit
    ring
  have hhigh : (RoundingInterval.of x).highEnd = (x.significand + 1 / 2) * 2 ^ x.exponent := by
    rw [RoundingInterval.highEnd_of, absRat]
    ring
  have hend : ∀ {b : ℚ}, x.significand + 1 / 2 ≤ b → 0 ≤ b →
      (RoundingInterval.of x).highEnd ≤ b * 2 ^ (971 : ℤ) := by
    intro b hb hnonneg
    rw [hhigh]
    exact mul_le_mul hb hscale (two_zpow_pos _).le hnonneg
  rw [hthreshold]
  rcases hq.le_highEnd.lt_or_eq with hlt | heq
  · have hbound : (x.significand : ℚ) + 1 ≤ 2 ^ 53 := by exact_mod_cast x.significand_lt
    exact hlt.trans_le (hend (by linarith) (by norm_num))
  · have heven : x.significand % 2 = 0 := by
      have hclosed := hq.closed_of_end (.inr heq)
      rwa [RoundingInterval.closed_of, decide_eq_true_eq] at hclosed
    have hbound : (x.significand : ℚ) + 2 ≤ 2 ^ 53 := by
      have : x.significand + 2 ≤ 2 ^ 53 := by
        have := x.significand_lt
        omega
      exact_mod_cast this
    rw [heq]
    refine (hend (b := 2 ^ 53 - 3 / 2) (by linarith) (by norm_num)).trans_lt ?_
    exact mul_lt_mul_of_pos_right (by norm_num) (two_zpow_pos _)

/-- **A number of the rounding interval of a value is read as the value.** -/
theorem isReadFrom_of_mem (hfinite : x.isFinite = true) (hx : x.magnitude ≠ 0) (hpos : 0 < q)
    (hq : (RoundingInterval.of x).Mem q) : x.IsReadFrom (withSign x.isNegative q) := by
  have hnear : ∀ y : Binary64, |q - x.absRat| ≤ |q - y.absRat| := by
    intro y
    by_cases hy : y.absRat = x.absRat
    · rw [hy]
    · exact (abs_sub_absRat_le hx hq hy).1
  have hsigns : ∀ y : Binary64, |q - y.absRat| ≤ |withSign x.isNegative q - y.toRat| := by
    intro y
    by_cases hsign : x.isNegative = y.isNegative
    · rw [toRat, hsign, abs_withSign_sub]
    · rw [toRat, abs_withSign_sub_of_ne hpos.le y.absRat_nonneg hsign]
      exact abs_le.2 ⟨by linarith, by linarith [y.absRat_nonneg]⟩
  have hself : |withSign x.isNegative q - x.toRat| = |q - x.absRat| := abs_withSign_sub _ _ _
  refine ⟨hfinite, fun y _ => ?_, fun y _ hne htie => ?_, ?_⟩
  · rw [hself]
    exact (hnear y).trans (hsigns y)
  · rw [hself] at htie
    by_cases hy : y.absRat = x.absRat
    · -- only the signs differ, and then the number is farther from the other value
      have hsign : x.isNegative ≠ y.isNegative := fun hsign => hne (by rw [toRat, toRat, hy, hsign])
      rw [toRat, abs_withSign_sub_of_ne hpos.le y.absRat_nonneg hsign, hy] at htie
      have hsum : |q - x.absRat| < q + x.absRat :=
        abs_lt.2 ⟨by linarith, by linarith [absRat_pos hx]⟩
      exact absurd htie hsum.ne'
    · refine (abs_sub_absRat_le hx hq hy).2 (le_antisymm ?_ (hnear y))
      rw [← htie]
      exact hsigns y
  · have habs : |withSign x.isNegative q| = q := by
      rw [withSign]
      split
      · rw [abs_neg, abs_of_pos hpos]
      · exact abs_of_pos hpos
    rw [habs]
    exact lt_of_mem hfinite hq

/-- A zero is read as one. -/
lemma isReadFrom_zero (hx : x.magnitude = 0) : x.IsReadFrom 0 := by
  have hsignificand : x.significand = 0 := by
    rw [significand, biasedExponent, hx]
    rfl
  have hvalue : x.toRat = 0 := by
    rw [toRat, absRat, hsignificand, Nat.cast_zero, zero_mul, withSign, neg_zero, ite_self]
  refine ⟨?_, fun y _ => ?_, fun y _ _ _ => ?_, ?_⟩
  · rw [isFinite, hx]
    decide
  · rw [hvalue, sub_self, abs_zero]
    exact abs_nonneg _
  · rw [hsignificand]
  · rw [abs_zero, sub_pos]
    exact pow_lt_pow_right₀ (by norm_num) (by norm_num)

/-- **The shortest decimal of a finite value is read as the value.** -/
theorem isReadFrom_shortest (tie : Tie) (hfinite : x.isFinite = true) :
    x.IsReadFrom (withSign x.isNegative
      (if x.magnitude = 0 then 0 else (shortest tie x).toRat)) := by
  split
  · rename_i hx
    rw [withSign, neg_zero, ite_self]
    exact isReadFrom_zero hx
  · rename_i hx
    have hpos : 0 < (shortest tie x).toRat :=
      mul_pos (by exact_mod_cast shortest_significand_pos tie hx) (zpow_pos (by norm_num) _)
    exact isReadFrom_of_mem hfinite hx hpos (mem_shortest tie hx)

end Binary64

end VersionedLayout
