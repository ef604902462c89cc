import Mathlib.Data.List.Basic
import Mathlib.Data.List.Induction
import VersionedLayout.Decimal.Digits
set_option autoImplicit false

/-!
# Texts of natural numbers and integers

The written form of a number has no superfluous zero in front, and its length bounds the number
between two powers of ten.

## Main definitions

* `VersionedLayout.Decimal.Canonical` — digits without a superfluous zero in front.
* `VersionedLayout.Decimal.Denotes` — a text is the written form of an integer.

## Main results

* `VersionedLayout.Decimal.canonical_digits` — the digits of a natural number are canonical.
* `VersionedLayout.Decimal.valueOf_append` — the number that one list of digits behind another
  denotes.
* `VersionedLayout.Decimal.denotes_integer` — the written form of an integer denotes it.
* `VersionedLayout.Decimal.Denotes.unique` — it denotes no other integer.
* `VersionedLayout.Decimal.lt_pow_digitCount`, `VersionedLayout.Decimal.pow_digitCount_le` — what
  the number of digits says about a number.
-/

namespace VersionedLayout

namespace Decimal

/-! ## Digits -/

/-- At least one digit, and a zero in front only if it is the only one. -/
structure Canonical (ds : List Char) : Prop where
  ne_nil : ds ≠ []
  isDigit : ∀ c ∈ ds, c.isDigit = true
  length_eq_one : ds.head? = some '0' → ds.length = 1

/-- The first digit of a number from ten on is that of its quotient by ten. -/
lemma head?_digits_of_le {n : Nat} (h : 10 ≤ n) : (digits n).head? = (digits (n / 10)).head? := by
  rw [digits_of_le h, List.head?_append_of_ne_nil _ (digits_ne_nil _)]

/-- Only zero begins with a zero. -/
lemma eq_zero_of_head?_digits {n : Nat} (h : (digits n).head? = some '0') : n = 0 := by
  induction n using Nat.strongRecOn with
  | ind n ih =>
    by_cases hn : n < 10
    · rw [digits_of_lt hn, List.head?_cons, Option.some.injEq] at h
      have hzero := digitChar_toNat hn
      rw [h] at hzero
      have : ('0' : Char).toNat = 48 := rfl
      omega
    · rw [head?_digits_of_le (by omega)] at h
      have := ih (n / 10) (by omega) h
      omega

/-- The digits of a number have no zero in front, unless it is zero. -/
theorem canonical_digits (n : Nat) : Canonical (digits n) where
  ne_nil := digits_ne_nil n
  isDigit _ := isDigit_of_mem_digits
  length_eq_one h := by
    rw [eq_zero_of_head?_digits h, digits_of_lt (by decide)]
    rfl

/-- Every number has a digit. -/
lemma digitCount_pos (n : Nat) : 0 < digitCount n :=
  List.length_pos_of_ne_nil (digits_ne_nil n)

/-- A number from ten on has one digit more than its quotient by ten. -/
lemma digitCount_of_le {n : Nat} (h : 10 ≤ n) : digitCount n = digitCount (n / 10) + 1 := by
  rw [digitCount, digitCount, digits_of_le h, List.length_append]
  rfl

/-- The next power of ten is ten times as large. -/
lemma pow_ten_succ (k : Nat) : Nat.pow 10 (k + 1) = Nat.pow 10 k * 10 := rfl

/-- A number with `k` digits lies below the power of ten with the exponent `k`. -/
theorem lt_pow_digitCount (n : Nat) : n < Nat.pow 10 (digitCount n) := by
  induction n using Nat.strongRecOn with
  | ind n ih =>
    by_cases hn : n < 10
    · rw [digitCount, digits_of_lt hn]
      exact hn
    · have hlt := ih (n / 10) (by omega)
      rw [digitCount_of_le (by omega), pow_ten_succ]
      omega

/-- A positive number with `k` digits is at least the power of ten with the exponent `k - 1`. -/
theorem pow_digitCount_le {n : Nat} (h : 0 < n) : Nat.pow 10 (digitCount n - 1) ≤ n := by
  induction n using Nat.strongRecOn with
  | ind n ih =>
    by_cases hn : n < 10
    · rw [digitCount, digits_of_lt hn]
      exact h
    · have hpow := ih (n / 10) (by omega) (by omega)
      obtain ⟨k, hk⟩ := Nat.exists_eq_add_one.2 (digitCount_pos (n / 10))
      rw [digitCount_of_le (by omega), hk, Nat.add_sub_cancel, pow_ten_succ]
      rw [hk, Nat.add_sub_cancel] at hpow
      omega

/-! ## The number that digits denote -/

/-- A digit behind others multiplies their value by ten and adds its own. -/
lemma valueOf_concat (ds : List Char) (d : Char) :
    valueOf (ds ++ [d]) = 10 * valueOf ds + (d.toNat - 48) :=
  List.foldl_append

/-- Digits in front count as many powers of ten as there are digits behind them. -/
theorem valueOf_append (as bs : List Char) :
    valueOf (as ++ bs) = valueOf as * Nat.pow 10 bs.length + valueOf bs := by
  induction bs using List.reverseRecOn with
  | nil =>
    rw [List.append_nil]
    exact (Nat.mul_one _).symm
  | append_singleton bs b ih =>
    rw [← List.append_assoc, valueOf_concat, valueOf_concat, ih, List.length_append,
      List.length_singleton, pow_ten_succ, ← Nat.mul_assoc]
    omega

/-- Zeros have the value zero. -/
lemma valueOf_zeros (k : Nat) : valueOf (List.replicate k '0') = 0 := by
  induction k with
  | zero => rfl
  | succ k ih =>
    rw [List.replicate_succ', valueOf_concat, ih]
    rfl

/-! ## Integers -/

/-- The text is the written form of an integer: its canonical digits, behind a minus exactly if it
is negative. -/
def Denotes (text : String) (m : Int) : Prop :=
  ∃ ds, Canonical ds ∧
    (text.toList = ds ∧ m = valueOf ds ∨ text.toList = '-' :: ds ∧ m = -(valueOf ds : Int) ∧ m < 0)

/-- The numeral of a natural number denotes it. -/
lemma denotes_natural (n : Nat) : Denotes (natural n) n := by
  refine ⟨digits n, canonical_digits n, .inl ⟨String.toList_ofList, ?_⟩⟩
  rw [valueOf_digits]

/-- **The written form of an integer denotes it.** -/
theorem denotes_integer (m : Int) : Denotes (integer m) m := by
  cases m with
  | ofNat n => exact denotes_natural n
  | negSucc n =>
    refine ⟨digits (n + 1), canonical_digits (n + 1), .inr ⟨?_, ?_, Int.negSucc_lt_zero n⟩⟩
    · rw [integer, String.toList_append, natural, String.toList_ofList (l := digits (n + 1))]
      rfl
    · rw [valueOf_digits]
      rfl

namespace Denotes

variable {text : String} {m n : Int}

/-- A numeral is not empty. -/
lemma ne_nil (h : Denotes text m) : text.toList ≠ [] := by
  obtain ⟨ds, hds, ⟨htext, -⟩ | ⟨htext, -⟩⟩ := h
  · rw [htext]
    exact hds.ne_nil
  · rw [htext]
    exact List.cons_ne_nil _ _

/-- A numeral is made of digits and minus signs. -/
lemma isDigit_or_eq_minus (h : Denotes text m) : ∀ c ∈ text.toList, c.isDigit = true ∨ c = '-' := by
  obtain ⟨ds, hds, ⟨htext, -⟩ | ⟨htext, -⟩⟩ := h
  · rw [htext]
    exact fun c hc => .inl (hds.isDigit c hc)
  · rw [htext, List.forall_mem_cons]
    exact ⟨.inr rfl, fun c hc => .inl (hds.isDigit c hc)⟩

/-- **A text is the written form of one integer only.** -/
theorem unique (hm : Denotes text m) (hn : Denotes text n) : m = n := by
  -- a minus tells the negative integers from the others
  have hsign : ∀ {ds es : List Char}, Canonical ds → ds ≠ '-' :: es := by
    rintro ds es hds rfl
    exact absurd (hds.isDigit '-' List.mem_cons_self) (by decide)
  obtain ⟨ds, hds, ⟨hdigits, rfl⟩ | ⟨hdigits, rfl, -⟩⟩ := hm
  · obtain ⟨es, -, ⟨htext, rfl⟩ | ⟨htext, -⟩⟩ := hn
    · rw [← hdigits, htext]
    · exact absurd (hdigits.symm.trans htext) (hsign hds)
  · obtain ⟨es, hes, ⟨htext, -⟩ | ⟨htext, rfl, -⟩⟩ := hn
    · exact absurd (htext.symm.trans hdigits) (hsign hes)
    · rw [(List.cons.inj (hdigits.symm.trans htext)).2]

end Denotes

end Decimal

end VersionedLayout
