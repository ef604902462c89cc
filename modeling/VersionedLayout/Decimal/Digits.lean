set_option autoImplicit false

/-!
# Decimal digits

Natural numbers and integers in decimal: no sign but a minus, no superfluous zero in front.

## Main definitions

* `VersionedLayout.Decimal.digits` — the digits of a natural number, most significant first.
* `VersionedLayout.Decimal.natural`, `VersionedLayout.Decimal.integer` — the written forms.
* `VersionedLayout.Decimal.valueOf` — the number that a list of digits denotes.
-/

namespace VersionedLayout

namespace Decimal

/-- The decimal digits of `n`, most significant first; zero has the one digit `0`. -/
def digits (n : Nat) : List Char :=
  if n < 10 then [n.digitChar] else digits (n / 10) ++ [(n % 10).digitChar]

/-- How many decimal digits `n` has. -/
def digitCount (n : Nat) : Nat :=
  (digits n).length

/-- The written form of a natural number. -/
def natural (n : Nat) : String :=
  String.ofList (digits n)

/-- The written form of an integer: its absolute value, after a minus if it is negative. -/
def integer : Int → String
  | .ofNat n => natural n
  | .negSucc n => "-" ++ natural (n + 1)

/-- The number denoted by a list of digits, most significant first. -/
def valueOf (ds : List Char) : Nat :=
  ds.foldl (fun v d => 10 * v + (d.toNat - 48)) 0

/-- A number below ten has one digit. -/
theorem digits_of_lt {n : Nat} (h : n < 10) : digits n = [n.digitChar] := by
  rw [digits, if_pos h]

/-- The last digit of a number from ten on is its remainder by ten, behind those of the quotient. -/
theorem digits_of_le {n : Nat} (h : 10 ≤ n) :
    digits n = digits (n / 10) ++ [(n % 10).digitChar] := by
  rw [digits, if_neg (by omega)]

/-- Every number has a digit. -/
theorem digits_ne_nil (n : Nat) : digits n ≠ [] := by
  rw [digits]
  split <;> simp

/-- The code of a digit is that of zero plus its value. -/
theorem digitChar_toNat {d : Nat} (h : d < 10) : d.digitChar.toNat = 48 + d := by
  revert h
  revert d
  decide

/-- What is written for a value below ten is a digit. -/
theorem isDigit_digitChar {d : Nat} (h : d < 10) : d.digitChar.isDigit = true := by
  revert h
  revert d
  decide

/-- A written natural number consists of digits. -/
theorem isDigit_of_mem_digits {n : Nat} {c : Char} (h : c ∈ digits n) : c.isDigit = true := by
  induction n using Nat.strongRecOn with
  | ind n ih =>
    by_cases hn : n < 10
    · rw [digits_of_lt hn, List.mem_singleton] at h
      rw [h]
      exact isDigit_digitChar hn
    · rw [digits_of_le (by omega), List.mem_append, List.mem_singleton] at h
      rcases h with h | h
      · exact ih (n / 10) (by omega) h
      · rw [h]
        exact isDigit_digitChar (Nat.mod_lt n (by decide))

/-- The digits of a number denote it. -/
@[simp]
theorem valueOf_digits (n : Nat) : valueOf (digits n) = n := by
  induction n using Nat.strongRecOn with
  | ind n ih =>
    by_cases hn : n < 10
    · simp [digits_of_lt hn, valueOf, digitChar_toNat hn]
    · have h := ih (n / 10) (by omega)
      have hd := digitChar_toNat (Nat.mod_lt n (show 0 < 10 by decide))
      rw [valueOf] at h
      rw [digits_of_le (by omega), valueOf, List.foldl_append, h]
      simp [hd]
      omega

end Decimal

end VersionedLayout
