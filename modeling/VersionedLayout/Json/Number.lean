import VersionedLayout.Decimal.Digits
import VersionedLayout.Json.Token
set_option autoImplicit false

/-!
# Numbers in JSON texts

The extent of a number in a text, and whether its value exceeds the range of `binary64`.

The value is estimated as a reader does that accumulates the digits in a 64-bit significand. The
digits of the integral part are counted, but no longer taken, from the first one that does not fit;
those of the fraction are taken until one does not fit. The significand and the power of ten are
then rounded to floating-point numbers and multiplied.

## Main definitions

* `VersionedLayout.Json.Numeral` — the parts of a number.
* `VersionedLayout.Json.scanNumeral` — the number at the beginning of a text.
* `VersionedLayout.Json.Numeral.tooLarge` — whether it exceeds the range.
-/

namespace VersionedLayout

namespace Json

/-- The parts of a number. -/
structure Numeral where
  /-- Whether there is a minus. -/
  negative : Bool
  /-- The digits of the integral part. -/
  whole : List Char
  /-- The digits behind the point; without a point there are none. -/
  fraction : List Char
  /-- The exponent as it is written, from its `e` on; without one it is empty. -/
  exponentText : List Char
  /-- The value of the exponent. -/
  exponent : Int
  deriving DecidableEq, Repr

namespace Numeral

/-- The text of a number. -/
def text (n : Numeral) : List Char :=
  (if n.negative then ['-'] else []) ++ n.whole ++
    (if n.fraction.isEmpty then [] else '.' :: n.fraction) ++ n.exponentText

end Numeral

/-! ## Scanning -/

/-- The digits at the beginning of a text, and what follows them. There must be at least one. -/
def scanDigits (cs : List Char) : Except ReadError (List Char × List Char) :=
  match cs.takeWhile Char.isDigit, cs.dropWhile Char.isDigit with
  | [], [] => .error .truncated
  | [], _ :: _ => .error .malformed
  | ds, rest => .ok (ds, rest)

/-- The minus at the beginning of a text, if there is one. -/
def scanMinus : List Char → Bool × List Char
  | '-' :: cs => (true, cs)
  | cs => (false, cs)

/-- The digits of an integral part. Behind a leading zero there must not be another digit. -/
def scanWhole (cs : List Char) : Except ReadError (List Char × List Char) := do
  let (ds, rest) ← scanDigits cs
  if ds.head? = some '0' ∧ ds.length ≠ 1 then .error .malformed else .ok (ds, rest)

/-- The digits of a fraction, if there is a point. -/
def scanFraction : List Char → Except ReadError (List Char × List Char)
  | '.' :: cs => scanDigits cs
  | cs => .ok ([], cs)

/-- The sign at the beginning of an exponent, if there is one. -/
def scanSign : List Char → List Char × List Char
  | '+' :: cs => (['+'], cs)
  | '-' :: cs => (['-'], cs)
  | cs => ([], cs)

/-- An exponent, if there is one: its text, its value, and what follows it. -/
def scanExponent : List Char → Except ReadError (List Char × Int × List Char)
  | [] => .ok ([], 0, [])
  | c :: cs =>
    if c = 'e' ∨ c = 'E' then do
      let (sign, cs) := scanSign cs
      let (ds, rest) ← scanDigits cs
      let value : Int := if sign = ['-'] then -(Decimal.valueOf ds : Int) else Decimal.valueOf ds
      return (c :: sign ++ ds, value, rest)
    else .ok ([], 0, c :: cs)

/-- The number at the beginning of a text, and what follows it. -/
def scanNumeral (cs : List Char) : Except ReadError (Numeral × List Char) := do
  let (negative, cs) := scanMinus cs
  let (whole, cs) ← scanWhole cs
  let (fraction, cs) ← scanFraction cs
  let (exponentText, exponent, cs) ← scanExponent cs
  return ({ negative, whole, fraction, exponentText, exponent }, cs)

/-! ## Range -/

/-- Digits appended to a significand as long as it stays below `2 ^ 64`, and the number of digits
that are left. -/
def accumulate (significand : Nat) : List Char → Nat × Nat
  | [] => (significand, 0)
  | d :: ds =>
    let next := 10 * significand + (d.toNat - 48)
    if next < Nat.pow 2 64 then accumulate next ds else (significand, ds.length + 1)

/-- A natural number rounded to 53 significant bits, a half to the even neighbour. -/
def roundToDouble (n : Nat) : Nat :=
  if n < Nat.pow 2 53 then n
  else
    let unit := Nat.pow 2 (n.log2 - 52)
    let q := n / unit
    let r := n % unit
    if unit < 2 * r ∨ (unit = 2 * r ∧ q % 2 = 1) then (q + 1) * unit else q * unit

/-- The largest power of ten that is a floating-point number. -/
def largestPower : Nat := 308

/-- Whether a number exceeds the range of floating-point numbers. -/
def Numeral.tooLarge (n : Numeral) : Bool :=
  let (whole, dropped) := accumulate 0 n.whole
  let (significand, unused) := accumulate whole n.fraction
  let exponent : Int := n.exponent + dropped - (n.fraction.length - unused : Nat)
  if significand = 0 ∨ exponent < 0 then false
  else if largestPower < exponent then true
  else
    Nat.pow 2 1024 - Nat.pow 2 970 ≤
      roundToDouble significand * roundToDouble (Nat.pow 10 exponent.toNat)

/-! ## Progress -/

/-- Digits that are read take a character at least. -/
theorem scanDigits_length {cs ds rest : List Char} (h : scanDigits cs = .ok (ds, rest)) :
    rest.length < cs.length := by
  have hlen := congrArg List.length (List.takeWhile_append_dropWhile (p := Char.isDigit) (l := cs))
  rw [List.length_append] at hlen
  unfold scanDigits at h
  split at h
  · simp at h
  · simp at h
  · rename_i hnil hcons
    obtain ⟨rfl, rfl⟩ := by simpa using h
    cases ht : cs.takeWhile Char.isDigit with
    | nil =>
      cases hd : cs.dropWhile Char.isDigit with
      | nil => exact absurd hd (hnil ht)
      | cons c rest => exact absurd hd (hcons c rest ht)
    | cons d ds =>
      rw [ht, List.length_cons] at hlen
      omega

/-- The minus sign leaves no more characters than there were. -/
theorem scanMinus_length (cs : List Char) : (scanMinus cs).2.length ≤ cs.length := by
  unfold scanMinus
  split <;> simp

/-- The sign of an exponent leaves no more characters than there were. -/
theorem scanSign_length (cs : List Char) : (scanSign cs).2.length ≤ cs.length := by
  unfold scanSign
  split <;> simp

/-- The whole part takes a character at least. -/
theorem scanWhole_length {cs ds rest : List Char} (h : scanWhole cs = .ok (ds, rest)) :
    rest.length < cs.length := by
  unfold scanWhole at h
  cases hd : scanDigits cs with
  | error e => simp [hd, bind, Except.bind] at h
  | ok p =>
    simp only [hd, bind, Except.bind] at h
    split at h
    · simp at h
    · obtain ⟨rfl, rfl⟩ := by simpa using h
      exact scanDigits_length hd

/-- The fraction leaves no more characters than there were. -/
theorem scanFraction_length {cs ds rest : List Char} (h : scanFraction cs = .ok (ds, rest)) :
    rest.length ≤ cs.length := by
  unfold scanFraction at h
  split at h
  · have := scanDigits_length h
    simp only [List.length_cons]
    omega
  · obtain ⟨_, rfl⟩ := by simpa using h
    exact Nat.le_refl _

/-- The exponent leaves no more characters than there were. -/
theorem scanExponent_length {cs text rest : List Char} {value : Int}
    (h : scanExponent cs = .ok (text, value, rest)) : rest.length ≤ cs.length := by
  unfold scanExponent at h
  split at h
  · obtain ⟨_, _, rfl⟩ := by simpa using h
    exact Nat.le_refl _
  · split at h
    · rename_i c cs _
      have hs := scanSign_length cs
      simp only [bind, Except.bind] at h
      split at h
      · simp at h
      · rename_i p hd
        obtain ⟨_, _, rfl⟩ := by simpa [pure, Except.pure] using h
        have := scanDigits_length hd
        simp only [List.length_cons]
        omega
    · obtain ⟨_, _, rfl⟩ := by simpa using h
      exact Nat.le_refl _

/-- A number is not empty. -/
theorem scanNumeral_length {cs rest : List Char} {n : Numeral}
    (h : scanNumeral cs = .ok (n, rest)) : rest.length < cs.length := by
  have hm := scanMinus_length cs
  unfold scanNumeral at h
  simp only [bind, Except.bind] at h
  split at h
  · simp at h
  · rename_i hw
    have hw' := scanWhole_length hw
    split at h
    · simp at h
    · rename_i hf
      have hf' := scanFraction_length hf
      split at h
      · simp at h
      · rename_i he
        have he' := scanExponent_length he
        obtain ⟨_, rfl⟩ := by simpa [pure, Except.pure] using h
        omega

end Json

end VersionedLayout
