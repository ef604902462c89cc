import Mathlib.Data.List.Basic
import VersionedLayout.Json.Lexer
import VersionedLayout.Json.Printer
set_option autoImplicit false

/-!
# Strings in front of a text

A string is read back from between its quotes, character for character, whatever follows the
closing quote. A character may be spelled in several ways inside a string; the scanner undoes all of
them, and the printer chooses one.

## Main definitions

* `VersionedLayout.Json.Spelling` — the ways to spell a character inside a string.
* `VersionedLayout.Json.Spells` — the ways to spell a string.

## Main results

* `VersionedLayout.Json.Spelling.scanString_append` — the scanner undoes every spelling.
* `VersionedLayout.Json.Spells.stringLexeme_append` — a spelled string is the token of that string.
* `VersionedLayout.Json.spells_escape` — the printer spells every string.
-/

namespace VersionedLayout

namespace Json

/-- A spelling of a character inside a string: the character itself, an escape of one letter, or
the hexadecimal digits of its one or two code units in UTF-16. -/
inductive Spelling : Char → List Char → Prop where
  | plain {c : Char} (quote : c ≠ '"') (backslash : c ≠ '\\') (control : ¬ c.toNat < 0x20) :
      Spelling c [c]
  | letter {c e : Char} (value : simpleEscape? e = some c) : Spelling c ['\\', e]
  | unit {c h₁ h₂ h₃ h₄ : Char} (value : hexNumber? [h₁, h₂, h₃, h₄] = some c.toNat) :
      Spelling c ['\\', 'u', h₁, h₂, h₃, h₄]
  | pair {lead trail : Nat} {h₁ h₂ h₃ h₄ k₁ k₂ k₃ k₄ : Char}
      (first : hexNumber? [h₁, h₂, h₃, h₄] = some lead) (isLead : isLeading lead = true)
      (second : hexNumber? [k₁, k₂, k₃, k₄] = some trail) (isTrail : isTrailing trail = true) :
      Spelling (joinPair lead trail)
        ['\\', 'u', h₁, h₂, h₃, h₄, '\\', 'u', k₁, k₂, k₃, k₄]

/-- A spelling of a string: its characters are spelled one after another. -/
inductive Spells : List Char → List Char → Prop where
  | nil : Spells [] []
  | cons {c : Char} {cs text texts : List Char} :
      Spelling c text → Spells texts cs → Spells (text ++ texts) (c :: cs)

/-! ## Scanning a spelling -/

/-- A scan with more units in front. -/
def StringScan.prepend (us : List StringUnit) (s : StringScan) : StringScan :=
  { s with units := us ++ s.units }

/-- Four characters have four bytes at least. -/
lemma not_byteCount_lt (h₁ h₂ h₃ h₄ : Char) (rest : List Char) :
    ¬ byteCount (h₁ :: h₂ :: h₃ :: h₄ :: rest) < 4 := by
  have := h₁.utf8Size_pos
  have := h₂.utf8Size_pos
  have := h₃.utf8Size_pos
  have := h₄.utf8Size_pos
  simp only [byteCount, List.foldr_cons]
  omega

/-- A character that needs no escape is read as it is. -/
lemma scanString_plain {c : Char} (quote : c ≠ '"') (backslash : c ≠ '\\')
    (control : ¬ c.toNat < 0x20) (rest : List Char) :
    scanString (c :: rest) = .push (.char c) (scanString rest) := by
  rw [scanString.eq_def]
  simp only [if_neg quote, if_neg backslash, if_neg control]

/-- A backslash and a letter are read as the character that they escape. -/
lemma scanString_letter {c e : Char} (h : simpleEscape? e = some c) (rest : List Char) :
    scanString ('\\' :: e :: rest) = .push (.char c) (scanString rest) := by
  have hu : e ≠ 'u' := by
    rintro rfl
    cases h
  rw [scanString.eq_def]
  simp only [if_neg hu, h, if_true]
  rfl

/-- A backslash, a letter and four digits are read as a code unit. -/
lemma scanString_unit {h₁ h₂ h₃ h₄ : Char} {n : Nat} (h : hexNumber? [h₁, h₂, h₃, h₄] = some n)
    (rest : List Char) :
    scanString ('\\' :: 'u' :: h₁ :: h₂ :: h₃ :: h₄ :: rest) =
      .push (.code n) (scanString rest) := by
  rw [scanString.eq_def]
  simp only [if_true, if_neg (not_byteCount_lt h₁ h₂ h₃ h₄ rest), h]
  rfl

/-- No character is one half of a surrogate pair. -/
lemma not_surrogate (c : Char) : isTrailing c.toNat = false ∧ isLeading c.toNat = false := by
  have hvalid : c.toNat < 0xd800 ∨ 0xdfff < c.toNat ∧ c.toNat < 0x110000 := c.valid
  simp only [isTrailing, isLeading, Bool.and_eq_false_iff, decide_eq_false_iff_not]
  omega

/-- A leading surrogate is no trailing one. -/
lemma not_isTrailing_of_isLeading {n : Nat} (h : isLeading n = true) : isTrailing n = false := by
  simp only [isLeading, isTrailing, Bool.and_eq_true, Bool.and_eq_false_iff, decide_eq_true_eq,
    decide_eq_false_iff_not] at *
  omega

/-- A character stands for itself. -/
lemma joinUnits_char (e : ReadError) (c : Char) (us : List StringUnit) :
    joinUnits e (.char c :: us) = (joinUnits e us).map (c :: ·) := by
  rw [joinUnits]

/-- The code unit of a character stands for the character. -/
lemma joinUnits_unit (e : ReadError) (c : Char) (us : List StringUnit) :
    joinUnits e (.code c.toNat :: us) = (joinUnits e us).map (c :: ·) := by
  obtain ⟨htrailing, hleading⟩ := not_surrogate c
  rw [joinUnits.eq_def]
  simp only [htrailing, hleading, Bool.false_eq_true, if_false, Char.ofNat_toNat]

/-- Two surrogates stand for one character. -/
lemma joinUnits_pair (e : ReadError) {lead trail : Nat} (hlead : isLeading lead = true)
    (htrail : isTrailing trail = true) (us : List StringUnit) :
    joinUnits e (.code lead :: .code trail :: us) =
      (joinUnits e us).map (joinPair lead trail :: ·) := by
  rw [joinUnits.eq_def]
  simp only [not_isTrailing_of_isLeading hlead, hlead, htrail, Bool.false_eq_true, if_false,
    if_true]

/-- **The scanner undoes every spelling**: the units that it takes for it stand for the
character. -/
theorem Spelling.scanString_append {c : Char} {text : List Char} (h : Spelling c text)
    (rest : List Char) : ∃ us, scanString (text ++ rest) = .prepend us (scanString rest) ∧
      ∀ e vs, joinUnits e (us ++ vs) = (joinUnits e vs).map (c :: ·) := by
  cases h with
  | plain quote backslash control =>
    refine ⟨[.char c], ?_, fun e vs => joinUnits_char e c vs⟩
    rw [List.singleton_append, scanString_plain quote backslash control]
    rfl
  | letter value =>
    refine ⟨[.char c], ?_, fun e vs => joinUnits_char e c vs⟩
    simp only [List.cons_append, List.nil_append]
    rw [scanString_letter value]
    rfl
  | unit value =>
    refine ⟨[.code c.toNat], ?_, fun e vs => joinUnits_unit e c vs⟩
    simp only [List.cons_append, List.nil_append]
    rw [scanString_unit value]
    rfl
  | @pair lead trail h₁ h₂ h₃ h₄ k₁ k₂ k₃ k₄ first isLead second isTrail =>
    refine ⟨[.code lead, .code trail], ?_, fun e vs => joinUnits_pair e isLead isTrail vs⟩
    simp only [List.cons_append, List.nil_append]
    rw [scanString_unit first, scanString_unit second]
    rfl

/-! ## Scanning a string -/

/-- The spelling of a string is read up to the closing quote. -/
lemma Spells.scanString_append {text cs : List Char} (h : Spells text cs) (rest : List Char) :
    ∃ us, scanString (text ++ '"' :: rest) = ⟨us, .ok rest⟩ ∧ ∀ e, joinUnits e us = .ok cs := by
  induction h with
  | nil =>
    refine ⟨[], ?_, fun _ => rfl⟩
    rw [List.nil_append, scanString.eq_def]
    rfl
  | @cons c cs text texts hc _ ih =>
    obtain ⟨us, hscan, hjoin⟩ := ih
    obtain ⟨vs, hvs, hchar⟩ := hc.scanString_append (texts ++ '"' :: rest)
    refine ⟨vs ++ us, ?_, fun e => by rw [hchar, hjoin]; rfl⟩
    rw [List.append_assoc, hvs, hscan]
    rfl

/-- What is read up to the closing quote makes the token of a string. -/
lemma stringLexeme_of_scan {cs rest : List Char} {us : List StringUnit}
    (h : scanString cs = ⟨us, .ok rest⟩) :
    stringLexeme cs = ⟨.string ((joinUnits .malformed us).map String.ofList), some rest⟩ := by
  rw [stringLexeme, h]
  rfl

/-- **A spelled string is the token of that string**, whatever follows its closing quote. -/
theorem Spells.stringLexeme_append {text : List Char} {s : String} (h : Spells text s.toList)
    (rest : List Char) : stringLexeme (text ++ '"' :: rest) = ⟨.string (.ok s), some rest⟩ := by
  obtain ⟨us, hscan, hjoin⟩ := h.scanString_append rest
  rw [stringLexeme_of_scan hscan, hjoin, Except.map, String.ofList_toList]

/-! ## The spelling that the printer chooses -/

/-- The digits of the code of a control character are read back. -/
lemma hexNumber?_control : ∀ n < 0x20,
    hexNumber? ['0', '0', (n / 16).digitChar, (n % 16).digitChar] = some n := by
  decide

/-- The escape of a character is a spelling of it. -/
lemma spelling_escape (c : Char) : Spelling c (escape c) := by
  by_cases hletter : c = '"' ∨ c = '\\' ∨ c = '\x08' ∨ c = '\x0c' ∨ c = '\n' ∨ c = '\r' ∨ c = '\t'
  · rcases hletter with rfl | rfl | rfl | rfl | rfl | rfl | rfl <;> exact .letter (by decide)
  · simp only [not_or] at hletter
    obtain ⟨hquote, hbackslash, h₁, h₂, h₃, h₄, h₅⟩ := hletter
    simp only [escape, hquote, hbackslash, h₁, h₂, h₃, h₄, h₅, if_false]
    split
    · rename_i hcontrol
      exact .unit (hexNumber?_control c.toNat hcontrol)
    · rename_i hcontrol
      exact .plain hquote hbackslash hcontrol

/-- **The printer spells every string.** -/
theorem spells_escape (cs : List Char) : Spells (cs.flatMap escape) cs := by
  induction cs with
  | nil => exact .nil
  | cons c cs ih =>
    rw [List.flatMap_cons]
    exact .cons (spelling_escape c) ih

end Json

end VersionedLayout
