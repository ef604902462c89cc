import VersionedLayout.Json.Number
import VersionedLayout.Json.StringLiteral
set_option autoImplicit false

/-!
# Lexing JSON texts

## Main definitions

* `VersionedLayout.Json.tokens` — the tokens of a text, up to the first place where it is broken.
-/

namespace VersionedLayout

namespace Json

/-- Whether a character may stand between tokens: a blank, a tab, a line feed or a carriage
return. -/
def isBlank (c : Char) : Bool :=
  c = ' ' || c = '\t' || c = '\n' || c = '\r'

/-- What is left of a text behind a word with which it must begin. -/
def scanWord : List Char → List Char → Except ReadError (List Char)
  | [], cs => .ok cs
  | _ :: _, [] => .error .truncated
  | w :: ws, c :: cs => if w = c then scanWord ws cs else .error .malformed

/-- A token at the beginning of a text. Unless it is broken, the text goes on behind it. -/
structure Lexeme where
  /-- The token. -/
  token : Token
  /-- What follows the token. -/
  rest : Option (List Char)

/-- The token of a word such as `null`, given what has to follow its first letter. -/
def wordLexeme (token : Token) (word cs : List Char) : Lexeme :=
  match scanWord word cs with
  | .ok rest => ⟨token, some rest⟩
  | .error e => ⟨.broken e e, none⟩

/-- The token of a number. A number that breaks off is malformed wherever it does so when it is
skipped, and truncated at the end of the text when it is kept. -/
def numberLexeme (cs : List Char) : Lexeme :=
  match scanNumeral cs with
  | .ok (n, rest) => ⟨.number (String.ofList n.text) n.tooLarge, some rest⟩
  | .error e => ⟨.broken e .malformed, none⟩

/-- The token of a string, given what follows its opening quote. -/
def stringLexeme (cs : List Char) : Lexeme :=
  let scan := scanString cs
  ⟨stringToken scan, scan.stop.toOption⟩

/-- The token of a character that is one on its own. -/
def punctuation? (c : Char) : Option Token :=
  if c = '[' then some .openArray
  else if c = ']' then some .closeArray
  else if c = '\x7b' then some .openObject
  else if c = '\x7d' then some .closeObject
  else if c = ',' then some .comma
  else if c = ':' then some .colon
  else none

/-- The word that begins with a letter: its token, and the letters that have to follow. -/
def word? (c : Char) : Option (Token × List Char) :=
  if c = 'n' then some (.null, ['u', 'l', 'l'])
  else if c = 't' then some (.bool true, ['r', 'u', 'e'])
  else if c = 'f' then some (.bool false, ['a', 'l', 's', 'e'])
  else none

/-- The token that begins with the character `c`, which is no blank. -/
def lexeme (c : Char) (cs : List Char) : Lexeme :=
  match punctuation? c, word? c with
  | some t, _ => ⟨t, some cs⟩
  | none, some (t, word) => wordLexeme t word cs
  | none, none =>
    if c = '"' then stringLexeme cs
    else if c = '-' || c.isDigit then numberLexeme (c :: cs)
    else ⟨.broken .malformed .malformed, none⟩

/-- A word leaves no more characters than there were. -/
theorem scanWord_length {word cs rest : List Char} (h : scanWord word cs = .ok rest) :
    rest.length ≤ cs.length := by
  fun_induction scanWord word cs <;> simp_all
  omega

/-- The token of a word leaves no more characters than there were. -/
theorem wordLexeme_length {t : Token} {word cs rest : List Char}
    (h : (wordLexeme t word cs).rest = some rest) : rest.length ≤ cs.length := by
  unfold wordLexeme at h
  split at h
  · rename_i hs
    obtain rfl := by simpa using h
    exact scanWord_length hs
  · simp at h

/-- The token of a number takes its first character at least. -/
theorem numberLexeme_length {c : Char} {cs rest : List Char}
    (h : (numberLexeme (c :: cs)).rest = some rest) : rest.length ≤ cs.length := by
  unfold numberLexeme at h
  split at h
  · rename_i hs
    obtain rfl := by simpa using h
    have := scanNumeral_length hs
    simp only [List.length_cons] at this
    omega
  · simp at h

/-- The token of a string leaves no more characters than there were behind the quote. -/
theorem stringLexeme_length {cs rest : List Char} (h : (stringLexeme cs).rest = some rest) :
    rest.length ≤ cs.length := by
  simp only [stringLexeme] at h
  cases hs : (scanString cs).stop with
  | error e => simp [hs, Except.toOption] at h
  | ok r =>
    obtain rfl := by simpa [hs, Except.toOption] using h
    exact Nat.le_of_lt (scanString_length hs)

/-- Lexing goes on behind the character with which a token begins. -/
theorem lexeme_length {c : Char} {cs rest : List Char} (h : (lexeme c cs).rest = some rest) :
    rest.length ≤ cs.length := by
  unfold lexeme at h
  split at h
  · obtain rfl := by simpa using h
    exact Nat.le_refl _
  · exact wordLexeme_length h
  · split at h
    · exact stringLexeme_length h
    · split at h
      · exact numberLexeme_length h
      · simp at h

/-- The tokens of a text. If the text is broken, the last token says so. -/
def tokens : List Char → List Token
  | [] => []
  | c :: cs =>
    if isBlank c then tokens cs
    else
      (lexeme c cs).token ::
        match _h : (lexeme c cs).rest with
        | some rest => tokens rest
        | none => []
  termination_by cs => cs.length
  decreasing_by
    · simp
    · have := lexeme_length _h
      simp only [List.length_cons]
      omega

end Json

end VersionedLayout
