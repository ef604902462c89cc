import VersionedLayout.Json.Token
set_option autoImplicit false

/-!
# Strings in JSON texts

A string is scanned in two steps. The first one resolves the escapes and finds the closing quote;
it yields characters and, for `\u` escapes, code units of UTF-16. The second one joins surrogates
to characters, which fails when one of them stands alone.

## Main definitions

* `VersionedLayout.Json.scanString` — the units of a string, and what follows it.
* `VersionedLayout.Json.joinUnits` — the characters that the units stand for.
* `VersionedLayout.Json.stringToken` — the token of a string.
-/

namespace VersionedLayout

namespace Json

/-- A piece of a string. -/
inductive StringUnit where
  /-- A character that stands for itself, or for which an escape of one letter stands. -/
  | char (c : Char)
  /-- The code unit of a `\u` escape. -/
  | code (n : Nat)
  deriving DecidableEq, Repr

/-! ## Scanning -/

/-- The value of a hexadecimal digit. -/
def hexValue? (c : Char) : Option Nat :=
  if '0' ≤ c ∧ c ≤ '9' then some (c.toNat - '0'.toNat)
  else if 'a' ≤ c ∧ c ≤ 'f' then some (c.toNat - 'a'.toNat + 10)
  else if 'A' ≤ c ∧ c ≤ 'F' then some (c.toNat - 'A'.toNat + 10)
  else none

/-- The value of a list of hexadecimal digits. -/
def hexNumber? (cs : List Char) : Option Nat :=
  cs.foldlM (fun v c => (hexValue? c).map fun d => 16 * v + d) 0

/-- The character for which an escape of one letter stands. -/
def simpleEscape? (c : Char) : Option Char :=
  if c = '"' ∨ c = '\\' ∨ c = '/' then some c
  else if c = 'b' then some '\x08'
  else if c = 'f' then some '\x0c'
  else if c = 'n' then some '\n'
  else if c = 'r' then some '\r'
  else if c = 't' then some '\t'
  else none

/-- The number of bytes of a text in UTF-8. -/
def byteCount (cs : List Char) : Nat :=
  cs.foldr (fun x n => x.utf8Size + n) 0

/-- The outcome of scanning a string: its units, and the text behind the closing quote or the
reason why there is none. -/
structure StringScan where
  /-- The units up to the closing quote or the break. -/
  units : List StringUnit
  /-- The text behind the closing quote. -/
  stop : Except ReadError (List Char)

namespace StringScan

/-- A scan that stops at once. -/
def halt (stop : Except ReadError (List Char)) : StringScan :=
  ⟨[], stop⟩

/-- A scan with one more unit in front. -/
def push (u : StringUnit) (s : StringScan) : StringScan :=
  { s with units := u :: s.units }

end StringScan

/-- Scans a string from behind its opening quote. Characters below the blank must be escaped, and a
`\u` escape takes four hexadecimal digits; it is cut off only if fewer than four bytes are left. -/
def scanString : List Char → StringScan
  | [] => .halt (.error .truncated)
  | c :: cs =>
    if c = '"' then .halt (.ok cs)
    else if c = '\\' then
      match cs with
      | [] => .halt (.error .truncated)
      | e :: es =>
        if e = 'u' then
          if byteCount es < 4 then .halt (.error .truncated)
          else match es with
            | h₁ :: h₂ :: h₃ :: h₄ :: rest =>
              match hexNumber? [h₁, h₂, h₃, h₄] with
              | some n => .push (.code n) (scanString rest)
              | none => .halt (.error .malformed)
            | _ => .halt (.error .malformed)
        else match simpleEscape? e with
          | some x => .push (.char x) (scanString es)
          | none => .halt (.error .malformed)
    else if c.toNat < 0x20 then .halt (.error .malformed)
    else .push (.char c) (scanString cs)

/-- A string that is read to its end takes a character at least, the closing quote. -/
theorem scanString_length {cs rest : List Char} (h : (scanString cs).stop = .ok rest) :
    rest.length < cs.length := by
  fun_induction scanString cs <;> simp_all [StringScan.halt, StringScan.push] <;> omega

/-! ## Joining surrogates -/

/-- Whether a code unit is the first one of a surrogate pair. -/
def isLeading (n : Nat) : Bool :=
  0xd800 ≤ n && n < 0xdc00

/-- Whether a code unit is the second one of a surrogate pair. -/
def isTrailing (n : Nat) : Bool :=
  0xdc00 ≤ n && n < 0xe000

/-- The character of a surrogate pair. -/
def joinPair (lead trail : Nat) : Char :=
  Char.ofNat (0x10000 + (lead - 0xd800) * 0x400 + (trail - 0xdc00))

/-- The characters of a list of units. A surrogate must belong to a pair; `atEnd` is the error when
the units end in the middle of one. -/
def joinUnits (atEnd : ReadError) : List StringUnit → Except ReadError (List Char)
  | [] => .ok []
  | .char c :: us => (joinUnits atEnd us).map (c :: ·)
  | .code n :: us =>
    if isTrailing n then .error .malformed
    else if isLeading n then
      match us with
      | [] => .error atEnd
      | .char _ :: _ => .error .malformed
      | .code m :: us =>
        if isTrailing m then (joinUnits atEnd us).map (joinPair n m :: ·)
        else .error .malformed
    else (joinUnits atEnd us).map (Char.ofNat n :: ·)

/-- The token of a scanned string. A break is an error in any case; if the string is kept, a lone
surrogate before it comes first. -/
def stringToken (s : StringScan) : Token :=
  match s.stop with
  | .ok _ => .string ((joinUnits .malformed s.units).map String.ofList)
  | .error e =>
    match joinUnits e s.units with
    | .ok _ => .brokenString e e
    | .error first => .brokenString first e

end Json

end VersionedLayout
