import VersionedLayout.Json.Basic
set_option autoImplicit false

/-!
# Printing JSON

One printer serves both written forms of a JSON value. They differ in blanks alone, which a
`Spacing` supplies: none for the compact form, line breaks and an indentation of two blanks per
level for the indented one. Brackets without anything between them stay together in both.

## Main definitions

* `VersionedLayout.Json.quoted` — a string between quotes, with its escapes.
* `VersionedLayout.Json.print` — the characters of a value, for a given spacing.
* `VersionedLayout.Json.compact`, `VersionedLayout.Json.pretty` — the two written forms.
-/

namespace VersionedLayout

namespace Json

/-- A character inside a string. Quotes, backslashes and the characters below the blank are
escaped, all others stand for themselves. -/
def escape (c : Char) : List Char :=
  if c = '"' then ['\\', '"']
  else if c = '\\' then ['\\', '\\']
  else if c = '\x08' then ['\\', 'b']
  else if c = '\x0c' then ['\\', 'f']
  else if c = '\n' then ['\\', 'n']
  else if c = '\r' then ['\\', 'r']
  else if c = '\t' then ['\\', 't']
  else if c.toNat < 0x20 then
    ['\\', 'u', '0', '0', (c.toNat / 16).digitChar, (c.toNat % 16).digitChar]
  else [c]

/-- A string between quotes. -/
def quoted (s : String) : List Char :=
  '"' :: s.toList.flatMap escape ++ ['"']

/-- The blanks that a written form puts between tokens. -/
structure Spacing where
  /-- What stands before an item, and before a closing bracket, at the given depth. -/
  lineBreak : Nat → List Char
  /-- What stands between a colon and the value of a member. -/
  afterColon : List Char

/-- No blanks at all. -/
def Spacing.none : Spacing :=
  { lineBreak := fun _ => [], afterColon := [] }

/-- One item a line, indented by two blanks per level. -/
def Spacing.indented : Spacing :=
  { lineBreak := fun depth => '\n' :: List.replicate (2 * depth) ' ', afterColon := [' '] }

mutual

/-- The characters of a value that stands at the given depth. -/
def print (s : Spacing) (depth : Nat) : Json → List Char
  | null => ['n', 'u', 'l', 'l']
  | bool true => ['t', 'r', 'u', 'e']
  | bool false => ['f', 'a', 'l', 's', 'e']
  | number text => text.toList
  | string t => quoted t
  | array [] => ['[', ']']
  | array (x :: xs) =>
    '[' :: s.lineBreak (depth + 1) ++ print s (depth + 1) x ++ printItems s (depth + 1) xs ++
      s.lineBreak depth ++ [']']
  | object [] => ['\x7b', '\x7d']
  | object ((k, v) :: ms) =>
    '\x7b' :: s.lineBreak (depth + 1) ++ quoted k ++ [':'] ++ s.afterColon ++
      print s (depth + 1) v ++ printMembers s (depth + 1) ms ++ s.lineBreak depth ++ ['\x7d']

/-- The items of an array behind the first one, each after a comma. -/
def printItems (s : Spacing) (depth : Nat) : List Json → List Char
  | [] => []
  | x :: xs => ',' :: s.lineBreak depth ++ print s depth x ++ printItems s depth xs

/-- The members of an object behind the first one, each after a comma. -/
def printMembers (s : Spacing) (depth : Nat) : List (String × Json) → List Char
  | [] => []
  | (k, v) :: ms =>
    ',' :: s.lineBreak depth ++ quoted k ++ [':'] ++ s.afterColon ++ print s depth v ++
      printMembers s depth ms

end

/-- The written form on one line, without blanks. -/
def compact (j : Json) : String :=
  String.ofList (print .none 0 j)

/-- The indented written form. -/
def pretty (j : Json) : String :=
  String.ofList (print .indented 0 j)

end Json

end VersionedLayout
