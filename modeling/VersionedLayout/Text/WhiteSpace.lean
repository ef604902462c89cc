set_option autoImplicit false

/-!
# White space

The characters with the Unicode property `White_Space`, and the removal of such characters from
the end of a text.

## Main definitions

* `VersionedLayout.Text.isWhiteSpace` — the property.
* `VersionedLayout.Text.trimEnd` — a text without the white space at its end.
-/

namespace VersionedLayout

namespace Text

/-- The code points of the property `White_Space`, as ranges with both ends. -/
def whiteSpaceRanges : List (Nat × Nat) :=
  [(0x0009, 0x000d), (0x0020, 0x0020), (0x0085, 0x0085), (0x00a0, 0x00a0), (0x1680, 0x1680),
   (0x2000, 0x200a), (0x2028, 0x2029), (0x202f, 0x202f), (0x205f, 0x205f), (0x3000, 0x3000)]

/-- Whether a character is white space. -/
def isWhiteSpace (c : Char) : Bool :=
  whiteSpaceRanges.any fun r => r.1 ≤ c.toNat && c.toNat ≤ r.2

/-- The text without the white space at its end. -/
def trimEnd (s : String) : String :=
  String.ofList (s.toList.reverse.dropWhile isWhiteSpace).reverse

end Text

end VersionedLayout
