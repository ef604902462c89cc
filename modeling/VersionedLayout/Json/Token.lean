set_option autoImplicit false

/-!
# JSON tokens

A JSON text is read as a list of tokens. Where the text is broken the list ends with a token that
says so, and the reader learns of it only if it gets there: the first problem of a text decides.

A value is read for one of two purposes. It is *kept* when its content matters, and *skipped* when
it only has to be JSON. A skipped string may hold lone surrogates, and a skipped number may have
any size.

## Main definitions

* `VersionedLayout.Json.ReadError` — why a text is refused.
* `VersionedLayout.Json.Token` — the tokens.
* `VersionedLayout.Json.Token.mismatch` — the error of a value of the wrong type.
-/

namespace VersionedLayout

namespace Json

/-- Why a text is refused. -/
inductive ReadError where
  /-- The text ends too early. -/
  | truncated
  /-- The text is not JSON. -/
  | malformed
  /-- The text is JSON, but not of the shape that is wanted. -/
  | mismatch
  deriving DecidableEq, Repr

/-- A token of a JSON text. -/
inductive Token where
  | openArray
  | closeArray
  | openObject
  | closeObject
  | comma
  | colon
  | null
  | bool (b : Bool)
  /-- A number, as its text, and whether it exceeds the range of floating-point numbers. -/
  | number (text : String) (tooLarge : Bool)
  /-- A string that ends. It cannot be kept if it has lone surrogates. -/
  | string (kept : Except ReadError String)
  /-- A string that is broken before its end, with the errors for keeping and for skipping it. -/
  | brokenString (kept skipped : ReadError)
  /-- Anything else that is broken, with the errors for keeping and for skipping it. -/
  | broken (kept skipped : ReadError)

namespace Token

/-- The error when a value begins with this token and another type is wanted. A scalar is read in
full before its type is refused, an array or an object is refused at once, and whatever begins no
value is malformed. -/
def mismatch : Token → ReadError
  | null | bool _ | openArray | openObject => .mismatch
  | number _ tooLarge => if tooLarge then .malformed else .mismatch
  | string (.ok _) => .mismatch
  | string (.error e) => e
  | brokenString kept _ => kept
  | broken kept _ => kept
  | closeArray | closeObject | comma | colon => .malformed

end Token

end Json

end VersionedLayout
