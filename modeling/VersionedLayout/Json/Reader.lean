import VersionedLayout.Json.Basic
import VersionedLayout.Json.Lexer
set_option autoImplicit false

/-!
# Reading JSON trees

A text is read as a tree without recursion into its brackets: the reader keeps what it has read
inside each bracket that is open, and every token takes it one step. Numbers keep their text, so
they may have any size.

## Main definitions

* `VersionedLayout.Json.Frame` — an open bracket with what has been read inside it.
* `VersionedLayout.Json.readStep` — one step.
* `VersionedLayout.Json.ofText` — the tree of a text.
-/

namespace VersionedLayout

namespace Json

/-- An open bracket, with what has been read inside it, the last item first. -/
inductive Frame where
  /-- An array. -/
  | array (items : List Json)
  /-- An object, behind one of its keys. -/
  | member (members : List (String × Json)) (key : String)

/-- The state of reading a tree: what may come next, and the brackets around it, innermost
first. -/
inductive ReadState where
  /-- A value. -/
  | value (frames : List Frame)
  /-- The first item of an array, or its end. -/
  | firstItem (frames : List Frame)
  /-- The first key of an object, or its end. -/
  | firstKey (frames : List Frame)
  /-- A further key of an object. -/
  | key (members : List (String × Json)) (frames : List Frame)
  /-- The colon behind a key. -/
  | colon (members : List (String × Json)) (key : String) (frames : List Frame)
  /-- A comma, or the end of an array. -/
  | nextItem (items : List Json) (frames : List Frame)
  /-- A comma, or the end of an object. -/
  | nextMember (members : List (String × Json)) (frames : List Frame)
  /-- Nothing: the tree is complete. -/
  | complete (j : Json)

/-- The state behind a value that stands inside the given brackets. -/
def plug (j : Json) : List Frame → ReadState
  | [] => .complete j
  | .array xs :: fs => .nextItem (j :: xs) fs
  | .member ms k :: fs => .nextMember ((k, j) :: ms) fs

/-- The step at a token with which a value begins. -/
def readStart (fs : List Frame) : Token → Except ReadError ReadState
  | .null => .ok (plug .null fs)
  | .bool b => .ok (plug (.bool b) fs)
  | .number text _ => .ok (plug (.number text) fs)
  | .string kept => kept.map fun s => plug (.string s) fs
  | .openArray => .ok (.firstItem fs)
  | .openObject => .ok (.firstKey fs)
  | .brokenString kept _ | .broken kept _ => .error kept
  | .closeArray | .closeObject | .comma | .colon => .error .malformed

/-- The step at a key. -/
def readKey (ms : List (String × Json)) (fs : List Frame) : Token → Except ReadError ReadState
  | .string kept => kept.map fun k => .colon ms k fs
  | .brokenString kept _ => .error kept
  | _ => .error .malformed

/-- One step of reading a tree. -/
def readStep : ReadState → Token → Except ReadError ReadState
  | .value fs, t => readStart fs t
  | .firstItem fs, .closeArray => .ok (plug (.array []) fs)
  | .firstItem fs, t => readStart (.array [] :: fs) t
  | .firstKey fs, .closeObject => .ok (plug (.object []) fs)
  | .firstKey fs, t => readKey [] fs t
  | .key ms fs, t => readKey ms fs t
  | .colon ms k fs, .colon => .ok (.value (.member ms k :: fs))
  | .nextItem xs fs, .comma => .ok (.value (.array xs :: fs))
  | .nextItem xs fs, .closeArray => .ok (plug (.array xs.reverse) fs)
  | .nextMember ms fs, .comma => .ok (.key ms fs)
  | .nextMember ms fs, .closeObject => .ok (plug (.object ms.reverse) fs)
  | _, _ => .error .malformed

/-- The tree that a list of tokens completes. -/
def readTree (s : ReadState) : List Token → Except ReadError Json
  | [] =>
    match s with
    | .complete j => .ok j
    | _ => .error .truncated
  | t :: ts => do
    let s ← readStep s t
    readTree s ts

/-- The tree of a text, which must be one JSON value. -/
def ofText (text : String) : Except ReadError Json :=
  readTree (.value []) (tokens text.toList)

end Json

end VersionedLayout
