import VersionedLayout.Json.Token
set_option autoImplicit false

/-!
# Skipping JSON values

A value whose content does not matter is read over, however deeply its brackets are nested. The
reader keeps the brackets that are open and what may come next; each token takes it one step.

## Main definitions

* `VersionedLayout.Json.Expectation` — what may come next.
* `VersionedLayout.Json.skipStep` — one step.
* `VersionedLayout.Json.skipValue` — the tokens behind a value.
-/

namespace VersionedLayout

namespace Json

/-- A kind of brackets. -/
inductive Bracket where
  | array
  | object
  deriving DecidableEq, Repr

/-- What may come next inside a value that is being skipped. -/
inductive Expectation where
  /-- A value. -/
  | value
  /-- The first item of an array, or its end. -/
  | firstItem
  /-- The first key of an object, or its end. -/
  | firstKey
  /-- A key. -/
  | key
  /-- The colon behind a key. -/
  | colon
  /-- A comma, or the end of the innermost brackets. -/
  | next
  deriving DecidableEq, Repr

/-- The state of skipping: what may come next, and the open brackets, innermost first. -/
structure SkipState where
  /-- What may come next. -/
  expected : Expectation
  /-- The open brackets, innermost first. -/
  brackets : List Bracket
  deriving DecidableEq, Repr

/-- The state behind a value. It is the end if no bracket is open. -/
def afterValue : List Bracket → Option SkipState
  | [] => none
  | b :: bs => some ⟨.next, b :: bs⟩

/-- The step at a token with which a value begins. -/
def skipStart (brackets : List Bracket) : Token → Except ReadError (Option SkipState)
  | .null | .bool _ | .number _ _ | .string _ => .ok (afterValue brackets)
  | .openArray => .ok (some ⟨.firstItem, .array :: brackets⟩)
  | .openObject => .ok (some ⟨.firstKey, .object :: brackets⟩)
  | .brokenString _ skipped | .broken _ skipped => .error skipped
  | .closeArray | .closeObject | .comma | .colon => .error .malformed

/-- The step at a key. -/
def skipKey (brackets : List Bracket) : Token → Except ReadError (Option SkipState)
  | .string _ => .ok (some ⟨.colon, brackets⟩)
  | .brokenString _ skipped => .error skipped
  | _ => .error .malformed

/-- One step of skipping: the state behind a token, or nothing if the value ends with it. -/
def skipStep (s : SkipState) (t : Token) : Except ReadError (Option SkipState) :=
  match s.expected, s.brackets, t with
  | .value, bs, t => skipStart bs t
  | .firstItem, .array :: bs, .closeArray => .ok (afterValue bs)
  | .firstItem, bs, t => skipStart bs t
  | .firstKey, .object :: bs, .closeObject => .ok (afterValue bs)
  | .firstKey, bs, t => skipKey bs t
  | .key, bs, t => skipKey bs t
  | .colon, bs, .colon => .ok (some ⟨.value, bs⟩)
  | .next, .array :: bs, .comma => .ok (some ⟨.value, .array :: bs⟩)
  | .next, .object :: bs, .comma => .ok (some ⟨.key, .object :: bs⟩)
  | .next, .array :: bs, .closeArray => .ok (afterValue bs)
  | .next, .object :: bs, .closeObject => .ok (afterValue bs)
  | _, _, _ => .error .malformed

/-- The tokens behind the value that is being skipped. -/
def skipFrom (s : SkipState) : List Token → Except ReadError (List Token)
  | [] => .error .truncated
  | t :: ts =>
    match skipStep s t with
    | .ok none => .ok ts
    | .ok (some s') => skipFrom s' ts
    | .error e => .error e

/-- The tokens behind the value that begins here. -/
def skipValue (ts : List Token) : Except ReadError (List Token) :=
  skipFrom ⟨.value, []⟩ ts

/-- A value that is skipped takes a token at least. -/
theorem skipFrom_length {s : SkipState} {ts rest : List Token} (h : skipFrom s ts = .ok rest) :
    rest.length < ts.length := by
  induction ts generalizing s with
  | nil => simp [skipFrom] at h
  | cons t ts ih =>
    rw [skipFrom] at h
    split at h
    · obtain rfl := by simpa using h
      simp
    · have := ih h
      simp only [List.length_cons]
      omega
    · simp at h

/-- A value is not empty. -/
theorem skipValue_length {ts rest : List Token} (h : skipValue ts = .ok rest) :
    rest.length < ts.length :=
  skipFrom_length h

end Json

end VersionedLayout
