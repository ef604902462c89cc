import VersionedLayout.SchemaError
import VersionedLayout.Version
import VersionedLayout.Bounds
set_option autoImplicit false

/-!
# Diagnostics

The violations that the checks of a schema report. A diagnostic is its cause; its code, its
message and its notes are derived from that.

## Main definitions

* `VersionedLayout.DiagnosticCode` — the numbered kinds of violations.
* `VersionedLayout.Diagnostic` — a violation with what is needed to report it.
* `VersionedLayout.Diagnostic.render` — the report of a diagnostic as text.

## Main results

* `VersionedLayout.Diagnostic.code_text` — the code of every diagnostic.
-/

namespace VersionedLayout

/-- The kinds of violations. -/
inductive DiagnosticCode where
  | duplicateStruct
  | duplicateField
  | invertedRange
  | emptyRange
  | unreachableBlock
  | missingRange
  | defaultOutOfBounds
  | invalidBitWidth
  | arityMismatch
  | emptyAggregate
  | nonFiniteDefault
  deriving DecidableEq, Repr

namespace DiagnosticCode

/-- The kinds in the order of their numbers. -/
def all : List DiagnosticCode :=
  [duplicateStruct, duplicateField, invertedRange, emptyRange, unreachableBlock, missingRange,
   defaultOutOfBounds, invalidBitWidth, arityMismatch, emptyAggregate, nonFiniteDefault]

/-- The number of a kind. -/
def number : DiagnosticCode → Nat
  | duplicateStruct => 1
  | duplicateField => 2
  | invertedRange => 3
  | emptyRange => 4
  | unreachableBlock => 5
  | missingRange => 6
  | defaultOutOfBounds => 7
  | invalidBitWidth => 8
  | arityMismatch => 9
  | emptyAggregate => 10
  | nonFiniteDefault => 11

/-- The code by which a kind is reported. -/
def text (c : DiagnosticCode) : String :=
  "E" ++ Decimal.natural c.number

end DiagnosticCode

/-- A field of a struct, as it is named in reports. -/
structure FieldPath where
  /-- The qualified name of the struct. -/
  structName : String
  /-- The name of the field. -/
  fieldName : String
  deriving DecidableEq, Repr

/-- The text of a path, between backticks. -/
def FieldPath.display (p : FieldPath) : String :=
  "`" ++ p.structName ++ "::" ++ p.fieldName ++ "`"

/-- What is wrong with the width of a bit-field. -/
inductive BitWidthFault where
  | zero
  | notIntegral
  | tooWide (bits width : Nat)
  deriving DecidableEq, Repr

/-- The wording of a fault. -/
def BitWidthFault.text : BitWidthFault → String
  | zero => "bit-width cannot be zero"
  | notIntegral => "bitfields require an integral type"
  | tooWide bits width =>
    "bit-width " ++ Decimal.natural bits ++ " exceeds the " ++ Decimal.natural width ++
      "-bit width of the type"

/-- A violation found in a schema. -/
inductive Diagnostic where
  /-- The struct at index `index` has the name of the one at index `previous`. -/
  | duplicateStruct (name : String) (previous index : Nat)
  /-- A field name stands more than once in the layouts of some versions. -/
  | duplicateField (structName fieldName : String) (versions : List (Option Version))
  /-- The range of a struct has its ends in the wrong order. -/
  | invertedStructRange (structName : String) (range : VersionRange)
  /-- The range of a block has its ends in the wrong order. -/
  | invertedBlockRange (structName : String) (range : VersionRange)
  /-- The range of a struct contains no release. -/
  | emptyRange (structName : String) (range : VersionRange)
  /-- A block is active for none of the versions that reach it. -/
  | unreachableBlock (structName : String) (range : VersionRange) (reaching : List Version)
  /-- A struct has blocks and no range. -/
  | missingRange (structName : String)
  /-- A default does not lie within the bounds of its numeric type. -/
  | defaultOutOfBounds (path : FieldPath) (value : Value) (typeName : String) (bounds : Bounds)
  /-- The width of a bit-field does not suit its type. -/
  | invalidBitWidth (path : FieldPath) (fault : BitWidthFault)
  /-- The type of a field has no full name. -/
  | arityMismatch (path : FieldPath) (error : SchemaError)
  /-- A default is a tuple without members. -/
  | emptyAggregate (path : FieldPath)
  /-- A default has no literal. -/
  | nonFiniteDefault (path : FieldPath) (value : Value)
  deriving DecidableEq, Repr

namespace Diagnostic

/-- The kind of a diagnostic. -/
def code : Diagnostic → DiagnosticCode
  | duplicateStruct .. => .duplicateStruct
  | duplicateField .. => .duplicateField
  | invertedStructRange .. => .invertedRange
  | invertedBlockRange .. => .invertedRange
  | emptyRange .. => .emptyRange
  | unreachableBlock .. => .unreachableBlock
  | missingRange .. => .missingRange
  | defaultOutOfBounds .. => .defaultOutOfBounds
  | invalidBitWidth .. => .invalidBitWidth
  | arityMismatch .. => .arityMismatch
  | emptyAggregate .. => .emptyAggregate
  | nonFiniteDefault .. => .nonFiniteDefault

/-- The codes under which diagnostics are reported. -/
theorem code_text (d : Diagnostic) : d.code.text = match d with
    | duplicateStruct .. => "E1"
    | duplicateField .. => "E2"
    | invertedStructRange .. => "E3"
    | invertedBlockRange .. => "E3"
    | emptyRange .. => "E4"
    | unreachableBlock .. => "E5"
    | missingRange .. => "E6"
    | defaultOutOfBounds .. => "E7"
    | invalidBitWidth .. => "E8"
    | arityMismatch .. => "E9"
    | emptyAggregate .. => "E10"
    | nonFiniteDefault .. => "E11" := by
  cases d <;> cbv

/-- The message of a diagnostic. -/
def message : Diagnostic → String
  | duplicateStruct name _ _ => "redeclaration of struct `" ++ name ++ "`"
  | duplicateField structName fieldName _ =>
    "redeclaration of field `" ++ fieldName ++ "` in struct `" ++ structName ++ "`"
  | invertedStructRange structName range =>
    "inverted version range " ++ range.display ++ " for struct `" ++ structName ++ "`"
  | invertedBlockRange structName range =>
    "inverted version range " ++ range.display ++ " for versioned block of struct `" ++
      structName ++ "`"
  | emptyRange structName range =>
    "version range " ++ range.display ++ " of struct `" ++ structName ++
      "` contains no client version"
  | unreachableBlock structName range _ =>
    "versioned block " ++ range.display ++ " of struct `" ++ structName ++ "` is never active"
  | missingRange structName =>
    "struct `" ++ structName ++ "` contains versioned blocks but declares no version range"
  | defaultOutOfBounds path value _ _ =>
    "default value " ++ value.display ++ " of field " ++ path.display ++
      " does not fit the field type"
  | invalidBitWidth path _ => "invalid bit-width for field " ++ path.display
  | arityMismatch path _ => "invalid type for field " ++ path.display
  | emptyAggregate path => "empty tuple default for field " ++ path.display
  | nonFiniteDefault path value =>
    "default value " ++ value.display ++ " of field " ++ path.display ++ " has no C++ literal"

/-- The name of the version of a layout; the only layout of an unversioned struct counts for all
of them. -/
def versionText : Option Version → String
  | some v => v.name
  | none => "all versions"

/-- The notes that explain a diagnostic. -/
def notes : Diagnostic → List String
  | duplicateStruct name previous index =>
    ["`" ++ name ++ "` is first declared by struct #" ++ Decimal.natural previous ++
      ", redeclared by struct #" ++ Decimal.natural index]
  | duplicateField _ _ versions =>
    ["note: duplicated in " ++ ", ".intercalate (versions.map versionText)]
  | invertedStructRange _ range =>
    ["note: " ++ range.low.name ++ " has ordinal " ++ Decimal.natural range.low.ordinal ++
      ", above " ++ range.high.name ++ " with ordinal " ++ Decimal.natural range.high.ordinal]
  | unreachableBlock _ _ reaching =>
    ["note: the enclosing scope is enabled for " ++ ", ".intercalate (reaching.map Version.name)]
  | missingRange _ => ["hint: declare the struct range explicitly, e.g. [CLASSIC, ANY]"]
  | defaultOutOfBounds _ _ typeName bounds =>
    ["note: `" ++ typeName ++ "` accepts " ++
      (if bounds.isIntegral then "integral" else "floating point") ++ " values in " ++
      (if bounds.isIntegral then "[" else "(") ++ bounds.low.display ++ ", " ++
      bounds.high.display ++ "]"]
  | invalidBitWidth _ fault => [fault.text]
  | arityMismatch _ error => [error.message]
  | invertedBlockRange .. | emptyRange .. | emptyAggregate .. | nonFiniteDefault .. => []

/-! ## Reports -/

/-- The lines of a text whose beginning `line`, reversed, has been read. A line ends with a line
feed, or with a carriage return and a line feed; the last one may lack its end. -/
def linesFrom (line : List Char) : List Char → List String
  | [] => if line.isEmpty then [] else [String.ofList line.reverse]
  | '\n' :: cs =>
    let kept := match line with
      | '\r' :: rest => rest
      | _ => line
    String.ofList kept.reverse :: linesFrom [] cs
  | c :: cs => linesFrom (c :: line) cs

/-- The report of a note: its first line after an equals sign, the others below it. -/
def renderNote (note : String) : String :=
  match linesFrom [] note.toList with
  | [] => ""
  | first :: rest =>
    " = " ++ first ++ "\n" ++ String.join (rest.map fun line => "   " ++ line ++ "\n")

/-- The report of a diagnostic: code and message, the notes, and an empty line. -/
def render (d : Diagnostic) : String :=
  "error[" ++ d.code.text ++ "]: " ++ d.message ++ "\n" ++
    String.join (d.notes.map renderNote) ++ "\n"

end Diagnostic

end VersionedLayout
