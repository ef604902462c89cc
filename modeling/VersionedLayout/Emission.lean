import VersionedLayout.SchemaError
import VersionedLayout.Version
set_option autoImplicit false

/-!
# Emissions

Writing out a schema may fail, and it leaves log records on the way. The records that precede an
error are kept, and nothing is recorded after it.

## Main definitions

* `VersionedLayout.LogRecord` — what is recorded, with its level and its wording.
* `VersionedLayout.Emission` — a result together with the records left on the way, as a monad.
-/

namespace VersionedLayout

/-- A record of the emission of a header. -/
inductive LogRecord where
  /-- A header for this many structs begins. -/
  | header (structCount : Nat)
  /-- A namespace is opened. -/
  | openNamespace (scope : String)
  /-- The definition of a struct with a single layout begins. -/
  | plainStruct (qualifiedName : String)
  /-- The definition of a struct with a layout per version begins. -/
  | versionedStruct (qualifiedName : String) (layoutCount : Nat)
  /-- The layout of a struct for one version begins. -/
  | layout (name : String) (version : Version) (fieldCount : Nat)
  deriving DecidableEq, Repr

namespace LogRecord

/-- The levels of records. -/
inductive Level where
  | debug
  | trace
  deriving DecidableEq, Repr

/-- The level of a record: single layouts are the finest detail. -/
def level : LogRecord → Level
  | layout _ _ _ => .trace
  | _ => .debug

/-- The wording of a record. -/
def text : LogRecord → String
  | header n => "generating " ++ Decimal.natural n ++ " structs"
  | openNamespace scope => "opening namespace " ++ scope
  | plainStruct name => "generating unversioned struct " ++ name
  | versionedStruct name n =>
    "generating versioned struct " ++ name ++ " with " ++ Decimal.natural n ++ " specializations"
  | layout name v n => name ++ " for " ++ v.name ++ ": " ++ Decimal.natural n ++ " fields"

end LogRecord

/-- A result, or the error that prevented it, and the records left until then. -/
structure Emission (α : Type) where
  /-- The records, in order. -/
  log : List LogRecord
  /-- What came out. -/
  result : Except SchemaError α

namespace Emission

variable {α β : Type}

/-- A result without a record. -/
def ofExcept (r : Except SchemaError α) : Emission α :=
  ⟨[], r⟩

/-- One record. -/
def record (r : LogRecord) : Emission Unit :=
  ⟨[r], .ok ()⟩

/-- First one emission, then another one that depends on its result. -/
def andThen (m : Emission α) (f : α → Emission β) : Emission β :=
  match m.result with
  | .ok a => ⟨m.log ++ (f a).log, (f a).result⟩
  | .error e => ⟨m.log, .error e⟩

instance : Monad Emission where
  pure a := ofExcept (.ok a)
  bind := andThen

/-- A mere result leaves no record. -/
@[simp]
theorem log_pure (a : α) : (pure a : Emission α).log = [] :=
  rfl

/-- A mere result comes out. -/
@[simp]
theorem result_pure (a : α) : (pure a : Emission α).result = .ok a :=
  rfl

/-- The results of two emissions in a row are those of the two computations in a row. -/
@[simp]
theorem result_bind (m : Emission α) (f : α → Emission β) :
    (m >>= f).result = m.result >>= fun a => (f a).result := by
  change (andThen m f).result = _
  unfold andThen
  cases h : m.result <;> rfl

instance : LawfulMonad Emission := LawfulMonad.mk' Emission
  (fun ⟨l, r⟩ => by
    cases r
    · rfl
    · change Emission.mk (l ++ []) _ = _
      rw [List.append_nil]
      rfl)
  (fun a f => by
    change Emission.mk ([] ++ (f a).log) (f a).result = f a
    rfl)
  (fun ⟨l, r⟩ f g => by
    change andThen (andThen ⟨l, r⟩ f) g = andThen ⟨l, r⟩ fun a => andThen (f a) g
    cases r with
    | error e => rfl
    | ok a =>
      simp only [andThen]
      cases (f a).result <;> simp)

end Emission

end VersionedLayout
