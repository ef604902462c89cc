import VersionedLayout.HeaderSet
import VersionedLayout.PrimitiveKind
import VersionedLayout.SchemaError
set_option autoImplicit false

/-!
# Type descriptors

Descriptions of C++ types: a name, the namespace around it, the headers that define it and its
template arguments. A descriptor is a template when it declares a non-zero arity or carries
arguments, and it has a full name when the arguments are as many as the arity says. Arrays of
numeric values remember the numeric type of their innermost elements, so that the members of a
tuple default can be checked against it.

## Main definitions

* `VersionedLayout.TypeDescriptor`, `VersionedLayout.NumericType` — types, and types with bounds.
* `VersionedLayout.TypeDescriptor.fullName` — the name with namespace and arguments.
* `VersionedLayout.TypeDescriptor.specialize` — binding the arguments of a template.
* `VersionedLayout.TypeDescriptor.arrayOf`, `VersionedLayout.NumericType.arrayOf` — arrays.
* `VersionedLayout.FieldType` — the type of a field.
-/

namespace VersionedLayout

/-- The range of a numeric type: that of a primitive kind, or given by its bounds. -/
inductive NumericRange where
  /-- All values of a primitive kind. -/
  | primitive (kind : PrimitiveKind)
  /-- The values between two bounds. -/
  | between (bounds : Bounds)
  deriving DecidableEq, Repr

namespace NumericRange

/-- The bounds of a range. -/
def bounds : NumericRange → Bounds
  | primitive k => k.bounds
  | between b => b

/-- The primitive kind of a range, if it is known. -/
def kind? : NumericRange → Option PrimitiveKind
  | primitive k => some k
  | between _ => none

/-- Equality of ranges, as numbers. -/
def same : NumericRange → NumericRange → Bool
  | primitive k, primitive l => k == l
  | between b, between c => b.same c
  | _, _ => false

end NumericRange

mutual

/-- The description of a C++ type. -/
structure TypeDescriptor where
  /-- The name, without namespace and arguments. -/
  name : String
  /-- The namespace around the type, empty for the global one. -/
  scope : String
  /-- The headers that have to be included. -/
  headers : HeaderSet
  /-- The number of template parameters. -/
  arity : Nat
  /-- The template arguments. -/
  args : List String
  /-- The primitive kind of the type, if it is the base of a primitive numeric type. -/
  primitive : Option PrimitiveKind
  /-- The numeric type of the innermost elements, for arrays of numeric values. -/
  element : Option NumericType

/-- A numeric type: a type together with the range of its values. -/
structure NumericType where
  /-- The type itself. -/
  base : TypeDescriptor
  /-- Its values. -/
  range : NumericRange

end

namespace TypeDescriptor

/-! ## Building -/

/-- The type of the given name, in the global namespace. -/
def named (name : String) : TypeDescriptor :=
  { name, scope := "", headers := .empty, arity := 0, args := [], primitive := none,
    element := none }

/-- The type moved into a namespace. -/
def withScope (t : TypeDescriptor) (scope : String) : TypeDescriptor :=
  { t with scope }

/-- The type with one more header. -/
def withHeader (t : TypeDescriptor) (header : String) : TypeDescriptor :=
  { t with headers := t.headers.insert header }

/-- The type of the given name from the namespace `std`, defined in a header. -/
def standard (name header : String) : TypeDescriptor :=
  ((named name).withScope "std").withHeader header

/-- The template with the given parameters, which stand for its arguments until it is
specialized. -/
def withParams (t : TypeDescriptor) (params : List String) : TypeDescriptor :=
  { t with args := params, arity := params.length }

/-- The template with the given number of parameters and no arguments. -/
def withArity (t : TypeDescriptor) (arity : Nat) : TypeDescriptor :=
  { t with arity, args := [] }

/-! ## Names -/

/-- Whether the type is a template. -/
def isTemplate (t : TypeDescriptor) : Bool :=
  t.arity != 0 || !t.args.isEmpty

/-- A name inside a namespace. -/
def qualify (scope name : String) : String :=
  if scope.isEmpty then name else scope ++ "::" ++ name

/-- The name with its namespace, without arguments. -/
def qualifiedName (t : TypeDescriptor) : String :=
  qualify t.scope t.name

/-- The arguments of a template between angle brackets. -/
def bracketed (args : List String) : String :=
  "<" ++ ", ".intercalate args ++ ">"

/-- The name with its namespace and its arguments. A template has one only when its arguments are
as many as its parameters. -/
def fullName (t : TypeDescriptor) : Except SchemaError String :=
  if t.isTemplate then
    if t.args.length = t.arity then .ok (t.qualifiedName ++ bracketed t.args)
    else .error (.arity t.qualifiedName t.arity t.args.length)
  else .ok t.qualifiedName

end TypeDescriptor

/-! ## Specialization -/

/-- An argument of a template: a text taken as it is, or a type, which brings its headers. -/
inductive TemplateArg where
  | literal (text : String)
  | type (t : TypeDescriptor)

namespace TemplateArg

/-- The text that an argument puts between the brackets. -/
def text : TemplateArg → Except SchemaError String
  | literal s => .ok s
  | type t => t.fullName

/-- The headers that an argument needs. -/
def headers : TemplateArg → HeaderSet
  | literal _ => .empty
  | type t => t.headers

end TemplateArg

namespace TypeDescriptor

/-- The type with its template arguments bound. There must be as many as parameters, and each of
them must have a text; the first argument without one decides the error. -/
def specialize (t : TypeDescriptor) (args : List TemplateArg) :
    Except SchemaError TypeDescriptor :=
  if args.length = t.arity then do
    let texts ← args.mapM TemplateArg.text
    return { t with
      args := texts
      headers := args.foldl (fun hs a => hs.union a.headers) t.headers }
  else .error (.arity t.qualifiedName t.arity args.length)

/-- The template `std::array`, whose parameters are the element type and the length. -/
def arrayTemplate : TypeDescriptor :=
  (standard "array" "array").withArity 2

/-- The numeric type of the elements of an array of this type. An array passes on its own; the
base of a primitive numeric type stands for that numeric type. -/
def innermost (t : TypeDescriptor) : Option NumericType :=
  match t.element, t.primitive with
  | some n, _ => some n
  | none, some k => some ⟨t, .primitive k⟩
  | none, none => none

/-- The type `std::array` of `dim` elements of this type. -/
def arrayOf (t : TypeDescriptor) (dim : Nat) : Except SchemaError TypeDescriptor := do
  let array ← arrayTemplate.specialize [.type t, .literal (Decimal.natural dim)]
  return { array with element := t.innermost }

end TypeDescriptor

/-! ## Numeric types -/

namespace NumericType

/-- The numeric type of a primitive kind. Its base remembers the kind. -/
def primitive (kind : PrimitiveKind) (base : TypeDescriptor) : NumericType :=
  ⟨{ base with primitive := some kind }, .primitive kind⟩

/-- The numeric type with the given bounds, which must be two numbers of one kind. -/
def between (base : TypeDescriptor) (low high : Value) : Except SchemaError NumericType :=
  match Bounds.ofValues? low high with
  | some b => .ok ⟨base, .between b⟩
  | none => .error (.mixedBounds base.qualifiedName low high)

/-- The type `std::array` of `dim` elements of this numeric type, whose bounds the elements
keep. -/
def arrayOf (n : NumericType) (dim : Nat) : Except SchemaError TypeDescriptor := do
  let array ← n.base.arrayOf dim
  return { array with element := some n }

/-- The primitive kind, if it is known. -/
def kind? (n : NumericType) : Option PrimitiveKind :=
  n.range.kind?

/-- The bounds of the values. -/
def bounds (n : NumericType) : Bounds :=
  n.range.bounds

/-- Whether the values are integers. -/
def isIntegral (n : NumericType) : Bool :=
  n.bounds.isIntegral

/-- Whether a scalar is a value of the type. -/
def admits (n : NumericType) (v : Value) : Bool :=
  n.bounds.admits v

/-- The built-in numeric type of a primitive kind: an integer from the header `cstdint`, or a
floating-point type that needs no header. -/
def builtin (kind : PrimitiveKind) : NumericType :=
  primitive kind <|
    if kind.isIntegral then .standard kind.typeName "cstdint" else .named kind.typeName

end NumericType

/-! ## Equality -/

mutual

/-- Equality of types. Bounds compare as numbers, so that a type whose elements are bounded by a
NaN differs from itself. -/
def TypeDescriptor.same : TypeDescriptor → TypeDescriptor → Bool
  | ⟨name, scope, headers, arity, args, primitive, element⟩, u =>
    name == u.name && scope == u.scope && headers == u.headers && arity == u.arity &&
      args == u.args && primitive == u.primitive &&
      match element, u.element with
      | none, none => true
      | some n, some m => n.same m
      | _, _ => false

/-- Equality of numeric types. -/
def NumericType.same : NumericType → NumericType → Bool
  | ⟨base, range⟩, m => base.same m.base && range.same m.range

end

/-! ## Types of fields -/

/-- The type of a field: any type, or a numeric type with known bounds. -/
inductive FieldType where
  | plain (t : TypeDescriptor)
  | numeric (n : NumericType)

namespace FieldType

/-- The type without its bounds. -/
def descriptor : FieldType → TypeDescriptor
  | plain t => t
  | numeric n => n.base

/-- The numeric type of a field that has one. -/
def numeric? : FieldType → Option NumericType
  | plain _ => none
  | numeric n => some n

/-- The full name of the type. -/
def fullName (t : FieldType) : Except SchemaError String :=
  t.descriptor.fullName

/-- Equality of the types of fields. A numeric type differs from its bare base. -/
def same : FieldType → FieldType → Bool
  | plain t, plain u => t.same u
  | numeric n, numeric m => n.same m
  | _, _ => false

end FieldType

end VersionedLayout
