import VersionedLayout.Bounds
set_option autoImplicit false

/-!
# Primitive numeric kinds

The fixed-width integers and the two floating-point formats of the target language, with the exact
bounds of each.

## Main definitions

* `VersionedLayout.PrimitiveKind` — the ten kinds.
* `VersionedLayout.PrimitiveKind.bounds` — the least and the greatest finite value of a kind.
-/

namespace VersionedLayout

/-- A primitive numeric kind. -/
inductive PrimitiveKind where
  | u8 | u16 | u32 | u64
  | i8 | i16 | i32 | i64
  | f32 | f64
  deriving DecidableEq, Repr

namespace PrimitiveKind

/-- The kinds in declared order. -/
def all : List PrimitiveKind :=
  [u8, u16, u32, u64, i8, i16, i32, i64, f32, f64]

/-- The size of a representation in bytes. -/
def size : PrimitiveKind → Nat
  | u8 | i8 => 1
  | u16 | i16 => 2
  | u32 | i32 | f32 => 4
  | u64 | i64 | f64 => 8

/-- The size of a representation in bits. -/
def width (k : PrimitiveKind) : Nat :=
  8 * k.size

/-- Whether the values are integers. -/
def isIntegral : PrimitiveKind → Bool
  | f32 | f64 => false
  | _ => true

/-- Whether negative values are among those of the kind. -/
def isSigned : PrimitiveKind → Bool
  | u8 | u16 | u32 | u64 => false
  | _ => true

/-- The short name of a kind. -/
def tag : PrimitiveKind → String
  | u8 => "u8"
  | u16 => "u16"
  | u32 => "u32"
  | u64 => "u64"
  | i8 => "i8"
  | i16 => "i16"
  | i32 => "i32"
  | i64 => "i64"
  | f32 => "f32"
  | f64 => "f64"

/-- The kind with the given short name. -/
def ofTag? (s : String) : Option PrimitiveKind :=
  all.find? fun k => k.tag == s

/-- The name of the type in C++, without its namespace. -/
def typeName : PrimitiveKind → String
  | u8 => "uint8_t"
  | u16 => "uint16_t"
  | u32 => "uint32_t"
  | u64 => "uint64_t"
  | i8 => "int8_t"
  | i16 => "int16_t"
  | i32 => "int32_t"
  | i64 => "int64_t"
  | f32 => "float"
  | f64 => "double"

/-- The least and the greatest value of a kind: those of its width in two's complement or without
a sign, and the extreme finite values of its floating-point format. -/
def bounds (k : PrimitiveKind) : Bounds :=
  match k with
  | f32 => .floating .leastBinary32 .largestBinary32
  | f64 => .floating .least .largest
  | _ =>
    if k.isSigned then .integral (-Int.pow 2 (k.width - 1)) (Int.pow 2 (k.width - 1) - 1)
    else .integral 0 (Int.pow 2 k.width - 1)

/-- A kind is integral exactly when its bounds are. -/
theorem isIntegral_bounds (k : PrimitiveKind) : k.bounds.isIntegral = k.isIntegral := by
  cases k <;> rfl

end PrimitiveKind

end VersionedLayout
