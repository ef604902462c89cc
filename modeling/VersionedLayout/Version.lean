set_option autoImplicit false

/-!
# Client versions

The releases of the client whose binary records are described, and the inclusive ranges of
releases that guard structs and blocks of fields.

Every release has an *ordinal*, and ranges compare by ordinal alone. Ordinals are not
chronological: the re-released branches (`CLASSIC_NEW` and its companions) sort between the
first releases. Whatever is listed per release therefore follows `Version.all`, the declared
order, and never the ordinals. The sentinel `Version.any` lies above every release; it closes
open-ended ranges and has no layout of its own.

## Main definitions

* `VersionedLayout.Version` — a release, or the sentinel.
* `VersionedLayout.Version.all` — the releases in declared order.
* `VersionedLayout.VersionRange` — an inclusive range, and `VersionedLayout.VersionRange.contains`.
-/

namespace VersionedLayout

/-- A release of the client, or the sentinel `any` above all of them. -/
inductive Version where
  | classic | tbc | wotlk | cata | mop | wod | legion | bfa | sl | df
  | classicNew | tbcNew | wotlkNew
  | any
  deriving DecidableEq, Repr

namespace Version

/-- The position of a version on the line along which ranges are compared. -/
def ordinal : Version → Nat
  | classic => 0
  | tbc => 10
  | wotlk => 20
  | cata => 30
  | mop => 40
  | wod => 50
  | legion => 60
  | bfa => 70
  | classicNew => 71
  | sl => 80
  | tbcNew => 81
  | df => 90
  | wotlkNew => 91
  | any => 100000

/-- The enumerator of a version, by which it is written everywhere. -/
def name : Version → String
  | classic => "CLASSIC"
  | tbc => "TBC"
  | wotlk => "WOTLK"
  | cata => "CATA"
  | mop => "MOP"
  | wod => "WOD"
  | legion => "LEGION"
  | bfa => "BFA"
  | sl => "SL"
  | df => "DF"
  | classicNew => "CLASSIC_NEW"
  | tbcNew => "TBC_NEW"
  | wotlkNew => "WOTLK_NEW"
  | any => "ANY"

/-- The releases in declared order, without the sentinel. -/
def all : List Version :=
  [classic, tbc, wotlk, cata, mop, wod, legion, bfa, sl, df, classicNew, tbcNew, wotlkNew]

/-- The releases, then the sentinel. -/
def allAndAny : List Version :=
  all ++ [any]

/-- The version with the given enumerator. -/
def ofName? (s : String) : Option Version :=
  allAndAny.find? fun v => v.name == s

/-- All versions but the sentinel are releases. -/
theorem mem_all {v : Version} : v ∈ all ↔ v ≠ any := by
  cases v <;> decide

/-- No release is listed twice. -/
theorem all_nodup : all.Nodup := by
  decide

/-- Every version is read back from its enumerator. -/
@[simp]
theorem ofName?_name (v : Version) : ofName? v.name = some v := by
  cases v <;> decide

end Version

/-- An inclusive range of versions. Its ends may stand in the wrong order; such an *inverted*
range contains nothing. -/
structure VersionRange where
  /-- The first version of the range. -/
  low : Version
  /-- The last version of the range. -/
  high : Version
  deriving DecidableEq, Repr

namespace VersionRange

/-- Whether a version lies in the range, by ordinal. -/
def contains (r : VersionRange) (v : Version) : Bool :=
  r.low.ordinal ≤ v.ordinal && v.ordinal ≤ r.high.ordinal

/-- Whether the low end lies above the high end. -/
def isInverted (r : VersionRange) : Bool :=
  r.high.ordinal < r.low.ordinal

/-- The releases in the range, in declared order. -/
def versions (r : VersionRange) : List Version :=
  Version.all.filter r.contains

/-- The range from the first release to the sentinel, which contains every version. -/
def full : VersionRange :=
  ⟨.classic, .any⟩

/-- The written form of a range, `[LOW, HIGH]`. -/
def display (r : VersionRange) : String :=
  "[" ++ r.low.name ++ ", " ++ r.high.name ++ "]"

/-- A range contains the versions between its ends. -/
theorem contains_iff {r : VersionRange} {v : Version} :
    r.contains v = true ↔ r.low.ordinal ≤ v.ordinal ∧ v.ordinal ≤ r.high.ordinal := by
  simp [contains]

/-- A range is inverted when its ends are out of order. -/
theorem isInverted_iff {r : VersionRange} :
    r.isInverted = true ↔ r.high.ordinal < r.low.ordinal := by
  simp [isInverted]

/-- The full range contains every version. -/
@[simp]
theorem contains_full (v : Version) : full.contains v = true := by
  cases v <;> decide

end VersionRange

end VersionedLayout
