import VersionedLayout.Config
import VersionedLayout.Json.Record
import VersionedLayout.Version
set_option autoImplicit false

/-!
# Reading versions, ranges and configurations

## Main definitions

* `VersionedLayout.Version.ofJson`, `VersionedLayout.VersionRange.ofJson` — versions and ranges.
* `VersionedLayout.Config.ofJson` — configurations; what is not given keeps its default.
-/

namespace VersionedLayout

open Json

/-! ## Versions -/

namespace Version

/-- The version with the given enumerator. -/
def ofEnumerator (name : String) : Except ReadError Version :=
  match ofName? name with
  | some v => .ok v
  | none => .error .mismatch

/-- Reads the rest of the form `{"NAME": null}` of a version, from its key on. As in any object the
key must be a string. -/
def readMember (ts : List Token) : Except ReadError (Version × List Token) := do
  let (name, ts) ← Record.readKey ts
  let v ← ofEnumerator name
  match ts with
  | .colon :: .null :: .closeObject :: rest => return (v, rest)
  | [] | [.colon] | [.colon, .null] => .error .truncated
  | .colon :: .null :: _ => .error .malformed
  | .colon :: t :: _ => .error t.mismatch
  | _ => .error .malformed

/-- Reads a version: its enumerator as a string, or an object that has the enumerator as its only
member, with no value. Nothing else can begin a version. -/
def read : List Token → Except ReadError (Version × List Token)
  | [] => .error .truncated
  | .string (.ok name) :: ts => (ofEnumerator name).map fun v => (v, ts)
  | .string (.error e) :: _ => .error e
  | .brokenString kept _ :: _ => .error kept
  | .openObject :: ts => readMember ts
  | _ => .error .malformed

/-- A member that is read takes a token at least. -/
theorem readMember_length {ts rest : List Token} {v : Version}
    (h : readMember ts = .ok (v, rest)) : rest.length < ts.length := by
  unfold readMember at h
  cases hk : Record.readKey ts with
  | error e => simp [hk, bind, Except.bind] at h
  | ok key =>
    obtain ⟨name, us⟩ := key
    have h₀ := Record.readKey_length hk
    cases hv : ofEnumerator name with
    | error e => simp [hk, hv, bind, Except.bind] at h
    | ok w =>
      simp only [hk, hv, bind, Except.bind] at h
      split at h
      · obtain ⟨_, rfl⟩ := by simpa [pure, Except.pure] using h
        simp only [List.length_cons] at h₀
        omega
      all_goals simp at h

/-- A version that is read takes a token at least. -/
theorem read_length {ts rest : List Token} {v : Version} (h : read ts = .ok (v, rest)) :
    rest.length < ts.length := by
  unfold read at h
  split at h
  · simp at h
  · rename_i name ts
    cases hv : ofEnumerator name with
    | error e => simp [hv, Except.map] at h
    | ok w =>
      obtain ⟨_, rfl⟩ := by simpa [hv, Except.map] using h
      simp
  · simp at h
  · simp at h
  · have := readMember_length h
    simp only [List.length_cons]
    omega
  · simp at h

/-- A version, as part of a larger text. -/
def decoder : Decoder Version :=
  ⟨read, read_length⟩

/-- Reads a text as a version. -/
def ofJson (text : String) : Except ReadError Version :=
  readText read text

end Version

/-! ## Ranges -/

namespace VersionRange

/-- The ends of a range. -/
inductive End where
  | low
  | high
  deriving DecidableEq, Repr

/-- A range is a record of its two ends, both of which must be given. -/
def record : Record End VersionRange where
  members := [.low, .high]
  name
    | .low => "low"
    | .high => "high"
  value
    | .low => Version.decoder.map fun v r => { r with low := v }
    | .high => Version.decoder.map fun v r => { r with high := v }
  required := [.low, .high]

/-- Reads a text as a range. -/
def ofJson (text : String) : Except ReadError VersionRange :=
  readText (record.read full) text

end VersionRange

/-! ## Configurations -/

namespace Config

/-- The members of a configuration. -/
inductive Member where
  | banner
  | includeHeaders
  | versionEnum
  | versionParam
  | reflectionMacro
  | defaultInit
  | indent
  deriving DecidableEq, Repr

/-- A configuration is a record whose members may all be left out. -/
def record : Record Member Config where
  members :=
    [.banner, .includeHeaders, .versionEnum, .versionParam, .reflectionMacro, .defaultInit,
     .indent]
  name
    | .banner => "banner"
    | .includeHeaders => "include_headers"
    | .versionEnum => "version_enum"
    | .versionParam => "version_param"
    | .reflectionMacro => "reflection_macro"
    | .defaultInit => "default_init"
    | .indent => "indent"
  value
    | .banner => Decoder.strings.map fun lines c => { c with banner := lines }
    | .includeHeaders => Decoder.strings.map fun hs c => { c with includeHeaders := hs }
    | .versionEnum => Decoder.string.map fun s c => { c with versionEnum := s }
    | .versionParam => Decoder.string.map fun s c => { c with versionParam := s }
    | .reflectionMacro => Decoder.string.map fun s c => { c with reflectionMacro := s }
    | .defaultInit => Decoder.string.map fun s c => { c with defaultInit := s }
    | .indent => Decoder.string.map fun s c => { c with indent := s }
  required := []

/-- Reads a text as a configuration. -/
def ofJson (text : String) : Except ReadError Config :=
  readText (record.read {}) text

end Config

end VersionedLayout
