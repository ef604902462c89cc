import VersionedLayout.Json.Decoding
import VersionedLayout.Proofs.Printing
import VersionedLayout.Proofs.Records
set_option autoImplicit false

/-!
# Texts of configurations

A configuration is written as the object of all its members, and read by changing the default
configuration member by member. As every member is set to what was written, nothing of the default
is left, and the configuration that was written comes back, whatever its texts are.

## Main definitions

* `VersionedLayout.Config.memberJson` — the JSON form of one member.
* `VersionedLayout.Config.withMember` — a configuration that takes one member from another one.

## Main results

* `VersionedLayout.Config.decodes_memberJson` — the form of a member is read as that member.
* `VersionedLayout.Config.ofJson_of_written` — every text of the form of a configuration is read as
  the configuration.
* `VersionedLayout.Config.ofJson_compact` — the compact text is.
-/

namespace VersionedLayout

namespace Config

open Json

variable (c : Config)

/-! ## Members -/

/-- The JSON form of one member of a configuration. -/
def memberJson : Member → Json
  | .banner => .ofStrings c.banner
  | .includeHeaders => .ofStrings c.includeHeaders
  | .versionEnum => .string c.versionEnum
  | .versionParam => .string c.versionParam
  | .reflectionMacro => .string c.reflectionMacro
  | .defaultInit => .string c.defaultInit
  | .indent => .string c.indent

/-- The configuration `d` with one member taken from `c`. -/
def withMember (k : Member) (d : Config) : Config :=
  match k with
  | .banner => { d with banner := c.banner }
  | .includeHeaders => { d with includeHeaders := c.includeHeaders }
  | .versionEnum => { d with versionEnum := c.versionEnum }
  | .versionParam => { d with versionParam := c.versionParam }
  | .reflectionMacro => { d with reflectionMacro := c.reflectionMacro }
  | .defaultInit => { d with defaultInit := c.defaultInit }
  | .indent => { d with indent := c.indent }

/-- A configuration is written as an object with its members in the order of the record. -/
lemma toJson_eq :
    c.toJson = .object (record.members.map fun k => (record.name k, c.memberJson k)) :=
  rfl

/-- Taking every member from `c` leaves nothing of the configuration before. -/
lemma foldl_withMember (d : Config) :
    record.members.foldl (fun d k => c.withMember k d) d = c := by
  simp only [record, List.foldl_cons, List.foldl_nil, withMember]

/-- The name of a member leads back to the member. -/
lemma member?_name (k : Member) : record.member? (record.name k) = some k := by
  cases k <;> rfl

/-- **The form of a member is read as that member.** -/
theorem decodes_memberJson (k : Member) :
    (record.value k).Decodes (c.memberJson k) (c.withMember k) := by
  cases k with
  | banner | includeHeaders =>
    dsimp only [record, memberJson, withMember]
    exact (Decoder.decodes_strings _).map _
  | versionEnum | versionParam | reflectionMacro | defaultInit | indent =>
    dsimp only [record, memberJson, withMember]
    exact (Decoder.decodes_string _).map _

/-! ## Texts -/

/-- A list of strings can be written. -/
lemma writable_ofStrings (ss : List String) : (ofStrings ss).Writable := by
  refine writable_array fun x hx => ?_
  obtain ⟨s, -, rfl⟩ := List.mem_map.1 hx
  exact writable_string s

/-- The value of every member can be written. -/
lemma writable_memberJson (k : Member) : (c.memberJson k).Writable := by
  cases k with
  | banner | includeHeaders => exact writable_ofStrings _
  | versionEnum | versionParam | reflectionMacro | defaultInit | indent => exact writable_string _

/-- No numbers occur in the form of a configuration. -/
lemma writable_toJson : c.toJson.Writable := by
  rw [toJson_eq]
  refine writable_object fun m hm => ?_
  obtain ⟨k, -, rfl⟩ := List.mem_map.1 hm
  exact c.writable_memberJson k

/-- **Every text of the form of a configuration is read as the configuration**, whichever blanks
and escapes it has. -/
theorem ofJson_of_written {text : String} (h : Written text.toList c.toJson) :
    ofJson text = .ok c := by
  have htakes : record.Takes ⟨[], {}⟩
      (record.members.map fun k => (record.name k, c.memberJson k)) _ :=
    Record.takes_map (fun k _ => member?_name k) (fun k _ => c.decodes_memberJson k)
      (by decide) nofun
  rw [toJson_eq] at h
  rw [ofJson, Record.readText_of_takes h htakes nofun, foldl_withMember]

/-- **A configuration is read back from its compact text**, whatever its lists and its texts are. -/
theorem ofJson_compact : ofJson c.toJson.compact = .ok c :=
  c.ofJson_of_written (written_compact c.writable_toJson)

end Config

end VersionedLayout
