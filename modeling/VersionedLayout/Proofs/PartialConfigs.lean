import VersionedLayout.Proofs.ConfigTexts
import VersionedLayout.Proofs.PartialRecords
set_option autoImplicit false

/-!
# Configurations that are given in part

A text may give some members of a configuration, in any order and among members of other names, and
the default is kept for the members that it does not give. The order does not matter, because every
member changes its own part of the configuration only. A member that is given twice is refused,
wherever the second one stands and whatever its value is.

## Main definitions

* `VersionedLayout.Json.WrittenMember`, `VersionedLayout.Json.IsObjectText` — members of any key and
  any value, and the texts of objects of them.
* `VersionedLayout.Config.withMembers` — a configuration that takes some members from another one.
* `VersionedLayout.Config.GivenBy` — the members of an object give the values of a configuration.

## Main results

* `VersionedLayout.Config.ofJson_object` — reading the text of an object.
* `VersionedLayout.Config.ofJson_array` — reading the text of an array.
* `VersionedLayout.Config.ofJson_partial` — both.
-/

namespace VersionedLayout

namespace Json

/-! ## Objects as they are written -/

/-- A member of an object as it is written: a text of its key, and any JSON for its value. -/
structure WrittenMember where
  /-- The text of the key. -/
  keyText : List Char
  /-- The key. -/
  key : String
  /-- The text of the value. -/
  valueText : List Char
  keyWritten : Written keyText (.string key)
  isJson : IsJson valueText

namespace WrittenMember

variable (m : WrittenMember)

/-- The text of the member. -/
def text : List Char :=
  m.keyText ++ ':' :: m.valueText

/-- The key with the tokens of the value. -/
def lexed : String × List Token :=
  (m.key, tokens m.valueText)

/-- The value of a written member is one for the reader. -/
lemma isValue_lexed : IsValue m.lexed.2 := by
  obtain ⟨vs, hvs, hlexed⟩ := m.isJson.lexed
  rwa [lexed, hlexed.tokens_eq]

/-- The text of a written member is lexed as its name, a colon and its value. -/
lemma lexedAs : LexedAs m.text (Record.namedTokens m.lexed) := by
  obtain ⟨vs, hvs, hlexed⟩ := m.isJson.lexed
  have hkey := m.keyWritten.lexedAs
  rw [toTokens] at hkey
  rw [lexed, hlexed.tokens_eq]
  exact hkey.keyed hlexed

end WrittenMember

/-- The text is an object of the given members, with commas in between, blanks in front of the
closing bracket and blanks around the whole. -/
inductive IsObjectText (ms : List WrittenMember) : List Char → Prop
  | blankBefore {b : Char} {t : List Char} (blank : isBlank b = true) :
    IsObjectText ms t → IsObjectText ms (b :: t)
  | blankAfter {b : Char} {t : List Char} (blank : isBlank b = true) :
    IsObjectText ms t → IsObjectText ms (t ++ [b])
  | braces {bs : List Char} (blanks : ∀ b ∈ bs, isBlank b = true) :
    IsObjectText ms
      ('\x7b' :: [','].intercalate (ms.map WrittenMember.text) ++ bs ++ ['\x7d'])

/-- The text of an object is lexed as its members in braces, with commas in between. -/
lemma IsObjectText.lexedAs {ms : List WrittenMember} {t : List Char} (h : IsObjectText ms t) :
    LexedAs t (.openObject ::
      [.comma].intercalate ((ms.map WrittenMember.lexed).map Record.namedTokens) ++
      [.closeObject]) := by
  induction h with
  | blankBefore blank _ ih => exact ih.blankBefore blank
  | blankAfter blank _ ih => exact ih.blankAfter blank
  | braces blanks =>
    rw [List.map_map]
    exact lexedAs_object (fun m _ => m.lexedAs) blanks

end Json

namespace Config

open Json

variable (c : Config)

/-! ## Members from two configurations -/

/-- The configuration with the members `ks` of `c` and all others of `d`. -/
def withMembers (ks : List Member) (d : Config) : Config where
  banner := if .banner ∈ ks then c.banner else d.banner
  includeHeaders := if .includeHeaders ∈ ks then c.includeHeaders else d.includeHeaders
  versionEnum := if .versionEnum ∈ ks then c.versionEnum else d.versionEnum
  versionParam := if .versionParam ∈ ks then c.versionParam else d.versionParam
  reflectionMacro := if .reflectionMacro ∈ ks then c.reflectionMacro else d.reflectionMacro
  defaultInit := if .defaultInit ∈ ks then c.defaultInit else d.defaultInit
  indent := if .indent ∈ ks then c.indent else d.indent

/-- A member of `c` that is set already is one more of its members. -/
lemma withMembers_withMember (k : Member) (ks : List Member) (d : Config) :
    c.withMembers ks (c.withMember k d) = c.withMembers (k :: ks) d := by
  cases k <;> simp [withMember, withMembers]

/-- Taking members from `c` one after another, in any order, is taking them at once. -/
lemma foldl_withMember_eq (ks : List Member) (d : Config) :
    ks.foldl (fun d k => c.withMember k d) d = c.withMembers ks d := by
  induction ks generalizing d with
  | nil => simp [withMembers]
  | cons k ks ih => rw [List.foldl_cons, ih, withMembers_withMember]

/-- A name is that of one member at most. -/
lemma member?_eq_some_iff {name : String} {k : Member} :
    record.member? name = some k ↔ name = record.name k := by
  constructor
  · intro h
    have hname := @List.find?_some _ (fun l => record.name l == name) k record.members h
    exact (beq_iff_eq.1 hname).symm
  · rintro rfl
    exact member?_name k

/-- A member is given when its name is among the names. -/
lemma mem_given_iff {names : List String} {k : Member} :
    k ∈ record.given names ↔ record.name k ∈ names := by
  simp only [Record.given, List.mem_filterMap, member?_eq_some_iff, exists_eq_right]

/-! ## Objects -/

/-- The members of a configuration that are given by an object with these members, in the order in
which they are given. -/
def given (ms : List WrittenMember) : List Member :=
  record.given (ms.map WrittenMember.key)

/-- Where an object gives a member of a configuration for the first time, it gives the value that
the member has in `c`. A repeated member may have any value, and so may a member of another name. -/
def GivenBy (ms : List WrittenMember) : Prop :=
  ∀ before m after k, ms = before ++ m :: after → m.key = record.name k →
    (∀ n ∈ before, n.key ≠ m.key) → Written m.valueText (c.memberJson k)

/-- An object without members gives no other values. -/
lemma givenBy_nil : c.GivenBy [] := by
  intro before m after k hms
  exact absurd hms.symm (List.append_ne_nil_of_right_ne_nil before (List.cons_ne_nil m after))

/-- One member more, which repeats a key or has the value of `c`. -/
lemma GivenBy.concat {c : Config} {ms : List WrittenMember} (h : c.GivenBy ms) {m : WrittenMember}
    (hm : (∃ n ∈ ms, n.key = m.key) ∨
      ∀ k, m.key = record.name k → Written m.valueText (c.memberJson k)) :
    c.GivenBy (ms ++ [m]) := by
  intro before l after k hms hl hbefore
  rcases List.eq_nil_or_concat' after with rfl | ⟨after, n, rfl⟩
  · obtain ⟨rfl, hlast⟩ := List.append_inj' hms rfl
    obtain rfl := List.singleton_inj.1 hlast
    rcases hm with ⟨n, hn, hkey⟩ | hm
    · exact absurd hkey (hbefore n hn)
    · exact hm k hl
  · rw [← List.cons_append, ← List.append_assoc] at hms
    exact h before l after k (List.append_inj' hms rfl).1 hl hbefore

/-- An object that gives members of a configuration supplies them to the reader. -/
lemma GivenBy.supplies {c : Config} {ms : List WrittenMember} (h : c.GivenBy ms) :
    record.Supplies c.withMember (ms.map WrittenMember.lexed) where
  isValue := List.forall_mem_map.2 fun m _ => m.isValue_lexed
  first := by
    intro before l after k hms hmember hfresh rest
    obtain ⟨seen, others, rfl, rfl, hothers⟩ := List.map_eq_append_iff.1 hms
    obtain ⟨m, left, rfl, rfl, rfl⟩ := List.map_eq_cons_iff.1 hothers
    have hname : m.key = record.name k := member?_eq_some_iff.1 hmember
    have hseen : ∀ n ∈ seen, n.key ≠ m.key := by
      intro n hn hkey
      rw [mem_given_iff, ← hname, ← hkey, List.map_map] at hfresh
      exact hfresh (List.mem_map_of_mem hn)
    have hwritten := h seen m left k rfl hname hseen
    rw [WrittenMember.lexed, hwritten.tokens_eq]
    exact c.decodes_memberJson k rest

/-- **Reading the text of an object.** -/
theorem ofJson_object {ms : List WrittenMember} {text : String}
    (htext : IsObjectText ms text.toList) (hgiven : c.GivenBy ms) :
    ofJson text =
      if (given ms).Nodup then .ok (c.withMembers (given ms) {}) else .error .mismatch := by
  have hkeys : (ms.map WrittenMember.lexed).map Prod.fst = ms.map WrittenMember.key := by
    rw [List.map_map]
    rfl
  have hread := record.read_of_supplies {} hgiven.supplies []
  rw [hkeys] at hread
  rw [given, ofJson, readText, htext.lexedAs.tokens_eq, hread, ← foldl_withMember_eq]
  by_cases hnodup : (record.given (ms.map WrittenMember.key)).Nodup
  · rw [if_pos hnodup, if_pos hnodup]
    rfl
  · rw [if_neg hnodup, if_neg hnodup]
    rfl

/-! ## Arrays -/

/-- **Reading the text of an array** of the values of the first members. -/
theorem ofJson_array {n : Nat} {text : String}
    (htext : Written text.toList (.array ((record.members.take n).map c.memberJson))) :
    ofJson text = .ok (c.withMembers (record.members.take n) {}) := by
  have hmembers := (List.take_append_drop n record.members).symm
  have hread := record.read_array {} hmembers (fun k _ => c.decodes_memberJson k) []
  rw [List.append_nil] at hread
  rw [ofJson, readText, htext.tokens_eq, hread, ← foldl_withMember_eq]
  rfl

/-! ## Both forms -/

/-- **A text gives a part of a configuration.** An object gives any members in any order, and the
default is kept for all others; members of other names may stand anywhere and have any values. If a
member is given twice the text is refused. An array gives the values of the first members. -/
theorem ofJson_partial :
    (∀ (ms : List WrittenMember) (text : String), IsObjectText ms text.toList → c.GivenBy ms →
      ofJson text =
        if (given ms).Nodup then .ok (c.withMembers (given ms) {}) else .error .mismatch) ∧
    ∀ (n : Nat) (text : String),
      Written text.toList (.array ((record.members.take n).map c.memberJson)) →
        ofJson text = .ok (c.withMembers (record.members.take n) {}) :=
  ⟨fun _ _ htext hgiven => c.ofJson_object htext hgiven, fun _ _ htext => c.ofJson_array htext⟩

section Sample

/-- A member that gives the indentation. -/
def indentMember (indent : String) : WrittenMember where
  keyText := quoted "indent"
  key := "indent"
  valueText := quoted indent
  keyWritten := written_quoted "indent"
  isJson := (written_quoted indent).isJson

/-- A member of another name, whose value is half a character. -/
def strangeMember : WrittenMember where
  keyText := quoted "note"
  key := "note"
  valueText := ['"', '\\', 'u', 'd', '8', '0', '0', '"']
  keyWritten := written_quoted "note"
  isJson := .string (@IsStringText.quoted [['\\', 'u', 'd', '8', '0', '0']]
    (List.forall_mem_singleton.2 (.unit (n := 0xd800) rfl)))

/-- An object with a member of another name, an object with a repeated member, and an array of one
value. -/
theorem ofJson_partial_indent :
    ofJson "\x7b\"note\":\"\\ud800\",\"indent\":\"    \"\x7d" = .ok { indent := "    " } ∧
    ofJson "\x7b\"indent\":\"    \",\"indent\":\"\"\x7d" = .error .mismatch ∧
    ofJson "[[]]" = .ok { banner := [] } := by
  let c : Config := { banner := [], indent := "    " }
  obtain ⟨hobject, harray⟩ := ofJson_partial c
  have hnote : ∀ k, "note" ≠ record.name k := by
    intro k
    cases k <;> decide
  have hindent : ∀ k, "indent" = record.name k → Written (quoted "    ") (c.memberJson k) := by
    intro k hk
    have hmember := (member?_eq_some_iff.2 hk).symm.trans (member?_name .indent)
    obtain rfl := Option.some.inj hmember
    exact written_quoted "    "
  have hstrange : c.GivenBy [strangeMember, indentMember "    "] :=
    (c.givenBy_nil.concat (.inr fun k hk => absurd hk (hnote k))).concat (.inr hindent)
  have hrepeated : c.GivenBy [indentMember "    ", indentMember ""] :=
    (c.givenBy_nil.concat (.inr hindent)).concat (.inl ⟨_, List.mem_singleton_self _, rfl⟩)
  have hitems : Written "[[]]".toList (.array [.array []]) :=
    @Written.array [("[]".toList, .array [])] []
      (List.forall_mem_singleton.2 (@Written.array [] [] nofun nofun)) nofun
  exact ⟨hobject _ _ (@IsObjectText.braces _ [] nofun) hstrange,
    hobject _ _ (@IsObjectText.braces _ [] nofun) hrepeated, harray 1 _ hitems⟩

end Sample

end Config

end VersionedLayout
