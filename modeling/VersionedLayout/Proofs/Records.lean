import VersionedLayout.Json.Record
import VersionedLayout.Proofs.SkippedValues
set_option autoImplicit false

/-!
# Reading records from objects

An object is read into a record member by member. A member of a name that the record knows changes
what has been read by its value, and may come once; any other member is skipped, whatever its value.
That is a relation between what has been read before and after, in which neither tokens nor texts
occur, and the reader follows it over the tokens of every object.

## Main definitions

* `VersionedLayout.Json.Decoder.Decodes` — a decoder reads a tree as a value.
* `VersionedLayout.Json.Record.TakesMember`, `VersionedLayout.Json.Record.Takes` — what one member,
  and what all members of an object, make of what has been read.

## Main results

* `VersionedLayout.Json.Record.readMember_known`,
  `VersionedLayout.Json.Record.readMember_repeated`,
  `VersionedLayout.Json.Record.readMember_unknown` — the ways to read a member.
* `VersionedLayout.Json.Record.readMember_of_takesMember` — reading one member.
* `VersionedLayout.Json.Record.read_object` — reading an object is reading its members.
* `VersionedLayout.Json.Record.readText_of_takes` — reading a text of an object.
-/

namespace VersionedLayout

namespace Json

/-! ## Values -/

namespace Decoder

/-- The decoder reads the tree as the value, whatever follows it. -/
def Decodes {α : Type} (d : Decoder α) (j : Json) (a : α) : Prop :=
  ∀ rest, d.run (toTokens j ++ rest) = .ok (a, rest)

/-- A string is decoded from its token. -/
lemma decodes_string (s : String) : string.Decodes (.string s) s := by
  intro rest
  rw [toTokens]
  rfl

/-- Reading the strings of an array behind one of them. -/
lemma moreStrings_append (ss : List String) (rest : List Token) :
    moreStrings (ss.flatMap (fun s => [.comma, .string (.ok s)]) ++ .closeArray :: rest) =
      .ok (ss, rest) := by
  induction ss with
  | nil => rw [List.flatMap_nil, List.nil_append, moreStrings]
  | cons s ss ih =>
    rw [List.flatMap_cons, List.append_assoc]
    simp only [List.cons_append, List.nil_append]
    rw [moreStrings, ok_bind, ih]
    rfl

/-- The tokens of a list of strings are the first string and the others behind commas, in brackets.
-/
lemma toTokens_ofStrings_cons (s : String) (ss : List String) :
    toTokens (.ofStrings (s :: ss)) =
      .openArray :: .string (.ok s) :: ss.flatMap (fun s => [.comma, .string (.ok s)]) ++
        [.closeArray] := by
  have hstrings : toTokens ∘ Json.string = fun s => [.string (.ok s)] := by
    funext s
    rw [Function.comp_apply, toTokens]
  rw [Json.ofStrings, toTokens, List.map_map, hstrings, intercalate_map_cons]
  rfl

/-- A list of strings is decoded from its tokens. -/
lemma decodes_strings (ss : List String) : strings.Decodes (.ofStrings ss) ss := by
  intro rest
  cases ss with
  | nil =>
    rw [Json.ofStrings, toTokens]
    rfl
  | cons s ss =>
    rw [toTokens_ofStrings_cons, List.append_assoc]
    change (moreStrings (ss.flatMap (fun s => [.comma, .string (.ok s)]) ++ .closeArray :: rest) >>=
      fun x => .ok (s :: x.1, x.2)) = .ok (s :: ss, rest)
    rw [moreStrings_append]
    rfl

/-- What is made of a decoded value is decoded. -/
lemma Decodes.map {α β : Type} {d : Decoder α} {j : Json} {a : α} (h : d.Decodes j a)
    (f : α → β) : (d.map f).Decodes j (f a) := by
  intro rest
  change Except.map _ (d.run (toTokens j ++ rest)) = _
  rw [h rest]
  rfl

end Decoder

/-! ## Members -/

namespace Record

variable {κ σ : Type} {r : Record κ σ} {p q : Progress κ σ}

/-- A member of an object takes what has been read one step further. -/
inductive TakesMember (r : Record κ σ) (p : Progress κ σ) : String × Json → Progress κ σ → Prop
  /-- A member that the record knows and that was not given yet is read. -/
  | known {name : String} {j : Json} {k : κ} {f : σ → σ} : r.member? name = some k → k ∉ p.given →
    (r.value k).Decodes j f → TakesMember r p (name, j) ⟨k :: p.given, f p.result⟩
  /-- A member that the record does not know is skipped. -/
  | unknown {name : String} {j : Json} : r.member? name = none → TakesMember r p (name, j) p

/-- The members of an object take what has been read to its end, one after another. -/
inductive Takes (r : Record κ σ) : Progress κ σ → List (String × Json) → Progress κ σ → Prop
  | nil {p : Progress κ σ} : Takes r p [] p
  | cons {p p' q : Progress κ σ} {m : String × Json} {ms : List (String × Json)} :
    r.TakesMember p m p' → Takes r p' ms q → Takes r p (m :: ms) q

/-- Members that the record knows and that were not given yet, each of them once, are all read. -/
lemma takes_map {ks : List κ} {v : κ → Json} {f : κ → σ → σ}
    (hnames : ∀ k ∈ ks, r.member? (r.name k) = some k)
    (hvalues : ∀ k ∈ ks, (r.value k).Decodes (v k) (f k)) (hnodup : ks.Nodup)
    (hfresh : ∀ k ∈ ks, k ∉ p.given) :
    r.Takes p (ks.map fun k => (r.name k, v k))
      ⟨ks.reverse ++ p.given, ks.foldl (fun s k => f k s) p.result⟩ := by
  induction ks generalizing p with
  | nil => exact .nil
  | cons k ks ih =>
    obtain ⟨hname, hnames⟩ := List.forall_mem_cons.1 hnames
    obtain ⟨hvalue, hvalues⟩ := List.forall_mem_cons.1 hvalues
    obtain ⟨hk, hnodup⟩ := List.nodup_cons.1 hnodup
    obtain ⟨hfreshk, hfresh⟩ := List.forall_mem_cons.1 hfresh
    have hrest : ∀ l ∈ ks, l ∉ k :: p.given := by
      intro l hl hmem
      rcases List.mem_cons.1 hmem with rfl | hmem
      · exact hk hl
      · exact hfresh l hl hmem
    have htakes := ih (p := ⟨k :: p.given, f k p.result⟩) hnames hvalues hnodup hrest
    rw [List.reverse_cons, List.append_assoc]
    exact .cons (.known hname hfreshk hvalue) htakes

variable [DecidableEq κ]

section ReadMember

variable {name : String} {k : κ} {ts rest : List Token}

/-- A member that the record knows and that was not given yet is read. -/
lemma readMember_known {f : σ → σ} (hmember : r.member? name = some k) (hfresh : k ∉ p.given)
    (hvalue : (r.value k).run ts = .ok (f, rest)) :
    r.readMember p (.string (.ok name) :: .colon :: ts) =
      .ok (⟨k :: p.given, f p.result⟩, rest) := by
  have hread : r.readValue p k ts = .ok (⟨k :: p.given, f p.result⟩, rest) := by
    rw [readValue, hvalue]
  rw [readMember, readKey, Except.map, ok_bind]
  simp only [hmember, if_neg hfresh]
  exact hread

/-- A member that was given before is refused, whatever stands behind its key. -/
lemma readMember_repeated (hmember : r.member? name = some k) (hgiven : k ∈ p.given) :
    r.readMember p (.string (.ok name) :: ts) = .error .mismatch := by
  rw [readMember, readKey, Except.map, ok_bind]
  simp only [hmember, if_pos hgiven]

/-- A member that the record does not know is skipped. -/
lemma readMember_unknown (hmember : r.member? name = none) (hvalue : skipValue ts = .ok rest) :
    r.readMember p (.string (.ok name) :: .colon :: ts) = .ok (p, rest) := by
  rw [readMember, readKey, Except.map, ok_bind]
  simp only [hmember]
  rw [afterColon, ok_bind, hvalue]
  rfl

end ReadMember

/-- **Reading one member** follows the relation, whatever comes behind the member. -/
theorem readMember_of_takesMember {m : String × Json} (h : r.TakesMember p m q)
    (rest : List Token) : r.readMember p (memberTokens m ++ rest) = .ok (q, rest) := by
  cases h with
  | known hmember hfresh hvalue => exact readMember_known hmember hfresh (hvalue rest)
  | @unknown name j hmember =>
    exact readMember_unknown hmember ((isValue_toTokens j).skipValue_append rest)

/-- Behind a comma another member is read. -/
lemma moreMembers_comma (p : Progress κ σ) (ts : List Token) :
    r.moreMembers p (.comma :: ts) =
      r.readMember p ts >>= fun x => r.moreMembers x.1 x.2 := by
  rw [moreMembers]
  split
  · rename_i h
    rw [h, ok_bind]
  · rename_i h
    rw [h]
    rfl

/-- Reading the members of an object that are left, each of them behind a comma. -/
lemma moreMembers_of_takes {ms : List (String × Json)} (h : r.Takes p ms q) (rest : List Token) :
    r.moreMembers p (ms.flatMap (fun m => .comma :: memberTokens m) ++ .closeObject :: rest) =
      .ok (q, rest) := by
  induction h with
  | nil => rw [List.flatMap_nil, List.nil_append, moreMembers]
  | cons hm _ ih =>
    rw [List.flatMap_cons, List.append_assoc, List.cons_append, moreMembers_comma,
      readMember_of_takesMember hm, ok_bind, ih]

/-- **An object is read as if a comma stood before its first member**, too. -/
lemma read_object (start : σ) (ms : List (Except ReadError String × List Token))
    (rest : List Token) :
    r.read start (.openObject :: [.comma].intercalate (ms.map keyed) ++ .closeObject :: rest) =
      r.moreMembers ⟨[], start⟩
          (ms.flatMap (fun m => .comma :: keyed m) ++ .closeObject :: rest) >>=
        fun x => r.finish x.1 >>= fun s => .ok (s, x.2) := by
  cases ms with
  | nil =>
    rw [List.flatMap_nil, List.nil_append, moreMembers]
    rfl
  | cons m ms =>
    rw [intercalate_map_cons, List.flatMap_cons, List.append_assoc, List.cons_append,
      List.cons_append, moreMembers_comma, List.append_assoc]
    rfl

/-- **Reading an object** that takes a record from its start to its end, with all required members
given, whatever follows it. -/
theorem read_of_takes {start : σ} {ms : List (String × Json)} (h : r.Takes ⟨[], start⟩ ms q)
    (hrequired : ∀ k ∈ r.required, k ∈ q.given) (rest : List Token) :
    r.read start (toTokens (.object ms) ++ rest) = .ok (q.result, rest) := by
  have hfinish : r.finish q = .ok q.result := by
    rw [finish, if_pos]
    simpa using hrequired
  rw [toTokens_object_eq_keyed, List.append_assoc, List.singleton_append, read_object,
    List.flatMap_map]
  change (r.moreMembers ⟨[], start⟩
    (ms.flatMap (fun m => .comma :: memberTokens m) ++ .closeObject :: rest) >>= _) = _
  rw [moreMembers_of_takes h rest, ok_bind, hfinish]
  rfl

/-- **Reading a text of such an object.** -/
theorem readText_of_takes {start : σ} {text : String} {ms : List (String × Json)}
    (htext : Written text.toList (.object ms)) (h : r.Takes ⟨[], start⟩ ms q)
    (hrequired : ∀ k ∈ r.required, k ∈ q.given) :
    readText (r.read start) text = .ok q.result := by
  have hread := read_of_takes h hrequired []
  rw [List.append_nil] at hread
  rw [readText, htext.tokens_eq, hread]
  rfl

end Record

end Json

end VersionedLayout
