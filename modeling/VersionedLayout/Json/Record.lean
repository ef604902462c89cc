import VersionedLayout.Json.Lexer
import VersionedLayout.Json.Skip
set_option autoImplicit false

/-!
# Reading records from JSON

A record is written in JSON as an object, whose members may come in any order, or as the array of
its values in declared order. In an object members of unknown name are skipped, and a member must
not be given twice. In an array values may be left out at the end. Members that are not given keep
what they are, unless they are required.

## Main definitions

* `VersionedLayout.Json.Decoder` — a way to read a value from tokens.
* `VersionedLayout.Json.Decoder.string`, `VersionedLayout.Json.Decoder.strings` — strings and arrays
  of strings.
* `VersionedLayout.Json.Record` — the members of a record and how each of them is read.
* `VersionedLayout.Json.Record.read` — reading a record.
* `VersionedLayout.Json.readText` — reading a whole text.
-/

namespace VersionedLayout

namespace Json

/-- A way to read a value. -/
structure Decoder (α : Type) where
  /-- Reads a value from the beginning of a list of tokens. -/
  run : List Token → Except ReadError (α × List Token)
  /-- A value has at least one token. -/
  shorter : ∀ {ts rest : List Token} {a : α}, run ts = .ok (a, rest) → rest.length < ts.length

/-! ## Strings -/

namespace Decoder

/-- Reads a string. -/
def readString : List Token → Except ReadError (String × List Token)
  | [] => .error .truncated
  | .string kept :: ts => kept.map fun s => (s, ts)
  | t :: _ => .error t.mismatch

/-- A string that is read takes a token at least. -/
theorem readString_length {ts rest : List Token} {s : String}
    (h : readString ts = .ok (s, rest)) : rest.length < ts.length := by
  unfold readString at h
  split at h
  · simp at h
  · rename_i kept ts
    cases kept with
    | error e => simp [Except.map] at h
    | ok s =>
      obtain ⟨_, rfl⟩ := by simpa [Except.map] using h
      simp
  · simp at h

/-- A string. -/
def string : Decoder String :=
  ⟨readString, readString_length⟩

/-- Reads the strings of an array that follow one of its strings, and its closing bracket. -/
def moreStrings : List Token → Except ReadError (List String × List Token)
  | [] | [.comma] => .error .truncated
  | .closeArray :: ts => .ok ([], ts)
  | .comma :: .string kept :: ts => do
    let s ← kept
    let (ss, rest) ← moreStrings ts
    return (s :: ss, rest)
  | .comma :: t :: _ => .error t.mismatch
  | _ => .error .malformed

/-- Reads an array of strings. -/
def readStrings : List Token → Except ReadError (List String × List Token)
  | [] | [.openArray] => .error .truncated
  | .openArray :: .closeArray :: ts => .ok ([], ts)
  | .openArray :: .string kept :: ts => do
    let s ← kept
    let (ss, rest) ← moreStrings ts
    return (s :: ss, rest)
  | .openArray :: t :: _ => .error t.mismatch
  | t :: _ => .error t.mismatch

/-- The rest of a list of strings takes a token at least. -/
theorem moreStrings_length {ts rest : List Token} {ss : List String}
    (h : moreStrings ts = .ok (ss, rest)) : rest.length < ts.length := by
  fun_induction moreStrings ts generalizing ss with
  | case1 | case2 => simp at h
  | case3 ts =>
    obtain ⟨_, rfl⟩ := by simpa using h
    simp
  | case4 kept ts ih =>
    cases kept with
    | error e => simp [bind, Except.bind] at h
    | ok s =>
      cases hm : moreStrings ts with
      | error e => simp [hm, bind, Except.bind] at h
      | ok p =>
        obtain ⟨_, rfl⟩ := by simpa [hm, bind, Except.bind, pure, Except.pure] using h
        have := ih hm
        simp only [List.length_cons]
        omega
  | case5 | case6 => simp at h

/-- A list of strings takes a token at least. -/
theorem readStrings_length {ts rest : List Token} {ss : List String}
    (h : readStrings ts = .ok (ss, rest)) : rest.length < ts.length := by
  unfold readStrings at h
  split at h
  · simp at h
  · simp at h
  · obtain ⟨_, rfl⟩ := by simpa using h
    simp only [List.length_cons]
    omega
  · rename_i kept ts
    cases kept with
    | error e => simp [bind, Except.bind] at h
    | ok s =>
      cases hm : moreStrings ts with
      | error e => simp [hm, bind, Except.bind] at h
      | ok p =>
        obtain ⟨_, rfl⟩ := by simpa [hm, bind, Except.bind, pure, Except.pure] using h
        have := moreStrings_length hm
        simp only [List.length_cons]
        omega
  · simp at h
  · simp at h

/-- An array of strings. -/
def strings : Decoder (List String) :=
  ⟨readStrings, readStrings_length⟩

/-- Reads a value and goes on with a function of it. -/
def map {α β : Type} (f : α → β) (d : Decoder α) : Decoder β where
  run ts := (d.run ts).map fun p => (f p.1, p.2)
  shorter := by
    intro ts rest b h
    cases hd : d.run ts with
    | error e => simp [hd, Except.map] at h
    | ok p =>
      obtain ⟨_, rfl⟩ := by simpa [hd, Except.map] using h
      exact d.shorter hd

end Decoder

/-! ## Records -/

/-- A record with members named by `κ`, which is read into a `σ`. -/
structure Record (κ σ : Type) where
  /-- The members in declared order. -/
  members : List κ
  /-- The name of a member. -/
  name : κ → String
  /-- How a member is read: as a change of what is read. -/
  value : κ → Decoder (σ → σ)
  /-- The members that must be given. -/
  required : List κ

namespace Record

variable {κ σ : Type} (r : Record κ σ)

/-- What has been read of a record: the members that were given, the last one first, and the
result so far. -/
structure Progress (κ σ : Type) where
  /-- The members that were given. -/
  given : List κ
  /-- The result so far. -/
  result : σ

/-- The member of the given name. -/
def member? (name : String) : Option κ :=
  r.members.find? fun k => r.name k == name

/-- Reads the key of a member, which must be a string. -/
def readKey : List Token → Except ReadError (String × List Token)
  | [] => .error .truncated
  | .string kept :: ts => kept.map fun name => (name, ts)
  | .brokenString kept _ :: _ => .error kept
  | _ => .error .malformed

/-- What follows the colon behind a key. -/
def afterColon : List Token → Except ReadError (List Token)
  | [] => .error .truncated
  | .colon :: ts => .ok ts
  | _ => .error .malformed

/-- Reads the value of a member into what has been read. -/
def readValue (p : Progress κ σ) (k : κ) (ts : List Token) :
    Except ReadError (Progress κ σ × List Token) :=
  match (r.value k).run ts with
  | .ok (f, rest) => .ok (⟨k :: p.given, f p.result⟩, rest)
  | .error e => .error e

/-- The name of a member takes a token at least. -/
theorem readKey_length {ts rest : List Token} {name : String}
    (h : readKey ts = .ok (name, rest)) : rest.length < ts.length := by
  unfold readKey at h
  split at h
  · simp at h
  · rename_i kept ts
    cases kept with
    | error e => simp [Except.map] at h
    | ok s =>
      obtain ⟨_, rfl⟩ := by simpa [Except.map] using h
      simp
  · simp at h
  · simp at h

/-- The colon takes a token. -/
theorem afterColon_length {ts rest : List Token} (h : afterColon ts = .ok rest) :
    rest.length < ts.length := by
  unfold afterColon at h
  split at h
  · simp at h
  · obtain rfl := by simpa using h
    simp
  · simp at h

/-- The value of a member takes a token at least. -/
theorem readValue_length {p q : Progress κ σ} {k : κ} {ts rest : List Token}
    (h : r.readValue p k ts = .ok (q, rest)) : rest.length < ts.length := by
  unfold readValue at h
  split at h
  · rename_i hv
    obtain ⟨_, rfl⟩ := by simpa using h
    exact (r.value k).shorter hv
  · simp at h

variable [DecidableEq κ]

/-- Reads a key and the value behind it. A repeated member is refused before its value is looked
at. -/
def readMember (p : Progress κ σ) (ts : List Token) :
    Except ReadError (Progress κ σ × List Token) := do
  let (name, ts) ← readKey ts
  match r.member? name with
  | some k =>
    if k ∈ p.given then .error .mismatch
    else afterColon ts >>= r.readValue p k
  | none =>
    let rest ← afterColon ts >>= skipValue
    return (p, rest)

/-- A member takes a token at least. -/
theorem readMember_length {p q : Progress κ σ} {ts rest : List Token}
    (h : r.readMember p ts = .ok (q, rest)) : rest.length < ts.length := by
  unfold readMember at h
  cases hk : readKey ts with
  | error e => simp [hk, bind, Except.bind] at h
  | ok key =>
    have h₀ := readKey_length hk
    simp only [hk, bind, Except.bind] at h
    cases hc : afterColon key.2 with
    | error e =>
      simp only [hc] at h
      split at h
      · split at h <;> simp at h
      · simp at h
    | ok us =>
      have h₁ := afterColon_length hc
      simp only [hc] at h
      split at h
      · split at h
        · simp at h
        · have h₂ := r.readValue_length h
          omega
      · cases hs : skipValue us with
        | error e => simp [hs] at h
        | ok vs =>
          have h₂ := skipValue_length hs
          obtain ⟨_, rfl⟩ := by simpa [hs, pure, Except.pure] using h
          omega

/-- Reads the members of an object that follow one of its members, and its closing bracket. -/
def moreMembers (p : Progress κ σ) : List Token → Except ReadError (Progress κ σ × List Token)
  | [] => .error .truncated
  | .closeObject :: ts => .ok (p, ts)
  | .comma :: ts =>
    match _h : r.readMember p ts with
    | .ok (q, rest) => moreMembers q rest
    | .error e => .error e
  | _ => .error .malformed
  termination_by ts => ts.length
  decreasing_by
    have := r.readMember_length _h
    simp only [List.length_cons]
    omega

/-- Reads the values of an array for the given members, the first of them behind a comma unless
`first` holds, and its closing bracket. -/
def readItems (p : Progress κ σ) (first : Bool) :
    List κ → List Token → Except ReadError (Progress κ σ × List Token)
  | _, [] => .error .truncated
  | _, .closeArray :: ts => .ok (p, ts)
  | [], _ => .error .malformed
  | k :: ks, t :: ts =>
    match first, t with
    | true, _ => do
      let (q, rest) ← r.readValue p k (t :: ts)
      readItems q false ks rest
    | false, .comma => do
      let (q, rest) ← r.readValue p k ts
      readItems q false ks rest
    | false, _ => .error .malformed

/-- The result of a record, provided that the required members are given. -/
def finish (p : Progress κ σ) : Except ReadError σ :=
  if r.required.all fun k => p.given.contains k then .ok p.result else .error .mismatch

/-- Reads a record that changes `start`. -/
def read (start : σ) (ts : List Token) : Except ReadError (σ × List Token) := do
  let p : Progress κ σ := ⟨[], start⟩
  let (q, rest) ← match ts with
    | [] => .error .truncated
    | .openObject :: .closeObject :: ts => .ok (p, ts)
    | .openObject :: ts => r.readMember p ts >>= fun (q, rest) => r.moreMembers q rest
    | .openArray :: ts => r.readItems p true r.members ts
    | t :: _ => .error t.mismatch
  let result ← r.finish q
  return (result, rest)

end Record

/-! ## Whole texts -/

/-- Reads a whole text as a value, behind which nothing may follow. -/
def readText {α : Type} (run : List Token → Except ReadError (α × List Token)) (text : String) :
    Except ReadError α := do
  let (a, rest) ← run (tokens text.toList)
  if rest.isEmpty then .ok a else .error .malformed

end Json

end VersionedLayout
