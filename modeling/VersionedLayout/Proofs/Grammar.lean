import VersionedLayout.Json.Reader
import VersionedLayout.Proofs.Numerals
import VersionedLayout.Proofs.StringLiterals
set_option autoImplicit false

/-!
# The grammar of JSON

Which texts are JSON is said without a reader, by the relation `Json.Written` between texts and
trees. The reader is complete for it: from every text of a tree it reads that tree. The argument
runs over the tokens, which do not depend on the text: lexing a text of a tree gives the tokens of
the tree, and reading these gives the tree.

## Main definitions

* `VersionedLayout.Json.Written` — a text is JSON, and the tree is the one that it stands for.
* `VersionedLayout.Json.toTokens` — the tokens of a tree.
* `VersionedLayout.Json.LexedAs` — a text has the given tokens, whatever follows it.

## Main results

* `VersionedLayout.Json.tree_induction` — induction on a tree.
* `VersionedLayout.Json.Written.lexedAs` — a text of a tree has the tokens of the tree.
* `VersionedLayout.Json.readTree_toTokens` — the tokens of a tree are read as the tree.
* `VersionedLayout.Json.Written.ofText_eq` — the reader reads every text of a tree as the tree.
-/

namespace VersionedLayout

namespace Json

/-! ## Texts of trees -/

/-- A member of an object with its texts: one of the key, as a string, and one of the value. -/
structure MemberText where
  /-- The text of the key. -/
  keyText : List Char
  /-- The key. -/
  key : String
  /-- The text of the value. -/
  valueText : List Char
  /-- The value. -/
  value : Json

namespace MemberText

variable (m : MemberText)

/-- The text of the member. -/
def text : List Char :=
  m.keyText ++ ':' :: m.valueText

/-- The member. -/
def member : String × Json :=
  (m.key, m.value)

end MemberText

/-- The text is JSON and stands for the tree. Blanks may surround any value. Between the brackets
stand texts of the items or of the members, with commas in between, and maybe blanks at the end. -/
inductive Written : List Char → Json → Prop where
  | blankBefore {b : Char} {t : List Char} {j : Json} (blank : isBlank b = true) :
      Written t j → Written (b :: t) j
  | blankAfter {b : Char} {t : List Char} {j : Json} (blank : isBlank b = true) :
      Written t j → Written (t ++ [b]) j
  | null : Written ['n', 'u', 'l', 'l'] .null
  | boolTrue : Written ['t', 'r', 'u', 'e'] (.bool true)
  | boolFalse : Written ['f', 'a', 'l', 's', 'e'] (.bool false)
  | number {t : String} (isNumber : IsNumber t) : Written t.toList (.number t)
  | string {t : List Char} {s : String} (spells : Spells t s.toList) :
      Written ('"' :: t ++ ['"']) (.string s)
  | array {ps : List (List Char × Json)} {bs : List Char} (items : ∀ p ∈ ps, Written p.1 p.2)
      (blanks : ∀ b ∈ bs, isBlank b = true) :
      Written ('[' :: [','].intercalate (ps.map Prod.fst) ++ bs ++ [']'])
        (.array (ps.map Prod.snd))
  | object {ms : List MemberText} {bs : List Char}
      (keys : ∀ m ∈ ms, Written m.keyText (.string m.key))
      (values : ∀ m ∈ ms, Written m.valueText m.value) (blanks : ∀ b ∈ bs, isBlank b = true) :
      Written ('\x7b' :: [','].intercalate (ms.map MemberText.text) ++ bs ++ ['\x7d'])
        (.object (ms.map MemberText.member))

/-! ## Trees and their tokens -/

/-- An item is smaller than its array. -/
lemma sizeOf_item_lt {xs : List Json} {x : Json} (h : x ∈ xs) : sizeOf x < sizeOf (array xs) := by
  have := List.sizeOf_lt_of_mem h
  simp only [array.sizeOf_spec]
  omega

/-- The value of a member is smaller than its object. -/
lemma sizeOf_member_lt {ms : List (String × Json)} {m : String × Json} (h : m ∈ ms) :
    sizeOf m.2 < sizeOf (object ms) := by
  obtain ⟨k, v⟩ := m
  have := List.sizeOf_lt_of_mem h
  simp only [Prod.mk.sizeOf_spec] at this
  simp only [object.sizeOf_spec]
  omega

/-- **Induction on a tree**: from the items to the array, and from the values of the members to the
object. -/
@[elab_as_elim]
theorem tree_induction {motive : Json → Prop} (null : motive .null) (bool : ∀ b, motive (.bool b))
    (number : ∀ t, motive (.number t)) (string : ∀ s, motive (.string s))
    (array : ∀ xs, (∀ x ∈ xs, motive x) → motive (.array xs))
    (object : ∀ ms, (∀ m ∈ ms, motive m.2) → motive (.object ms)) : ∀ j, motive j
  | .null => null
  | .bool b => bool b
  | .number t => number t
  | .string s => string s
  | .array xs => array xs fun x _ => tree_induction null bool number string array object x
  | .object ms => object ms fun m _ => tree_induction null bool number string array object m.2
  termination_by j => sizeOf j
  decreasing_by
    · rename_i hx
      exact sizeOf_item_lt hx
    · rename_i hm
      exact sizeOf_member_lt hm

/-- The tokens of a tree. -/
def toTokens : Json → List Token
  | null => [.null]
  | bool b => [.bool b]
  | number t => [numberToken t]
  | string s => [.string (.ok s)]
  | array xs => .openArray :: [.comma].intercalate (xs.map toTokens) ++ [.closeArray]
  | object ms =>
    .openObject ::
      [.comma].intercalate (ms.map fun m => .string (.ok m.1) :: .colon :: toTokens m.2) ++
      [.closeObject]
  termination_by j => sizeOf j
  decreasing_by
    · rename_i hx
      exact sizeOf_item_lt hx
    · rename_i hm
      exact sizeOf_member_lt hm

/-- The tokens of a member. -/
def memberTokens (m : String × Json) : List Token :=
  .string (.ok m.1) :: .colon :: toTokens m.2

/-- The tokens of an object are those of its members in braces, with commas in between. -/
lemma toTokens_object (ms : List (String × Json)) : toTokens (.object ms) =
    .openObject :: [.comma].intercalate (ms.map memberTokens) ++ [.closeObject] := by
  rw [toTokens]
  rfl

/-! ## Parts with commas in between -/

section Intercalate

variable {α β : Type} (comma : β) (f : α → List β)

/-- A single part has no commas. -/
lemma intercalate_map_singleton (a : α) : [comma].intercalate ([a].map f) = f a :=
  List.intercalate_singleton

/-- Between two parts stands a comma. -/
lemma intercalate_map_cons_cons (a b : α) (as : List α) :
    [comma].intercalate ((a :: b :: as).map f) =
      f a ++ comma :: [comma].intercalate ((b :: as).map f) := by
  rw [List.map_cons, List.map_cons, List.intercalate_cons_cons, List.append_assoc]
  rfl

/-- What is put together begins with its first part, and every other part comes behind a comma. -/
lemma intercalate_map_cons (a : α) (as : List α) :
    [comma].intercalate ((a :: as).map f) = f a ++ as.flatMap fun b => comma :: f b := by
  induction as generalizing a with
  | nil => rw [intercalate_map_singleton, List.flatMap_nil, List.append_nil]
  | cons b as ih => rw [intercalate_map_cons_cons, ih, List.flatMap_cons, List.cons_append]

/-- Running over the further parts, each behind a comma: a comma leads to the start of a part, and
behind the part the machine knows of one part more. -/
lemma run_parts {σ ρ : Type} (run : σ → List β → ρ) (start next : List α → σ)
    (hcomma : ∀ seen rest, run (next seen) (comma :: rest) = run (start seen) rest) {as : List α}
    (h : ∀ a ∈ as, ∀ seen rest, run (start seen) (f a ++ rest) = run (next (a :: seen)) rest)
    (seen : List α) (rest : List β) :
    run (next seen) (as.flatMap (fun a => comma :: f a) ++ rest) =
      run (next (as.reverse ++ seen)) rest := by
  induction as generalizing seen with
  | nil => rfl
  | cons a as ih =>
    obtain ⟨ha, has⟩ := List.forall_mem_cons.1 h
    rw [List.flatMap_cons, List.append_assoc, List.cons_append, hcomma, ha, ih has,
      List.reverse_cons, List.append_assoc, List.singleton_append]

end Intercalate

/-! ## Lexing tokens -/

/-- A blank character makes no token. -/
lemma tokens_of_isBlank {c : Char} {cs : List Char} (h : isBlank c = true) :
    tokens (c :: cs) = tokens cs := by
  rw [tokens, if_pos h]

/-- Blank characters in front make no tokens. -/
lemma tokens_blanks_append {bs : List Char} (h : ∀ c ∈ bs, isBlank c = true) (cs : List Char) :
    tokens (bs ++ cs) = tokens cs := by
  induction bs with
  | nil => rfl
  | cons b bs ih =>
    rw [List.cons_append, tokens_of_isBlank (h b List.mem_cons_self),
      ih fun c hc => h c (List.mem_cons_of_mem b hc)]

/-- A lexeme makes its token in front of the tokens of what it leaves. -/
lemma tokens_of_lexeme {c : Char} {cs rest : List Char} {t : Token} (hc : isBlank c = false)
    (h : lexeme c cs = ⟨t, some rest⟩) : tokens (c :: cs) = t :: tokens rest := by
  rw [tokens, if_neg (by rw [hc]; decide)]
  split
  · rename_i r hr
    rw [h] at hr
    rw [h, Option.some.inj hr]
  · rename_i hr
    rw [h] at hr
    cases hr

section Punctuation

variable (cs : List Char)

/-- An opening bracket is a token. -/
lemma tokens_openArray : tokens ('[' :: cs) = .openArray :: tokens cs := tokens_of_lexeme rfl rfl

/-- A closing bracket is a token. -/
lemma tokens_closeArray : tokens (']' :: cs) = .closeArray :: tokens cs := tokens_of_lexeme rfl rfl

/-- An opening brace is a token. -/
lemma tokens_openObject : tokens ('\x7b' :: cs) = .openObject :: tokens cs :=
  tokens_of_lexeme rfl rfl

/-- A closing brace is a token. -/
lemma tokens_closeObject : tokens ('\x7d' :: cs) = .closeObject :: tokens cs :=
  tokens_of_lexeme rfl rfl

/-- A comma is a token. -/
lemma tokens_comma : tokens (',' :: cs) = .comma :: tokens cs := tokens_of_lexeme rfl rfl

/-- A colon is a token. -/
lemma tokens_colon : tokens (':' :: cs) = .colon :: tokens cs := tokens_of_lexeme rfl rfl

end Punctuation

/-- A number begins with a minus or with a digit, and with nothing else. -/
lemma ne_of_numberStart {c d : Char} (h : c = '-' ∨ c.isDigit = true) (hminus : d ≠ '-')
    (hdigit : d.isDigit = false) : c ≠ d := by
  rintro rfl
  rw [hdigit] at h
  exact h.elim hminus nofun

/-- A number begins with no blank character. -/
lemma isBlank_numberStart {c : Char} (h : c = '-' ∨ c.isDigit = true) : isBlank c = false := by
  simp [isBlank, ne_of_numberStart h]

/-- A minus sign or a digit begins the lexeme of a number. -/
lemma lexeme_numberStart {c : Char} (h : c = '-' ∨ c.isDigit = true) (cs : List Char) :
    lexeme c cs = numberLexeme (c :: cs) := by
  have hpunctuation : punctuation? c = none := by
    simp [punctuation?, ne_of_numberStart h]
  have hword : word? c = none := by
    simp [word?, ne_of_numberStart h]
  rw [lexeme, hpunctuation, hword]
  simp [ne_of_numberStart h, h]

/-- A number makes its token in front of what ends a number. -/
lemma tokens_number_append {t : String} (h : IsNumber t) {rest : List Char}
    (hrest : EndsNumber rest) : tokens (t.toList ++ rest) = numberToken t :: tokens rest := by
  have hlexeme := h.numberLexeme_append hrest
  obtain ⟨n, hn, htext⟩ := h
  obtain ⟨c, cs, hcs, hc⟩ := hn.exists_text_eq_cons
  rw [← htext, hcs, List.cons_append] at hlexeme ⊢
  exact tokens_of_lexeme (isBlank_numberStart hc) ((lexeme_numberStart hc _).trans hlexeme)

/-- The spelling of a string in quotes makes its token. -/
lemma tokens_string_append {t : List Char} {s : String} (h : Spells t s.toList)
    (rest : List Char) : tokens ('"' :: (t ++ '"' :: rest)) = .string (.ok s) :: tokens rest :=
  tokens_of_lexeme rfl (h.stringLexeme_append rest)

/-! ## Lexing a text -/

/-- A blank character ends a number. -/
lemma endsNumber_of_isBlank {b : Char} (h : isBlank b = true) (cs : List Char) :
    EndsNumber (b :: cs) := by
  refine endsNumber_cons ?_
  have hb : ((b = ' ' ∨ b = '\t') ∨ b = '\n') ∨ b = '\r' := by
    simpa [isBlank] using h
  rcases hb with ((rfl | rfl) | rfl) | rfl <;> decide

/-- Blank characters in front of what ends a number end it too. -/
lemma EndsNumber.blanks_append {bs cs : List Char} (hbs : ∀ c ∈ bs, isBlank c = true)
    (hcs : EndsNumber cs) : EndsNumber (bs ++ cs) := by
  cases bs with
  | nil => exact hcs
  | cons b bs => exact endsNumber_of_isBlank (hbs b List.mem_cons_self) (bs ++ cs)

/-- Lexing texts with commas in between, given how each of them is lexed. -/
lemma tokens_intercalate_append {α : Type} {text : α → List Char} {out : α → List Token}
    {ps : List α}
    (h : ∀ p ∈ ps, ∀ rest, EndsNumber rest → tokens (text p ++ rest) = out p ++ tokens rest)
    {rest : List Char} (hrest : EndsNumber rest) :
    tokens ([','].intercalate (ps.map text) ++ rest) =
      [.comma].intercalate (ps.map out) ++ tokens rest := by
  induction ps with
  | nil => rfl
  | cons p ps ih =>
    cases ps with
    | nil =>
      rw [intercalate_map_singleton, intercalate_map_singleton]
      exact h p List.mem_cons_self rest hrest
    | cons q qs =>
      have hqs := ih fun r hr => h r (List.mem_cons_of_mem p hr)
      rw [intercalate_map_cons_cons, intercalate_map_cons_cons]
      simp only [List.append_assoc, List.cons_append]
      rw [h p List.mem_cons_self _ (endsNumber_cons (by decide)), tokens_comma, hqs]

/-- The text has the given tokens, whatever follows it, as long as a number at its end ends
there. -/
def LexedAs (t : List Char) (ts : List Token) : Prop :=
  ∀ rest, EndsNumber rest → tokens (t ++ rest) = ts ++ tokens rest

section LexedAs

variable {b : Char} {s t : List Char} {ts : List Token}

/-- A text that is lexed as tokens has these tokens. -/
lemma LexedAs.tokens_eq (h : LexedAs t ts) : tokens t = ts := by
  have happend := h [] endsNumber_nil
  rwa [List.append_nil, tokens, List.append_nil] at happend

/-- A blank character in front of a text does not change its tokens. -/
lemma LexedAs.blankBefore (h : LexedAs t ts) (blank : isBlank b = true) :
    LexedAs (b :: t) ts := by
  intro rest hrest
  rw [List.cons_append, tokens_of_isBlank blank, h rest hrest]

/-- A blank character behind a text does not change its tokens. -/
lemma LexedAs.blankAfter (h : LexedAs t ts) (blank : isBlank b = true) :
    LexedAs (t ++ [b]) ts := by
  intro rest _
  rw [List.append_assoc, List.singleton_append, h _ (endsNumber_of_isBlank blank rest),
    tokens_of_isBlank blank]

/-- A name, a colon and a value are lexed one after another. -/
lemma LexedAs.keyed {kept : Except ReadError String} (hkey : LexedAs s [.string kept])
    (hvalue : LexedAs t ts) : LexedAs (s ++ ':' :: t) (.string kept :: .colon :: ts) := by
  intro rest hrest
  rw [List.append_assoc, List.cons_append, hkey _ (endsNumber_cons (by decide)), tokens_colon,
    hvalue rest hrest]
  rfl

end LexedAs

section Brackets

variable {α : Type} {text : α → List Char} {out : α → List Token} {ps : List α} {bs : List Char}

/-- Texts with commas in between, inside the brackets of an array. -/
lemma lexedAs_array (h : ∀ p ∈ ps, LexedAs (text p) (out p)) (hbs : ∀ b ∈ bs, isBlank b = true) :
    LexedAs ('[' :: [','].intercalate (ps.map text) ++ bs ++ [']'])
      (.openArray :: [.comma].intercalate (ps.map out) ++ [.closeArray]) := by
  intro rest _
  have hend : EndsNumber (bs ++ ']' :: rest) := (endsNumber_cons (by decide)).blanks_append hbs
  simp only [List.cons_append, List.append_assoc, List.nil_append]
  rw [tokens_openArray, tokens_intercalate_append h hend, tokens_blanks_append hbs,
    tokens_closeArray]

/-- Texts with commas in between, inside the brackets of an object. -/
lemma lexedAs_object (h : ∀ p ∈ ps, LexedAs (text p) (out p)) (hbs : ∀ b ∈ bs, isBlank b = true) :
    LexedAs ('\x7b' :: [','].intercalate (ps.map text) ++ bs ++ ['\x7d'])
      (.openObject :: [.comma].intercalate (ps.map out) ++ [.closeObject]) := by
  intro rest _
  have hend : EndsNumber (bs ++ '\x7d' :: rest) := (endsNumber_cons (by decide)).blanks_append hbs
  simp only [List.cons_append, List.append_assoc, List.nil_append]
  rw [tokens_openObject, tokens_intercalate_append h hend, tokens_blanks_append hbs,
    tokens_closeObject]

end Brackets

/-- **A text of a tree has the tokens of the tree**, whatever follows it, as long as a number at its
end ends there.

**Proof sketch.** Induction on the derivation. Brackets, commas and colons are tokens of one
character, strings and numbers are lexed back from their texts, and blanks are no tokens. What
stands behind an item or a member is a comma, a blank or a closing bracket, so every number
ends. -/
theorem Written.lexedAs {t : List Char} {j : Json} (h : Written t j) : LexedAs t (toTokens j) := by
  induction h with
  | blankBefore blank _ ih => exact ih.blankBefore blank
  | blankAfter blank _ ih => exact ih.blankAfter blank
  | null | boolTrue | boolFalse =>
    intro rest _
    rw [toTokens]
    exact tokens_of_lexeme rfl rfl
  | number isNumber =>
    intro rest hrest
    rw [tokens_number_append isNumber hrest, toTokens]
    rfl
  | string spells =>
    intro rest _
    simp only [List.cons_append, List.append_assoc, List.nil_append]
    rw [tokens_string_append spells, toTokens]
    rfl
  | @array ps bs _ blanks ih =>
    rw [toTokens, List.map_map]
    exact lexedAs_array ih blanks
  | @object ms bs _ _ blanks ihKeys ihValues =>
    have hmembers : ∀ m ∈ ms, LexedAs m.text (memberTokens m.member) := by
      intro m hm
      have hkey := ihKeys m hm
      rw [toTokens] at hkey
      exact hkey.keyed (ihValues m hm)
    rw [toTokens_object, List.map_map]
    exact lexedAs_object hmembers blanks

/-! ## Reading the tokens of a tree -/

/-- Tokens are read one after another. -/
lemma readTree_cons (s : ReadState) (t : Token) (ts : List Token) :
    readTree s (t :: ts) = readStep s t >>= fun s => readTree s ts := rfl

/-- No tree begins with the closing bracket of an array. -/
lemma exists_toTokens_eq_cons (j : Json) : ∃ t ts, toTokens j = t :: ts ∧ t ≠ .closeArray := by
  cases j <;> rw [toTokens] <;> exact ⟨_, _, rfl, nofun⟩

/-- The first item of an array is read like any value. -/
lemma readTree_firstItem (fs : List Frame) (x : Json) (ts : List Token) :
    readTree (.firstItem fs) (toTokens x ++ ts) =
      readTree (.value (.array [] :: fs)) (toTokens x ++ ts) := by
  obtain ⟨t, us, htokens, ht⟩ := exists_toTokens_eq_cons x
  have hstep : readStep (.firstItem fs) t = readStart (.array [] :: fs) t := by
    cases t with
    | closeArray => exact absurd rfl ht
    | _ => rfl
  rw [htokens, List.cons_append, readTree_cons, readTree_cons, hstep]
  rfl

/-- **The tokens of a tree are read as the tree**, inside any open brackets and whatever follows
them. -/
theorem readTree_toTokens (j : Json) (fs : List Frame) (ts : List Token) :
    readTree (.value fs) (toTokens j ++ ts) = readTree (plug j fs) ts := by
  induction j using tree_induction generalizing fs ts with
  | null | bool | number | string =>
    rw [toTokens]
    rfl
  | array xs ih =>
    rw [toTokens, List.append_assoc]
    change readTree (.firstItem fs)
      ([.comma].intercalate (xs.map toTokens) ++ .closeArray :: ts) = _
    cases xs with
    | nil => rfl
    | cons x xs =>
      obtain ⟨hx, hxs⟩ := List.forall_mem_cons.1 ih
      -- the first item is not the closing bracket, for which the reader looks first
      rw [intercalate_map_cons, List.append_assoc, readTree_firstItem, hx]
      have hitems := run_parts .comma toTokens readTree (fun ys => .value (.array ys :: fs))
        (fun ys => .nextItem ys fs) (fun _ _ => rfl) (fun y hy ys => hxs y hy (.array ys :: fs))
        [x] (.closeArray :: ts)
      rw [← List.reverse_cons] at hitems
      refine hitems.trans ?_
      rw [readTree_cons, readStep, List.reverse_reverse]
      rfl
  | object ms ih =>
    rw [toTokens_object, List.append_assoc]
    change readTree (.firstKey fs)
      ([.comma].intercalate (ms.map memberTokens) ++ .closeObject :: ts) = _
    cases ms with
    | nil => rfl
    | cons m ms =>
      obtain ⟨hm, hms⟩ := List.forall_mem_cons.1 ih
      rw [intercalate_map_cons, List.append_assoc]
      -- behind the first key and its colon stands the first value
      change readTree (.value (.member [] m.1 :: fs)) (toTokens m.2 ++ _) = _
      rw [hm]
      have hmembers := run_parts .comma memberTokens readTree (fun ns => .key ns fs)
        (fun ns => .nextMember ns fs) (fun _ _ => rfl)
        (fun n hn ns => hms n hn (.member ns n.1 :: fs)) [m] (.closeObject :: ts)
      rw [← List.reverse_cons] at hmembers
      refine hmembers.trans ?_
      rw [readTree_cons, readStep, List.reverse_reverse]
      rfl

/-! ## Reading a text -/

/-- A text of a tree has the tokens of the tree. -/
lemma Written.tokens_eq {t : List Char} {j : Json} (h : Written t j) : tokens t = toTokens j :=
  h.lexedAs.tokens_eq

/-- **The reader reads every text of a tree as the tree.** -/
theorem Written.ofText_eq {text : String} {j : Json} (h : Written text.toList j) :
    ofText text = .ok j := by
  have hread := readTree_toTokens j [] []
  rw [List.append_nil] at hread
  rw [ofText, h.tokens_eq, hread]
  rfl

end Json

end VersionedLayout
