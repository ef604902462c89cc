import VersionedLayout.Json.Skip
import VersionedLayout.Proofs.Grammar
set_option autoImplicit false

/-!
# Skipping values

A value that is skipped has to be JSON, but it need not stand for a tree: a lone surrogate in one of
its strings or keys is no character. So the texts that are JSON are given once more, by a grammar
without trees, in which a `\u` escape is any code unit. Such a text is lexed to the tokens of one
value, and skipping passes exactly these.

## Main definitions

* `VersionedLayout.Json.IsValue` — the tokens of one value.
* `VersionedLayout.Json.IsJson` — the texts that are JSON.

## Main results

* `VersionedLayout.Json.IsValue.skipValue_append` — skipping passes exactly one value.
* `VersionedLayout.Json.IsJson.lexed` — every text that is JSON is lexed to one value.
* `VersionedLayout.Json.Written.isJson` — every text of a tree is JSON.
-/

namespace VersionedLayout

namespace Json

/-! ## Values as tokens -/

/-- A key, its colon and what stands behind it. -/
def keyed (m : Except ReadError String × List Token) : List Token :=
  .string m.1 :: .colon :: m.2

/-- The tokens are those of one value. Whether its strings and keys could be kept, and how large its
numbers are, does not matter. -/
inductive IsValue : List Token → Prop
  | null : IsValue [.null]
  | bool (b : Bool) : IsValue [.bool b]
  | number (text : String) (tooLarge : Bool) : IsValue [.number text tooLarge]
  | string (kept : Except ReadError String) : IsValue [.string kept]
  | array {vs : List (List Token)} (items : ∀ v ∈ vs, IsValue v) :
    IsValue (.openArray :: [.comma].intercalate vs ++ [.closeArray])
  | object {ms : List (Except ReadError String × List Token)} (values : ∀ m ∈ ms, IsValue m.2) :
    IsValue (.openObject :: [.comma].intercalate (ms.map keyed) ++ [.closeObject])

/-- The tokens of an object are those of names and values in braces, with commas in between. -/
lemma toTokens_object_eq_keyed (ms : List (String × Json)) : toTokens (.object ms) =
    .openObject ::
      [.comma].intercalate ((ms.map fun m => (.ok m.1, toTokens m.2)).map keyed) ++
      [.closeObject] := by
  rw [toTokens_object, List.map_map]
  rfl

/-- The tokens of a tree are those of one value. -/
lemma isValue_toTokens (j : Json) : IsValue (toTokens j) := by
  induction j using tree_induction with
  | null =>
    rw [toTokens]
    exact .null
  | bool b =>
    rw [toTokens]
    exact .bool b
  | number t =>
    rw [toTokens]
    exact .number _ _
  | string s =>
    rw [toTokens]
    exact .string _
  | array xs ih =>
    rw [toTokens]
    exact .array (List.forall_mem_map.2 ih)
  | object ms ih =>
    rw [toTokens_object_eq_keyed]
    exact .object (List.forall_mem_map.2 ih)

/-! ## Skipping tokens -/

/-- What skipping does behind a value inside the given brackets: it ends if there are none. -/
def skipBehind (bs : List Bracket) (ts : List Token) : Except ReadError (List Token) :=
  match afterValue bs with
  | none => .ok ts
  | some s => skipFrom s ts

/-- The last token of a value is followed by what stands behind the value. -/
lemma skipFrom_last {s : SkipState} {t : Token} {bs : List Bracket}
    (h : skipStep s t = .ok (afterValue bs)) (ts : List Token) :
    skipFrom s (t :: ts) = skipBehind bs ts := by
  rw [skipFrom, h, skipBehind]
  cases afterValue bs <;> rfl

/-- No value begins with the closing bracket of an array. -/
lemma IsValue.exists_eq_cons {vs : List Token} (h : IsValue vs) :
    ∃ t ts, vs = t :: ts ∧ t ≠ .closeArray := by
  cases h <;> exact ⟨_, _, rfl, nofun⟩

/-- The first item of an array is skipped like any value. -/
lemma IsValue.skipFrom_firstItem {vs : List Token} (h : IsValue vs) (bs : List Bracket)
    (ts : List Token) :
    skipFrom ⟨.firstItem, bs⟩ (vs ++ ts) = skipFrom ⟨.value, bs⟩ (vs ++ ts) := by
  obtain ⟨t, us, rfl, ht⟩ := h.exists_eq_cons
  have hstep : skipStep ⟨.firstItem, bs⟩ t = skipStep ⟨.value, bs⟩ t := by
    cases t with
    | closeArray => exact absurd rfl ht
    | _ => rcases bs with _ | ⟨_ | _, bs⟩ <;> rfl
  rw [List.cons_append, skipFrom, skipFrom, hstep]

/-- **Skipping passes exactly one value**, inside any brackets and whatever follows it.

**Proof sketch.** Induction on the value. A scalar is one step. Behind an opening bracket the first
item or member is passed by hypothesis, the others, each behind its comma, in one run
(`run_parts`), and the closing bracket leads back to the brackets outside. -/
theorem IsValue.skipFrom_append {vs : List Token} (h : IsValue vs) (bs : List Bracket)
    (ts : List Token) : skipFrom ⟨.value, bs⟩ (vs ++ ts) = skipBehind bs ts := by
  induction h generalizing bs ts with
  | null | bool | number | string => exact skipFrom_last rfl ts
  | @array vs items ih =>
    rw [← List.map_id vs, List.append_assoc]
    change skipFrom ⟨.firstItem, .array :: bs⟩
      ([.comma].intercalate (vs.map id) ++ .closeArray :: ts) = skipBehind bs ts
    cases vs with
    | nil => exact skipFrom_last rfl ts
    | cons v vs =>
      obtain ⟨hv, hvs⟩ := List.forall_mem_cons.1 ih
      -- the first item is not the closing bracket, for which the reader looks first
      rw [intercalate_map_cons, List.append_assoc, id,
        (items v List.mem_cons_self).skipFrom_firstItem, hv]
      have hitems := run_parts .comma id skipFrom (fun _ => ⟨.value, .array :: bs⟩)
        (fun _ => ⟨.next, .array :: bs⟩) (fun _ _ => rfl) (fun w hw _ => hvs w hw (.array :: bs))
        [v] (.closeArray :: ts)
      exact hitems.trans (skipFrom_last rfl ts)
  | @object ms _ ih =>
    rw [List.append_assoc]
    change skipFrom ⟨.firstKey, .object :: bs⟩
      ([.comma].intercalate (ms.map keyed) ++ .closeObject :: ts) = skipBehind bs ts
    cases ms with
    | nil => exact skipFrom_last rfl ts
    | cons m ms =>
      obtain ⟨hm, hms⟩ := List.forall_mem_cons.1 ih
      rw [intercalate_map_cons, List.append_assoc]
      -- behind the first key and its colon stands the first value
      change skipFrom ⟨.value, .object :: bs⟩ (m.2 ++ _) = skipBehind bs ts
      rw [hm]
      have hmembers := run_parts .comma keyed skipFrom (fun _ => ⟨.key, .object :: bs⟩)
        (fun _ => ⟨.next, .object :: bs⟩) (fun _ _ => rfl)
        (fun n hn _ => hms n hn (.object :: bs)) [m] (.closeObject :: ts)
      exact hmembers.trans (skipFrom_last rfl ts)

/-- A value is skipped up to what follows it. -/
lemma IsValue.skipValue_append {vs : List Token} (h : IsValue vs) (ts : List Token) :
    skipValue (vs ++ ts) = .ok ts :=
  h.skipFrom_append [] ts

/-! ## Texts that are JSON -/

/-- A piece of a string: a character, an escape of one letter, or the hexadecimal digits of a code
unit, which need not belong to a character. -/
inductive IsPiece : List Char → Prop
  | plain {c : Char} (quote : c ≠ '"') (backslash : c ≠ '\\') (control : ¬ c.toNat < 0x20) :
    IsPiece [c]
  | letter {c e : Char} (value : simpleEscape? e = some c) : IsPiece ['\\', e]
  | unit {n : Nat} {h₁ h₂ h₃ h₄ : Char} (value : hexNumber? [h₁, h₂, h₃, h₄] = some n) :
    IsPiece ['\\', 'u', h₁, h₂, h₃, h₄]

/-- The text is a string with quotes around it, and blanks around these. -/
inductive IsStringText : List Char → Prop
  | blankBefore {b : Char} {t : List Char} (blank : isBlank b = true) :
    IsStringText t → IsStringText (b :: t)
  | blankAfter {b : Char} {t : List Char} (blank : isBlank b = true) :
    IsStringText t → IsStringText (t ++ [b])
  | quoted {ps : List (List Char)} (pieces : ∀ p ∈ ps, IsPiece p) :
    IsStringText ('"' :: ps.flatten ++ ['"'])

/-- The text is JSON: it is built like the texts of trees, but of any strings and keys. -/
inductive IsJson : List Char → Prop
  | blankBefore {b : Char} {t : List Char} (blank : isBlank b = true) : IsJson t → IsJson (b :: t)
  | blankAfter {b : Char} {t : List Char} (blank : isBlank b = true) : IsJson t → IsJson (t ++ [b])
  | null : IsJson ['n', 'u', 'l', 'l']
  | boolTrue : IsJson ['t', 'r', 'u', 'e']
  | boolFalse : IsJson ['f', 'a', 'l', 's', 'e']
  | number {t : String} (isNumber : IsNumber t) : IsJson t.toList
  | string {t : List Char} (isString : IsStringText t) : IsJson t
  | array {ts : List (List Char)} {bs : List Char} (items : ∀ t ∈ ts, IsJson t)
    (blanks : ∀ b ∈ bs, isBlank b = true) : IsJson ('[' :: [','].intercalate ts ++ bs ++ [']'])
  | object {ms : List (List Char × List Char)} {bs : List Char} (keys : ∀ m ∈ ms, IsStringText m.1)
    (values : ∀ m ∈ ms, IsJson m.2) (blanks : ∀ b ∈ bs, isBlank b = true) :
    IsJson ('\x7b' :: [','].intercalate (ms.map fun m => m.1 ++ ':' :: m.2) ++ bs ++ ['\x7d'])

/-! ## Texts of trees are JSON -/

/-- The spelling of a character is made of pieces. -/
lemma Spelling.exists_pieces {c : Char} {t : List Char} (h : Spelling c t) :
    ∃ ps : List (List Char), t = ps.flatten ∧ ∀ p ∈ ps, IsPiece p := by
  cases h with
  | plain quote backslash control =>
    exact ⟨[[c]], rfl, List.forall_mem_singleton.2 (.plain quote backslash control)⟩
  | letter value => exact ⟨[_], rfl, List.forall_mem_singleton.2 (.letter value)⟩
  | unit value => exact ⟨[_], rfl, List.forall_mem_singleton.2 (.unit value)⟩
  | @pair lead trail h₁ h₂ h₃ h₄ k₁ k₂ k₃ k₄ first _ second _ =>
    refine ⟨[['\\', 'u', h₁, h₂, h₃, h₄], ['\\', 'u', k₁, k₂, k₃, k₄]], rfl, ?_⟩
    exact List.forall_mem_cons.2 ⟨.unit first, List.forall_mem_singleton.2 (.unit second)⟩

/-- The spelling of a string is made of pieces. -/
lemma Spells.exists_pieces {t cs : List Char} (h : Spells t cs) :
    ∃ ps : List (List Char), t = ps.flatten ∧ ∀ p ∈ ps, IsPiece p := by
  induction h with
  | nil => exact ⟨[], rfl, nofun⟩
  | cons hc _ ih =>
    obtain ⟨ps, rfl, hps⟩ := hc.exists_pieces
    obtain ⟨qs, rfl, hqs⟩ := ih
    exact ⟨ps ++ qs, List.flatten_append.symm, List.forall_mem_append.2 ⟨hps, hqs⟩⟩

/-- A spelled string in quotes is a text of a string. -/
lemma Spells.isStringText {t cs : List Char} (h : Spells t cs) :
    IsStringText ('"' :: t ++ ['"']) := by
  obtain ⟨ps, rfl, hps⟩ := h.exists_pieces
  exact .quoted hps

/-- A text of a string is one for the reader. -/
lemma Written.isStringText {t : List Char} {s : String} (h : Written t (.string s)) :
    IsStringText t := by
  generalize hj : Json.string s = j at h
  induction h with
  | blankBefore blank _ ih => exact .blankBefore blank (ih hj)
  | blankAfter blank _ ih => exact .blankAfter blank (ih hj)
  | string spells => exact spells.isStringText
  | _ => cases hj

/-- **Every text of a tree is JSON.** -/
theorem Written.isJson {t : List Char} {j : Json} (h : Written t j) : IsJson t := by
  induction h with
  | blankBefore blank _ ih => exact .blankBefore blank ih
  | blankAfter blank _ ih => exact .blankAfter blank ih
  | null => exact .null
  | boolTrue => exact .boolTrue
  | boolFalse => exact .boolFalse
  | number isNumber => exact .number isNumber
  | string spells => exact .string spells.isStringText
  | array _ blanks ih => exact .array (List.forall_mem_map.2 ih) blanks
  | @object ms bs keys _ blanks _ ih =>
    have hms : ms.map MemberText.text =
        (ms.map fun m => (m.keyText, m.valueText)).map fun m => m.1 ++ ':' :: m.2 := by
      rw [List.map_map]
      rfl
    rw [hms]
    exact .object (List.forall_mem_map.2 fun m hm => (keys m hm).isStringText)
      (List.forall_mem_map.2 ih) blanks

/-! ## Lexing texts that are JSON -/

/-- A piece adds its characters to those of what follows it. -/
lemma IsPiece.scanString_append {p : List Char} (h : IsPiece p) :
    ∃ u, ∀ rest, scanString (p ++ rest) = .push u (scanString rest) := by
  cases h with
  | plain quote backslash control => exact ⟨_, scanString_plain quote backslash control⟩
  | letter value => exact ⟨_, scanString_letter value⟩
  | unit value => exact ⟨_, scanString_unit value⟩

/-- The pieces of a string are scanned up to the closing quote, whatever code units they are. -/
lemma exists_scanString_flatten {ps : List (List Char)} (h : ∀ p ∈ ps, IsPiece p) :
    ∃ us, ∀ rest, scanString (ps.flatten ++ '"' :: rest) = ⟨us, .ok rest⟩ := by
  induction ps with
  | nil =>
    refine ⟨[], fun rest => ?_⟩
    rw [List.flatten_nil, List.nil_append, scanString.eq_def]
    rfl
  | cons p ps ih =>
    obtain ⟨hp, hps⟩ := List.forall_mem_cons.1 h
    obtain ⟨u, hu⟩ := hp.scanString_append
    obtain ⟨us, hus⟩ := ih hps
    refine ⟨u :: us, fun rest => ?_⟩
    rw [List.flatten_cons, List.append_assoc, hu, hus]
    rfl

/-- A string is one token, which says whether the string could be kept. -/
lemma IsStringText.lexed {t : List Char} (h : IsStringText t) :
    ∃ kept, LexedAs t [.string kept] := by
  induction h with
  | blankBefore blank _ ih =>
    obtain ⟨kept, hkept⟩ := ih
    exact ⟨kept, hkept.blankBefore blank⟩
  | blankAfter blank _ ih =>
    obtain ⟨kept, hkept⟩ := ih
    exact ⟨kept, hkept.blankAfter blank⟩
  | quoted pieces =>
    obtain ⟨us, hus⟩ := exists_scanString_flatten pieces
    refine ⟨(joinUnits .malformed us).map String.ofList, fun rest _ => ?_⟩
    rw [List.append_assoc, List.cons_append, List.singleton_append]
    exact tokens_of_lexeme rfl (stringLexeme_of_scan (hus rest))

/-- **Every text that is JSON is lexed to one value.** -/
theorem IsJson.lexed {t : List Char} (h : IsJson t) : ∃ vs, IsValue vs ∧ LexedAs t vs := by
  induction h with
  | blankBefore blank _ ih =>
    obtain ⟨vs, hvs, hlexed⟩ := ih
    exact ⟨vs, hvs, hlexed.blankBefore blank⟩
  | blankAfter blank _ ih =>
    obtain ⟨vs, hvs, hlexed⟩ := ih
    exact ⟨vs, hvs, hlexed.blankAfter blank⟩
  | null => exact ⟨_, isValue_toTokens _, Written.null.lexedAs⟩
  | boolTrue => exact ⟨_, isValue_toTokens _, Written.boolTrue.lexedAs⟩
  | boolFalse => exact ⟨_, isValue_toTokens _, Written.boolFalse.lexedAs⟩
  | number isNumber => exact ⟨_, isValue_toTokens _, (Written.number isNumber).lexedAs⟩
  | string isString =>
    obtain ⟨kept, hkept⟩ := isString.lexed
    exact ⟨_, .string kept, hkept⟩
  | @array ts bs _ blanks ih =>
    choose! out hvalue hlexed using ih
    refine ⟨_, .array (List.forall_mem_map.2 hvalue), ?_⟩
    have harray := @lexedAs_array _ id out ts bs hlexed blanks
    rwa [List.map_id] at harray
  | @object ms bs keys _ blanks ih =>
    choose! out hvalue hlexed using ih
    have : Nonempty (Except ReadError String) := ⟨.ok default⟩
    choose! kept hkept using fun m hm => (keys m hm).lexed
    have hvalues : ∀ v ∈ ms.map fun m => (kept m, out m), IsValue v.2 :=
      List.forall_mem_map.2 hvalue
    refine ⟨_, .object hvalues, ?_⟩
    rw [List.map_map]
    exact lexedAs_object (fun m hm => (hkept m hm).keyed (hlexed m hm)) blanks

end Json

end VersionedLayout
