import VersionedLayout.Proofs.Sections
set_option autoImplicit false

/-!
# Include directives of a header

A header includes two groups of headers: those of the configuration, as they are given, and behind
them those that the types of its members need, each once and in increasing order, unless the first
group has them already. What is needed is decided by the layouts alone. A header that occurs only
in blocks that no release of their struct reaches is not included, and the order of the structs in
the schema does not matter.

## Main definitions

* `VersionedLayout.Header.includeBlock`, `VersionedLayout.Header.lead` — the directives of a list of
  headers, and all that a header file begins with.
* `VersionedLayout.Header.Includes` — a header file includes, apart from the configured headers,
  exactly those that its members need.

## Main results

* `VersionedLayout.Header.mem_typeHeaders`, `VersionedLayout.Header.pairwise_typeHeaders` — the
  headers that are needed.
* `VersionedLayout.Header.opening_eq` — the directives in front of the definitions.
* `VersionedLayout.Header.includes_of_generate` — the directives of every header that is generated.
-/

namespace VersionedLayout

namespace Header

variable {c : Config} {ds es : List StructDecl}

/-! ## The headers that are needed -/

/-- The required headers are those of the types of all fields of all layouts. -/
lemma mem_requiredHeaders {h : String} :
    h ∈ requiredHeaders ds ↔
      ∃ d ∈ ds, ∃ l ∈ d.layouts, ∃ f ∈ l.fields, h ∈ f.type.descriptor.headers := by
  simp only [requiredHeaders, HeaderSet.mem_insertAll, HeaderSet.not_mem_empty, or_false,
    List.mem_flatMap, HeaderSet.mem_toList]

/-- The headers of types are the required ones that are not included anyway. -/
lemma mem_typeHeaders {h : String} :
    h ∈ typeHeaders c ds ↔ h ∉ c.includeHeaders ∧
      ∃ d ∈ ds, ∃ l ∈ d.layouts, ∃ f ∈ l.fields, h ∈ f.type.descriptor.headers := by
  rw [typeHeaders, List.mem_filter, HeaderSet.mem_toList, mem_requiredHeaders, and_comm]
  simp

/-- The needed headers follow each other in code-point order, each once. -/
lemma pairwise_typeHeaders (c : Config) (ds : List StructDecl) :
    (typeHeaders c ds).Pairwise (· < ·) :=
  (requiredHeaders ds).sorted.filter _

/-- A rearranged schema needs the same headers. -/
lemma typeHeaders_perm (h : es.Perm ds) : typeHeaders c es = typeHeaders c ds := by
  refine (pairwise_typeHeaders c es).eq_of_mem_iff (pairwise_typeHeaders c ds) fun x => ?_
  simp only [mem_typeHeaders, h.mem_iff]

/-! ## The directives -/

/-- The directives that include a list of headers, one a line, behind an empty line; nothing for the
empty list. -/
def includeBlock (headers : List String) : String :=
  if headers = [] then ""
  else "\n" ++ String.join (headers.map fun h => "#include <" ++ h ++ ">\n")

/-- What a header file begins with: the banner, the include guard, and the directives for the
configured headers and for the needed ones. -/
def lead (c : Config) (needed : List String) : String :=
  paragraph (c.banner.map fun line => "// " ++ line) ++ "#pragma once\n" ++
    includeBlock c.includeHeaders ++ includeBlock needed

/-- Behind a line break, a paragraph of include directives is a block of them and a line break. -/
lemma append_paragraph_includeLine (headers : List String) :
    "\n" ++ paragraph (headers.map includeLine) = includeBlock headers ++ "\n" := by
  cases headers with
  | nil => rfl
  | cons h hs =>
    have hlines : (fun line => line ++ "\n") ∘ includeLine =
        fun h => "#include <" ++ h ++ ">\n" := by
      funext h
      rw [Function.comp_apply, includeLine, String.append_assoc]
      rfl
    rw [paragraph, includeBlock, if_neg (by simp), if_neg (by simp), List.map_map, hlines,
      String.append_assoc]

/-- **The directives in front of the definitions** are those for the configured headers and those
for the needed ones. -/
theorem opening_eq (c : Config) (ds : List StructDecl) :
    opening c ds = lead c (typeHeaders c ds) ++ "\n" := by
  have hguard : ("#pragma once\n\n" : String) = "#pragma once\n" ++ "\n" := rfl
  calc opening c ds
      = paragraph (c.banner.map fun line => "// " ++ line) ++ "#pragma once\n" ++
          ("\n" ++ paragraph (c.includeHeaders.map includeLine)) ++
          paragraph ((typeHeaders c ds).map includeLine) := by
        simp only [opening, hguard, String.append_assoc]
    _ = paragraph (c.banner.map fun line => "// " ++ line) ++ "#pragma once\n" ++
          includeBlock c.includeHeaders ++
          ("\n" ++ paragraph ((typeHeaders c ds).map includeLine)) := by
        rw [append_paragraph_includeLine]
        simp only [String.append_assoc]
    _ = lead c (typeHeaders c ds) ++ "\n" := by
        rw [append_paragraph_includeLine, lead, ← String.append_assoc]

/-! ## What trimming leaves -/

/-- The text ends with a character that is not white space, and a line break. -/
def EndsLine (s : String) : Prop :=
  ∃ kept last, s.toList = kept ++ [last, '\n'] ∧ Text.isWhiteSpace last = false

/-- What is put in front of a text does not matter for its end. -/
lemma EndsLine.append {s t : String} (ht : EndsLine t) : EndsLine (s ++ t) := by
  obtain ⟨kept, last, htext, hlast⟩ := ht
  exact ⟨s.toList ++ kept, last, by rw [String.toList_append, htext, List.append_assoc], hlast⟩

/-- A block of include directives ends a line if what precedes it does. -/
lemma EndsLine.append_includeBlock {s : String} (hs : EndsLine s) (headers : List String) :
    EndsLine (s ++ includeBlock headers) := by
  rw [includeBlock]
  split
  · rwa [String.append_empty]
  · rename_i hne
    rw [← List.dropLast_concat_getLast hne, List.map_append, String.join_append]
    refine EndsLine.append (EndsLine.append (EndsLine.append ?_))
    exact ⟨("#include <" ++ headers.getLast hne).toList, '>', by simp, by decide⟩

/-- The lead ends a line. -/
lemma endsLine_lead (c : Config) (needed : List String) : EndsLine (lead c needed) := by
  have hguard : EndsLine "#pragma once\n" := ⟨"#pragma onc".toList, 'e', rfl, by decide⟩
  exact (hguard.append.append_includeBlock c.includeHeaders).append_includeBlock needed

/-- Behind an item that stays, the rest of a list is trimmed by itself. -/
lemma rdropWhile_append_cons {α : Type} {p : α → Bool} {x : α} (h : p x = false) (xs ys : List α) :
    (xs ++ x :: ys).rdropWhile p = xs ++ x :: ys.rdropWhile p := by
  induction ys using List.reverseRecOn with
  | nil => rw [List.rdropWhile_concat_neg _ _ _ (by simp [h]), List.rdropWhile_nil]
  | append_singleton ys y ih =>
    rw [← List.cons_append, ← List.append_assoc]
    by_cases hy : p y = true
    · rw [List.rdropWhile_concat_pos _ _ _ hy, List.rdropWhile_concat_pos _ _ _ hy, ih]
    · rw [List.rdropWhile_concat_neg _ _ _ hy, List.rdropWhile_concat_neg _ _ _ hy,
        List.append_assoc, List.cons_append]

/-- Of a text that begins with whole lines, trimming leaves at least these.

**Proof sketch.** The last character of the lines that is not white space stays. What follows is
trimmed by itself, to a beginning of what has been there, so that it is empty or starts with the
line break. -/
lemma EndsLine.isPrefix_trimEnd {s : String} (hs : EndsLine s) (rest : String) :
    s.toList <+: (Text.trimEnd (s ++ rest) ++ "\n").toList := by
  obtain ⟨kept, last, htext, hlast⟩ := hs
  have hsplit : (s ++ rest).toList = kept ++ last :: '\n' :: rest.toList := by
    rw [String.toList_append, htext, List.append_assoc]
    rfl
  have htrim : (Text.trimEnd (s ++ rest)).toList =
      kept ++ last :: ('\n' :: rest.toList).rdropWhile Text.isWhiteSpace := by
    rw [Text.toList_trimEnd, hsplit, rdropWhile_append_cons hlast]
  have hbegin : ('\n' :: rest.toList).rdropWhile Text.isWhiteSpace <+: '\n' :: rest.toList :=
    List.rdropWhile_prefix _ _
  rw [String.toList_append, htrim, htext]
  cases hrest : ('\n' :: rest.toList).rdropWhile Text.isWhiteSpace with
  | nil => exact ⟨[], by simp⟩
  | cons y ys =>
    rw [hrest, List.cons_prefix_cons] at hbegin
    exact ⟨ys ++ ['\n'], by simp [hbegin.1]⟩

/-! ## The directives of a header file -/

/-- A header file includes the configured headers and the given ones, which are those that the types
of its members need. -/
structure Includes (c : Config) (ds : List StructDecl) (text : String) (needed : List String) :
    Prop where
  /-- The needed headers follow each other in code-point order, each once. -/
  needed_increase : needed.Pairwise (· < ·)
  /-- They are the headers of the types of the fields of layouts, without the configured ones. -/
  mem_needed : ∀ h, h ∈ needed ↔ h ∉ c.includeHeaders ∧
    ∃ d ∈ ds, ∃ l ∈ d.layouts, ∃ f ∈ l.fields, h ∈ f.type.descriptor.headers
  /-- No header is needed that occurs only where no release of the struct reaches. -/
  not_mem_of_inactive : ∀ h, (∀ d ∈ ds, ∀ rs f, Entry.Stands (.field f) rs d.entries →
    h ∈ f.type.descriptor.headers →
      ∀ v : Version, v ≠ .any → ¬ v.LiesWithin (d.versions.toList ++ rs)) → h ∉ needed
  /-- Every member of a definition has its headers included, whichever group it is written in. -/
  members_included : ∀ g ∈ grouped ds, ∀ d ∈ g.structs, ∀ l ∈ d.layouts, ∀ f ∈ l.fields,
    ∀ h ∈ f.type.descriptor.headers, h ∈ c.includeHeaders ++ needed
  /-- The directives stand in front of the definitions and the descriptors. -/
  text_eq : ∃ definitions descriptors,
    ((grouped ds).mapM (groupText c)).result = .ok definitions ∧
    ds.mapM (reflection c) = .ok descriptors ∧
    text = Text.trimEnd (lead c needed ++ "\n" ++ String.join definitions ++
      String.join descriptors) ++ "\n"
  /-- None of them is lost when the end of the text is put in order. -/
  lead_isPrefix : (lead c needed).toList <+: text.toList

/-- A header file that is generated has its definitions and descriptors behind the opening. -/
lemma exists_of_generate {text : String} (h : generate c ds = .ok text) :
    ∃ definitions descriptors, ((grouped ds).mapM (groupText c)).result = .ok definitions ∧
      ds.mapM (reflection c) = .ok descriptors ∧
      text = Text.trimEnd (opening c ds ++ String.join definitions ++
        String.join descriptors) ++ "\n" := by
  simp only [generate, file, contents_eq_groups, Emission.result_bind, Emission.result_record,
    Emission.result_ofExcept, Emission.result_pure, ok_bind] at h
  obtain ⟨all, hall, htext⟩ := bind_eq_ok_iff.1 h
  obtain ⟨definitions, hdefinitions, hrest⟩ := bind_eq_ok_iff.1 hall
  obtain ⟨descriptors, hdescriptors, hall⟩ := bind_eq_ok_iff.1 hrest
  refine ⟨definitions, descriptors, hdefinitions, hdescriptors, ?_⟩
  rw [← Except.ok.inj htext, ← Except.ok.inj hall]

/-- A header file that is generated includes what its members need. -/
lemma includes_typeHeaders {text : String} (h : generate c ds = .ok text) :
    Includes c ds text (typeHeaders c ds) where
  needed_increase := pairwise_typeHeaders c ds
  mem_needed _ := mem_typeHeaders
  not_mem_of_inactive := by
    intro x hinactive hx
    obtain ⟨-, d, hd, l, hl, f, hf, hxf⟩ := mem_typeHeaders.1 hx
    obtain ⟨rs, v, hs, hv, hin⟩ := StructDecl.exists_mem_layouts_iff.1 ⟨l, hl, hf⟩
    exact hinactive d hd rs f hs hxf v hv hin
  members_included := by
    intro g hg d hdg l hl f hf x hx
    have hd : d ∈ ds := mem_grouped.1 ⟨g, hg, hdg⟩
    rw [List.mem_append, mem_typeHeaders]
    by_cases hxc : x ∈ c.includeHeaders
    · exact .inl hxc
    · exact .inr ⟨hxc, d, hd, l, hl, f, hf, hx⟩
  text_eq := by
    obtain ⟨definitions, descriptors, hdefinitions, hdescriptors, htext⟩ := exists_of_generate h
    exact ⟨definitions, descriptors, hdefinitions, hdescriptors, by rw [htext, opening_eq]⟩
  lead_isPrefix := by
    obtain ⟨definitions, descriptors, -, -, htext⟩ := exists_of_generate h
    rw [htext, opening_eq]
    simp only [String.append_assoc]
    exact (endsLine_lead c _).isPrefix_trimEnd _

/-- **The include directives of a header file.** Whenever a header is generated, its text begins
with the directives for the configured headers, as they are given, and with those for the headers
that its members need. Any rearrangement of the structs is generated too, and needs the same
headers.

**Proof sketch.** The needed headers are collected from the fields of all layouts into a sorted
list, and the configured ones are left out. A sorted list is determined by its members, which do
not depend on the order of the structs, and neither does whether a struct has a fault. -/
theorem includes_of_generate {text : String} (h : generate c ds = .ok text) :
    ∃ needed, Includes c ds text needed ∧
      ∀ es, es.Perm ds → ∃ rearranged, generate c es = .ok rearranged ∧
        Includes c es rearranged needed := by
  refine ⟨typeHeaders c ds, includes_typeHeaders h, fun es hes => ?_⟩
  have hfault : ∀ d ∈ es, d.fault? = none := by
    intro d hd
    exact exists_generate_eq_ok_iff.1 ⟨text, h⟩ d (hes.mem_iff.1 hd)
  obtain ⟨rearranged, hrearranged⟩ := exists_generate_eq_ok_iff.2 hfault
  refine ⟨rearranged, hrearranged, ?_⟩
  rw [← typeHeaders_perm hes]
  exact includes_typeHeaders hrearranged

/-- Two structs of different namespaces: `d.hpp` occurs in a block that is never active, `b.hpp` in
a block for one release and in the other struct, and one header is configured. -/
theorem includes_of_generate_blocks :
    let field (header name : String) : Entry :=
      .field ⟨.plain ((TypeDescriptor.named "T").withHeader header), name, none, none, none⟩
    let a : StructDecl :=
      { name := "A", scope := "M", versions := some ⟨.tbc, .wotlk⟩,
        entries := [field "x.hpp" "p", .block ⟨.wotlk, .wotlk⟩ [field "b.hpp" "q"],
          .block ⟨.df, .df⟩ [field "d.hpp" "r"]] }
    let b : StructDecl :=
      { name := "B", entries := [field "b.hpp" "p", field "IO/Common.hpp" "q"] }
    ∃ text, generate {} [a, b] = .ok text ∧
      ∃ needed, needed = ["b.hpp", "x.hpp"] ∧ Includes {} [a, b] text needed ∧
        [b, a].Perm [a, b] ∧
        ∃ rearranged, generate {} [b, a] = .ok rearranged ∧
          Includes {} [b, a] rearranged needed := by
  intro field a b
  have hfault : ∀ d ∈ [a, b], d.fault? = none := by decide
  have hgenerate : ∃ text, generate {} [a, b] = .ok text := exists_generate_eq_ok_iff.2 hfault
  obtain ⟨text, htext⟩ := hgenerate
  obtain ⟨needed, hneeded, hperm⟩ := includes_of_generate htext
  have hswap : [b, a].Perm [a, b] := List.Perm.swap a b []
  have hlist : needed = typeHeaders {} [a, b] := by
    refine hneeded.needed_increase.eq_of_mem_iff (pairwise_typeHeaders _ _) fun x => ?_
    rw [hneeded.mem_needed, mem_typeHeaders]
  have heval : typeHeaders {} [a, b] = ["b.hpp", "x.hpp"] := by decide
  exact ⟨text, htext, needed, hlist.trans heval, hneeded, hswap, hperm _ hswap⟩

end Header

end VersionedLayout
