import Mathlib.Data.List.DropRight
import Mathlib.Tactic.Choose
import VersionedLayout.Proofs.Acceptance
set_option autoImplicit false

/-!
# Sections of a header

Behind its opening, a header has a section of definitions and a section of reflection descriptors.
The definitions are written namespace by namespace: the namespaces strictly increase, each of them
is opened and closed once, and in between stand the definitions of its structs in declared order.
The descriptors of all structs follow in declared order. How the namespaces alternate in the schema
does not matter for the definitions, only the order within each of them does.

## Main definitions

* `VersionedLayout.Header.definitionsSection` — the definitions, namespace by namespace.
* `VersionedLayout.Header.Sections` — the text of a header is made up of the two sections.

## Main results

* `VersionedLayout.Text.exists_trimEnd_eq` — what is left of a text without the white space at its
  end.
* `VersionedLayout.Header.result_contents` — the contents of a header without faults.
* `VersionedLayout.Header.sections_of_generate` — the sections of every header that is generated.
-/

namespace VersionedLayout

/-! ## White space at the end -/

namespace Text

/-- Trimming a text drops the white space at its end. -/
lemma toList_trimEnd (s : String) : (trimEnd s).toList = s.toList.rdropWhile isWhiteSpace :=
  String.toList_ofList

/-- A text with a character that is not white space is trimmed behind the last such character. -/
theorem exists_trimEnd_eq {s : String} (h : ∃ x ∈ s.toList, isWhiteSpace x = false) :
    ∃ (kept : List Char) (last : Char) (blanks : List Char),
      s.toList = kept ++ last :: blanks ∧ isWhiteSpace last = false ∧
        (∀ x ∈ blanks, isWhiteSpace x = true) ∧ (trimEnd s).toList = kept ++ [last] := by
  have hne : s.toList.rdropWhile isWhiteSpace ≠ [] := by
    obtain ⟨x, hx, hblank⟩ := h
    intro hnil
    rw [List.rdropWhile_eq_nil_iff.1 hnil x hx] at hblank
    cases hblank
  obtain ⟨kept, last, hkept⟩ : ∃ kept last, s.toList.rdropWhile isWhiteSpace = kept ++ [last] :=
    ⟨_, _, (List.dropLast_append_getLast hne).symm⟩
  have hlast : isWhiteSpace last = false := by
    have hnot := List.rdropWhile_last_not isWhiteSpace s.toList hne
    simpa [hkept] using hnot
  refine ⟨kept, last, s.toList.rtakeWhile isWhiteSpace, ?_, hlast,
    fun x => List.mem_rtakeWhile_imp, ?_⟩
  · rw [List.append_cons, ← hkept, List.rdropWhile_append_rtakeWhile]
  · rw [toList_trimEnd, hkept]

end Text

namespace Header

/-! ## The sections -/

/-- What opens a namespace; the global one is not opened. -/
def openingBrace (s : String) : String :=
  if s.isEmpty then "" else "namespace " ++ s ++ "\n\x7b\n\n"

/-- What closes a namespace; the global one is not closed. -/
def closingBrace (s : String) : String :=
  if s.isEmpty then "" else "\x7d // namespace " ++ s ++ "\n\n"

/-- The definitions of a schema, given each by itself: for one namespace after another, those of
its structs in declared order, between the braces of the namespace. -/
def definitionsSection (ds : List StructDecl) (namespaces : List String)
    (definitionOf : StructDecl → String) : String :=
  String.join <| namespaces.map fun s =>
    openingBrace s ++ String.join ((inScope ds s).map definitionOf) ++ closingBrace s

/-- The text of a header is made up of the definitions and the descriptors of its structs. -/
structure Sections (c : Config) (ds : List StructDecl) (text : String) (namespaces : List String)
    (definitionOf reflectionOf : StructDecl → String) : Prop where
  /-- The namespaces follow each other in code-point order, each once. -/
  namespaces_increase : namespaces.Pairwise (· < ·)
  /-- They are the namespaces of the structs. -/
  mem_namespaces : ∀ s, s ∈ namespaces ↔ ∃ d ∈ ds, d.scope = s
  /-- Every struct has the definition given for it. -/
  definition_eq : ∀ d ∈ ds, (definition c d).result = .ok (definitionOf d)
  /-- Every struct has the descriptors given for it. -/
  reflection_eq : ∀ d ∈ ds, reflection c d = .ok (reflectionOf d)
  /-- Behind the opening stand the definitions by namespaces, then the descriptors in declared
  order. -/
  contents_eq : (contents c ds).result =
    .ok (opening c ds ++ definitionsSection ds namespaces definitionOf ++
      String.join (ds.map reflectionOf))
  /-- The text is all this without the white space at its end, and one line break. -/
  text_eq : ∃ (kept : List Char) (last : Char) (blanks : List Char),
    (opening c ds ++ definitionsSection ds namespaces definitionOf ++
      String.join (ds.map reflectionOf)).toList = kept ++ last :: blanks ∧
    Text.isWhiteSpace last = false ∧ (∀ x ∈ blanks, Text.isWhiteSpace x = true) ∧
    text.toList = kept ++ [last, '\n']
  /-- Any arrangement of the structs that keeps their order within each namespace has the same
  definitions. -/
  definitions_stable : ∀ es, (∀ s, inScope es s = inScope ds s) →
    (contents c es).result =
      .ok (opening c es ++ definitionsSection ds namespaces definitionOf ++
        String.join (es.map reflectionOf))

/-! ## Contents without faults -/

section

variable {c : Config} {definitionOf reflectionOf : StructDecl → String}

/-- The text of a group is that of its definitions between the braces of its namespace. -/
lemma result_groupText {g : Group}
    (h : ∀ d ∈ g.structs, (definition c d).result = .ok (definitionOf d)) :
    (groupText c g).result =
      .ok (openingBrace g.scope ++ String.join (g.structs.map definitionOf) ++
        closingBrace g.scope) := by
  have hdefinitions : g.structs.mapM (fun d => (definition c d).result) =
      .ok (g.structs.map definitionOf) :=
    mapM_eq_ok_map h
  rw [groupText, openingBrace, closingBrace]
  split
  · simp only [Emission.result_bind, Emission.result_mapM, Emission.result_pure, hdefinitions,
      ok_bind, String.empty_append, String.append_empty]
  · simp only [Emission.result_bind, Emission.result_record, Emission.result_mapM,
      Emission.result_pure, hdefinitions, ok_bind, String.append_assoc]

/-- **The contents of a header** whose structs have definitions and descriptors. -/
theorem result_contents {ds : List StructDecl}
    (hdefinition : ∀ d ∈ ds, (definition c d).result = .ok (definitionOf d))
    (hreflection : ∀ d ∈ ds, reflection c d = .ok (reflectionOf d)) :
    (contents c ds).result =
      .ok (opening c ds ++ definitionsSection ds (scopes ds) definitionOf ++
        String.join (ds.map reflectionOf)) := by
  have hgroups : (grouped ds).mapM (fun g => (groupText c g).result) =
      .ok ((scopes ds).map fun s => openingBrace s ++
        String.join ((inScope ds s).map definitionOf) ++ closingBrace s) := by
    rw [grouped_eq_map, List.mapM_map]
    refine mapM_eq_ok_map fun s _ => result_groupText fun d hd => hdefinition d ?_
    exact (mem_inScope.1 hd).1
  have hdescriptors : ds.mapM (reflection c) = .ok (ds.map reflectionOf) :=
    mapM_eq_ok_map hreflection
  simp only [contents_eq_groups, Emission.result_bind, Emission.result_record, Emission.result_mapM,
    Emission.result_ofExcept, Emission.result_pure, hgroups, hdescriptors, ok_bind,
    definitionsSection]

end

/-- The opening of a header holds the guard, and thus more than white space. -/
lemma exists_mem_opening (c : Config) (ds : List StructDecl) :
    ∃ x ∈ (opening c ds).toList, Text.isWhiteSpace x = false :=
  ⟨'#', by simp [opening], by decide⟩

/-- The text of a header ends behind its contents, with a line break. -/
lemma generate_of_result_contents {c : Config} {ds : List StructDecl} {all : String}
    (h : (contents c ds).result = .ok all) : generate c ds = .ok (Text.trimEnd all ++ "\n") := by
  simp only [generate, file, Emission.result_bind, Emission.result_pure, h, ok_bind]

/-- **The sections of a header.** Whenever a header is generated, its structs have definitions and
descriptors, and it is made up of these.

**Proof sketch.** A header is generated only if no struct has a fault, so that every struct has its
texts. The group of a namespace is a filter of the schema, and the text of a group is that of its
structs between the braces. The opening is never blank, so that trimming leaves a character in
front of the line break. An arrangement with the same filters has the same groups. -/
theorem sections_of_generate {c : Config} {ds : List StructDecl} {text : String}
    (h : generate c ds = .ok text) :
    ∃ namespaces definitionOf reflectionOf,
      Sections c ds text namespaces definitionOf reflectionOf := by
  have hfault : ∀ d ∈ ds, d.fault? = none := exists_generate_eq_ok_iff.1 ⟨text, h⟩
  have hdefinitions : ∀ d, ∃ t, d ∈ ds → (definition c d).result = .ok t := by
    intro d
    by_cases hd : d ∈ ds
    · obtain ⟨t, ht⟩ := failure?_eq_none_iff.1 ((failure?_definition c d).trans (hfault d hd))
      exact ⟨t, fun _ => ht⟩
    · exact ⟨"", fun hd' => absurd hd' hd⟩
  have hreflections : ∀ d, ∃ t, reflection c d = .ok t := fun d =>
    failure?_eq_none_iff.1 (failure?_reflection c d)
  choose definitionOf hdefinition using hdefinitions
  choose reflectionOf hreflection using hreflections
  have hcontents := result_contents hdefinition fun d _ => hreflection d
  refine ⟨scopes ds, definitionOf, reflectionOf, pairwise_scopes ds, fun s => mem_scopes,
    hdefinition, fun d _ => hreflection d, hcontents, ?_, fun es hes => ?_⟩
  · obtain ⟨x, hx, hblank⟩ := exists_mem_opening c ds
    obtain ⟨kept, last, blanks, hall, hlast, hblanks, htrim⟩ := Text.exists_trimEnd_eq
      (s := opening c ds ++ definitionsSection ds (scopes ds) definitionOf ++
        String.join (ds.map reflectionOf)) ⟨x, by simp [hx], hblank⟩
    refine ⟨kept, last, blanks, hall, hlast, hblanks, ?_⟩
    rw [generate_of_result_contents hcontents] at h
    rw [← Except.ok.inj h, String.toList_append, htrim]
    simp
  · have hmem : ∀ d ∈ es, d ∈ ds := by
      intro d hd
      have hin : d ∈ inScope ds d.scope := hes d.scope ▸ mem_inScope.2 ⟨hd, rfl⟩
      exact (mem_inScope.1 hin).1
    rw [result_contents (fun d hd => hdefinition d (hmem d hd)) fun d _ => hreflection d,
      definitionsSection, scopes_congr hes]
    simp only [hes]
    rfl

/-- Structs of two namespaces and of the global one, in turns: the header that is generated for
them, and the definitions of another arrangement. -/
theorem sections_of_generate_in_turns :
    let a : StructDecl :=
      { name := "A", scope := "M", versions := some ⟨.bfa, .tbcNew⟩,
        entries := [.field ⟨.numeric (.builtin .u8), "x", some 3, some (.scalar (.int 5)), none⟩] }
    let b : StructDecl := { name := "B", scope := "K", doc := some "// B" }
    let c : StructDecl := { name := "C" }
    let d : StructDecl := { name := "D", scope := "M" }
    (∃ text, generate {} [a, b, c, d] = .ok text ∧
      ∃ namespaces definitionOf reflectionOf,
        Sections {} [a, b, c, d] text namespaces definitionOf reflectionOf ∧
        (∀ s, inScope [c, a, d, b] s = inScope [a, b, c, d] s) ∧
        (contents {} [c, a, d, b]).result =
          .ok (opening {} [c, a, d, b] ++
            definitionsSection [a, b, c, d] namespaces definitionOf ++
            String.join ([c, a, d, b].map reflectionOf))) := by
  intro a b c d
  have hfault : ∀ e ∈ [a, b, c, d], e.fault? = none := by decide
  obtain ⟨text, htext⟩ := exists_generate_eq_ok_iff.2 hfault
  have hscope : ∀ s, inScope [c, a, d, b] s = inScope [a, b, c, d] s := by
    intro s
    by_cases hM : "M" = s
    · subst hM
      rfl
    by_cases hK : "K" = s
    · subst hK
      rfl
    · simp [inScope, List.filter_cons, a, b, c, d, hM, hK]
  obtain ⟨namespaces, definitionOf, reflectionOf, hsections⟩ := sections_of_generate htext
  exact ⟨text, htext, namespaces, definitionOf, reflectionOf, hsections, hscope,
    hsections.definitions_stable _ hscope⟩

end Header

end VersionedLayout
