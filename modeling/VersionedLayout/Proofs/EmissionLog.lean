import VersionedLayout.Proofs.FirstFault
set_option autoImplicit false

/-!
# The log of an emission

The records of an emission are planned by the layouts of the schema alone. The plan is a list of
stages: each stage is a record together with the fields that are written between this record and the
next one. An emission follows its plan stage by stage. If all fields can be written it leaves all
records of the plan, and otherwise those up to the stage with the first field that cannot be
written. Which text comes out, and under which configuration, does not matter. Layouts are recorded
at the level of traces, and all else at the level above it.

## Main definitions

* `VersionedLayout.Stage` — a record with the fields that are written behind it.
* `VersionedLayout.StructDecl.stages`, `VersionedLayout.Header.stages` — the stages of a struct and
  of a schema.
* `VersionedLayout.LogRecord.textsAt` — the wording of the records of one level.
* `VersionedLayout.Emission.Follows` — an emission leaves the records of its stages up to the first
  fault, and fails with this fault.

## Main results

* `VersionedLayout.Emission.Follows.bind`, `VersionedLayout.Emission.Follows.mapM` — what is emitted
  one after another follows the stages one after another.
* `VersionedLayout.Header.follows_file` — the emission of a header follows the stages of the schema.
* `VersionedLayout.Header.log_determined` — the log of every emission, successful or not.
-/

namespace VersionedLayout

/-! ## Stages -/

/-- A record of an emission, with the fields that are written between it and the next record. -/
structure Stage where
  /-- The record. -/
  record : LogRecord
  /-- The fields that are written behind it. -/
  fields : List Field

namespace Stage

/-- The error of the first field of a stage that cannot be written. -/
def fault? (s : Stage) : Option SchemaError :=
  s.fields.findSome? Field.fault?

/-- A stage has no fault when its fields can be written. -/
lemma fault?_eq_none_iff {s : Stage} : s.fault? = none ↔ ∀ f ∈ s.fields, f.Writable := by
  rw [fault?, List.findSome?_eq_none_iff]
  exact forall₂_congr fun f _ => Field.fault?_eq_none_iff

/-- The records of stages that are gone through one after another, up to the first stage with a
fault. -/
def recordsUntilFault : List Stage → List LogRecord
  | [] => []
  | s :: ss => s.record :: if s.fault? = none then recordsUntilFault ss else []

/-- The stages behind others leave records only if the others have no fault. -/
lemma recordsUntilFault_append (ss ts : List Stage) :
    recordsUntilFault (ss ++ ts) = recordsUntilFault ss ++
      if ss.findSome? fault? = none then recordsUntilFault ts else [] := by
  induction ss with
  | nil => rfl
  | cons s ss ih =>
    rw [List.cons_append, recordsUntilFault, recordsUntilFault, List.findSome?_cons]
    cases hs : s.fault? with
    | none => rw [if_pos rfl, if_pos rfl, ih, List.cons_append]
    | some e => simp

/-- Without a fault all records are left. -/
lemma recordsUntilFault_of_forall {ss : List Stage} (h : ∀ s ∈ ss, s.fault? = none) :
    recordsUntilFault ss = ss.map record := by
  induction ss with
  | nil => rfl
  | cons s ss ih =>
    obtain ⟨hs, hss⟩ := List.forall_mem_cons.1 h
    rw [recordsUntilFault, if_pos hs, ih hss, List.map_cons]

/-- The last record is that of the first stage with a fault. -/
lemma recordsUntilFault_of_fault {before after : List Stage} {s : Stage} {e : SchemaError}
    (hbefore : ∀ t ∈ before, t.fault? = none) (hs : s.fault? = some e) :
    recordsUntilFault (before ++ s :: after) = (before ++ [s]).map record := by
  have hnone : before.findSome? fault? = none := List.findSome?_eq_none_iff.2 hbefore
  rw [recordsUntilFault_append, if_pos hnone, recordsUntilFault_of_forall hbefore,
    recordsUntilFault, hs, if_neg (Option.some_ne_none e), List.map_append]
  rfl

end Stage

/-! ## Emissions that follow stages -/

namespace Emission

variable {α β : Type} {m : Emission α} {ss ts : List Stage}

/-- Behind a result the next emission leaves its records. -/
lemma log_bind_of_ok {f : α → Emission β} {a : α} (h : m.result = .ok a) :
    (m >>= f).log = m.log ++ (f a).log := by
  change (andThen m f).log = _
  rw [andThen, h]

/-- Behind an error nothing is recorded. -/
lemma log_bind_of_error {f : α → Emission β} {e : SchemaError} (h : m.result = .error e) :
    (m >>= f).log = m.log := by
  change (andThen m f).log = _
  rw [andThen, h]

/-- The emission leaves the records of the stages up to the first one with a fault, and fails with
this fault if there is one. -/
structure Follows (m : Emission α) (ss : List Stage) : Prop where
  /-- The records are those up to the first fault. -/
  log_eq : m.log = Stage.recordsUntilFault ss
  /-- The failure is the first fault. -/
  failure_eq : failure? m.result = ss.findSome? Stage.fault?

/-- What is made of a result leaves no record. -/
lemma log_bind_pure (m : Emission α) (k : α → β) : (m >>= fun a => pure (k a)).log = m.log := by
  cases h : m.result with
  | ok a => rw [log_bind_of_ok h, log_pure, List.append_nil]
  | error e => exact log_bind_of_error h

/-- A traversal of one item leaves the records of this item. -/
lemma log_mapM_singleton (f : α → Emission β) (a : α) : ([a].mapM f).log = (f a).log := by
  rw [List.mapM_cons, List.mapM_nil]
  simp only [pure_bind]
  exact log_bind_pure (f a) fun b => [b]

/-- A mere result follows no stages. -/
lemma follows_pure (a : α) : (pure a : Emission α).Follows [] :=
  ⟨rfl, rfl⟩

/-- A record is a stage without fields. -/
lemma follows_record (r : LogRecord) : (record r).Follows [⟨r, []⟩] :=
  ⟨rfl, rfl⟩

/-- A record belongs to the fields that are written behind it without another record. -/
lemma follows_record_bind {r : LogRecord} {fs : List Field} (hlog : m.log = [])
    (hfailure : failure? m.result = fs.findSome? Field.fault?) :
    (record r >>= fun _ => m).Follows [⟨r, fs⟩] := by
  refine ⟨?_, ?_⟩
  · rw [log_bind_of_ok (result_record r), hlog, Stage.recordsUntilFault, Stage.recordsUntilFault,
      ite_self, List.append_nil]
    rfl
  · rw [result_bind, result_record, ok_bind, hfailure, List.findSome?_singleton, Stage.fault?]

/-- A computation that does not fail follows no stages. -/
lemma follows_ofExcept {r : Except SchemaError α} (h : failure? r = none) :
    (ofExcept r).Follows [] :=
  ⟨rfl, h⟩

/-- **What is emitted one after another follows the stages one after another.** -/
theorem Follows.bind {f : α → Emission β} (h : m.Follows ss) (hf : ∀ a, (f a).Follows ts) :
    (m >>= f).Follows (ss ++ ts) := by
  have hfailure : failure? (m >>= f).result = (ss ++ ts).findSome? Stage.fault? := by
    rw [result_bind, failure?_bind fun a => (hf a).failure_eq, h.failure_eq, List.findSome?_append]
  refine ⟨?_, hfailure⟩
  rw [Stage.recordsUntilFault_append, ← h.failure_eq, ← h.log_eq]
  cases hresult : m.result with
  | ok a => rw [log_bind_of_ok hresult, (hf a).log_eq, failure?_ok, if_pos rfl]
  | error e =>
    rw [log_bind_of_error hresult, failure?_error, if_neg (Option.some_ne_none e), List.append_nil]

/-- What is made of the result leaves no record. -/
lemma Follows.bind_pure (h : m.Follows ss) (k : α → β) :
    (m >>= fun a => pure (k a)).Follows ss := by
  have hbind := h.bind fun a => follows_pure (k a)
  rwa [List.append_nil] at hbind

/-- **A traversal follows the stages of its items**, one after another. -/
theorem Follows.mapM {f : α → Emission β} {g : α → List Stage} {l : List α}
    (h : ∀ a ∈ l, (f a).Follows (g a)) : (l.mapM f).Follows (l.flatMap g) := by
  induction l with
  | nil => exact follows_pure []
  | cons a l ih =>
    obtain ⟨ha, hl⟩ := List.forall_mem_cons.1 h
    rw [List.mapM_cons, List.flatMap_cons]
    exact ha.bind fun b => (ih hl).bind_pure fun bs => b :: bs

end Emission

/-! ## The stages of a schema -/

/-- The stages of the definition of a struct: one for an unversioned struct, and one for each layout
of a versioned struct, behind the record with the number of its layouts. -/
def StructDecl.stages (d : StructDecl) : List Stage :=
  if d.isVersioned then
    ⟨.versionedStruct d.qualifiedName d.layouts.length, []⟩ ::
      d.layouts.flatMap fun l =>
        (l.version.map fun v => ⟨.layout d.name v l.fields.length, l.fields⟩).toList
  else [⟨.plainStruct d.qualifiedName, d.layouts.flatMap Layout.fields⟩]

namespace Header

/-- The stages of a schema: behind the record with the number of its structs, those of one namespace
after another. A namespace other than the global one is opened, and then come the structs of the
namespace in declared order. -/
def stages (ds : List StructDecl) (namespaces : List String) : List Stage :=
  ⟨.header ds.length, []⟩ :: namespaces.flatMap fun s =>
    (if s.isEmpty then [] else [⟨.openNamespace s, []⟩]) ++
      (inScope ds s).flatMap StructDecl.stages

/-! ## Following the stages -/

variable (c : Config)

/-- A layout of a version is recorded before its fields are written. -/
lemma follows_layoutDefinition {d : StructDecl} {l : Layout} {v : Version}
    (h : l.version = some v) :
    (layoutDefinition c d l).Follows [⟨.layout d.name v l.fields.length, l.fields⟩] := by
  refine ⟨?_, ?_⟩
  · rw [layoutDefinition, layoutRecord, h, Stage.recordsUntilFault, Stage.recordsUntilFault,
      ite_self]
    rfl
  · rw [layoutDefinition, failure?_structBody, List.findSome?_singleton, Stage.fault?]

/-- The definition of a versioned struct follows a stage of its own and one for each layout. -/
lemma follows_definition_of_isVersioned {d : StructDecl} (h : d.isVersioned = true) :
    (definition c d).Follows d.stages := by
  rw [definition, StructDecl.stages, if_pos h, startRecord, if_pos h]
  refine (Emission.follows_record _).bind fun _ =>
    (Emission.Follows.mapM fun l hl => ?_).bind_pure _
  obtain ⟨v, hv⟩ : ∃ v, l.version = some v := by
    rw [← Option.isSome_iff_exists, StructDecl.isSome_version_of_mem_layouts hl, h]
  rw [hv]
  exact follows_layoutDefinition c hv

/-- The single layout of an unversioned struct leaves no record of its own. -/
lemma follows_definition_of_not_isVersioned {d : StructDecl} (h : d.isVersioned = false) :
    (definition c d).Follows d.stages := by
  have hlayouts := StructDecl.layouts_of_not_isVersioned h
  have hfailure := failure?_definition c d
  rw [definition, startRecord, if_neg (by rw [h]; decide)] at hfailure ⊢
  rw [StructDecl.stages, if_neg (by rw [h]; decide)]
  refine Emission.follows_record_bind ?_ (hfailure.trans findSome?_flatMap.symm)
  rw [Emission.log_bind_pure, hlayouts]
  exact Emission.log_mapM_singleton _ _

/-- The definition of a struct follows the stages of the struct. -/
theorem follows_definition (d : StructDecl) : (definition c d).Follows d.stages := by
  cases h : d.isVersioned with
  | true => exact follows_definition_of_isVersioned c h
  | false => exact follows_definition_of_not_isVersioned c h

/-- The text of a group follows the opening of its namespace, if it has a name, and its structs. -/
lemma follows_groupText (g : Group) :
    (groupText c g).Follows ((if g.scope.isEmpty then [] else [⟨.openNamespace g.scope, []⟩]) ++
      g.structs.flatMap StructDecl.stages) := by
  have hstructs := Emission.Follows.mapM (l := g.structs) fun d _ => follows_definition c d
  rw [groupText]
  split
  · exact hstructs.bind_pure _
  · exact (Emission.follows_record _).bind fun _ => hstructs.bind_pure _

/-- **The emission of a header follows the stages of the schema.** The descriptors behind the
definitions leave no records and never fail. -/
theorem follows_file (ds : List StructDecl) : (file c ds).Follows (stages ds (scopes ds)) := by
  have hgroups := Emission.Follows.mapM (l := grouped ds) fun g _ => follows_groupText c g
  rw [grouped_eq_map, List.flatMap_map, ← grouped_eq_map] at hgroups
  have hdescriptors : failure? (ds.mapM (reflection c)) = none := by
    rw [failure?_mapM fun d _ => failure?_reflection c d]
    simp
  rw [file, contents_eq_groups]
  refine Emission.Follows.bind_pure ?_ _
  refine (Emission.follows_record _).bind fun _ => ?_
  have hdefinitions := hgroups.bind fun definitions =>
    (Emission.follows_ofExcept hdescriptors).bind_pure fun descriptors =>
      opening c ds ++ String.join definitions ++ String.join descriptors
  rwa [List.append_nil] at hdefinitions

/-! ## The fields of the stages -/

/-- The fields of the stages of a struct are those of its layouts. -/
lemma flatMap_fields_structStages (d : StructDecl) :
    d.stages.flatMap Stage.fields = d.layouts.flatMap Layout.fields := by
  rw [StructDecl.stages]
  split
  · rename_i h
    rw [List.flatMap_cons, List.nil_append, List.flatMap_assoc]
    refine List.flatMap_congr fun l hl => ?_
    obtain ⟨v, hv⟩ : ∃ v, l.version = some v := by
      rw [← Option.isSome_iff_exists, StructDecl.isSome_version_of_mem_layouts hl, h]
    rw [hv]
    exact List.flatMap_singleton _ _
  · exact List.flatMap_singleton _ _

/-- The fields of all stages are the fields of the schema in stable order of the namespaces. -/
lemma flatMap_fields_stages (ds : List StructDecl) :
    (stages ds (scopes ds)).flatMap Stage.fields = writtenFields (byScope ds) := by
  have hscope : ∀ s, (((if s.isEmpty then [] else [⟨.openNamespace s, []⟩]) ++
      (inScope ds s).flatMap StructDecl.stages : List Stage)).flatMap Stage.fields =
        writtenFields (inScope ds s) := by
    intro s
    rw [List.flatMap_append, List.flatMap_assoc, writtenFields]
    have hopening : ((if s.isEmpty then [] else [⟨.openNamespace s, []⟩] : List Stage)).flatMap
        Stage.fields = [] := by
      split <;> rfl
    rw [hopening, List.nil_append]
    exact List.flatMap_congr fun d _ => flatMap_fields_structStages d
  rw [stages, List.flatMap_cons, List.nil_append, List.flatMap_assoc,
    List.flatMap_congr fun s _ => hscope s, ← flatMap_structs_grouped, grouped_eq_map,
    List.flatMap_map, writtenFields, List.flatMap_assoc]
  rfl

end Header

/-! ## The wording of the records -/

/-- The texts of the records of one level. -/
def LogRecord.textsAt (level : Level) (rs : List LogRecord) : List String :=
  (rs.filter fun r => r.level = level).map text

/-- The texts of the records of stages, which are planned for one item after another. -/
lemma Stage.textsAt_flatMap {α : Type} (level : LogRecord.Level) (l : List α) (f : α → List Stage) :
    LogRecord.textsAt level ((l.flatMap f).map Stage.record) =
      l.flatMap fun a => LogRecord.textsAt level ((f a).map Stage.record) := by
  simp only [LogRecord.textsAt, List.map_flatMap, List.filter_flatMap]

/-- The texts of the records of stages, some of which are planned behind the others. -/
lemma Stage.textsAt_append (level : LogRecord.Level) (ss ts : List Stage) :
    LogRecord.textsAt level ((ss ++ ts).map Stage.record) =
      LogRecord.textsAt level (ss.map Stage.record) ++
        LogRecord.textsAt level (ts.map Stage.record) := by
  simp only [LogRecord.textsAt, List.map_append, List.filter_append]

namespace StructDecl

/-- The definition of a versioned struct leaves a record of its own, and one for each layout of a
version. -/
lemma textsAt_stages_of_isVersioned {d : StructDecl} (h : d.isVersioned = true)
    (level : LogRecord.Level) :
    LogRecord.textsAt level (d.stages.map Stage.record) =
      LogRecord.textsAt level [.versionedStruct d.qualifiedName d.layouts.length] ++
        d.layouts.flatMap fun l => LogRecord.textsAt level
          (l.version.map fun v => .layout d.name v l.fields.length).toList := by
  rw [stages, if_pos h, ← List.singleton_append, Stage.textsAt_append, Stage.textsAt_flatMap]
  refine congrArg₂ List.append rfl (List.flatMap_congr fun l _ => ?_)
  cases l.version <;> rfl

/-- The definition of a struct leaves one record above the level of traces, with its qualified name
and, if it is versioned, the number of its layouts. -/
lemma textsAt_debug_stages (d : StructDecl) :
    LogRecord.textsAt .debug (d.stages.map Stage.record) =
      [if d.isVersioned then "generating versioned struct " ++ d.qualifiedName ++ " with " ++
          Decimal.natural d.layouts.length ++ " specializations"
        else "generating unversioned struct " ++ d.qualifiedName] := by
  cases h : d.isVersioned with
  | false =>
    rw [stages, h]
    rfl
  | true =>
    have hlayouts : (d.layouts.flatMap fun l => LogRecord.textsAt .debug
        (l.version.map fun v => .layout d.name v l.fields.length).toList) = [] := by
      rw [List.flatMap_eq_nil_iff]
      intro l _
      cases l.version <;> rfl
    rw [textsAt_stages_of_isVersioned h, hlayouts, List.append_nil]
    rfl

/-- A trace is left for every layout of a version, with the number of its fields. -/
lemma textsAt_trace_stages (d : StructDecl) :
    LogRecord.textsAt .trace (d.stages.map Stage.record) =
      d.layouts.filterMap fun l => l.version.map fun v =>
        d.name ++ " for " ++ v.name ++ ": " ++ Decimal.natural l.fields.length ++ " fields" := by
  cases h : d.isVersioned with
  | false =>
    rw [layouts_of_not_isVersioned h, stages, h]
    rfl
  | true =>
    rw [textsAt_stages_of_isVersioned h, List.filterMap_eq_flatMap_toList]
    refine List.flatMap_congr fun l _ => ?_
    cases l.version <;> rfl

end StructDecl

namespace Header

/-- What the plan of a schema says above the level of traces. -/
lemma textsAt_debug_stages (ds : List StructDecl) (namespaces : List String) :
    LogRecord.textsAt .debug ((stages ds namespaces).map Stage.record) =
      ("generating " ++ Decimal.natural ds.length ++ " structs") :: namespaces.flatMap fun s =>
        (if s.isEmpty then [] else ["opening namespace " ++ s]) ++ (inScope ds s).map fun d =>
          if d.isVersioned then "generating versioned struct " ++ d.qualifiedName ++ " with " ++
            Decimal.natural d.layouts.length ++ " specializations"
          else "generating unversioned struct " ++ d.qualifiedName := by
  rw [stages, ← List.singleton_append, Stage.textsAt_append, Stage.textsAt_flatMap]
  refine congrArg₂ List.append rfl (List.flatMap_congr fun s _ => ?_)
  rw [Stage.textsAt_append, Stage.textsAt_flatMap]
  simp only [StructDecl.textsAt_debug_stages]
  refine congrArg₂ List.append ?_ List.map_eq_flatMap.symm
  split <;> rfl

/-- What the plan of a schema says at the level of traces. -/
lemma textsAt_trace_stages (ds : List StructDecl) (namespaces : List String) :
    LogRecord.textsAt .trace ((stages ds namespaces).map Stage.record) =
      namespaces.flatMap fun s => (inScope ds s).flatMap fun d =>
        d.layouts.filterMap fun l => l.version.map fun v =>
          d.name ++ " for " ++ v.name ++ ": " ++ Decimal.natural l.fields.length ++ " fields" := by
  rw [stages, ← List.singleton_append, Stage.textsAt_append, Stage.textsAt_flatMap]
  refine List.flatMap_congr fun s _ => ?_
  rw [Stage.textsAt_append, Stage.textsAt_flatMap]
  simp only [StructDecl.textsAt_trace_stages]
  split <;> rfl

/-! ## The log -/

/-- The log of the emission of a header, with the given namespaces. -/
structure LogDetermined (c : Config) (ds : List StructDecl) (namespaces : List String) : Prop where
  /-- The namespaces follow each other in code-point order, each once. -/
  namespaces_increase : namespaces.Pairwise (· < ·)
  /-- They are the namespaces of the structs. -/
  mem_namespaces : ∀ s, s ∈ namespaces ↔ ∃ d ∈ ds, d.scope = s
  /-- The fields of the stages are those of all layouts in stable order of the namespaces. -/
  fields_eq : (stages ds namespaces).flatMap Stage.fields = writtenFields (byScope ds)
  /-- Above the level of traces it is recorded how many structs there are, which namespaces are
  opened, and which structs are defined, with the number of the layouts of a versioned one. -/
  debugs_eq : LogRecord.textsAt .debug ((stages ds namespaces).map Stage.record) =
    ("generating " ++ Decimal.natural ds.length ++ " structs") :: namespaces.flatMap fun s =>
      (if s.isEmpty then [] else ["opening namespace " ++ s]) ++ (inScope ds s).map fun d =>
        if d.isVersioned then "generating versioned struct " ++ d.qualifiedName ++ " with " ++
          Decimal.natural d.layouts.length ++ " specializations"
        else "generating unversioned struct " ++ d.qualifiedName
  /-- The traces are those of the layouts of versions, each with the number of its fields. -/
  traces_eq : LogRecord.textsAt .trace ((stages ds namespaces).map Stage.record) =
    namespaces.flatMap fun s => (inScope ds s).flatMap fun d =>
      d.layouts.filterMap fun l => l.version.map fun v =>
        d.name ++ " for " ++ v.name ++ ": " ++ Decimal.natural l.fields.length ++ " fields"
  /-- With success all records of the stages are left. -/
  log_of_ok : ∀ text, generate c ds = .ok text →
    (file c ds).log = (stages ds namespaces).map Stage.record
  /-- With failure the last record is that of the stage with the first field that cannot be
  written. -/
  log_of_error : ∀ e, generate c ds = .error e → ∃ before stage after,
    stages ds namespaces = before ++ stage :: after ∧
      (∀ s ∈ before, ∀ f ∈ s.fields, f.Writable) ∧ FirstFault stage.fields e ∧
      (file c ds).log = (before ++ [stage]).map Stage.record

/-- **The log of an emission is determined by the layouts**, whatever the configuration. A header
that is generated leaves the records of all stages of the schema, and one that is not those up to
the stage with the first field that cannot be written.

**Proof sketch.** Every part of the emission follows its stages: it leaves their records up to the
first fault and fails with this fault. A record has a stage without fields, the fields of a layout
belong to the record in front of them, and parts that are emitted one after another have their
stages one after another. -/
theorem log_determined (c : Config) (ds : List StructDecl) :
    ∃ namespaces, LogDetermined c ds namespaces := by
  have hfollows := follows_file c ds
  refine ⟨scopes ds, pairwise_scopes ds, fun s => mem_scopes, flatMap_fields_stages ds,
    textsAt_debug_stages ds _, textsAt_trace_stages ds _, ?_, ?_⟩
  · intro text htext
    have hnone : (stages ds (scopes ds)).findSome? Stage.fault? = none := by
      rw [← hfollows.failure_eq, failure?_eq_none_iff]
      exact ⟨text, htext⟩
    rw [hfollows.log_eq]
    exact Stage.recordsUntilFault_of_forall (List.findSome?_eq_none_iff.1 hnone)
  · intro e he
    have hsome : (stages ds (scopes ds)).findSome? Stage.fault? = some e := by
      rw [← hfollows.failure_eq, failure?_eq_some_iff]
      exact he
    obtain ⟨before, stage, after, hstages, hstage, hbefore⟩ := List.findSome?_eq_some_iff.1 hsome
    refine ⟨before, stage, after, hstages,
      fun s hs => Stage.fault?_eq_none_iff.1 (hbefore s hs),
      findSome?_fault?_eq_some_iff.1 hstage, ?_⟩
    rw [hfollows.log_eq, hstages]
    exact Stage.recordsUntilFault_of_fault hbefore hstage

/-- The second layout of a struct has a field that cannot be written: its record is the last one,
and the namespace that is declared first is not opened any more. -/
example :
    let unbound : Entry :=
      .field ⟨.plain ((TypeDescriptor.named "T").withArity 1), "x", none, none, none⟩
    let late : StructDecl := { name := "L", scope := "Z" }
    let early : StructDecl :=
      { name := "E", scope := "A", versions := some ⟨.cata, .wod⟩,
        entries := [.block ⟨.mop, .any⟩ [unbound]] }
    (file {} [late, early]).log = [.header 2, .openNamespace "A", .versionedStruct "A::E" 3,
      .layout "E" .cata 0, .layout "E" .mop 1] := by
  simp only [file, contents_eq_groups]
  decide

end Header

end VersionedLayout
