import TypeBridge.Schema.Plan

namespace TypeBridge.Schema

open Library Library.Components Library.ReadyOrder
open Library.Checked hiding get

/-!
# Diff, replay and inversion

The delta of two declared schemas is replayed over the source, and its inverse
over the target. Both are transitions, so replay accepts them exactly when
function references and specialization paths agree; what remains are the
checks around replay: capabilities, managed states and the derived selection.
-/

variable {Bytes Digest : Type} {codec : Codec Bytes Digest}

/-! ## Schemas that differ in source spans only -/

/-- Two declared schemas agree on everything but source spans. -/
structure SameDeclaration (left right : DeclaredSchema codec) : Prop where
  format : left.format = right.format
  requiredCapabilities : left.requiredCapabilities = right.requiredCapabilities
  facts : left.facts = right.facts
  fingerprint : left.fingerprint = right.fingerprint

theorem SameDeclaration.managedSchemaState_eq {left right : DeclaredSchema codec}
    (same : SameDeclaration left right) (context : ManagedDeltaContext) :
    managedSchemaState left context = managedSchemaState right context := by
  obtain ⟨format, capabilities, facts, fingerprint⟩ := same
  cases left
  cases right
  simp only at format capabilities facts fingerprint
  subst format capabilities facts fingerprint
  rfl

theorem sourcedFacts_eq_ok {replayed : ReplayedFacts} (sourced : replayed.Sourced) :
    sourcedFacts replayed = .ok (replayed.facts.withSources fun id =>
        (replayed.spans[id]?).getD default) := by
  unfold sourcedFacts Inventory.withSources
  rw [mapM_eq_ok, List.forall₂_map_right_iff]
  apply List.forall₂_same.mpr
  rintro ⟨id, fact⟩ member
  have stored : id ∈ replayed.facts := Inventory.mem_iff_exists.mpr
      ⟨fact, Std.ExtTreeMap.mem_toList_iff_getElem?_eq_some.mp member⟩
  rw [sourced id, ← Std.ExtTreeMap.isSome_getElem?_iff_mem, Option.isSome_iff_exists] at stored
  obtain ⟨span, found⟩ := stored
  simp [found]

/-! ## The checks of a transition -/

/-- What a checked transition satisfies. -/
structure ValidTransition (source target : ManagedSchemaState Digest)
    (operations : List SchemaOperation) : Prop where
  format : source.format = target.format
  scope : source.scope = target.scope
  semanticProfile : source.managedSemanticSchema.semanticProfile =
      target.managedSemanticSchema.semanticProfile
  changed : source ≠ target
  operationFree : operations = [] → source.selection = target.selection ∧
        source.requiredCapabilities ≠ target.requiredCapabilities ∧
        source.managedDeclaredIdentity ≠ target.managedDeclaredIdentity ∧
        source.managedSemanticSchema ≠ target.managedSemanticSchema
  bounded : operations.length ≤ maxCanonicalCollectionLen
  selected : ∃ affected,
      operations.foldlM transitionStep (∅, source.selection) = .ok (affected, target.selection)

variable [DecidableEq Digest]

variable {operations : List SchemaOperation}

theorem validateTransition_eq_ok_iff {source target : ManagedSchemaState Digest} :
    validateTransition source target operations = .ok () ↔
      ValidTransition source target operations := by
  unfold validateTransition
  simp only [unless_eq_ok, bind_eq_ok, not_ne_iff]
  constructor
  · rintro ⟨format, scope, profile, changed, free, bounded, ⟨affected, transitioned⟩, run, final⟩
    rw [Checked.throw_eq_ok, not_ne_iff] at final
    refine {
      format := format
      scope := scope
      semanticProfile := profile
      changed := changed
      operationFree := ?_
      bounded := Nat.le_of_not_gt bounded
      selected := ⟨affected, final.1 ▸ run⟩
    }
    intro empty
    simpa [empty, not_or] using free
  · rintro ⟨format, scope, profile, changed, free, bounded, affected, run⟩
    refine ⟨format, scope, profile, changed, ?_, Nat.not_lt.mpr bounded,
      (affected, target.selection), run, ?_⟩
    · rintro ⟨empty, contradicted⟩
      obtain ⟨selection, capabilities, identity, semantic⟩ := free empty
      simp [selection, capabilities, identity, semantic] at contradicted
    · rw [Checked.throw_eq_ok, not_ne_iff]
      exact ⟨rfl, rfl⟩

variable {format : PatchFormatVersion}

theorem SchemaDelta.new_eq_ok_iff {source target : ManagedSchemaState Digest} :
    (∃ delta, SchemaDelta.new format source target operations = .ok delta) ↔
      ValidTransition source target operations := by
  rw [← validateTransition_eq_ok_iff]
  unfold SchemaDelta.new
  split <;> simp_all

theorem SchemaDelta.of_new {source target : ManagedSchemaState Digest} {delta : SchemaDelta Digest}
    (built : SchemaDelta.new format source target operations = .ok delta) :
    delta.format = format ∧ delta.source = source ∧
      delta.target = target ∧ delta.operations = operations := by
  unfold SchemaDelta.new at built
  split at built
  · cases built
  · rw [Except.ok.injEq] at built
    subst delta
    exact ⟨rfl, rfl, rfl, rfl⟩

/-! ## The derived selection -/

def SelectionProgress (source target : Inventory) (processed : List SchemaFactId)
    (selection : Finset SchemaFactId) : Prop :=
  ∀ id, id ∈ selection ↔ if id ∈ processed then id ∈ target else id ∈ source

inductive Changes (source target : Inventory) : SchemaOperation → SchemaFactId → Prop where
  | define {fact : SchemaFact} : fact.id ∈ target → fact.id ∉ source →
      Changes source target (.define (.single fact)) fact.id
  | redefine {change : Replacement} : change.expected.id ∈ source → change.expected.id ∈ target →
      Changes source target (.redefine change) change.expected.id
  | undefine {fact : SchemaFact} : fact.id ∈ source → fact.id ∉ target →
      Changes source target (.undefine fact) fact.id

variable {processed : List SchemaFactId} {selection : Finset SchemaFactId}

theorem Changes.transitionStep_eq_ok {source target : Inventory} {operation : SchemaOperation}
    {id : SchemaFactId} (changes : Changes source target operation id) (fresh : id ∉ processed)
    (progress : SelectionProgress source target processed selection) :
    ∃ next, transitionStep (processed.toFinset, selection) operation =
          .ok ((processed ++ [id]).toFinset, next) ∧
        SelectionProgress source target (processed ++ [id]) next := by
  have unaffected : id ∉ processed.toFinset := by simpa using fresh
  have recorded : insert id processed.toFinset = (processed ++ [id]).toFinset := by
    ext other
    simp
  have current : id ∈ selection ↔ id ∈ source := by rw [progress id, if_neg fresh]
  cases changes with
  | @define fact inTarget notSource =>
    have absent : fact.id ∉ selection := by rwa [current]
    refine ⟨insert fact.id selection, ?_, ?_⟩
    · simp only [transitionStep, recordAffected, transitionSelection,
        SchemaOperation.affectedIds, DefinedFacts.single, List.map_cons,
        List.map_nil, List.foldlM_cons, List.foldlM_nil, if_neg absent,
        if_neg unaffected, ← recorded]
      rfl
    · intro other
      by_cases same : other = fact.id
      · simp [same, inTarget]
      · rw [Finset.mem_insert, progress other]
        simp [same]
  | @redefine change inSource inTarget =>
    have present : change.expected.id ∈ selection := by rwa [current]
    refine ⟨selection, ?_, ?_⟩
    · simp only [transitionStep, recordAffected, transitionSelection,
        SchemaOperation.affectedIds, List.foldlM_cons, List.foldlM_nil,
        if_pos present, if_neg unaffected, ← recorded]
      rfl
    · intro other
      by_cases same : other = change.expected.id
      · simp [same, inTarget, present]
      · rw [progress other]
        simp [same]
  | @undefine fact inSource notTarget =>
    have present : fact.id ∈ selection := by rwa [current]
    refine ⟨selection.erase fact.id, ?_, ?_⟩
    · simp only [transitionStep, recordAffected, transitionSelection,
        SchemaOperation.affectedIds, List.foldlM_cons, List.foldlM_nil,
        if_pos present, if_neg unaffected, ← recorded]
      rfl
    · intro other
      by_cases same : other = fact.id
      · simp [same, notTarget]
      · rw [Finset.mem_erase, progress other]
        simp [same]

theorem foldlM_transitionStep_eq_ok {source target : Inventory} {ids : List SchemaFactId}
    (changes : List.Forall₂ (Changes source target) operations ids)
    (distinct : (processed ++ ids).Nodup)
    (progress : SelectionProgress source target processed selection) :
    ∃ final, operations.foldlM transitionStep (processed.toFinset, selection) =
          .ok ((processed ++ ids).toFinset, final) ∧
        SelectionProgress source target (processed ++ ids) final := by
  induction changes generalizing processed selection with
  | nil =>
    rw [List.append_nil]
    exact ⟨selection, rfl, progress⟩
  | @cons operation id operations ids first _ ih =>
    have fresh : id ∉ processed := by
      intro member
      rw [List.nodup_append] at distinct
      exact distinct.2.2 _ member _ (by simp) rfl
    obtain ⟨next, step, nextProgress⟩ := first.transitionStep_eq_ok fresh progress
    obtain ⟨final, run, finalProgress⟩ := ih (by simpa using distinct) nextProgress
    refine ⟨final, foldlM_cons_eq_ok.mpr ⟨_, step, ?_⟩, ?_⟩
    · simpa using run
    · simpa using finalProgress

namespace Transition

variable {source target : Inventory} (transition : Transition source target)

theorem changes : List.Forall₂ (Changes source target) transition.operations
      (transition.definedIds ++ transition.replacedIds ++ transition.undefinedIds) := by
  refine List.rel_append (List.rel_append ?_ ?_) ?_
  · rw [definedIds, List.forall₂_map_left_iff, List.forall₂_map_right_iff, List.forall₂_same]
    intro fact member
    obtain ⟨inTarget, notSource⟩ := transition.mem_definedIds.mp (List.mem_map_of_mem member)
    exact .define inTarget notSource
  · rw [replacedIds, List.forall₂_map_left_iff, List.forall₂_map_right_iff, List.forall₂_same]
    intro change member
    obtain ⟨inSource, inTarget, -⟩ :=
      transition.mem_replacedIds.mp (List.mem_map.mpr ⟨change, member, rfl⟩)
    exact .redefine inSource inTarget
  · rw [undefinedIds, List.forall₂_map_left_iff, List.forall₂_map_right_iff, List.forall₂_same]
    intro fact member
    obtain ⟨inSource, notTarget⟩ := transition.mem_undefinedIds.mp (List.mem_map_of_mem member)
    exact .undefine inSource notTarget

theorem nodup_ids :
    (transition.definedIds ++ transition.replacedIds ++ transition.undefinedIds).Nodup := by
  rw [List.append_assoc, List.nodup_append, List.nodup_append]
  refine ⟨transition.nodup_definedIds,
    ⟨transition.replacedDistinct, transition.nodup_undefinedIds, ?_⟩, ?_⟩
  · rintro id replaced _ undefined rfl
    exact (transition.mem_undefinedIds.mp undefined).2 (transition.mem_replacedIds.mp replaced).2.1
  · rintro id added _ changed rfl
    rcases List.mem_append.mp changed with replaced | undefined
    · exact (transition.mem_definedIds.mp added).2 (transition.mem_replacedIds.mp replaced).1
    · exact (transition.mem_definedIds.mp added).2 (transition.mem_undefinedIds.mp undefined).1

theorem selection_eq_ok :
    ∃ affected, transition.operations.foldlM transitionStep (∅, source.keys.toFinset) =
        .ok (affected, target.keys.toFinset) := by
  have start : SelectionProgress source target [] source.keys.toFinset := by
    intro id
    simp [Std.ExtTreeMap.mem_keys]
  obtain ⟨final, run, progress⟩ := foldlM_transitionStep_eq_ok transition.changes
      (by simpa using transition.nodup_ids) start
  have reached : final = target.keys.toFinset := by
    ext id
    rw [progress id, List.mem_toFinset, Std.ExtTreeMap.mem_keys]
    split
    · rfl
    · next unchanged =>
        have same : source[id]? = target[id]? := by
          by_contra different
          exact unchanged (transition.all_changes different)
        rw [Inventory.mem_iff_exists, Inventory.mem_iff_exists, same]
  rw [reached] at run
  exact ⟨_, run⟩

end Transition

/-! ## Applying a transition -/

structure Records (declared : DeclaredSchema codec) (context : ManagedDeltaContext)
    (state : ManagedSchemaState Digest) : Prop where
  format : state.format = declared.format
  requiredCapabilities : state.requiredCapabilities = declared.requiredCapabilities
  scope : state.scope = context.scopeId
  semanticProfile : state.managedSemanticSchema.semanticProfile = context.semanticProfile
  selection : state.selection = declared.facts.keys.toFinset
  supported : declared.requiredCapabilities ⊆ context.availableCapabilities

omit [DecidableEq Digest] in
theorem records_of_managedSchemaState {declared : DeclaredSchema codec}
    {context : ManagedDeltaContext} {state : ManagedSchemaState Digest}
    (managed : managedSchemaState declared context = .ok state) :
    Records declared context state := by
  obtain ⟨⟨⟩, supported, managed⟩ := bind_eq_ok.mp managed
  obtain ⟨-, -, managed⟩ := bind_eq_ok.mp managed
  obtain ⟨selection, selected, managed⟩ := bind_eq_ok.mp managed
  obtain ⟨identity, -, managed⟩ := bind_eq_ok.mp managed
  obtain ⟨semantic, fingerprinted, managed⟩ := bind_eq_ok.mp managed
  obtain ⟨-, managed⟩ := unless_eq_ok.mp managed
  rw [pure_eq_ok] at managed
  subst state
  rw [mapError_eq_ok] at supported selected fingerprinted
  obtain ⟨-, -, fingerprinted⟩ := bind_eq_ok.mp fingerprinted
  obtain ⟨-, -, fingerprinted⟩ := bind_eq_ok.mp fingerprinted
  obtain ⟨bytes, -, fingerprinted⟩ := bind_eq_ok.mp fingerprinted
  rw [pure_eq_ok] at fingerprinted
  rw [ensureSupportedBy, require_eq_ok] at supported
  rw [managedFactSelection, guard_eq_ok, Except.ok.injEq] at selected
  exact {
    format := rfl
    requiredCapabilities := rfl
    scope := rfl
    semanticProfile := fingerprinted ▸ rfl
    selection := selected.2.symm
    supported := supported.1
  }

theorem Transition.isSingle {source target : Inventory} (transition : Transition source target)
    (operation : SchemaOperation) (member : operation ∈ transition.operations) :
    operation.IsSingle := by
  simp only [Transition.operations, List.mem_append, List.mem_map] at member
  rcases member with (⟨fact, -, rfl⟩ | ⟨change, -, rfl⟩) | ⟨fact, -, rfl⟩
  · exact ⟨fact, rfl⟩
  · trivial
  · trivial

section Apply

variable {source target : DeclaredSchema codec} {context : ManagedDeltaContext}
  {delta : SchemaDelta Digest}

variable (transition : Transition source.facts target.facts)

omit [DecidableEq Digest] in
theorem Transition.of_replay (comparable : Comparable source.facts target.facts)
    (bounded : transition.operations.length ≤ maxCanonicalCollectionLen) {replayed : ReplayedFacts}
    (run : replay ⟨source.facts, source.provenance⟩ transition.operations = .ok replayed) :
    replayed.facts = target.facts ∧ replayed.Sourced ∧ SameReferences source.facts target.facts ∧
      SamePaths source.facts target.facts := by
  obtain ⟨final, steps, run⟩ := bind_eq_ok.mp run
  obtain ⟨-, -, run⟩ := bind_eq_ok.mp run
  rw [pure_eq_ok] at run
  subst final
  have sourced : ReplayedFacts.Sourced ⟨source.facts, source.provenance⟩ := source.sourced
  obtain ⟨admitted, sourced⟩ := foldlM_step_admits transition.operations transition.isSingle
      (by rwa [Nat.zero_add]) source.keyed sourced steps
  obtain ⟨reached, agreed⟩ := transition.of_admitsAll comparable admitted
  exact ⟨reached, sourced, agreed⟩

omit [DecidableEq Digest] in
theorem Transition.exists_replay (comparable : Comparable source.facts target.facts)
    (founded : Founded source.facts)
    (bounded : transition.operations.length ≤ maxCanonicalCollectionLen)
    (references : SameReferences source.facts target.facts)
    (paths : SamePaths source.facts target.facts) :
    ∃ replayed, replay ⟨source.facts, source.provenance⟩ transition.operations = .ok replayed := by
  have admitted := transition.admitsAll comparable references paths founded
  have early : 0 + transition.operations.length ≤ maxCanonicalCollectionLen := by rwa [Nat.zero_add]
  obtain ⟨replayed, steps, same⟩ :=
    @exists_foldlM_step _ ⟨source.facts, source.provenance⟩ 0 transition.operations
      transition.isSingle early source.keyed admitted
  refine ⟨replayed, bind_eq_ok.mpr ⟨replayed, steps, bind_eq_ok.mpr ⟨(), ?_, rfl⟩⟩⟩
  rw [same, validateInventory_eq_ok_iff target.keyed]
  exact ⟨comparable.targetPlannable, comparable.targetComplete⟩

/--
Re-declaring replayed target facts restores the target up to source spans.
-/
theorem exists_redeclared {replayed : ReplayedFacts} (same : replayed.facts = target.facts)
    (sourced : replayed.Sourced) (records : Records target context delta.target) :
    ∃ sources restored, sourcedFacts replayed = .ok sources ∧
        DeclaredSchema.fromFacts codec delta.target.format
          delta.target.requiredCapabilities sources = .ok restored ∧
        SameDeclaration restored target := by
  obtain ⟨restored, built, format, capabilities, facts, fingerprint⟩ :=
    target.fromFacts_withSources fun id => (replayed.spans[id]?).getD default
  refine ⟨_, restored, sourcedFacts_eq_ok sourced, ?_, ⟨format, capabilities, facts, fingerprint⟩⟩
  rw [same, records.format, records.requiredCapabilities]
  exact built

variable {reached : DeclaredSchema codec}

theorem applyDelta_eq_ok_iff : applyDelta source delta context = .ok reached ↔
      delta.requiredCapabilities ⊆ context.availableCapabilities ∧
        managedSchemaState source context = .ok delta.source ∧ (∃ replayed,
          replay ⟨source.facts, source.provenance⟩ delta.operations = .ok replayed ∧ ∃ sources,
              sourcedFacts replayed = .ok sources ∧
                DeclaredSchema.fromFacts codec delta.target.format
                  delta.target.requiredCapabilities sources = .ok reached) ∧
        managedSchemaState reached context = .ok delta.target := by
  unfold applyDelta
  simp only [bind_eq_ok, unless_eq_ok, pure_eq_ok,
    mapError_eq_ok, ensureSupportedBy, require_eq_ok, not_ne_iff]
  constructor
  · rintro ⟨-, ⟨supported, -⟩, _, managed, rfl, replayed, run, sources,
      sourced, target, built, _, targetManaged, rfl, rfl⟩
    exact ⟨supported, managed, ⟨replayed, run, sources, sourced, built⟩, targetManaged⟩
  · rintro ⟨supported, managed, ⟨replayed, run, sources, sourced, built⟩, targetManaged⟩
    exact ⟨(), ⟨supported, trivial⟩, _, managed, rfl, replayed, run, sources,
      sourced, reached, built, _, targetManaged, rfl, rfl⟩

theorem Transition.of_applyDelta (comparable : Comparable source.facts target.facts)
    (bounded : delta.operations.length ≤ maxCanonicalCollectionLen)
    (planned : transition.operations = delta.operations)
    (targetManaged : managedSchemaState target context = .ok delta.target)
    (applied : applyDelta source delta context = .ok reached) :
    SameDeclaration reached target ∧ SameReferences source.facts target.facts ∧
      SamePaths source.facts target.facts := by
  obtain ⟨-, -, ⟨replayed, run, sources, listed, built⟩, -⟩ := applyDelta_eq_ok_iff.mp applied
  rw [← planned] at bounded run
  obtain ⟨same, sourced, agreed⟩ := transition.of_replay comparable bounded run
  obtain ⟨_, restored, listed', built', declared⟩ := exists_redeclared same sourced
      (records_of_managedSchemaState targetManaged)
  cases listed.symm.trans listed'
  cases built.symm.trans built'
  exact ⟨declared, agreed⟩

/--
A delta whose operations form a transition applies exactly when its
capabilities are available and references and paths agree.
-/
theorem Transition.exists_applyDelta_iff (comparable : Comparable source.facts target.facts)
    (bounded : delta.operations.length ≤ maxCanonicalCollectionLen)
    (planned : transition.operations = delta.operations)
    (sourceManaged : managedSchemaState source context = .ok delta.source)
    (targetManaged : managedSchemaState target context = .ok delta.target) :
    (∃ reached, applyDelta source delta context = .ok reached) ↔
      delta.requiredCapabilities ⊆ context.availableCapabilities ∧
        SameReferences source.facts target.facts ∧ SamePaths source.facts target.facts := by
  constructor
  · rintro ⟨reached, applied⟩
    exact ⟨(applyDelta_eq_ok_iff.mp applied).1,
      (transition.of_applyDelta comparable bounded planned targetManaged applied).2⟩
  · rintro ⟨supported, references, paths⟩
    have founded := founded_of_managedSchemaState sourceManaged
    rw [← planned] at bounded
    obtain ⟨replayed, run⟩ := transition.exists_replay comparable founded bounded references paths
    obtain ⟨same, sourced, -⟩ := transition.of_replay comparable bounded run
    obtain ⟨sources, restored, listed, built, declared⟩ := exists_redeclared same sourced
        (records_of_managedSchemaState targetManaged)
    refine ⟨restored, applyDelta_eq_ok_iff.mpr
      ⟨supported, sourceManaged, ⟨replayed, ?_, sources, listed, built⟩, ?_⟩⟩
    · rw [← planned]
      exact run
    · rw [declared.managedSchemaState_eq, targetManaged]

end Apply

/-! ## Small schemas -/

/-- Documents of the plain codec. -/
structure PlainBytes where
  scope : Option ManagedScopeId
  profile : Option SemanticProfileId
  format : FormatVersion
  capabilities : CapabilitySet
  facts : List SchemaFact
  deriving DecidableEq

/-- A codec that writes a document as it is and digests nothing. -/
def plainCodec : Codec PlainBytes PlainBytes where
  identityBytes format capabilities facts := .ok ⟨none, none, format, capabilities, facts.values⟩
  semanticBytes profile format capabilities facts :=
    .ok ⟨none, some profile, format, capabilities, facts.values⟩
  managedIdentityBytes scope format capabilities facts :=
    .ok ⟨some scope, none, format, capabilities, facts.values⟩
  managedSemanticBytes scope profile format capabilities facts :=
    .ok ⟨some scope, some profile, format, capabilities, facts.values⟩
  descriptorIndex _ := .ok ()
  digest := id

/-- Declare facts that share one source span. -/
def declarePlain (facts : List SchemaFact) : Except (List Diagnostic) (DeclaredSchema plainCodec) :=
  DeclaredSchema.fromFacts plainCodec .v1 ∅
    (facts.map fun fact => ⟨fact, ⟨"schema.tql", 0, 1, 1, 1, 1, 2⟩⟩)

def plainContext (capabilities : CapabilitySet) : ManagedDeltaContext :=
  ⟨⟨"scope"⟩, ⟨"typedb-3.12.1/v1"⟩, capabilities⟩

/-- `attribute a`. -/
def attributeA : SchemaFact := .type ⟨⟨.attribute, ⟨"a"⟩⟩, by decide, by decide⟩

/-- `attribute b`. -/
def attributeB : SchemaFact := .type ⟨⟨.attribute, ⟨"b"⟩⟩, by decide, by decide⟩

/-- `attribute b sub a`. -/
def attributeBSubA : SchemaFact :=
  .sub ⟨⟨.attribute, ⟨"b"⟩⟩, ⟨.attribute, ⟨"a"⟩⟩, by decide, rfl, by decide⟩

/-- `entity p`. -/
def entityP : SchemaFact := .type ⟨⟨.entity, ⟨"p"⟩⟩, by decide, by decide⟩

/-- The relations `p`, `q` and `r`. -/
def relationTypes : List SchemaFact :=
  [.type ⟨⟨.relation, ⟨"p"⟩⟩, by decide, by decide⟩,
    .type ⟨⟨.relation, ⟨"q"⟩⟩, by decide, by decide⟩,
    .type ⟨⟨.relation, ⟨"r"⟩⟩, by decide, by decide⟩]

def documentation (name text : String) : SchemaFact :=
  .annotated ⟨⟨.type ⟨.attribute, ⟨name⟩⟩, .doc⟩, .doc text, rfl, rfl⟩

/-- The facts `attribute a, value ..`. -/
def attributeFacts (valueType : ValueTypeTag) : List SchemaFact :=
  [attributeA, .value ⟨⟨⟨⟨"a"⟩⟩⟩, valueType⟩]

/-- `attribute a, value string`. -/
def stringAttribute : DeclaredSchema plainCodec :=
  Checked.get (declarePlain (attributeFacts .string)) (by decide +kernel)

/-- `attribute a, value integer`. -/
def integerAttribute : DeclaredSchema plainCodec :=
  Checked.get (declarePlain (attributeFacts .long)) (by decide +kernel)

/-- Relations `p`, `q` and `r` and their roles `p:x` and `r:y as p:x`. -/
def relationFacts : List SchemaFact :=
  relationTypes ++ [.relates ⟨.ofLabels "p" "x", none, .unordered, by decide⟩,
    .relates ⟨.ofLabels "r" "y", some ⟨⟨"p"⟩, ⟨"x"⟩⟩, .unordered, by decide⟩]

/-- The edge `r sub p`. -/
def directEdges : List SchemaFact :=
  [.sub ⟨⟨.relation, ⟨"r"⟩⟩, ⟨.relation, ⟨"p"⟩⟩, by decide, rfl, by decide⟩]

/-- The edges `r sub q` and `q sub p`. -/
def stackedEdges : List SchemaFact :=
  [.sub ⟨⟨.relation, ⟨"r"⟩⟩, ⟨.relation, ⟨"q"⟩⟩, by decide, rfl, by decide⟩,
    .sub ⟨⟨.relation, ⟨"q"⟩⟩, ⟨.relation, ⟨"p"⟩⟩, by decide, rfl, by decide⟩]

/-- The relations with `r sub p`. -/
def directRelations : DeclaredSchema plainCodec :=
  Checked.get (declarePlain (relationFacts ++ directEdges)) (by decide +kernel)

/-- The relations with `r sub q` and `q sub p`. -/
def stackedRelations : DeclaredSchema plainCodec :=
  Checked.get (declarePlain (relationFacts ++ stackedEdges)) (by decide +kernel)

def redefiningContext : ManagedDeltaContext := plainContext {schemaRedefineCapability}

variable {valueType : ValueTypeTag}

/-- The relations with `r sub p`, the attribute `a` and further facts. -/
def mixedFacts (valueType : ValueTypeTag) (further : List SchemaFact) : List SchemaFact :=
  relationFacts ++ directEdges ++ attributeFacts valueType ++ further

/-- The attribute `a` holds strings and has a documentation. -/
def formerSchema : DeclaredSchema plainCodec :=
  Checked.get (declarePlain (mixedFacts .string [documentation "a" "note"])) (by decide +kernel)

/-- The attribute `a` holds integers, and there is a documented attribute `b`. -/
def latterSchema : DeclaredSchema plainCodec :=
  Checked.get (declarePlain (mixedFacts .long [attributeB, documentation "b" "note"]))
    (by decide +kernel)

/-- Two definitions, the redefinition of the value type and a removal. -/
def mixedDelta : SchemaDelta PlainBytes :=
  Checked.get (diffManaged formerSchema latterSchema redefiningContext) (by decide +kernel)

theorem diffManaged_mixedDelta :
    diffManaged formerSchema latterSchema redefiningContext = .ok mixedDelta :=
  eq_ok_get _ _

theorem formerSchema_values :
    formerSchema.facts.values.Perm (mixedFacts .string [documentation "a" "note"]) := by
  decide +kernel

theorem latterSchema_values :
    latterSchema.facts.values.Perm
      (mixedFacts .long [attributeB, documentation "b" "note"]) := by
  decide +kernel

theorem sameReferences_formerSchema (target : Inventory) :
    SameReferences formerSchema.facts target := by
  intro function label stored
  simp [formerSchema_values.mem_iff, mixedFacts, relationFacts, relationTypes, directEdges,
    attributeFacts, attributeA, documentation] at stored

/-- The only specializing role is `r:y`. -/
theorem samePaths_mixed {facts source : Inventory} {further : List SchemaFact}
    (values : facts.values.Perm (mixedFacts valueType further))
    (plain : ∀ relates, .relates relates ∉ further)
    (same : findSubPath (source ∪ facts) ⟨.relation, ⟨"r"⟩⟩ ⟨.relation, ⟨"p"⟩⟩ =
      findSubPath facts ⟨.relation, ⟨"r"⟩⟩ ⟨.relation, ⟨"p"⟩⟩) :
    SamePaths source facts := by
  intro fact parent stored specializes
  simp [values.mem_iff, mixedFacts, relationFacts, relationTypes, directEdges, attributeFacts,
    attributeA, plain] at stored
  rcases stored with rfl | rfl
  · cases specializes
  · cases specializes
    exact same

theorem samePaths_formerSchema : SamePaths latterSchema.facts formerSchema.facts :=
  samePaths_mixed formerSchema_values (by simp [documentation]) (by decide +kernel)

theorem samePaths_latterSchema : SamePaths formerSchema.facts latterSchema.facts :=
  samePaths_mixed latterSchema_values (by simp [attributeB, documentation]) (by decide +kernel)

/-! ## Diff and replay -/

section RoundTrip

variable {source target : DeclaredSchema codec} {context : ManagedDeltaContext}
  {delta : SchemaDelta Digest}

structure Diffed (source target : DeclaredSchema codec) (context : ManagedDeltaContext)
    (delta : SchemaDelta Digest) (transition : Transition source.facts target.facts) : Prop where
  comparable : Comparable source.facts target.facts
  planned : transition.operations = delta.operations
  replacedOrder : LeastReady id (DependsOn target.facts)
      (redefinedIds source.facts target.facts).toFinset
      transition.replacedIds
  sourceManaged : managedSchemaState source context = .ok delta.source
  targetManaged : managedSchemaState target context = .ok delta.target
  valid : ValidTransition delta.source delta.target delta.operations

theorem exists_diffed (diffed : diffManaged source target context = .ok delta) :
    ∃ transition, Diffed source target context delta transition := by
  obtain ⟨sourceState, sourceManaged, diffed⟩ := bind_eq_ok.mp diffed
  obtain ⟨targetState, targetManaged, diffed⟩ := bind_eq_ok.mp diffed
  obtain ⟨operations, planned, built⟩ := bind_eq_ok.mp diffed
  rw [mapError_eq_ok] at planned built
  obtain ⟨comparable, transition, listed, order⟩ :=
    exists_transition_of_plan source.keyed target.keyed
      (founded_of_managedSchemaState sourceManaged)
      (founded_of_managedSchemaState targetManaged) planned
  have valid := SchemaDelta.new_eq_ok_iff.mp ⟨delta, built⟩
  obtain ⟨-, rfl, rfl, rfl⟩ := SchemaDelta.of_new built
  exact ⟨transition, {
    comparable := comparable
    planned := listed
    replacedOrder := order
    sourceManaged := sourceManaged
    targetManaged := targetManaged
    valid := valid
  }⟩

theorem requiredCapabilities_available_iff
    (sourceManaged : managedSchemaState source context = .ok delta.source)
    (targetManaged : managedSchemaState target context = .ok delta.target) :
    delta.requiredCapabilities ⊆ context.availableCapabilities ↔
      (∀ operation ∈ delta.operations, operation.isRedefine = false) ∨
        schemaRedefineCapability ∈ context.availableCapabilities := by
  have sourceRecords := records_of_managedSchemaState sourceManaged
  have targetRecords := records_of_managedSchemaState targetManaged
  have sourceSupported := sourceRecords.supported
  have targetSupported := targetRecords.supported
  rw [← sourceRecords.requiredCapabilities] at sourceSupported
  rw [← targetRecords.requiredCapabilities] at targetSupported
  rw [delta.derived, transitionCapabilities, Finset.union_subset_iff, Finset.union_subset_iff]
  have unused : delta.operations.any SchemaOperation.isRedefine = false ↔
        ∀ operation ∈ delta.operations, operation.isRedefine = false := by simp
  rw [← unused]
  cases delta.operations.any SchemaOperation.isRedefine with
  | false | true => simp [sourceSupported, targetSupported]

/--
Where references and paths agree, replaying a computed delta reaches the
target exactly when redefinition is not used or available.
-/
theorem applyDelta_reaches_target_iff (diffed : diffManaged source target context = .ok delta)
    (references : SameReferences source.facts target.facts)
    (paths : SamePaths source.facts target.facts) :
    (∃ reached, applyDelta source delta context = .ok reached ∧ reached.facts = target.facts ∧
        reached.requiredCapabilities = target.requiredCapabilities ∧
        managedSchemaState reached context = managedSchemaState target context) ↔
      (∀ operation ∈ delta.operations, operation.isRedefine = false) ∨
        schemaRedefineCapability ∈ context.availableCapabilities := by
  obtain ⟨transition, known⟩ := exists_diffed diffed
  rw [← requiredCapabilities_available_iff known.sourceManaged known.targetManaged]
  constructor
  · rintro ⟨reached, applied, -⟩
    exact (applyDelta_eq_ok_iff.mp applied).1
  · intro supported
    obtain ⟨reached, applied⟩ :=
      (transition.exists_applyDelta_iff known.comparable known.valid.bounded
        known.planned known.sourceManaged known.targetManaged).mpr ⟨supported, references, paths⟩
    obtain ⟨declared, -⟩ := transition.of_applyDelta known.comparable known.valid.bounded
        known.planned known.targetManaged applied
    exact ⟨reached, applied, declared.facts, declared.requiredCapabilities,
      declared.managedSchemaState_eq context⟩

/-- With the capability the mixed delta reaches its target. -/
theorem mixedDelta_reaches_target :
    ∃ reached,
      applyDelta formerSchema mixedDelta redefiningContext = .ok reached ∧
        reached.facts = latterSchema.facts ∧
        reached.requiredCapabilities = latterSchema.requiredCapabilities ∧
        managedSchemaState reached redefiningContext =
          managedSchemaState latterSchema redefiningContext :=
  (applyDelta_reaches_target_iff diffManaged_mixedDelta
    (sameReferences_formerSchema _) samePaths_latterSchema).mpr
    (Or.inr (Finset.mem_singleton_self _))

/-- A redefinition is computed without the capability that replays it. -/
theorem redefinition_unavailable :
    ∃ delta, diffManaged stringAttribute integerAttribute (plainContext ∅) = .ok delta ∧
        applyDelta stringAttribute delta (plainContext ∅) =
          .error (.contract ⟨"unsupported_required_capability"⟩) := by
  refine ⟨_, eq_ok_get _ (by decide +kernel), ?_⟩
  apply Checked.failure?_eq_some.mp
  decide +kernel

theorem Transition.inverse_operations {source target : Inventory}
    (transition : Transition source target) :
    transition.operations.reverse.flatMap SchemaOperation.inverse =
      transition.inverse.operations := by
  simp only [Transition.operations, Transition.inverse, List.reverse_append,
    List.flatMap_append, ← List.map_reverse, List.map_map]
  simp only [List.flatMap_map, SchemaOperation.inverse, DefinedFacts.single,
    List.reverse_cons, List.reverse_nil, List.nil_append, List.map_cons,
    List.map_nil, List.append_assoc]
  simp only [List.map_eq_flatMap]
  rfl

theorem Transition.length_inverse_operations {source target : Inventory}
    (transition : Transition source target) :
    transition.inverse.operations.length = transition.operations.length := by
  simp only [Transition.operations, Transition.inverse, List.length_append,
    List.length_map, List.length_reverse]
  omega

namespace Diffed

variable {transition : Transition source.facts target.facts}
  (known : Diffed source target context delta transition)
include known

theorem exists_inverseDelta :
    ∃ inverse, inverseDelta delta = .ok inverse ∧ inverse.source = delta.target ∧
        inverse.target = delta.source ∧ transition.inverse.operations = inverse.operations := by
  have valid : ValidTransition delta.target delta.source
        transition.inverse.operations := by
    obtain ⟨affected, run⟩ := transition.inverse.selection_eq_ok
    have sourceRecords := records_of_managedSchemaState known.sourceManaged
    have targetRecords := records_of_managedSchemaState known.targetManaged
    rw [← sourceRecords.selection, ← targetRecords.selection] at run
    refine {
      format := known.valid.format.symm
      scope := known.valid.scope.symm
      semanticProfile := known.valid.semanticProfile.symm
      changed := known.valid.changed.symm
      operationFree := ?_
      bounded := ?_
      selected := ⟨affected, run⟩
    }
    · intro empty
      obtain ⟨selection, capabilities, identity, semantic⟩ := known.valid.operationFree
          (by rwa [← known.planned, ← List.length_eq_zero_iff,
            ← transition.length_inverse_operations, List.length_eq_zero_iff])
      exact ⟨selection.symm, capabilities.symm, identity.symm, semantic.symm⟩
    · rw [transition.length_inverse_operations, known.planned]
      exact known.valid.bounded
  obtain ⟨inverse, built⟩ : ∃ inverse, SchemaDelta.new delta.format delta.target delta.source
          transition.inverse.operations = .ok inverse := SchemaDelta.new_eq_ok_iff.mpr valid
  obtain ⟨-, sameSource, sameTarget, sameOperations⟩ := SchemaDelta.of_new built
  refine ⟨inverse, ?_, sameSource, sameTarget, sameOperations.symm⟩
  rw [inverseDelta, ← known.planned, transition.inverse_operations, built]
  rfl

variable {inverse : SchemaDelta Digest}

theorem requiredCapabilities_inverse (sameSource : inverse.source = delta.target)
    (sameTarget : inverse.target = delta.source)
    (listed : transition.inverse.operations = inverse.operations) :
    inverse.requiredCapabilities = delta.requiredCapabilities := by
  rw [inverse.derived, delta.derived, transitionCapabilities,
    transitionCapabilities, sameSource, sameTarget, ← listed, ← known.planned,
    Finset.union_comm delta.target.requiredCapabilities]
  congr 2
  simp [Transition.operations, Transition.inverse, SchemaOperation.isRedefine, Function.comp_def]

/--
The inverse of an applied delta restores the source, exactly when each
specializing role of the source selects the same subtype path among the edges
of both schemas as among its own.
-/
theorem applyDelta_inverse {reached : DeclaredSchema codec}
    (applied : applyDelta source delta context = .ok reached)
    (inverted : inverseDelta delta = .ok inverse) :
    ((∃ restored, applyDelta reached inverse context = .ok restored) ↔
      SamePaths target.facts source.facts) ∧
      ∀ restored, applyDelta reached inverse context = .ok restored →
        SameDeclaration restored source := by
  obtain ⟨declared, references, -⟩ := transition.of_applyDelta known.comparable known.valid.bounded
      known.planned known.targetManaged applied
  obtain ⟨_, inverted', sameSource, sameTarget, listed⟩ := known.exists_inverseDelta
  cases inverted.symm.trans inverted'
  -- The reached schema carries the target's facts, so the inverse transition
  -- starts from it.
  obtain ⟨backward, backwardListed⟩ : ∃ backward : Transition reached.facts source.facts,
        backward.operations = inverse.operations := by
    rw [declared.facts]
    exact ⟨transition.inverse, listed⟩
  have comparable : Comparable reached.facts source.facts := by
    rw [declared.facts]
    exact known.comparable.symm
  have bounded := (validateTransition_eq_ok_iff.mp inverse.validated).bounded
  have reachedManaged : managedSchemaState reached context = .ok inverse.source := by
    rw [declared.managedSchemaState_eq, sameSource, known.targetManaged]
  have sourceManaged : managedSchemaState source context = .ok inverse.target := by
    rw [sameTarget, known.sourceManaged]
  have applies :=
    backward.exists_applyDelta_iff comparable bounded backwardListed reachedManaged sourceManaged
  rw [known.requiredCapabilities_inverse sameSource sameTarget listed, declared.facts] at applies
  refine ⟨applies.trans ⟨fun accepted => accepted.2.2, fun paths => ?_⟩, ?_⟩
  · exact ⟨(applyDelta_eq_ok_iff.mp applied).1, references.symm known.comparable.functions, paths⟩
  · intro restored reapplied
    exact (backward.of_applyDelta comparable bounded backwardListed sourceManaged reapplied).1

end Diffed

/--
The inverse of an applied delta exists, and it leads back to the source
exactly when each specializing role of the source selects the same subtype
path among the edges of both schemas as among its own.
-/
theorem inverseDelta_restores_source_iff {reached : DeclaredSchema codec}
    (diffed : diffManaged source target context = .ok delta)
    (applied : applyDelta source delta context = .ok reached) :
    (∃ inverse restored, inverseDelta delta = .ok inverse ∧
        applyDelta reached inverse context = .ok restored ∧ restored.facts = source.facts ∧
        managedSchemaState restored context = managedSchemaState source context) ↔
      SamePaths target.facts source.facts := by
  obtain ⟨transition, known⟩ := exists_diffed diffed
  obtain ⟨inverse, inverted, -⟩ := known.exists_inverseDelta
  obtain ⟨applies, restores⟩ := known.applyDelta_inverse applied inverted
  rw [← applies]
  constructor
  · rintro ⟨_, restored, inverted', reapplied, -⟩
    cases inverted.symm.trans inverted'
    exact ⟨restored, reapplied⟩
  · rintro ⟨restored, reapplied⟩
    have back := restores restored reapplied
    exact ⟨inverse, restored, inverted, reapplied, back.facts, back.managedSchemaState_eq context⟩

/-- The inverse of the mixed delta restores its source. -/
theorem mixedDelta_restores_source :
    ∃ reached inverse restored,
      applyDelta formerSchema mixedDelta redefiningContext = .ok reached ∧
        inverseDelta mixedDelta = .ok inverse ∧
        applyDelta reached inverse redefiningContext = .ok restored ∧
        restored.facts = formerSchema.facts ∧
        managedSchemaState restored redefiningContext =
          managedSchemaState formerSchema redefiningContext := by
  have applied :=
    eq_ok_get (applyDelta formerSchema mixedDelta redefiningContext) (by decide +kernel)
  obtain ⟨inverse, restored, restores⟩ :=
    (inverseDelta_restores_source_iff diffManaged_mixedDelta applied).mpr samePaths_formerSchema
  exact ⟨_, inverse, restored, applied, restores⟩

/--
Back from `r sub p` to `r sub q` and `q sub p`, the removal of `r sub p` is
rejected: `r:y` still selects it, the direct edge being first among both.
-/
theorem stacked_inverse_rejected :
    ∃ delta reached inverse, diffManaged stackedRelations directRelations (plainContext ∅) =
          .ok delta ∧ applyDelta stackedRelations delta (plainContext ∅) = .ok reached ∧
        inverseDelta delta = .ok inverse ∧ applyDelta reached inverse (plainContext ∅) =
          .error (.contract ⟨"schema_delta_survivor_dependency"⟩) := by
  refine ⟨_, _, _, eq_ok_get _ (by decide +kernel), eq_ok_get _ (by decide +kernel),
    eq_ok_get _ (by decide +kernel), ?_⟩
  apply Checked.failure?_eq_some.mp
  decide +kernel

end RoundTrip

end TypeBridge.Schema
