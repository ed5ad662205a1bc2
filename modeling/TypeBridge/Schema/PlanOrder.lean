import TypeBridge.Schema.RoundTrip

namespace TypeBridge.Schema

open Library Library.Checked Library.ReadyOrder

/-!
# The order of a computed delta

A fact can be defined once its dependencies are there and undefined once no
other fact depends on it. The operations between two managed schemas respect
both, and touch every fact that differs exactly once.
-/

/-- The first operation has to wait for the second. -/
def WaitsFor (source target : Inventory) : SchemaOperation → SchemaOperation → Prop
  | .define group, .define needed =>
      ∃ fact ∈ group.facts, ∃ other ∈ needed.facts, DependsOn target fact.id other.id
  | .redefine change, .redefine needed => DependsOn target change.expected.id needed.expected.id
  | .undefine fact, .undefine dependent => DependsOn source dependent.id fact.id
  -- Definitions come first and removals last.
  | .redefine _, .define _ | .undefine _, .define _ | .undefine _, .redefine _ => True
  | _, _ => False

namespace Transition

variable {source target : Inventory} (transition : Transition source target)

theorem affectedIds_operations : transition.operations.flatMap SchemaOperation.affectedIds =
    transition.definedIds ++ transition.replacedIds ++ transition.undefinedIds := by
  simp only [operations, List.flatMap_append, List.flatMap_map]
  simp only [definedIds, replacedIds, undefinedIds, List.map_eq_flatMap]
  rfl

theorem nodup_affectedIds : (transition.operations.flatMap SchemaOperation.affectedIds).Nodup := by
  rw [affectedIds_operations, List.nodup_append', List.nodup_append']
  refine ⟨⟨transition.nodup_definedIds, transition.replacedDistinct, ?_⟩,
    transition.nodup_undefinedIds, ?_⟩
  · intro id defined replaced
    exact (transition.mem_definedIds.mp defined).2 (transition.mem_replacedIds.mp replaced).1
  · intro id earlier removed
    have gone := (transition.mem_undefinedIds.mp removed).2
    rcases List.mem_append.mp earlier with defined | replaced
    · exact gone (transition.mem_definedIds.mp defined).1
    · exact gone (transition.mem_replacedIds.mp replaced).2.1

theorem mem_affectedIds_iff {id : SchemaFactId} :
    id ∈ transition.operations.flatMap SchemaOperation.affectedIds ↔ source[id]? ≠ target[id]? := by
  rw [affectedIds_operations, List.mem_append, List.mem_append, mem_definedIds, mem_replacedIds,
    mem_undefinedIds, Inventory.mem_iff_exists, Inventory.mem_iff_exists]
  cases source[id]? <;> cases target[id]? <;> simp

theorem pairwise_operations (replacedOrder : LeastReady id (DependsOn target)
      (redefinedIds source target).toFinset transition.replacedIds) :
    transition.operations.Pairwise fun earlier later => ¬ WaitsFor source target earlier later := by
  have defined := List.pairwise_map.mp transition.definedOrder.pairwise
  have replaced := List.pairwise_map.mp replacedOrder.pairwise
  have removed := List.pairwise_map.mp (List.pairwise_reverse.mp transition.removedOrder.pairwise)
  rw [operations, List.pairwise_append, List.pairwise_append]
  simp only [List.pairwise_map, List.mem_append, List.mem_map]
  refine ⟨⟨?_, replaced, ?_⟩, removed, ?_⟩
  · exact defined.imp fun ready => by simpa [WaitsFor, DefinedFacts.single] using ready
  · rintro _ ⟨fact, -, rfl⟩ _ ⟨change, -, rfl⟩
    exact id
  · rintro _ (⟨fact, -, rfl⟩ | ⟨change, -, rfl⟩) _ ⟨fact, -, rfl⟩ <;> exact id

end Transition

variable {Bytes Digest : Type} {codec : Codec Bytes Digest} [DecidableEq Digest]
  {source target : DeclaredSchema codec} {context : ManagedDeltaContext}
  {delta : SchemaDelta Digest}

/--
A computed delta touches exactly the facts that differ, each in one operation,
and no operation waits for a later one.
-/
theorem delta_ordered_by_dependency (diffed : diffManaged source target context = .ok delta) :
    (delta.operations.flatMap SchemaOperation.affectedIds).Nodup ∧
      (∀ id, id ∈ delta.operations.flatMap SchemaOperation.affectedIds ↔
        source.facts[id]? ≠ target.facts[id]?) ∧
      (delta.operations.Pairwise fun earlier later =>
        ¬ WaitsFor source.facts target.facts earlier later) ∧
      ∀ id needed, DependsOn target.facts id needed → needed ∈ target.facts := by
  obtain ⟨transition, known⟩ := exists_diffed diffed
  rw [← known.planned]
  exact ⟨transition.nodup_affectedIds, fun _ => transition.mem_affectedIds_iff,
    transition.pairwise_operations known.replacedOrder, known.comparable.targetComplete⟩

/-- The mixed delta defines `b` before its documentation and removes last. -/
theorem mixedDelta_ordered :
    mixedDelta.operations.map (·.affectedIds) =
        [[attributeB.id], [(documentation "b" "note").id],
          [.value ⟨⟨⟨"a"⟩⟩⟩], [(documentation "a" "note").id]] ∧
      (mixedDelta.operations.flatMap SchemaOperation.affectedIds).Nodup ∧
      (∀ id, id ∈ mixedDelta.operations.flatMap SchemaOperation.affectedIds ↔
        formerSchema.facts[id]? ≠ latterSchema.facts[id]?) ∧
      (mixedDelta.operations.Pairwise fun earlier later =>
        ¬ WaitsFor formerSchema.facts latterSchema.facts earlier later) ∧
      ∀ id needed, DependsOn latterSchema.facts id needed → needed ∈ latterSchema.facts :=
  ⟨by decide +kernel, delta_ordered_by_dependency diffManaged_mixedDelta⟩

/-! ## Chains of deltas -/

/-- Each delta is computed from one schema of a series to the next. -/
def DeltaChain (context : ManagedDeltaContext) :
    DeclaredSchema codec → List (SchemaDelta Digest) → DeclaredSchema codec → Prop
  | source, [], target => source = target
  | source, delta :: later, target => ∃ next,
      diffManaged source next context = .ok delta ∧ DeltaChain context next later target

variable {deltas : List (SchemaDelta Digest)} {start reached : DeclaredSchema codec}

theorem SameDeclaration.diffManaged_eq (same : SameDeclaration start source) :
    diffManaged start target context = diffManaged source target context := by
  rw [diffManaged, same.managedSchemaState_eq, same.facts, diffManaged]

theorem DeltaChain.reaches (chain : DeltaChain context source deltas target)
    (same : SameDeclaration start source)
    (applied : deltas.foldlM (applyDelta · · context) start = .ok reached) :
    SameDeclaration reached target := by
  -- A schema reached on the way has other spans than the one it was planned from.
  induction deltas generalizing source start with
  | nil =>
    cases chain
    cases applied
    exact same
  | cons delta later ih =>
    obtain ⟨next, diffed, chain⟩ := chain
    obtain ⟨middle, first, rest⟩ := bind_eq_ok.mp applied
    rw [← same.diffManaged_eq] at diffed
    obtain ⟨transition, known⟩ := exists_diffed diffed
    exact ih chain (transition.of_applyDelta known.comparable known.valid.bounded known.planned
      known.targetManaged first).1 rest

/-- A chain that applies ends at its last schema, and nothing is left to plan. -/
theorem chain_converges (chain : DeltaChain context source deltas target)
    (applied : deltas.foldlM (applyDelta · · context) source = .ok reached) :
    SameDeclaration reached target ∧ ∀ delta, diffManaged reached target context ≠ .ok delta := by
  have same := chain.reaches ⟨rfl, rfl, rfl, rfl⟩ applied
  refine ⟨same, fun delta diffed => ?_⟩
  rw [same.diffManaged_eq] at diffed
  obtain ⟨_, known⟩ := exists_diffed diffed
  exact known.valid.changed (Except.ok.inj (known.sourceManaged.symm.trans known.targetManaged))

/-- The removal of both attributes. -/
def removalDelta : SchemaDelta PlainBytes :=
  Checked.get (diffManaged latterSchema directRelations redefiningContext) (by decide +kernel)

/-- The mixed delta and the removal of the attributes lead to the relations alone. -/
theorem mixed_chain_converges :
    ∃ reached,
      DeltaChain redefiningContext formerSchema [mixedDelta, removalDelta] directRelations ∧
        [mixedDelta, removalDelta].foldlM (applyDelta · · redefiningContext) formerSchema =
          .ok reached ∧
        SameDeclaration reached directRelations ∧
        ∀ delta, diffManaged reached directRelations redefiningContext ≠ .ok delta := by
  have chain :
      DeltaChain redefiningContext formerSchema [mixedDelta, removalDelta] directRelations :=
    ⟨latterSchema, diffManaged_mixedDelta, directRelations, eq_ok_get _ _, rfl⟩
  have applied := eq_ok_get
    ([mixedDelta, removalDelta].foldlM (applyDelta · · redefiningContext) formerSchema)
    (by decide +kernel)
  exact ⟨_, chain, applied, chain_converges chain applied⟩

end TypeBridge.Schema
