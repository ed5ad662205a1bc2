import TypeBridge.Schema.RoundTrip

namespace TypeBridge.Schema

open Library
open Library.Checked hiding get

/-!
# Source spans do not matter

Replaying a delta over two schemas that differ in source spans only succeeds
for both or for neither, and reaches schemas that differ in source spans only.
-/

variable {Bytes Digest : Type} {codec : Codec Bytes Digest}

/-- The same facts, from possibly different spans. -/
structure SameFacts (left right : ReplayedFacts) : Prop where
  facts : left.facts = right.facts
  keyed : Inventory.Keyed left.facts
  leftSourced : left.Sourced
  rightSourced : right.Sourced

namespace SameFacts

variable {left right next : ReplayedFacts} {operationIndex : Nat} (same : SameFacts left right)
include same

theorem store {entry : SchemaFact × Nat} (stored : left.store operationIndex entry = .ok next) :
    ∃ mirrored, right.store operationIndex entry = .ok mirrored ∧ SameFacts next mirrored := by
  obtain ⟨span, spanned, stored⟩ := bind_eq_ok.mp stored
  rw [pure_eq_ok] at stored
  subst stored
  refine ⟨_, bind_eq_ok.mpr ⟨span, spanned, rfl⟩,
    ⟨congrArg (·.insert entry.1.id entry.1) same.facts, same.keyed.insert entry.1, ?_, ?_⟩⟩
  · intro id
    simp [Std.ExtTreeMap.mem_insert, same.leftSourced id]
  · intro id
    simp [Std.ExtTreeMap.mem_insert, same.rightSourced id]

theorem define {group : DefinedFacts} (defined : left.define operationIndex group = .ok next) :
    ∃ mirrored, right.define operationIndex group = .ok mirrored ∧ SameFacts next mirrored := by
  obtain ⟨fresh, defined⟩ := unless_eq_ok.mp defined
  obtain ⟨stored, run, defined⟩ := bind_eq_ok.mp defined
  obtain ⟨_, valid, defined⟩ := bind_eq_ok.mp defined
  rw [pure_eq_ok] at defined
  subst defined
  have follows : ∀ entry ∈ group.facts.zipIdx, ∀ state mirrored next, SameFacts state mirrored →
        state.store operationIndex entry = .ok next → ∃ nextMirrored,
            mirrored.store operationIndex entry = .ok nextMirrored ∧ SameFacts next nextMirrored :=
    fun _ _ _ _ _ same stored => same.store stored
  obtain ⟨mirrored, mirroredRun, sameNext⟩ := Checked.foldlM_simulate SameFacts follows same run
  refine ⟨mirrored, ?_, sameNext⟩
  rw [same.facts] at fresh
  rw [sameNext.facts] at valid
  exact unless_eq_ok.mpr ⟨fresh, bind_eq_ok.mpr
    ⟨mirrored, mirroredRun, bind_eq_ok.mpr ⟨(), valid, rfl⟩⟩⟩

theorem redefine {replacement : Replacement}
    (redefined : left.redefine operationIndex replacement = .ok next) :
    ∃ mirrored, right.redefine operationIndex replacement = .ok mirrored ∧
      SameFacts next mirrored := by
  obtain ⟨stored, valid, span, spanned, isNext⟩ := redefine_eq_ok_iff.mp redefined
  subst isNext
  rw [same.facts] at stored valid
  refine ⟨_, redefine_eq_ok_iff.mpr ⟨stored, valid, span, spanned, rfl⟩,
    ⟨congrArg (·.insert replacement.expected.id replacement.replacement) same.facts,
      same.keyed.replace replacement, ?_, ?_⟩⟩
  · intro id
    simp [Std.ExtTreeMap.mem_insert, same.leftSourced id]
  · intro id
    simp [Std.ExtTreeMap.mem_insert, same.rightSourced id]

theorem undefine {fact : SchemaFact} (undefined : left.undefine fact = .ok next) :
    ∃ mirrored, right.undefine fact = .ok mirrored ∧ SameFacts next mirrored := by
  have rightKeyed : Inventory.Keyed right.facts := by
    rw [← same.facts]
    exact same.keyed
  obtain ⟨stored, plannable, independent, isNext⟩ := (undefine_eq_ok_iff same.keyed).mp undefined
  subst isNext
  rw [same.facts] at stored plannable independent
  refine ⟨_, (undefine_eq_ok_iff rightKeyed).mpr ⟨stored, plannable, independent, rfl⟩,
    ⟨congrArg (·.erase fact.id) same.facts, ?_, ?_, ?_⟩⟩
  · exact same.keyed.erase fact.id
  · intro id
    simp [Std.ExtTreeMap.mem_erase, same.leftSourced id]
  · intro id
    simp [Std.ExtTreeMap.mem_erase, same.rightSourced id]

theorem step {entry : SchemaOperation × Nat} (stepped : left.step entry = .ok next) :
    ∃ mirrored, right.step entry = .ok mirrored ∧ SameFacts next mirrored := by
  obtain ⟨operation, index⟩ := entry
  obtain ⟨_, plain, stepped⟩ := bind_eq_ok.mp stepped
  cases operation with
  | define group =>
    obtain ⟨mirrored, defined, sameNext⟩ := same.define stepped
    exact ⟨mirrored, bind_eq_ok.mpr ⟨(), plain, defined⟩, sameNext⟩
  | redefine replacement =>
    obtain ⟨mirrored, redefined, sameNext⟩ := same.redefine stepped
    exact ⟨mirrored, bind_eq_ok.mpr ⟨(), plain, redefined⟩, sameNext⟩
  | undefine fact =>
    obtain ⟨mirrored, undefined, sameNext⟩ := same.undefine stepped
    exact ⟨mirrored, bind_eq_ok.mpr ⟨(), plain, undefined⟩, sameNext⟩

theorem replay {operations : List SchemaOperation}
    (replayed : Schema.replay left operations = .ok next) :
    ∃ mirrored, Schema.replay right operations = .ok mirrored ∧ SameFacts next mirrored := by
  obtain ⟨final, run, replayed⟩ := bind_eq_ok.mp replayed
  obtain ⟨_, valid, replayed⟩ := bind_eq_ok.mp replayed
  rw [pure_eq_ok] at replayed
  subst replayed
  have follows : ∀ entry ∈ operations.zipIdx, ∀ state mirrored next,
        SameFacts state mirrored → state.step entry = .ok next →
          ∃ nextMirrored, mirrored.step entry = .ok nextMirrored ∧ SameFacts next nextMirrored :=
    fun _ _ _ _ _ same stepped => same.step stepped
  obtain ⟨mirrored, mirroredRun, sameNext⟩ := Checked.foldlM_simulate SameFacts follows same run
  rw [sameNext.facts] at valid
  exact ⟨mirrored, bind_eq_ok.mpr ⟨mirrored, mirroredRun,
    bind_eq_ok.mpr ⟨(), valid, rfl⟩⟩, sameNext⟩

end SameFacts

theorem Inventory.Keyed.eq_of_values_eq {left right : Inventory} (leftKeyed : Inventory.Keyed left)
    (rightKeyed : Inventory.Keyed right) (same : left.values = right.values) : left = right := by
  apply Std.ExtTreeMap.ext_getElem?
  intro id
  apply Option.ext
  intro fact
  constructor
  · intro stored
    have isKey := leftKeyed id fact stored
    subst isKey
    rw [← rightKeyed.mem_values, ← same]
    exact leftKeyed.mem_values.mpr stored
  · intro stored
    have isKey := rightKeyed id fact stored
    subst isKey
    rw [← leftKeyed.mem_values, same]
    exact rightKeyed.mem_values.mpr stored

variable {left right : DeclaredSchema codec}

theorem SameDeclaration.resolveSchemaWithCapabilities_eq (same : SameDeclaration left right)
    (profile : SemanticProfileId) (available : CapabilitySet) :
    resolveSchemaWithCapabilities left profile available =
      resolveSchemaWithCapabilities right profile available := by
  obtain ⟨format, capabilities, facts, fingerprint⟩ := same
  cases left
  cases right
  simp only at format capabilities facts fingerprint
  subst format capabilities facts fingerprint
  rfl

theorem fromFacts_eq_ok_fields {facts : Inventory} (keyed : Inventory.Keyed facts)
    {format : FormatVersion} {capabilities : CapabilitySet} {source : SchemaFactId → SourceSpan}
    {declared : DeclaredSchema codec} (built : DeclaredSchema.fromFacts codec format capabilities
        (facts.withSources source) = .ok declared) :
    declared.format = format ∧ declared.requiredCapabilities = capabilities ∧
      declared.facts = facts := by
  obtain ⟨-, sameFacts⟩ := CollectedFacts.addAll_withSources keyed source
  unfold DeclaredSchema.fromFacts at built
  split at built
  · dsimp only at built
    split at built
    · cases built
    · split at built
      · split at built
        · cases built
        · cases built
          exact ⟨rfl, rfl, sameFacts⟩
      · cases built
  · cases built

variable [DecidableEq Digest]

/-- A delta applies whatever the spans are. -/
theorem SameDeclaration.applyDelta (same : SameDeclaration left right) {delta : SchemaDelta Digest}
    {context : ManagedDeltaContext} {reached : DeclaredSchema codec}
    (applied : Schema.applyDelta left delta context = .ok reached) :
    ∃ mirrored, Schema.applyDelta right delta context = .ok mirrored ∧
      SameDeclaration reached mirrored := by
  obtain ⟨supported, sourceManaged, ⟨replayed, run, sources, listed, built⟩,
    targetManaged⟩ := applyDelta_eq_ok_iff.mp applied
  have start : SameFacts ⟨left.facts, left.provenance⟩ ⟨right.facts, right.provenance⟩ :=
    ⟨same.facts, left.keyed, left.sourced, right.sourced⟩
  obtain ⟨mirrored, mirroredRun, sameReplayed⟩ := start.replay run
  rw [sourcedFacts_eq_ok sameReplayed.leftSourced] at listed
  cases listed
  obtain ⟨sameFormat, sameCapabilities, sameFacts⟩ :=
    fromFacts_eq_ok_fields sameReplayed.keyed built
  obtain ⟨restored, rebuilt, format, capabilities, facts, fingerprint⟩ :=
    reached.fromFacts_withSources fun id => (mirrored.spans[id]?).getD default
  have sameReached : SameDeclaration reached restored :=
    ⟨format.symm, capabilities.symm, facts.symm, fingerprint.symm⟩
  refine ⟨restored, applyDelta_eq_ok_iff.mpr ⟨supported, ?_,
    ⟨mirrored, mirroredRun, _, sourcedFacts_eq_ok sameReplayed.rightSourced, ?_⟩, ?_⟩, sameReached⟩
  · rw [← same.managedSchemaState_eq]
    exact sourceManaged
  · rw [← sameReplayed.facts, ← sameFacts, ← sameFormat, ← sameCapabilities]
    exact rebuilt
  · rw [← sameReached.managedSchemaState_eq]
    exact targetManaged

end TypeBridge.Schema
