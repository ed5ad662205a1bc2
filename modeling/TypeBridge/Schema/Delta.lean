import TypeBridge.Schema.Dependency
import TypeBridge.Schema.Operation

namespace TypeBridge.Schema

open Library Library.Components Library.ReadyOrder

/-!
# Managed schema deltas

`diffManaged` plans the operations between two declared schemas from their
dependency graphs, `applyDelta` replays a delta in memory and checks the
managed state it reaches, and `inverseDelta` reverses one mechanically.

Replay does not trust the plan: it rebuilds the dependency graph of every
intermediate inventory, requires it to be complete after each definition and
replacement, and refuses to undefine a fact with a surviving dependent.
-/

def SchemaFact.isFunction : SchemaFact → Bool
  | .function _ => true
  | _ => false

/-! ## Planning -/

/-- Identities of the target only, in identity order. -/
def addedIds (source target : Inventory) : List SchemaFactId := target.keys.filter (· ∉ source)

/-- Identities of the source only, in identity order. -/
def removedIds (source target : Inventory) : List SchemaFactId := source.keys.filter (· ∉ target)

/-- Identities of both with different facts, in identity order. -/
def redefinedIds (source target : Inventory) : List SchemaFactId :=
  source.keys.filter fun id => id ∈ target ∧ source[id]? ≠ target[id]?

/-- Some added, removed or redefined fact is a function. -/
def changesFunction (source target : Inventory) : Bool :=
  (addedIds source target ++ removedIds source target ++ redefinedIds source target).any fun id =>
      ((source[id]?).or target[id]?).any SchemaFact.isFunction

/-- Define components of added facts, prerequisites first. -/
def planDefinitions (targetGraph : FactDependencyGraph) (source target : Inventory) :
    Except Diagnostic (List SchemaOperation) :=
  (orderedComponents targetGraph.prerequisites (addedIds source target)).mapM fun component =>
      SchemaOperation.newDefine (component.filterMap (target[·]?))

/-- Replace the facts that changed, prerequisites first. -/
def planReplacements (targetGraph : FactDependencyGraph) (source target : Inventory) :
    Except Diagnostic (List SchemaOperation) :=
  ((orderedComponents targetGraph.prerequisites
    (redefinedIds source target)).flatten.filterMap fun id =>
      (source[id]?).bind fun expected =>
        (target[id]?).map fun replacement => (expected, replacement)).mapM
    fun pair => SchemaOperation.newRedefine pair.1 pair.2

def planRemovals (sourceGraph : FactDependencyGraph) (source target : Inventory) :
    List SchemaOperation :=
  ((orderedComponents sourceGraph.prerequisites
    (removedIds source target)).reverse.flatMap List.reverse).filterMap
      fun id => (source[id]?).map .undefine

/-- The operations from one inventory to another. -/
def planSchemaOperations (source target : Inventory) :
    Except Diagnostic (List SchemaOperation) := do
  let sourceGraph ← FactDependencyGraph.fromFacts source.values
  let targetGraph ← FactDependencyGraph.fromFacts target.values
  sourceGraph.validateComplete
  targetGraph.validateComplete
  if changesFunction source target then throw ⟨"unsupported_function_migration"⟩
  let definitions ← planDefinitions targetGraph source target
  let replacements ← planReplacements targetGraph source target
  return definitions ++ replacements ++ planRemovals sourceGraph source target

/-! ## Replay -/

structure ReplayedFacts where
  facts : Inventory
  spans : Provenance

def syntheticSpan (operationIndex factIndex : Nat) : Except Diagnostic SourceSpan :=
  let ordinal := operationIndex * 1000 + factIndex
  if ordinal + 1 < 2 ^ 32 then
    .ok {
      document := "typebridge.schema-delta.synthetic"
      byteStart := ordinal
      byteEnd := ordinal + 1
      line := ordinal + 1
      column := 1
      endLine := ordinal + 1
      endColumn := 2
    }
  else .error ⟨"schema_delta_span_overflow"⟩

def rejectOpaqueFunction (operation : SchemaOperation) : Except Diagnostic Unit :=
  if operation.facts.any SchemaFact.isFunction then .error ⟨"unsupported_function_migration"⟩
  else .ok ()

/-- The dependency graph exists and is complete. -/
def validateInventory (facts : Inventory) : Except Diagnostic Unit := do
  let graph ← FactDependencyGraph.fromFacts facts.values
  graph.validateComplete

namespace ReplayedFacts

def store (operationIndex : Nat) (state : ReplayedFacts) (entry : SchemaFact × Nat) :
    Except Diagnostic ReplayedFacts := do
  let span ← syntheticSpan operationIndex entry.2
  return {
    facts := state.facts.insert entry.1.id entry.1
    spans := state.spans.insert entry.1.id span
  }

def define (operationIndex : Nat) (state : ReplayedFacts) (group : DefinedFacts) :
    Except Diagnostic ReplayedFacts := do
  if group.facts.any (·.id ∈ state.facts) then throw ⟨"schema_delta_define_collision"⟩
  let defined ← group.facts.zipIdx.foldlM (store operationIndex) state
  validateInventory defined.facts
  return defined

def redefine (operationIndex : Nat) (state : ReplayedFacts) (replacement : Replacement) :
    Except Diagnostic ReplayedFacts := do
  if state.facts[replacement.expected.id]? ≠ some replacement.expected then
    throw ⟨"schema_delta_expected_fact_mismatch"⟩
  let span ← syntheticSpan operationIndex 0
  let redefined : ReplayedFacts := {
    facts := state.facts.insert replacement.expected.id replacement.replacement
    spans := state.spans.insert replacement.expected.id span
  }
  validateInventory redefined.facts
  return redefined

/-- Remove the expected fact unless a dependent survives. -/
def undefine (state : ReplayedFacts) (fact : SchemaFact) :
    Except Diagnostic ReplayedFacts := do
  if state.facts[fact.id]? ≠ some fact then throw ⟨"schema_delta_expected_fact_mismatch"⟩
  let graph ← FactDependencyGraph.fromFacts state.facts.values
  if (graph.dependents fact.id).any (· ∈ state.facts) then
    throw ⟨"schema_delta_survivor_dependency"⟩
  return {
    facts := state.facts.erase fact.id
    spans := state.spans.erase fact.id
  }

def step (state : ReplayedFacts) (entry : SchemaOperation × Nat) :
    Except Diagnostic ReplayedFacts := do
  rejectOpaqueFunction entry.1
  match entry.1 with
  | .define group => state.define entry.2 group
  | .redefine replacement => state.redefine entry.2 replacement
  | .undefine fact => state.undefine fact

end ReplayedFacts

/-- Replay operations and check the final inventory. -/
def replay (start : ReplayedFacts) (operations : List SchemaOperation) :
    Except Diagnostic ReplayedFacts := do
  let replayed ← operations.zipIdx.foldlM ReplayedFacts.step start
  validateInventory replayed.facts
  return replayed

/-! ## Managed states and deltas -/

/-- The inputs that determine a managed state. -/
structure ManagedDeltaContext where
  scopeId : ManagedScopeId
  semanticProfile : SemanticProfileId
  availableCapabilities : CapabilitySet

/-- A failed contract check, or a failed declaration or resolution. -/
inductive DeltaError where
  | contract (diagnostic : Diagnostic)
  | schema (diagnostics : List Diagnostic)
  deriving DecidableEq

variable {Bytes Digest : Type} {codec : Codec Bytes Digest}

def managedDeclaredIdentityFingerprint (declared : DeclaredSchema codec) (scope : ManagedScopeId) :
    Except Diagnostic Digest := do
  let bytes ←
    codec.managedIdentityBytes scope declared.format
      declared.requiredCapabilities declared.facts
  return codec.digest bytes

def managedSemanticSchemaFingerprint (declared : DeclaredSchema codec)
    (profileId : SemanticProfileId) (scope : ManagedScopeId) :
    Except Diagnostic (SemanticFingerprint Digest) := do
  let _ ← SemanticProfile.resolve profileId
  validateCollectionProfile declared.facts profileId
  let bytes ←
    codec.managedSemanticBytes scope profileId declared.format
      declared.requiredCapabilities declared.facts
  return ⟨profileId, codec.digest bytes⟩

def managedFactSelection (facts : Inventory) : Except Diagnostic (Finset SchemaFactId) :=
  if facts.size > maxCanonicalCollectionLen then .error ⟨"too_many_managed_fact_ids"⟩
  else .ok facts.keys.toFinset

/-- The managed state of a declared schema in a context. -/
def managedSchemaState (declared : DeclaredSchema codec) (context : ManagedDeltaContext) :
    Except DeltaError (ManagedSchemaState Digest) := do
  (ensureSupportedBy declared.requiredCapabilities context.availableCapabilities).mapError .contract
  let _ ← (resolveSchemaWithCapabilities declared context.semanticProfile
      context.availableCapabilities).mapError fun failed => .schema [failed]
  let selection ← (managedFactSelection declared.facts).mapError .contract
  let declaredFingerprint ← (managedDeclaredIdentityFingerprint declared
      context.scopeId).mapError fun failed => .schema [failed]
  let semanticFingerprint ← (managedSemanticSchemaFingerprint declared context.semanticProfile
      context.scopeId).mapError fun failed => .schema [failed]
  if declared.format ≠ .v1 then throw (.contract ⟨"unsupported_format_version"⟩)
  return {
    declaredIdentity := declared.fingerprint
    format := declared.format
    managedDeclaredIdentity := declaredFingerprint
    managedSemanticSchema := semanticFingerprint
    requiredCapabilities := declared.requiredCapabilities
    scope := context.scopeId
    selection := selection
  }

variable [DecidableEq Digest]

/-- The delta between two declared schemas. -/
def diffManaged (source target : DeclaredSchema codec) (context : ManagedDeltaContext) :
    Except DeltaError (SchemaDelta Digest) := do
  let sourceState ← managedSchemaState source context
  let targetState ← managedSchemaState target context
  let operations ← (planSchemaOperations source.facts target.facts).mapError .contract
  (SchemaDelta.new .v1 sourceState targetState operations).mapError .contract

def sourcedFacts (replayed : ReplayedFacts) : Except Diagnostic (List SourcedSchemaFact) :=
  replayed.facts.toList.mapM fun entry =>
    match replayed.spans[entry.1]? with
    | none => .error ⟨"schema_delta_missing_source_span"⟩
    | some span => .ok ⟨entry.2, span⟩

/-- Replay a delta over a declared schema and check both states. -/
def applyDelta (source : DeclaredSchema codec) (delta : SchemaDelta Digest)
    (context : ManagedDeltaContext) :
    Except DeltaError (DeclaredSchema codec) := do
  (ensureSupportedBy delta.requiredCapabilities context.availableCapabilities).mapError .contract
  let actualSource ← managedSchemaState source context
  if actualSource ≠ delta.source then throw (.contract ⟨"schema_delta_source_state_mismatch"⟩)
  let replayed ← (replay ⟨source.facts, source.provenance⟩ delta.operations).mapError .contract
  let sourced ← (sourcedFacts replayed).mapError .contract
  let target ← (DeclaredSchema.fromFacts codec delta.target.format
      delta.target.requiredCapabilities sourced).mapError .schema
  let actualTarget ← managedSchemaState target context
  if actualTarget ≠ delta.target then throw (.contract ⟨"schema_delta_target_state_mismatch"⟩)
  return target

/-- Reverse the operations, invert each and swap the states. -/
def inverseDelta (delta : SchemaDelta Digest) : Except DeltaError (SchemaDelta Digest) :=
  (SchemaDelta.new delta.format delta.target delta.source
    (delta.operations.reverse.flatMap SchemaOperation.inverse)).mapError
      .contract

end TypeBridge.Schema
