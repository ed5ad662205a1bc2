import TypeBridge.Schema.Resolve

namespace TypeBridge.Schema

open Library

/-!
# Schema operations and deltas

A schema delta is an ordered list of define, redefine and undefine operations
between two managed states. The constructors of the source canonicalize and
check their arguments; here an operation carries those checks as fields, and
`SchemaDelta.new` checks a whole transition against the selections of the two
states.
-/

def maxCanonicalCollectionLen : Nat := 65536

/-- Facts defined together: at least one, in strict identity order. -/
structure DefinedFacts where
  facts : List SchemaFact
  nonempty : facts ≠ []
  bounded : facts.length ≤ maxCanonicalCollectionLen
  sorted : facts.Pairwise fun left right => left.id < right.id
  deriving DecidableEq

structure Replacement where
  expected : SchemaFact
  replacement : SchemaFact
  sameIdentity : expected.id = replacement.id
  changed : expected ≠ replacement
  deriving DecidableEq

inductive SchemaOperation where
  | define (group : DefinedFacts)
  | redefine (replacement : Replacement)
  | undefine (fact : SchemaFact)
  deriving DecidableEq

def DefinedFacts.single (fact : SchemaFact) : DefinedFacts where
  facts := [fact]
  nonempty := by simp
  bounded := by simp [maxCanonicalCollectionLen]
  sorted := List.pairwise_singleton _ fact

/-- The replacement read backwards. -/
def Replacement.swap (replacement : Replacement) : Replacement where
  expected := replacement.replacement
  replacement := replacement.expected
  sameIdentity := replacement.sameIdentity.symm
  changed := replacement.changed.symm

namespace SchemaOperation

/-- Check and sort a group of facts to define. -/
def newDefine (facts : List SchemaFact) : Except Diagnostic SchemaOperation :=
  if nonempty : facts = [] then .error ⟨"empty_schema_define"⟩
  else if bounded : facts.length > maxCanonicalCollectionLen then
    .error ⟨"too_many_schema_define_facts"⟩
  else
    let ordered := facts.insertionSort fun left right => left.id ≤ right.id
    if sorted : ordered.Pairwise fun left right => left.id < right.id then
      .ok (.define {
        facts := ordered
        nonempty := by
          intro empty
          have same := List.perm_insertionSort
            (fun left right : SchemaFact => left.id ≤ right.id) facts
          exact nonempty (List.Perm.eq_nil (empty ▸ same.symm))
        bounded := by
          rw [List.length_insertionSort]
          exact Nat.le_of_not_gt bounded
        sorted := sorted
      })
    else .error ⟨"duplicate_schema_operation_fact_id"⟩

def newRedefine (expected replacement : SchemaFact) : Except Diagnostic SchemaOperation :=
  if sameIdentity : expected.id = replacement.id then
    if changed : expected = replacement then .error ⟨"schema_redefine_noop"⟩
    else .ok (.redefine ⟨expected, replacement, sameIdentity, changed⟩)
  else .error ⟨"schema_redefine_identity_mismatch"⟩

def affectedIds : SchemaOperation → List SchemaFactId
  | .define group => group.facts.map SchemaFact.id
  | .redefine replacement => [replacement.expected.id]
  | .undefine fact => [fact.id]

def inverse : SchemaOperation → List SchemaOperation
  | .define group => group.facts.reverse.map .undefine
  | .redefine replacement => [.redefine replacement.swap]
  | .undefine fact => [.define (.single fact)]

/-- The operation replaces a fact. -/
def isRedefine : SchemaOperation → Bool
  | .redefine _ => true
  | _ => false

def facts : SchemaOperation → List SchemaFact
  | .define group => group.facts
  | .redefine replacement => [replacement.expected, replacement.replacement]
  | .undefine fact => [fact]

end SchemaOperation

inductive PatchFormatVersion where
  | v1
  deriving DecidableEq, Repr

structure SemanticFingerprint (Digest : Type) where
  semanticProfile : SemanticProfileId
  digest : Digest
  deriving DecidableEq

structure ManagedSchemaState (Digest : Type) where
  declaredIdentity : Digest
  format : FormatVersion
  managedDeclaredIdentity : Digest
  managedSemanticSchema : SemanticFingerprint Digest
  requiredCapabilities : CapabilitySet
  scope : ManagedScopeId
  selection : Finset SchemaFactId
  deriving DecidableEq

def schemaRedefineCapability : CapabilityId := ⟨"schema.redefine"⟩

/-- Record affected identities, each at most once. -/
def recordAffected (affected : Finset SchemaFactId) (ids : List SchemaFactId) :
    Except Diagnostic (Finset SchemaFactId) :=
  ids.foldlM (fun affected id =>
      if id ∈ affected then .error ⟨"duplicate_schema_delta_fact_id"⟩
      else .ok (insert id affected))
    affected

def transitionSelection (selection : Finset SchemaFactId) :
    SchemaOperation → Except Diagnostic (Finset SchemaFactId)
  | .define group =>
      (group.facts.map SchemaFact.id).foldlM (fun selection id =>
          if id ∈ selection then .error ⟨"schema_delta_define_existing_fact"⟩
          else .ok (insert id selection))
        selection
  | .redefine replacement =>
      if replacement.expected.id ∈ selection then .ok selection
      else .error ⟨"schema_delta_redefine_missing_fact"⟩
  | .undefine fact =>
      if fact.id ∈ selection then .ok (selection.erase fact.id)
      else .error ⟨"schema_delta_undefine_missing_fact"⟩

/-- The affected identities and the selection after one operation. -/
def transitionStep (state : Finset SchemaFactId × Finset SchemaFactId)
    (operation : SchemaOperation) :
    Except Diagnostic (Finset SchemaFactId × Finset SchemaFactId) := do
  let affected ← recordAffected state.1 operation.affectedIds
  let selection ← transitionSelection state.2 operation
  return (affected, selection)

variable {Digest : Type} [DecidableEq Digest]

def validateTransition (source target : ManagedSchemaState Digest)
    (operations : List SchemaOperation) :
    Except Diagnostic Unit := do
  if source.format ≠ target.format then throw ⟨"schema_delta_format_transition"⟩
  if source.scope ≠ target.scope then throw ⟨"schema_delta_scope_transition"⟩
  if source.managedSemanticSchema.semanticProfile ≠
      target.managedSemanticSchema.semanticProfile then
    throw ⟨"schema_delta_semantic_profile_transition"⟩
  if source = target then throw ⟨"schema_delta_noop"⟩
  if operations = [] ∧ (source.selection ≠ target.selection ∨
        source.requiredCapabilities = target.requiredCapabilities ∨
        source.managedDeclaredIdentity = target.managedDeclaredIdentity ∨
        source.managedSemanticSchema = target.managedSemanticSchema) then
    throw ⟨"invalid_schema_delta_capability_transition"⟩
  if operations.length > maxCanonicalCollectionLen then throw ⟨"too_many_schema_operations"⟩
  let (_, transitioned) ← operations.foldlM transitionStep (∅, source.selection)
  if transitioned ≠ target.selection then throw ⟨"schema_delta_selection_mismatch"⟩

/-- The capabilities of both states, and redefinition if it is used. -/
def transitionCapabilities (source target : ManagedSchemaState Digest)
    (operations : List SchemaOperation) : CapabilitySet :=
  source.requiredCapabilities ∪ target.requiredCapabilities ∪
    if operations.any SchemaOperation.isRedefine then {schemaRedefineCapability}
    else ∅

structure SchemaDelta (Digest : Type) [DecidableEq Digest] where
  format : PatchFormatVersion
  operations : List SchemaOperation
  requiredCapabilities : CapabilitySet
  source : ManagedSchemaState Digest
  target : ManagedSchemaState Digest
  validated : validateTransition source target operations = .ok ()
  derived : requiredCapabilities = transitionCapabilities source target operations

/-- Check a transition and derive its capabilities. -/
def SchemaDelta.new (format : PatchFormatVersion) (source target : ManagedSchemaState Digest)
    (operations : List SchemaOperation) : Except Diagnostic (SchemaDelta Digest) :=
  match validated : validateTransition source target operations with
  | .error diagnostic => .error diagnostic
  | .ok () =>
      .ok {
        format := format
        operations := operations
        requiredCapabilities := transitionCapabilities source target operations
        source := source
        target := target
        validated := validated
        derived := rfl
      }

end TypeBridge.Schema
