import TypeBridge.Migration.History
import TypeBridge.Schema.Reverse

namespace TypeBridge.Migration

open Library Library.ReadyOrder Schema
open Library.Checked hiding get

/-!
# Generating the next migration

`generateNextMigration` computes the delta from the history's head to the
desired schema and authors one manifest for it: the verifier's assertions and
the delta with its mechanical inverse as reverse. If the verifier rejects
only that reverse, the migration is authored again without one and becomes
irreversible.

The verifier wants the reverse in the order the planner gives. The inverse
lists redefinitions in reversed order, so the two agree exactly when the
planner's order of the redefined facts is reversed too.
-/

variable {Bytes Digest Condition Body : Type} {codec : Codec Bytes Digest} [DecidableEq Digest]

structure MigrationGenerationRequest (codec : Codec Bytes Digest) where
  appLabel : String
  baseName : String
  genesisSource : DeclaredSchema codec
  desired : DeclaredSchema codec
  context : ManagedDeltaContext

inductive MigrationGenerationOutcome {Bytes Digest : Type} (codec : Codec Bytes Digest)
    (Body : Type) [DecidableEq Digest] where
  | upToDate
  | generated (manifest : VerifiedSchemaMigrationManifest codec Body)

def reverseRejectionCodes : List String :=
  ["migration_manifest_reverse_unresolved_safety", "migration_manifest_reverse_requires_assertions",
    "migration_manifest_inverse_replay_mismatch", "migration_manifest_inverse_plan_invalid"]

/-- One more than the largest 64-bit word. -/
def wordBound : Nat := 2 ^ 64

/-- The number before the first underscore of a name, if it fits a word. -/
def leadingOrdinal (name : String) : Option Nat :=
  let digits := name.toList.takeWhile (· ≠ '_')
  if digits.length = name.toList.length ∨ digits = [] ∨ ¬ digits.all isDigit then none
  else
    let value : Nat :=
      digits.foldl (fun value digit => value * 10 + (digit.toNat - '0'.toNat)) 0
    if value < wordBound then some value
    else none

/-- The next ordinal, with four digits at least, and the given name. -/
def allocateMigrationName (ids : List MigrationId) (baseName : String) : String :=
  let last := (ids.filterMap fun id => leadingOrdinal id.name).foldl max 0
  let digits := toString (min (last + 1) (wordBound - 1))
  String.ofList (List.replicate (4 - digits.length) '0') ++ digits ++ "_" ++ baseName

variable [DecidableEq Bytes] [DecidableEq Body]

/-- The assertions one operation needs, named by their positions. -/
def authorAssertions (rules : SafetyRules codec Condition Body)
    (source target : DeclaredSchema codec) (sourceState : ManagedSchemaState Digest)
    (profile : SemanticProfileId) (entry : SchemaOperation × Nat) :
    Except Diagnostic (List (MigrationStep Digest Body)) := do
  let derived ← rules.derive entry.2 entry.1 source target profile
  let required := derived.conditions.filter fun condition => condition.policy = .conditional
  required.zipIdx.mapM fun condition => do
    let plan ← rules.lower condition.1 source sourceState
    let id ←
      MigrationStepId.new ("assert-" ++ toString entry.2 ++ "-" ++ toString condition.2)
    return .assertion id plan

def authorAllAssertions (rules : SafetyRules codec Condition Body) (delta : SchemaDelta Digest)
    (source target : DeclaredSchema codec) (context : ManagedDeltaContext) :
    Except Diagnostic (List (MigrationStep Digest Body)) := do
  let _ ← SemanticProfile.resolve context.semanticProfile
  let _ ← loweringProfileBinding context.semanticProfile
  let _ ←
    resolveSchemaWithCapabilities source context.semanticProfile
      builtinSchemaCapabilities
  let sourceState ← (managedSchemaState source context).mapError deltaDiagnostic
  let assertions ←
    delta.operations.zipIdx.mapM
      (authorAssertions rules source target sourceState context.semanticProfile)
  return assertions.flatten

/-- The delta as the last step, with its inverse on request. -/
def authorDeltaStep (delta : SchemaDelta Digest) (withReverse : Bool) :
    Except Diagnostic (SchemaDeltaStep Digest) := do
  let reverse ←
    if withReverse then some <$> (inverseDelta delta).mapError deltaDiagnostic
    else pure none
  let id ← MigrationStepId.new "schema-delta"
  SchemaDeltaStep.new id delta reverse

def authorSteps (rules : SafetyRules codec Condition Body) (delta : SchemaDelta Digest)
    (source target : DeclaredSchema codec) (context : ManagedDeltaContext) (withReverse : Bool) :
    Except Diagnostic (List (MigrationStep Digest Body)) := do
  let assertions ← authorAllAssertions rules delta source target context
  let step ← authorDeltaStep delta withReverse
  return assertions ++ [.schemaDelta step]

def generationSource (graph : MigrationHistoryGraph codec Body)
    (request : MigrationGenerationRequest codec) :
    Except Diagnostic (DeclaredSchema codec × List MigrationId) := do
  match ← graph.defaultHead with
  | none => return (request.genesisSource, [])
  | some head =>
      match graph.manifests[head]? with
      | some manifest => return (manifest.targetSchema, [head])
      -- A graph head is always a graph member.
      | none => throw ⟨"migration_history_missing_head"⟩

def authorManifest (rules : SafetyRules codec Condition Body) (id : MigrationId)
    (parents : List MigrationId) (delta : SchemaDelta Digest) (source target : DeclaredSchema codec)
    (context : ManagedDeltaContext) (withReverse : Bool) : Except Diagnostic
      (Except Diagnostic (VerifiedSchemaMigrationManifest codec Body)) := do
  let steps ← authorSteps rules delta source target context withReverse
  let draft ← SchemaMigrationDraft.new id parents steps
  return buildVerifiedManifest rules draft source context

/-- Generate the next migration of a history. -/
def generateNextMigration (rules : SafetyRules codec Condition Body)
    (graph : MigrationHistoryGraph codec Body) (request : MigrationGenerationRequest codec) :
    Except Diagnostic (MigrationGenerationOutcome codec Body) := do
  if graph.manifests.keys.any fun id => id.appLabel ≠ request.appLabel then
    throw ⟨"migration_generation_foreign_app_label"⟩
  let (source, parents) ← generationSource graph request
  let sourceState ← (managedSchemaState source request.context).mapError deltaDiagnostic
  let desiredState ← (managedSchemaState request.desired request.context).mapError
      deltaDiagnostic
  if sourceState = desiredState then return .upToDate
  let delta ← (diffManaged source request.desired request.context).mapError
      deltaDiagnostic
  let id ←
    MigrationId.new request.appLabel (allocateMigrationName graph.manifests.keys request.baseName)
  if id ∈ graph.manifests then throw ⟨"migration_generation_duplicate_name"⟩
  let attempt ←
    authorManifest rules id parents delta source request.desired
      request.context true
  match attempt with
  | .ok manifest => return .generated manifest
  | .error failure =>
      if failure.code ∈ reverseRejectionCodes then
        let fallback ←
          authorManifest rules id parents delta source request.desired
            request.context false
        let manifest ← fallback
        return .generated manifest
      else throw failure

/-! ## The reverse check -/

section Reverse

variable {source target reached restored : DeclaredSchema codec} {context : ManagedDeltaContext}
  {delta reverse inverse : SchemaDelta Digest}

omit [DecidableEq Digest] [DecidableEq Bytes] in
theorem canonicalIdentityBytes_eq (same : SameDeclaration restored source) :
    canonicalIdentityBytes restored = canonicalIdentityBytes source := by
  rw [canonicalIdentityBytes, canonicalIdentityBytes, same.format,
    same.requiredCapabilities, same.facts]

omit [DecidableEq Digest] [DecidableEq Bytes] in
theorem exists_canonicalIdentityBytes (declared : DeclaredSchema codec) :
    ∃ bytes, canonicalIdentityBytes declared = .ok bytes := by
  have exact := declared.fingerprintExact
  unfold canonicalIdentityBytes
  cases encoded : codec.identityBytes declared.format declared.requiredCapabilities
        declared.facts with
  | error failure =>
    rw [encoded] at exact
    cases exact
  | ok bytes => exact ⟨bytes, rfl⟩

theorem verifyReverse_eq_ok_iff : verifyReverse context source target reverse = .ok restored ↔
      applyDelta target reverse context = .ok restored ∧
        planSchemaOperations target.facts restored.facts = .ok reverse.operations ∧
        canonicalIdentityBytes restored = canonicalIdentityBytes source := by
  obtain ⟨sourceBytes, sourceEncoded⟩ := exists_canonicalIdentityBytes source
  unfold verifyReverse
  cases applied : applyDelta target reverse context with
  | error failure => simp
  | ok reached =>
    obtain ⟨bytes, encoded⟩ := exists_canonicalIdentityBytes reached
    cases planned : planSchemaOperations target.facts reached.facts with
    | error failure =>
      simp only [planned, reduceCtorEq, false_iff, Except.ok.injEq]
      rintro ⟨rfl, samePlan, -⟩
      cases planned.symm.trans samePlan
    | ok operations =>
      simp only [planned, unless_eq_ok, bind_eq_ok,
        not_ne_iff, pure_eq_ok, encoded, sourceEncoded, Except.ok.injEq, exists_eq_left']
      constructor
      · rintro ⟨same, sameBytes, rfl⟩
        exact ⟨rfl, by rw [planned, same], by rw [encoded, sameBytes]⟩
      · rintro ⟨rfl, samePlan, sameBytes⟩
        rw [planned, Except.ok.injEq] at samePlan
        rw [encoded, Except.ok.injEq] at sameBytes
        exact ⟨samePlan, sameBytes, rfl⟩

end Reverse

section Kept

variable {source target reached : DeclaredSchema codec} {context : ManagedDeltaContext}
  {delta reverse inverse : SchemaDelta Digest} {transition : Transition source.facts target.facts}
  {backward : Transition target.facts source.facts}

omit [DecidableEq Bytes] in
theorem plan_of_diffManaged (knownBack : diffManaged target source context = .ok reverse) :
    planSchemaOperations target.facts source.facts = .ok reverse.operations := by
  obtain ⟨_, -, planned⟩ := bind_eq_ok.mp knownBack
  obtain ⟨_, -, planned⟩ := bind_eq_ok.mp planned
  obtain ⟨operations, planned, built⟩ := bind_eq_ok.mp planned
  rw [mapError_eq_ok] at planned built
  obtain ⟨-, -, -, same⟩ := SchemaDelta.of_new built
  rw [planned, same]

/--
The inverse of an applied delta passes the reverse check exactly when it
replays and lists its redefinitions in the planner's order.
-/
theorem exists_verifyReverse_iff (known : Diffed source target context delta transition)
    (knownBack : Diffed target source context reverse backward)
    (planned : planSchemaOperations target.facts source.facts = .ok reverse.operations)
    (inverted : inverseDelta delta = .ok inverse)
    (applied : applyDelta source delta context = .ok reached) :
    (∃ restored, verifyReverse context source reached inverse = .ok restored) ↔
      SamePaths target.facts source.facts ∧ ReversedOrder source.facts target.facts := by
  obtain ⟨declared, -⟩ := transition.of_applyDelta known.comparable known.valid.bounded
      known.planned known.targetManaged applied
  obtain ⟨applies, restores⟩ := known.applyDelta_inverse applied inverted
  obtain ⟨_, inverted', -, -, listed⟩ := known.exists_inverseDelta
  cases inverted.symm.trans inverted'
  have samePlan : ∀ restored, applyDelta reached inverse context = .ok restored →
        (planSchemaOperations reached.facts restored.facts = .ok inverse.operations ↔
          ReversedOrder source.facts target.facts) := by
    intro restored reapplied
    rw [declared.facts, (restores restored reapplied).facts, planned,
      ← known.inverse_operations_eq_iff knownBack, listed, Except.ok.injEq, eq_comm]
  rw [← applies]
  constructor
  · intro verified
    obtain ⟨restored, verified⟩ := verified
    obtain ⟨reapplied, plan, -⟩ := verifyReverse_eq_ok_iff.mp verified
    exact ⟨⟨restored, reapplied⟩, (samePlan restored reapplied).mp plan⟩
  · intro conditions
    obtain ⟨⟨restored, reapplied⟩, order⟩ := conditions
    refine ⟨restored, verifyReverse_eq_ok_iff.mpr
      ⟨reapplied, (samePlan restored reapplied).mpr order, ?_⟩⟩
    exact canonicalIdentityBytes_eq (restores restored reapplied)

end Kept

/-! ## Manifests built from a generated draft -/

section Build

variable {rules : SafetyRules codec Condition Body} {context : ManagedDeltaContext}
  {source : DeclaredSchema codec}

/-- The step asserts something about the data. -/
def MigrationStep.IsAssertion : MigrationStep Digest Body → Prop
  | .assertion _ _ => True
  | _ => False

variable {delta : SchemaDelta Digest} {target : DeclaredSchema codec}
variable {assertions : List (MigrationStep Digest Body)}

omit [DecidableEq Bytes] [DecidableEq Body] in
theorem isAssertion_of_authorAllAssertions
    (authored : authorAllAssertions rules delta source target context = .ok assertions) :
    ∀ step ∈ assertions, step.IsAssertion := by
  intro step member
  obtain ⟨_, -, authored⟩ := bind_eq_ok.mp authored
  obtain ⟨_, -, authored⟩ := bind_eq_ok.mp authored
  obtain ⟨_, -, authored⟩ := bind_eq_ok.mp authored
  obtain ⟨_, -, authored⟩ := bind_eq_ok.mp authored
  obtain ⟨groups, run, flattened⟩ := bind_eq_ok.mp authored
  rw [pure_eq_ok] at flattened
  subst flattened
  obtain ⟨group, listed, inGroup⟩ := List.mem_flatten.mp member
  obtain ⟨entry, -, asserted⟩ := (mem_of_mapM_eq_ok run).mp listed
  obtain ⟨derived, -, asserted⟩ := bind_eq_ok.mp asserted
  obtain ⟨condition, -, lowered⟩ := (mem_of_mapM_eq_ok asserted).mp inGroup
  obtain ⟨plan, -, lowered⟩ := bind_eq_ok.mp lowered
  obtain ⟨id, -, built⟩ := bind_eq_ok.mp lowered
  rw [pure_eq_ok] at built
  subst built
  exact trivial

variable {start reached : ManifestReplay codec Body}

theorem replay_assertions (onlyAssertions : ∀ step ∈ assertions, step.IsAssertion)
    (run : assertions.foldlM (replayStep rules context) start = .ok reached) :
    reached.currentSchema = start.currentSchema ∧ reached.reversible = start.reversible := by
  induction assertions generalizing start with
  | nil =>
    rw [List.foldlM_nil, pure_eq_ok] at run
    subst run
    exact ⟨rfl, rfl⟩
  | cons first rest ih =>
    obtain ⟨middle, stepped, run⟩ := foldlM_cons_eq_ok.mp run
    obtain ⟨sameSchema, sameReversible⟩ := ih
        (fun step member => onlyAssertions step (by simp [member])) run
    have isAssertion := onlyAssertions first (by simp)
    cases first with
    | assertion id plan =>
      obtain ⟨_, -, collected⟩ := bind_eq_ok.mp stepped
      rw [pure_eq_ok] at collected
      subst collected
      exact ⟨sameSchema, sameReversible⟩
    | schemaDelta step | backfill id plan => exact isAssertion.elim

variable {step : SchemaDeltaStep Digest}

theorem of_replayDelta (replayed : replayDelta rules context start step = .ok reached) :
    applyDelta start.currentSchema step.delta context = .ok reached.currentSchema ∧
      reached.reversible = (start.reversible && step.reverse.isSome) := by
  unfold replayDelta at replayed
  obtain ⟨-, replayed⟩ := unless_eq_ok.mp replayed
  obtain ⟨_, -, replayed⟩ := bind_eq_ok.mp replayed
  obtain ⟨target, applied, replayed⟩ := bind_eq_ok.mp replayed
  obtain ⟨_, -, replayed⟩ := bind_eq_ok.mp replayed
  obtain ⟨-, replayed⟩ := unless_eq_ok.mp replayed
  obtain ⟨_, -, replayed⟩ := bind_eq_ok.mp replayed
  rw [mapError_eq_ok] at applied
  cases claimed : step.reverse with
  | none =>
    simp only [claimed, pure_eq_ok] at replayed
    subst replayed
    exact ⟨applied, rfl⟩
  | some reverse =>
    simp only [claimed, bind_eq_ok, pure_eq_ok] at replayed
    obtain ⟨_, -, _, -, replayed⟩ := replayed
    subst replayed
    exact ⟨applied, rfl⟩

variable {inverse : SchemaDelta Digest}

/--
A delta step with a reverse replays as the step without one, followed by the
check of the reverse.
-/
theorem replayDelta_reverse {plain : SchemaDeltaStep Digest} (claimed : step.reverse = some inverse)
    (unclaimed : plain.reverse = none) (sameDelta : plain.delta = step.delta)
    (replayed : replayDelta rules context start plain = .ok reached) :
    applyDelta start.currentSchema step.delta context = .ok reached.currentSchema ∧
      replayDelta rules context start step = (do
          let restored ←
            verifyReverse context start.currentSchema reached.currentSchema
              inverse
          rejectReverseAssertionRequirement rules inverse
            reached.currentSchema restored context.semanticProfile
          return { reached with reversible := start.reversible }) := by
  unfold replayDelta at replayed
  rw [sameDelta, unclaimed] at replayed
  obtain ⟨sameScope, replayed⟩ := unless_eq_ok.mp replayed
  obtain ⟨_, supported, replayed⟩ := bind_eq_ok.mp replayed
  obtain ⟨target, applied, replayed⟩ := bind_eq_ok.mp replayed
  obtain ⟨operations, planned, replayed⟩ := bind_eq_ok.mp replayed
  obtain ⟨sameOperations, replayed⟩ := unless_eq_ok.mp replayed
  obtain ⟨coverage, covered, replayed⟩ := bind_eq_ok.mp replayed
  simp only [pure_eq_ok] at replayed
  subst replayed
  refine ⟨mapError_eq_ok.mp applied, ?_⟩
  unfold replayDelta
  rw [claimed]
  simp only [if_neg sameScope, supported, applied, planned,
    if_neg sameOperations, covered, bind, Except.bind, Option.isSome_some, Bool.and_true]

variable {id : MigrationId} {parents : List MigrationId} {steps : List (MigrationStep Digest Body)}
variable {draft : SchemaMigrationDraft Digest Body}
  (drafted : SchemaMigrationDraft.new id parents steps = .ok draft)
include drafted

omit [DecidableEq Body] in
theorem SchemaMigrationDraft.of_new :
    draft.id = id ∧
      draft.parents = parents.insertionSort (· ≤ ·) ∧
      draft.steps = steps ∧
      draft.legacyParents = [] ∧
      draft.legacyAppliedSet = none ∧
      draft.profileBridge = none := by
  obtain ⟨-, drafted⟩ := unless_eq_ok.mp drafted
  obtain ⟨-, drafted⟩ := unless_eq_ok.mp drafted
  obtain ⟨-, drafted⟩ := unless_eq_ok.mp drafted
  obtain ⟨-, drafted⟩ := unless_eq_ok.mp drafted
  rw [pure_eq_ok] at drafted
  subst drafted
  exact ⟨rfl, rfl, rfl, rfl, rfl, rfl⟩

omit drafted

variable {header : ManifestHeader Digest} {replayed : ManifestReplay codec Body}
variable {manifest : VerifiedSchemaMigrationManifest codec Body}
  (built : sealManifest draft source context header replayed = .ok manifest)
include built

omit [DecidableEq Bytes] [DecidableEq Body] in
theorem exists_sealManifest {other : SchemaMigrationDraft Digest Body} (reversible : Bool) :
    ∃ sealed, sealManifest other source context header
        { replayed with reversible := reversible } = .ok sealed := by
  obtain ⟨noneLeft, built⟩ := unless_eq_ok.mp built
  obtain ⟨targetState, targetManaged, built⟩ := bind_eq_ok.mp built
  obtain ⟨sourceState, bridged, -⟩ := bind_eq_ok.mp built
  unfold sealManifest
  simp only [if_neg noneLeft, targetManaged, bridged, bind, Except.bind]
  exact ⟨_, rfl⟩

omit [DecidableEq Bytes] [DecidableEq Body] in
theorem reversible_of_sealManifest :
    manifest.reversible = (replayed.reversible && header.profileBridge.isNone) := by
  obtain ⟨_, built⟩ := unless_eq_ok.mp built
  obtain ⟨_, -, built⟩ := bind_eq_ok.mp built
  obtain ⟨_, -, built⟩ := bind_eq_ok.mp built
  rw [pure_eq_ok] at built
  subst built
  rfl

omit built

omit [DecidableEq Bytes] [DecidableEq Body] in
theorem verifyHeader_of_new {step : MigrationStep Digest Body}
    (drafted : SchemaMigrationDraft.new id parents (assertions ++ [step]) = .ok draft) :
    verifyHeader draft source context = (do
        let sourceState ← (managedSchemaState source context).mapError deltaDiagnostic
        if sourceState.scope ≠ context.scopeId then throw ⟨"migration_manifest_scope_mismatch"⟩
        let _ ← SemanticProfile.resolve context.semanticProfile
        let loweringProfile ← loweringProfileBinding context.semanticProfile
        return ⟨sourceState, loweringProfile, none⟩) := by
  obtain ⟨-, -, sameSteps, noLegacy, noSet, noBridge⟩ := SchemaMigrationDraft.of_new drafted
  have shape : validateDraftShape draft none = .ok () := by
    simp [validateDraftShape, sameSteps, noLegacy, noSet]
  unfold verifyHeader
  simp only [noBridge, pure_bind, shape]
  rfl

omit [DecidableEq Bytes] [DecidableEq Body] in
theorem header_of_new {step : MigrationStep Digest Body}
    (drafted : SchemaMigrationDraft.new id parents (assertions ++ [step]) = .ok draft)
    (verified : verifyHeader draft source context = .ok header) :
    managedSchemaState source context = .ok header.sourceState ∧ header.profileBridge = none := by
  rw [verifyHeader_of_new drafted] at verified
  obtain ⟨_, managed, verified⟩ := bind_eq_ok.mp verified
  obtain ⟨-, verified⟩ := unless_eq_ok.mp verified
  obtain ⟨_, -, verified⟩ := bind_eq_ok.mp verified
  obtain ⟨_, -, verified⟩ := bind_eq_ok.mp verified
  rw [pure_eq_ok] at verified
  subst verified
  exact ⟨mapError_eq_ok.mp managed, rfl⟩

theorem SchemaDeltaStep.of_new {id : MigrationStepId} {reverse : Option (SchemaDelta Digest)}
    (built : SchemaDeltaStep.new id delta reverse = .ok step) :
    step.id = id ∧ step.delta = delta ∧ step.reverse = reverse := by
  unfold SchemaDeltaStep.new at built
  cases reverse with
  | none =>
    cases built
    exact ⟨rfl, rfl, rfl⟩
  | some candidate =>
    simp only at built
    split at built
    · cases built
    · split at built
      · rw [Except.ok.injEq] at built
        subst built
        exact ⟨rfl, rfl, rfl⟩
      · cases built

variable {withReverse : Bool} (inverted : inverseDelta delta = .ok inverse)
include inverted

theorem authorDeltaStep_eq_ok (authored : authorDeltaStep delta withReverse = .ok step) :
    MigrationStepId.new "schema-delta" = .ok step.id ∧ step.delta = delta ∧
      step.reverse = if withReverse then some inverse else none := by
  unfold authorDeltaStep at authored
  rw [inverted] at authored
  cases withReverse with
  | false | true =>
    obtain ⟨reverse, chosen, authored⟩ := bind_eq_ok.mp authored
    cases chosen
    obtain ⟨id, named, built⟩ := bind_eq_ok.mp authored
    obtain ⟨rfl, sameDelta, sameReverse⟩ := SchemaDeltaStep.of_new built
    exact ⟨named, sameDelta, sameReverse⟩

theorem authorManifest_eq_ok
    {outcome : Except Diagnostic (VerifiedSchemaMigrationManifest codec Body)}
    (authored : authorManifest rules id parents delta source target context
        withReverse = .ok outcome) :
    ∃ assertions step draft,
      authorAllAssertions rules delta source target context = .ok assertions ∧
        MigrationStepId.new "schema-delta" = .ok step.id ∧
        step.delta = delta ∧
        (step.reverse = if withReverse then some inverse else none) ∧
        SchemaMigrationDraft.new id parents (assertions ++ [.schemaDelta step]) = .ok draft ∧
        buildVerifiedManifest rules draft source context = outcome := by
  obtain ⟨steps, authored, drafted⟩ := bind_eq_ok.mp authored
  obtain ⟨draft, drafted, built⟩ := bind_eq_ok.mp drafted
  rw [pure_eq_ok] at built
  obtain ⟨assertions, asserted, authored⟩ := bind_eq_ok.mp authored
  obtain ⟨step, stepped, listed⟩ := bind_eq_ok.mp authored
  rw [pure_eq_ok] at listed
  subst listed
  obtain ⟨named, sameDelta, sameReverse⟩ := authorDeltaStep_eq_ok inverted stepped
  exact ⟨assertions, step, draft, asserted, named, sameDelta, sameReverse, drafted, built⟩

theorem reversible_of_authorManifest
    (authored : authorManifest rules id parents delta source target context true =
        .ok (.ok manifest)) :
    manifest.reversible = true := by
  obtain ⟨assertions, step, draft, asserted, -, -, sameReverse, drafted,
    built⟩ := authorManifest_eq_ok inverted authored
  obtain ⟨header, verified, built⟩ := bind_eq_ok.mp built
  obtain ⟨replayed, run, built⟩ := bind_eq_ok.mp built
  rw [reversible_of_sealManifest built, (header_of_new drafted verified).2]
  obtain ⟨-, -, sameSteps, -⟩ := SchemaMigrationDraft.of_new drafted
  rw [sameSteps, foldlM_append_eq_ok] at run
  obtain ⟨collected, collecting, run⟩ := run
  obtain ⟨-, reversible⟩ := replay_assertions (isAssertion_of_authorAllAssertions asserted)
      collecting
  obtain ⟨_, stepped, finished⟩ := foldlM_cons_eq_ok.mp run
  rw [List.foldlM_nil, pure_eq_ok] at finished
  subst finished
  rw [(of_replayDelta stepped).2, sameReverse, reversible]
  rfl

/--
A manifest that is only accepted without its reverse was rejected by the
check of that reverse.
-/
theorem failure_of_fallback {failure : Diagnostic} (attempt :
      authorManifest rules id parents delta source target context true = .ok (.error failure))
    (fallback :
      authorManifest rules id parents delta source target context false = .ok (.ok manifest)) :
    ∃ reached,
      applyDelta source delta context = .ok reached ∧ (do
          let restored ← verifyReverse context source reached inverse
          rejectReverseAssertionRequirement rules inverse reached restored
            context.semanticProfile) = .error failure := by
  obtain ⟨assertions, step, draft, asserted, -, sameDelta, claimed, drafted,
    rejected⟩ := authorManifest_eq_ok inverted attempt
  obtain ⟨_, plain, plainDraft, asserted', -, plainDelta, unclaimed,
    plainDrafted, accepted⟩ := authorManifest_eq_ok inverted fallback
  cases asserted.symm.trans asserted'
  obtain ⟨header, verified, accepted⟩ := bind_eq_ok.mp accepted
  obtain ⟨replayed, run, accepted⟩ := bind_eq_ok.mp accepted
  obtain ⟨-, -, plainSteps, -⟩ := SchemaMigrationDraft.of_new plainDrafted
  obtain ⟨-, -, sameSteps, -⟩ := SchemaMigrationDraft.of_new drafted
  rw [plainSteps, foldlM_append_eq_ok] at run
  obtain ⟨collected, collecting, run⟩ := run
  obtain ⟨_, stepped, finished⟩ := foldlM_cons_eq_ok.mp run
  rw [List.foldlM_nil, pure_eq_ok] at finished
  cases finished
  obtain ⟨sameSchema, -⟩ := replay_assertions (isAssertion_of_authorAllAssertions asserted)
      collecting
  obtain ⟨applied, reversed⟩ :=
    replayDelta_reverse claimed unclaimed (plainDelta.trans sameDelta.symm) stepped
  have sameSource : collected.currentSchema = source := sameSchema
  rw [sameSource] at reversed
  rw [sameSource, sameDelta] at applied
  refine ⟨replayed.currentSchema, applied, ?_⟩
  -- Both drafts pass the same checks up to the one of the reverse.
  rw [buildVerifiedManifest, verifyHeader_of_new drafted,
    ← verifyHeader_of_new plainDrafted, verified, sameSteps,
    List.foldlM_append, collecting] at rejected
  simp only [bind, Except.bind, List.foldlM_cons, List.foldlM_nil, pure,
    Except.pure, replayStep] at rejected reversed ⊢
  rw [reversed] at rejected
  cases checked : verifyReverse context source replayed.currentSchema inverse with
  | error failure' =>
    simp only [checked] at rejected ⊢
    cases rejected
    rfl
  | ok restored =>
    simp only [checked] at rejected ⊢
    cases judged : rejectReverseAssertionRequirement rules inverse
        replayed.currentSchema restored context.semanticProfile with
    | error failure' =>
      simp only [judged] at rejected ⊢
      cases rejected
      rfl
    | ok _ =>
      simp only [judged] at rejected
      obtain ⟨sealed, built⟩ := exists_sealManifest accepted collected.reversible
      cases rejected.symm.trans built

end Build

/-! ## Keeping the rollback -/

section Rollback

variable {rules : SafetyRules codec Condition Body} {context : ManagedDeltaContext}
  {source target : DeclaredSchema codec} {delta reverse : SchemaDelta Digest}

/--
A generated migration keeps its rollback: the inverse lists the operations of
the delta back, it passes the reverse check wherever the delta applies, and a
generated migration is irreversible only if the delta back needs assertions or
has an unresolved safety.
-/
structure KeepsRollback (rules : SafetyRules codec Condition Body) (context : ManagedDeltaContext)
    (source target : DeclaredSchema codec) (delta reverse : SchemaDelta Digest) : Prop where
  sameOperations : ∃ inverse,
      inverseDelta delta = .ok inverse ∧ inverse.operations = reverse.operations
  verified : ∀ inverse reached, inverseDelta delta = .ok inverse →
      applyDelta source delta context = .ok reached →
      ∃ restored, verifyReverse context source reached inverse = .ok restored
  irreversible : ∀ (graph : MigrationHistoryGraph codec Body)
      (request : MigrationGenerationRequest codec)
      (parents : List MigrationId)
      (manifest : VerifiedSchemaMigrationManifest codec Body),
      request.desired = target →
      request.context = context →
      generationSource graph request = .ok (source, parents) →
      generateNextMigration rules graph request = .ok (.generated manifest) →
      manifest.reversible = false →
      ∃ reached restored failure,
        applyDelta source delta context = .ok reached ∧
          applyDelta reached reverse context = .ok restored ∧
          rejectReverseAssertionRequirement rules reverse reached restored
            context.semanticProfile = .error failure ∧
          failure.code ∈ reverseRejectionCodes

variable {inverse : SchemaDelta Digest}

theorem exists_fallback {graph : MigrationHistoryGraph codec Body}
    {request : MigrationGenerationRequest codec} {parents : List MigrationId}
    {manifest : VerifiedSchemaMigrationManifest codec Body}
    (diffed : diffManaged source request.desired request.context = .ok delta)
    (inverted : inverseDelta delta = .ok inverse)
    (found : generationSource graph request = .ok (source, parents))
    (generated : generateNextMigration rules graph request = .ok (.generated manifest))
    (irreversible : manifest.reversible = false) : ∃ reached failure,
      applyDelta source delta request.context = .ok reached ∧ (do
          let restored ← verifyReverse request.context source reached inverse
          rejectReverseAssertionRequirement rules inverse reached restored
            request.context.semanticProfile) = .error failure ∧
        failure.code ∈ reverseRejectionCodes := by
  unfold generateNextMigration at generated
  obtain ⟨-, generated⟩ := unless_eq_ok.mp generated
  obtain ⟨found', sourced, generated⟩ := bind_eq_ok.mp generated
  cases found.symm.trans sourced
  obtain ⟨_, -, generated⟩ := bind_eq_ok.mp generated
  obtain ⟨_, -, generated⟩ := bind_eq_ok.mp generated
  simp only at generated
  split at generated
  · cases generated
  · obtain ⟨_, diffed', generated⟩ := bind_eq_ok.mp generated
    rw [mapError_eq_ok] at diffed'
    cases diffed.symm.trans diffed'
    obtain ⟨_, -, generated⟩ := bind_eq_ok.mp generated
    obtain ⟨-, generated⟩ := unless_eq_ok.mp generated
    obtain ⟨attempt, attempted, generated⟩ := bind_eq_ok.mp generated
    cases attempt with
    | ok accepted =>
      cases generated
      rw [reversible_of_authorManifest inverted attempted] at irreversible
      cases irreversible
    | error failure =>
      simp only at generated
      split at generated
      · rename_i onlyReverse
        obtain ⟨fallback, retried, generated⟩ := bind_eq_ok.mp generated
        obtain ⟨accepted, rfl, generated⟩ := bind_eq_ok.mp generated
        cases generated
        obtain ⟨reached, applied, failed⟩ := failure_of_fallback inverted attempted retried
        exact ⟨reached, failure, applied, failed, onlyReverse⟩
      · cases generated

theorem inverse_eq_of_operations (sameSource : inverse.source = reverse.source)
    (sameTarget : inverse.target = reverse.target)
    (sameOperations : inverse.operations = reverse.operations) : inverse = reverse := by
  have sameCapabilities : inverse.requiredCapabilities = reverse.requiredCapabilities := by
    rw [inverse.derived, reverse.derived, sameSource, sameTarget, sameOperations]
  have sameFormat : inverse.format = reverse.format := by
    cases inverse.format
    cases reverse.format
    rfl
  cases inverse
  cases reverse
  simp only [SchemaDelta.mk.injEq] at *
  exact ⟨sameFormat, sameOperations, sameCapabilities, sameSource, sameTarget⟩

/--
A generated migration keeps its rollback exactly when the planner's orders of
the redefined facts are reversed, and, if the delta applies at all, each
specializing role of the source selects the same subtype path among the edges
of both schemas as among its own.
-/
theorem keepsRollback_iff (diffed : diffManaged source target context = .ok delta)
    (diffedBack : diffManaged target source context = .ok reverse) :
    KeepsRollback rules context source target delta reverse ↔
      ReversedOrder source.facts target.facts ∧
        (delta.requiredCapabilities ⊆ context.availableCapabilities →
          SameReferences source.facts target.facts → SamePaths source.facts target.facts →
          SamePaths target.facts source.facts) := by
  obtain ⟨transition, known⟩ := exists_diffed diffed
  obtain ⟨backward, knownBack⟩ := exists_diffed diffedBack
  obtain ⟨inverse, inverted, sameSource, sameTarget, listed⟩ := known.exists_inverseDelta
  have planned := plan_of_diffManaged diffedBack
  have applies :=
    transition.exists_applyDelta_iff known.comparable known.valid.bounded
      known.planned known.sourceManaged known.targetManaged
  have sameOrder : inverse.operations = reverse.operations ↔
        ReversedOrder source.facts target.facts := by
    rw [← listed]
    exact known.inverse_operations_eq_iff knownBack
  constructor
  · intro keeps
    obtain ⟨_, inverted', sameOperations⟩ := keeps.sameOperations
    cases inverted.symm.trans inverted'
    refine ⟨sameOrder.mp sameOperations, ?_⟩
    intro supported references paths
    obtain ⟨reached, applied⟩ := applies.mpr ⟨supported, references, paths⟩
    exact ((exists_verifyReverse_iff known knownBack planned inverted
      applied).mp (keeps.verified inverse reached inverted applied)).1
  · intro conditions
    obtain ⟨order, backPaths⟩ := conditions
    have verified : ∀ reached, applyDelta source delta context = .ok reached → ∃ restored,
            verifyReverse context source reached inverse = .ok restored := by
      intro reached applied
      obtain ⟨supported, references, paths⟩ := applies.mp ⟨reached, applied⟩
      exact (exists_verifyReverse_iff known knownBack planned inverted
        applied).mpr ⟨backPaths supported references paths, order⟩
    have isReverse : inverse = reverse := by
      apply inverse_eq_of_operations
      · have managed := known.targetManaged.symm.trans knownBack.sourceManaged
        rw [sameSource]
        exact Except.ok.inj managed
      · have managed := known.sourceManaged.symm.trans knownBack.targetManaged
        rw [sameTarget]
        exact Except.ok.inj managed
      · exact sameOrder.mpr order
    refine {
      sameOperations := ⟨inverse, inverted, sameOrder.mpr order⟩
      verified := ?_
      irreversible := ?_
    }
    · intro _ reached inverted' applied
      cases inverted.symm.trans inverted'
      exact verified reached applied
    · intro graph request parents manifest sameTarget sameContext found generated irreversible
      subst sameTarget sameContext
      obtain ⟨reached, failure, applied, failed, onlyReverse⟩ :=
        exists_fallback diffed inverted found generated irreversible
      obtain ⟨restored, checked⟩ := verified reached applied
      rw [checked, isReverse] at failed
      have reapplied := (verifyReverse_eq_ok_iff.mp checked).1
      rw [isReverse] at reapplied
      exact ⟨reached, restored, failure, applied, reapplied, failed, onlyReverse⟩

end Rollback

/-- Attributes `a` and `b`, both documented by the text. -/
def documentedFacts (text : String) : List SchemaFact :=
  [attributeA, attributeB, .value ⟨⟨⟨⟨"a"⟩⟩⟩, .string⟩, .value ⟨⟨⟨⟨"b"⟩⟩⟩, .string⟩,
    documentation "a" text, documentation "b" text]

/-- The attributes with their first documentation. -/
def documented : DeclaredSchema plainCodec :=
  Checked.get (declarePlain (documentedFacts "old")) (by decide +kernel)

/-- The attributes with their second documentation. -/
def redocumented : DeclaredSchema plainCodec :=
  Checked.get (declarePlain (documentedFacts "new")) (by decide +kernel)

/-- The safety of documentation: schema metadata, under no condition. -/
def documentationRules : SafetyRules plainCodec Unit Unit where
  classify _ := .schemaMetadata
  derive _ _ _ _ _ := .ok ⟨.schemaMetadata, [], false⟩
  lower _ _ _ := .error ⟨"unsupported_condition"⟩

def emptyHistory : MigrationHistoryGraph plainCodec Unit :=
  Checked.get (MigrationHistoryGraph.fromVerified []) (by decide +kernel)

def firstMigration (genesis desired : DeclaredSchema plainCodec) :
    MigrationGenerationRequest plainCodec :=
  ⟨"app", "change", genesis, desired, redefiningContext⟩

/-- Whether a generated migration can be rolled back. -/
def reversibility : Except Diagnostic (MigrationGenerationOutcome codec Body) → Option Bool
  | .ok (.generated manifest) => some manifest.reversible
  | _ => none

omit [DecidableEq Bytes] [DecidableEq Body] in
theorem exists_generated {outcome : Except Diagnostic (MigrationGenerationOutcome codec Body)}
    {reversible : Bool} (computed : reversibility outcome = some reversible) :
    ∃ manifest, outcome = .ok (.generated manifest) ∧ manifest.reversible = reversible := by
  cases outcome with
  | error failure => cases computed
  | ok result =>
    cases result with
    | upToDate => cases computed
    | generated manifest => exact ⟨manifest, rfl, Option.some.inj computed⟩

/--
Two changed texts are redefined in identity order in both directions, so the
inverse lists them in the other order and the migration loses its rollback,
although the delta back is safe.
-/
theorem redocumented_rollback_lost : ∃ delta reverse inverse manifest,
      diffManaged documented redocumented redefiningContext = .ok delta ∧
        diffManaged redocumented documented redefiningContext = .ok reverse ∧
        inverseDelta delta = .ok inverse ∧ inverse.operations ≠ reverse.operations ∧
        generateNextMigration documentationRules emptyHistory
            (firstMigration documented redocumented) = .ok (.generated manifest) ∧
        manifest.reversible = false ∧ rejectReverseAssertionRequirement documentationRules reverse
          redocumented documented redefiningContext.semanticProfile = .ok () := by
  have diffed :=
    eq_ok_get (diffManaged documented redocumented redefiningContext) (by decide +kernel)
  have diffedBack :=
    eq_ok_get (diffManaged redocumented documented redefiningContext) (by decide +kernel)
  obtain ⟨manifest, generated, irreversible⟩ := exists_generated (show reversibility
          (generateNextMigration documentationRules emptyHistory
            (firstMigration documented redocumented)) = some false by decide +kernel)
  refine ⟨_, _, _, manifest, diffed, diffedBack,
    eq_ok_get _ (by decide +kernel), ?_, generated, irreversible, ?_⟩
  · decide +kernel
  · exact eq_ok_get _ (by decide +kernel)

/-- The mixed delta can be rolled back: it redefines a single fact. -/
theorem mixedDelta_keeps_rollback :
    ∃ reverse,
      diffManaged latterSchema formerSchema redefiningContext = .ok reverse ∧
        KeepsRollback documentationRules redefiningContext formerSchema latterSchema
          mixedDelta reverse := by
  have diffedBack :=
    eq_ok_get (diffManaged latterSchema formerSchema redefiningContext) (by decide +kernel)
  refine ⟨_, diffedBack, (keepsRollback_iff diffManaged_mixedDelta diffedBack).mpr ⟨?_, ?_⟩⟩
  · obtain ⟨transition, known⟩ := exists_diffed diffManaged_mixedDelta
    obtain ⟨backward, knownBack⟩ := exists_diffed diffedBack
    exact known.reversedOrder_of_length_le_one knownBack (by decide +kernel)
  · intro _ _ _
    exact samePaths_formerSchema

end TypeBridge.Migration
