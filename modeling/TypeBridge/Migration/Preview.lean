import TypeBridge.Schema.SourceSpans
import TypeBridge.Migration.Guarded
import TypeBridge.Migration.GeneratedHistory

namespace TypeBridge.Migration

open Library Schema
open Library.Checked hiding get

/-!
# The preview of a manifest

`renderMigrationPreview` lists the statements an operator inspects before
approving a manifest. It walks the steps on its own: whatever is not a schema
delta is kept aside and compared with the conditions of the next delta. The
planner keeps assertions aside only. The two agree on every manifest whose
deltas precede its backfills, and on no other.
-/

variable {Bytes Digest Condition Body Statement PlanDigest : Type} {codec : Codec Bytes Digest}
  [DecidableEq Digest] [DecidableEq Body]

/-! ## The walk of the preview -/

inductive MigrationPreviewError where
  | diagnostic (diagnostic : Diagnostic)
  | lowering (diagnostic : Diagnostic)
  deriving DecidableEq

def SchemaLoweringBinding.forContext (context : ManagedDeltaContext) :
    Except Diagnostic SchemaLoweringBinding :=
  match MigrationProfile.forSemanticProfile context.semanticProfile with
  | none => .error ⟨"schema_lowering_semantic_profile_unsupported"⟩
  | some profile => .ok ⟨profile, context.availableCapabilities⟩

variable {context : ManagedDeltaContext}

theorem forContext_eq_ok {profile : MigrationProfile} :
    SchemaLoweringBinding.forContext context = .ok ⟨profile, context.availableCapabilities⟩ ↔
      MigrationProfile.forSemanticProfile context.semanticProfile = some profile := by
  unfold SchemaLoweringBinding.forContext
  cases MigrationProfile.forSemanticProfile context.semanticProfile with
  | none => simp
  | some registered => simp

def validateKeptSteps (rules : SafetyRules codec Condition Body) (source : DeclaredSchema codec)
    (state : ManagedSchemaState Digest) (kept : List (MigrationStep Digest Body))
    (expected : List (RequiredSafetyCondition Condition)) :
    Except Diagnostic (List (MigrationAssertionPlan Body)) :=
  (kept.zip expected).mapM fun pair => do
    let validated ← rules.lower pair.2 source state
    match pair.1 with
    | .assertion _ plan =>
        if plan ≠ validated then throw ⟨"migration_manifest_assertion_plan_mismatch"⟩
        else return validated
    | _ => throw ⟨"migration_manifest_assertion_order_mismatch"⟩

/-- The conditions as many steps as were kept aside must assert. -/
def expectedConditions (count : Nat) (scan : CoverageScan Condition) :
    Except Diagnostic (List (RequiredSafetyCondition Condition)) :=
  if count = 0 then
    if scan.required.isEmpty then .ok []
    else .error ⟨"migration_manifest_missing_assertion"⟩
  else if count = scan.required.length then .ok scan.required
  else if count = scan.withDestructiveGuards.length then .ok scan.withDestructiveGuards
  else if count < scan.required.length then .error ⟨"migration_manifest_missing_assertion"⟩
  else .error ⟨"migration_manifest_extra_assertion"⟩

def verifyKeptCoverage (rules : SafetyRules codec Condition Body)
    (kept : List (MigrationStep Digest Body)) (delta : SchemaDelta Digest)
    (source target : DeclaredSchema codec) (profile : SemanticProfileId) :
    Except Diagnostic (VerifiedAssertionCoverage Body) := do
  let scan ←
    delta.operations.zipIdx.foldlM (scanOperation rules source target profile)
      ⟨[], [], [], .formalOnly⟩
  let expected ← expectedConditions kept.length scan
  let _ ← resolveSchemaWithCapabilities source profile builtinSchemaCapabilities
  let validated ← validateKeptSteps rules source delta.source kept expected
  return ⟨scan.dischargedOperationIndices, scan.effectiveSafety, validated⟩

structure PreviewWalk {Bytes Digest : Type} (codec : Codec Bytes Digest) (Body : Type)
    [DecidableEq Digest] where
  current : DeclaredSchema codec
  pending : List (MigrationStep Digest Body)
  queries : List String

variable
  (services : PlanServices codec Condition Body (SchemaLoweringPlan Digest Statement) PlanDigest)
  (query : Statement → String)

def loweredQueries (lowering : SchemaLoweringPlan Digest Statement) : List String :=
  lowering.units.flatMap fun unit => unit.statements.map query

def previewDelta (profile : SemanticProfileId) (context : ManagedDeltaContext)
    (binding : SchemaLoweringBinding) (walk : PreviewWalk codec Body)
    (step : SchemaDeltaStep Digest) :
    Except MigrationPreviewError (PreviewWalk codec Body) := do
  let target ← (applyDelta walk.current step.delta context).mapError fun failed =>
      .diagnostic (deltaDiagnostic failed)
  let coverage ← (verifyKeptCoverage services.rules walk.pending step.delta walk.current
      target profile).mapError .diagnostic
  let lowering ← (services.lower step.delta walk.current.facts target.facts binding
      coverage.dischargedOperationIndices true).mapError .lowering
  return {
    current := target
    pending := []
    queries := walk.queries ++ loweredQueries query lowering
  }

def previewStep (profile : SemanticProfileId) (context : ManagedDeltaContext)
    (binding : SchemaLoweringBinding) (walk : PreviewWalk codec Body)
    (step : MigrationStep Digest Body) : Except MigrationPreviewError (PreviewWalk codec Body) :=
  match step with
  | .schemaDelta step => previewDelta services query profile context binding walk step
  | other => .ok { walk with pending := walk.pending ++ [other] }

def previewText (queries : List String) : String := String.intercalate "\n\n" queries ++ "\n"

def renderMigrationPreview (manifest : VerifiedSchemaMigrationManifest codec Body)
    (context : ManagedDeltaContext) :
    Except MigrationPreviewError String := do
  let binding ← (SchemaLoweringBinding.forContext context).mapError .lowering
  let _ ← (SemanticProfile.resolve manifest.semanticProfile).mapError .diagnostic
  let walk ←
    manifest.steps.foldlM (previewStep services query manifest.semanticProfile context binding)
      ⟨manifest.sourceSchema, [], []⟩
  return previewText walk.queries

variable {services} {query} in
theorem renderMigrationPreview_eq_ok {manifest : VerifiedSchemaMigrationManifest codec Body}
    {binding : SchemaLoweringBinding} {semantic : SemanticProfile} {walk : PreviewWalk codec Body}
    (bound : SchemaLoweringBinding.forContext context = .ok binding)
    (resolved : SemanticProfile.resolve manifest.semanticProfile = .ok semantic)
    (run : manifest.steps.foldlM
        (previewStep services query manifest.semanticProfile context binding)
        ⟨manifest.sourceSchema, [], []⟩ = .ok walk) :
    renderMigrationPreview services query manifest context = .ok (previewText walk.queries) := by
  refine bind_eq_ok.mpr ⟨binding, mapError_eq_ok.mpr bound, ?_⟩
  refine bind_eq_ok.mpr ⟨semantic, mapError_eq_ok.mpr resolved, ?_⟩
  exact bind_eq_ok.mpr ⟨walk, run, rfl⟩

/-! ## Coverage by kept steps -/

def keptAssertions (assertions : List (MigrationStepId × MigrationAssertionPlan Body)) :
    List (MigrationStep Digest Body) :=
  assertions.map fun entry => .assertion entry.1 entry.2

/-- A step that is kept aside by the planner too. -/
def MigrationStep.isAssertion : MigrationStep Digest Body → Bool
  | .assertion _ _ => true
  | _ => false

section Coverage

variable {rules : SafetyRules codec Condition Body}

theorem validateKeptSteps_keptAssertions (source : DeclaredSchema codec)
    (state : ManagedSchemaState Digest)
    (assertions : List (MigrationStepId × MigrationAssertionPlan Body))
    (expected : List (RequiredSafetyCondition Condition)) :
    validateKeptSteps rules source state (keptAssertions assertions) expected =
      validateAssertions rules source state (assertions.map Prod.snd) expected := by
  unfold validateKeptSteps validateAssertions keptAssertions
  rw [List.zip_map_left, List.zip_map_left, List.mapM_map, List.mapM_map]
  congr 1

theorem verifyKeptCoverage_keptAssertions
    (assertions : List (MigrationStepId × MigrationAssertionPlan Body)) (delta : SchemaDelta Digest)
    (source target : DeclaredSchema codec) (profile : SemanticProfileId) :
    verifyKeptCoverage rules (keptAssertions assertions) delta source target profile =
      verifyAssertionCoverage rules (assertions.map Prod.snd) delta source target profile := by
  unfold verifyKeptCoverage verifyAssertionCoverage
  congr 1
  funext scan
  simp only [validateKeptSteps_keptAssertions]
  simp only [expectedConditions, keptAssertions, List.length_map,
    List.length_eq_zero_iff, List.map_eq_nil_iff]
  split
  · split <;> rfl
  · split
    · rfl
    · split
      · rfl
      · split <;> rfl

theorem verifyKeptCoverage_ne_ok {kept : List (MigrationStep Digest Body)}
    {step : MigrationStep Digest Body} (member : step ∈ kept) (other : step.isAssertion = false)
    {delta : SchemaDelta Digest} {source target : DeclaredSchema codec}
    {profile : SemanticProfileId} {coverage : VerifiedAssertionCoverage Body} :
    verifyKeptCoverage rules kept delta source target profile ≠ .ok coverage := by
  intro covered
  obtain ⟨scan, -, covered⟩ := bind_eq_ok.mp covered
  obtain ⟨expected, chosen, covered⟩ := bind_eq_ok.mp covered
  obtain ⟨_, -, covered⟩ := bind_eq_ok.mp covered
  obtain ⟨validated, compared, -⟩ := bind_eq_ok.mp covered
  -- The conditions are chosen to be as many as the kept steps.
  have sameLength : expected.length = kept.length := by
    unfold expectedConditions at chosen
    split at chosen
    · rename_i empty
      rw [List.length_eq_zero_iff.mp empty] at member
      cases member
    · split at chosen
      · rename_i same
        cases chosen
        exact same.symm
      · split at chosen
        · rename_i same
          cases chosen
          exact same.symm
        · split at chosen <;> cases chosen
  obtain ⟨position, found⟩ := List.mem_iff_getElem?.mp member
  have inRange := (List.getElem?_eq_some_iff.mp found).1
  have paired : (step, expected[position]) ∈ kept.zip expected := by
    rw [List.mem_iff_getElem?]
    refine ⟨position, ?_⟩
    rw [List.getElem?_zip_eq_some]
    exact ⟨found, List.getElem?_eq_getElem (by omega)⟩
  obtain ⟨plan, checked⟩ := (exists_mapM_eq_ok_iff.mp ⟨validated, compared⟩) _ paired
  obtain ⟨lowered, -, checked⟩ := bind_eq_ok.mp checked
  cases step with
  | assertion id plan => cases other
  | schemaDelta step => cases checked
  | backfill id plan => cases checked

end Coverage

/-! ## What a preview reads of a schema -/

section Same

variable {compareSameDomain : CanonicalValue → CanonicalValue → Option Ordering}
  {lower : RequiredSafetyCondition OperationCondition → DeclaredSchema codec →
    ManagedSchemaState Digest → Except Diagnostic (MigrationAssertionPlan Body)}

def ReadsDeclarations (lower : RequiredSafetyCondition OperationCondition → DeclaredSchema codec →
        ManagedSchemaState Digest → Except Diagnostic (MigrationAssertionPlan Body)) :
    Prop :=
  ∀ condition (left right : DeclaredSchema codec) state,
    SameDeclaration left right → lower condition left state = lower condition right state

theorem verifyAssertionCoverage_congr (reads : ReadsDeclarations lower)
    {left right leftTarget rightTarget : DeclaredSchema codec}
    (sameSource : SameDeclaration left right) (sameTarget : SameDeclaration leftTarget rightTarget)
    (assertions : List (MigrationAssertionPlan Body)) (delta : SchemaDelta Digest)
    (profile : SemanticProfileId) :
    verifyAssertionCoverage (schemaSafetyRules compareSameDomain lower)
        assertions delta left leftTarget profile =
      verifyAssertionCoverage (schemaSafetyRules compareSameDomain lower)
        assertions delta right rightTarget profile := by
  have scans : scanOperation (schemaSafetyRules compareSameDomain lower) left leftTarget profile =
        scanOperation (schemaSafetyRules compareSameDomain lower) right
          rightTarget profile := by
    funext scan entry
    simp only [scanOperation, schemaSafetyRules, deriveSafetyConditions,
      sameSource.facts, sameTarget.facts]
  have validates : ∀ expected, validateAssertions (schemaSafetyRules compareSameDomain lower) left
            delta.source assertions expected =
          validateAssertions (schemaSafetyRules compareSameDomain lower)
            right delta.source assertions expected := by
    intro expected
    simp only [validateAssertions, schemaSafetyRules, reads _ left right _ sameSource]
  unfold verifyAssertionCoverage
  simp only [scans, validates, sameSource.resolveSchemaWithCapabilities_eq]

variable {approved : Bool}

theorem gateSafety_approved {safety : SafetyClass} {resolved : Bool} {admitted : Unit}
    (gate : gateSafety safety resolved approved = .ok admitted) :
    gateSafety safety resolved true = .ok admitted := by
  cases safety with
  | destructive =>
    cases resolved with
    | true => cases gate
    | false => rfl
  | _ => exact gate

variable {render : RenderOperation Statement} {sourceFacts targetFacts : Inventory}
  {binding : SchemaLoweringBinding} {discharged : List Nat}

omit [DecidableEq Digest] in
theorem lowerOperation_approved {entry : SchemaOperation × Nat} {unit : StatementUnit Statement}
    (lowered : lowerOperation render sourceFacts targetFacts binding discharged
        approved entry = .ok unit) :
    lowerOperation render sourceFacts targetFacts binding discharged true entry = .ok unit := by
  obtain ⟨classification, classified, lowered⟩ := bind_eq_ok.mp lowered
  obtain ⟨_, supported, lowered⟩ := bind_eq_ok.mp lowered
  obtain ⟨_, gate, lowered⟩ := bind_eq_ok.mp lowered
  exact bind_eq_ok.mpr ⟨classification, classified, bind_eq_ok.mpr ⟨_, supported,
      bind_eq_ok.mpr ⟨_, gateSafety_approved gate, lowered⟩⟩⟩

theorem lowerSchemaDelta_approved {delta : SchemaDelta Digest}
    {lowering : SchemaLoweringPlan Digest Statement}
    (lowered : lowerSchemaDelta render delta sourceFacts targetFacts binding discharged
        approved = .ok lowering) :
    lowerSchemaDelta render delta sourceFacts targetFacts binding discharged
      true = .ok lowering := by
  obtain ⟨_, selected, lowered⟩ := bind_eq_ok.mp lowered
  obtain ⟨_, canonical, lowered⟩ := bind_eq_ok.mp lowered
  obtain ⟨units, mapped, lowered⟩ := bind_eq_ok.mp lowered
  refine bind_eq_ok.mpr ⟨_, selected, bind_eq_ok.mpr ⟨_, canonical,
      bind_eq_ok.mpr ⟨units, ?_, lowered⟩⟩⟩
  rw [mapM_eq_ok] at mapped ⊢
  refine mapped.imp ?_
  intro entry unit lowered
  obtain ⟨plain, plainLowered, cascaded⟩ := map_eq_ok.mp lowered
  exact map_eq_ok.mpr ⟨plain, lowerOperation_approved plainLowered, cascaded⟩

end Same

/-! ## The planner and the preview side by side -/

def stepQueries (query : Statement → String) :
    VerifiedMigrationApplyStep Digest Body (SchemaLoweringPlan Digest Statement) → List String
  | .schemaDelta _ lowering => loweredQueries query lowering
  | _ => []

structure Mirrors (query : Statement → String) (replay :
      ApplyReplay codec Body (SchemaLoweringPlan Digest Statement))
    (walk : PreviewWalk codec Body) : Prop where
  current : SameDeclaration replay.replayed walk.current
  pending : walk.pending = keptAssertions replay.pendingAssertions
  queries : walk.queries = replay.verifiedSteps.flatMap (stepQueries query)

def MigrationStep.isBackfill : MigrationStep Digest Body → Bool
  | .backfill _ _ => true
  | _ => false

def MigrationStep.isSchemaDelta : MigrationStep Digest Body → Bool
  | .schemaDelta _ => true
  | _ => false

def DeltasBeforeBackfills (steps : List (MigrationStep Digest Body)) : Prop :=
  steps.Pairwise fun earlier later => earlier.isBackfill = true → later.isSchemaDelta = false

instance (steps : List (MigrationStep Digest Body)) : Decidable (DeltasBeforeBackfills steps) :=
  inferInstanceAs (Decidable (List.Pairwise _ _))

section Walks

variable {compareSameDomain : CanonicalValue → CanonicalValue → Option Ordering}
  {lower : RequiredSafetyCondition OperationCondition → DeclaredSchema codec →
    ManagedSchemaState Digest → Except Diagnostic (MigrationAssertionPlan Body)}
  {render : RenderOperation Statement}
  {manifestDigest : VerifiedSchemaMigrationManifest codec Body → Except Diagnostic PlanDigest}
  {planFingerprint : VerifiedSchemaMigrationManifest codec Body → PlanDigest}
  {query : Statement → String} {context : ManagedDeltaContext} {binding : SchemaLoweringBinding}
  {approved : Bool} {replay reached : ApplyReplay codec Body (SchemaLoweringPlan Digest Statement)}
  {walk : PreviewWalk codec Body}

theorem Mirrors.previewDelta (reads : ReadsDeclarations lower) (mirrors : Mirrors query replay walk)
    {step : SchemaDeltaStep Digest}
    (planned : planDelta (schemaPlanServices compareSameDomain lower render manifestDigest
          planFingerprint) context binding approved replay step = .ok reached) :
    ∃ next, Migration.previewDelta (schemaPlanServices compareSameDomain lower render manifestDigest
            planFingerprint) query context.semanticProfile context binding walk step = .ok next ∧
        Mirrors query reached next := by
  obtain ⟨target, applied, planned⟩ := bind_eq_ok.mp planned
  obtain ⟨coverage, covered, planned⟩ := bind_eq_ok.mp planned
  obtain ⟨lowering, lowered, planned⟩ := bind_eq_ok.mp planned
  rw [pure_eq_ok] at planned
  rw [mapError_eq_ok] at applied lowered
  replace covered := mapError_eq_ok.mp covered
  obtain ⟨mirrored, mirroredApplied, sameTarget⟩ := mirrors.current.applyDelta applied
  -- The preview covers and lowers the same delta between the same facts.
  have mirroredCovered : verifyKeptCoverage (schemaSafetyRules compareSameDomain lower)
        walk.pending step.delta walk.current mirrored context.semanticProfile = .ok coverage := by
    rw [mirrors.pending, verifyKeptCoverage_keptAssertions,
      ← verifyAssertionCoverage_congr reads mirrors.current sameTarget]
    exact covered
  have mirroredLowered : lowerSchemaDelta render step.delta walk.current.facts mirrored.facts
        binding coverage.dischargedOperationIndices true = .ok lowering := by
    rw [← mirrors.current.facts, ← sameTarget.facts]
    exact lowerSchemaDelta_approved lowered
  refine ⟨⟨mirrored, [], walk.queries ++ loweredQueries query lowering⟩,
    bind_eq_ok.mpr ⟨mirrored, mapError_eq_ok.mpr mirroredApplied,
      bind_eq_ok.mpr ⟨coverage, mapError_eq_ok.mpr mirroredCovered,
        bind_eq_ok.mpr ⟨lowering, mapError_eq_ok.mpr mirroredLowered, rfl⟩⟩⟩, ?_⟩
  subst planned
  refine ⟨sameTarget, rfl, ?_⟩
  rw [List.flatMap_append, List.flatMap_append, mirrors.queries]
  simp [List.flatMap_map, stepQueries]

variable
  {services : PlanServices codec Condition Body (SchemaLoweringPlan Digest Statement) PlanDigest}
  {profile : SemanticProfileId} {step : MigrationStep Digest Body}

theorem previewStep_of_not_delta (other : step.isSchemaDelta = false) :
    previewStep services query profile context binding walk step =
      .ok { walk with pending := walk.pending ++ [step] } := by
  cases step with
  | schemaDelta step => cases other
  | assertion id plan => rfl
  | backfill id plan => rfl

variable {steps : List (MigrationStep Digest Body)}

theorem foldlM_previewStep_of_no_delta (others : ∀ step ∈ steps, step.isSchemaDelta = false)
    (walk : PreviewWalk codec Body) :
    ∃ reached, steps.foldlM (previewStep services query profile context binding)
          walk = .ok reached ∧ reached.queries = walk.queries := by
  induction steps generalizing walk with
  | nil => exact ⟨walk, rfl, rfl⟩
  | cons first rest ih =>
    obtain ⟨reached, run, sameQueries⟩ := ih
        (fun step member => others step (List.mem_cons_of_mem _ member))
        { walk with pending := walk.pending ++ [first] }
    exact ⟨reached, foldlM_cons_eq_ok.mpr
      ⟨_, previewStep_of_not_delta (others first (by simp)), run⟩, sameQueries⟩

theorem planStep_queries (other : step.isSchemaDelta = false)
    (planned : planStep services context binding approved replay step = .ok reached) :
    reached.verifiedSteps.flatMap (stepQueries query) =
      replay.verifiedSteps.flatMap (stepQueries query) := by
  obtain ⟨_, -, planned⟩ := bind_eq_ok.mp planned
  cases step with
  | schemaDelta step => cases other
  | assertion id plan =>
    cases planned
    rfl
  | backfill id plan =>
    obtain ⟨-, planned⟩ := guard_eq_ok.mp planned
    cases planned
    simp [stepQueries]

theorem foldlM_planStep_queries (others : ∀ step ∈ steps, step.isSchemaDelta = false)
    (run : steps.foldlM (planStep services context binding approved) replay = .ok reached) :
    reached.verifiedSteps.flatMap (stepQueries query) =
      replay.verifiedSteps.flatMap (stepQueries query) := by
  induction steps generalizing replay with
  | nil =>
    cases run
    rfl
  | cons first rest ih =>
    obtain ⟨middle, stepped, run⟩ := foldlM_cons_eq_ok.mp run
    rw [ih (fun step member => others step (List.mem_cons_of_mem _ member)) run,
      planStep_queries (others first (by simp)) stepped]

theorem Mirrors.exists_preview (reads : ReadsDeclarations lower)
    (ordered : DeltasBeforeBackfills steps) (mirrors : Mirrors query replay walk)
    (run : steps.foldlM (planStep (schemaPlanServices compareSameDomain lower render manifestDigest
              planFingerprint) context binding approved) replay = .ok reached) :
    ∃ previewed, steps.foldlM (previewStep
            (schemaPlanServices compareSameDomain lower render manifestDigest planFingerprint)
            query context.semanticProfile context binding) walk = .ok previewed ∧
        previewed.queries = reached.verifiedSteps.flatMap (stepQueries query) := by
  induction steps generalizing replay walk with
  | nil =>
    cases run
    exact ⟨walk, rfl, mirrors.queries⟩
  | cons first rest ih =>
    obtain ⟨afterFirst, restOrdered⟩ := List.pairwise_cons.mp ordered
    obtain ⟨middle, stepped, restRun⟩ := foldlM_cons_eq_ok.mp run
    cases first with
    | backfill id plan =>
      -- No delta follows, so neither side adds a statement.
      have others : ∀ step ∈ (.backfill id plan :: rest : List (MigrationStep Digest Body)),
            step.isSchemaDelta = false := by
        intro step member
        rcases List.mem_cons.mp member with isFirst | isLater
        · subst isFirst
          rfl
        · exact afterFirst step isLater rfl
      obtain ⟨previewed, previewRun, sameQueries⟩ := foldlM_previewStep_of_no_delta others walk
      refine ⟨previewed, previewRun, ?_⟩
      rw [sameQueries, foldlM_planStep_queries others run, mirrors.queries]
    | assertion id plan =>
      obtain ⟨_, -, stepped⟩ := bind_eq_ok.mp stepped
      cases stepped
      have next : Mirrors query
            { replay with
              pendingAssertions := replay.pendingAssertions ++ [(id, plan)] }
            { walk with
              pending := walk.pending ++ [.assertion id plan] } := by
        refine ⟨mirrors.current, ?_, mirrors.queries⟩
        rw [mirrors.pending]
        simp [keptAssertions]
      obtain ⟨previewed, previewRun, sameQueries⟩ := ih restOrdered next restRun
      exact ⟨previewed, foldlM_cons_eq_ok.mpr ⟨_, rfl, previewRun⟩, sameQueries⟩
    | schemaDelta step =>
      obtain ⟨_, -, stepped⟩ := bind_eq_ok.mp stepped
      obtain ⟨nextWalk, previewed, next⟩ := mirrors.previewDelta reads stepped
      obtain ⟨final, previewRun, sameQueries⟩ := ih restOrdered next restRun
      exact ⟨final, foldlM_cons_eq_ok.mpr ⟨nextWalk, previewed, previewRun⟩, sameQueries⟩

/-! ## What a preview needs -/

section Failing

variable
  {services : PlanServices codec Condition Body (SchemaLoweringPlan Digest Statement) PlanDigest}
  {profile : SemanticProfileId} {steps : List (MigrationStep Digest Body)}
  {walk reached : PreviewWalk codec Body}

theorem no_delta_of_kept {kept : MigrationStep Digest Body} (member : kept ∈ walk.pending)
    (other : kept.isAssertion = false)
    (run : steps.foldlM (previewStep services query profile context binding) walk = .ok reached) :
    ∀ step ∈ steps, step.isSchemaDelta = false := by
  induction steps generalizing walk with
  | nil => simp
  | cons first rest ih =>
    obtain ⟨middle, stepped, restRun⟩ := foldlM_cons_eq_ok.mp run
    have firstOther : first.isSchemaDelta = false := by
      cases first with
      | schemaDelta step =>
        obtain ⟨target, -, stepped⟩ := bind_eq_ok.mp stepped
        obtain ⟨coverage, covered, -⟩ := bind_eq_ok.mp stepped
        exact (verifyKeptCoverage_ne_ok member other (mapError_eq_ok.mp covered)).elim
      | assertion id plan => rfl
      | backfill id plan => rfl
    rw [previewStep_of_not_delta firstOther] at stepped
    cases stepped
    intro step isStep
    rcases List.mem_cons.mp isStep with isFirst | isLater
    · subst isFirst
      exact firstOther
    · exact ih (List.mem_append_left _ member) restRun step isLater

theorem deltasBeforeBackfills_of_preview
    (run : steps.foldlM (previewStep services query profile context binding) walk = .ok reached) :
    DeltasBeforeBackfills steps := by
  induction steps generalizing walk with
  | nil => exact List.Pairwise.nil
  | cons first rest ih =>
    obtain ⟨middle, stepped, restRun⟩ := foldlM_cons_eq_ok.mp run
    refine List.pairwise_cons.mpr ⟨?_, ih restRun⟩
    intro later isLater isBackfill
    cases first with
    | schemaDelta step => cases isBackfill
    | assertion id plan => cases isBackfill
    | backfill id plan =>
      cases stepped
      have kept : MigrationStep.backfill id plan ∈ walk.pending ++ [.backfill id plan] :=
        List.mem_append_right _ (List.mem_singleton_self _)
      exact no_delta_of_kept kept rfl restRun later isLater

variable {step : SchemaDeltaStep Digest}

theorem profile_of_previewed
    (run : steps.foldlM (previewStep services query profile context binding) walk = .ok reached)
    (member : .schemaDelta step ∈ steps) :
    step.delta.source.managedSemanticSchema.semanticProfile = context.semanticProfile := by
  obtain ⟨before, after, previewed⟩ := Checked.exists_step_of_foldlM run member
  obtain ⟨target, applied, -⟩ := bind_eq_ok.mp previewed
  obtain ⟨-, managed, -⟩ := applyDelta_eq_ok_iff.mp (mapError_eq_ok.mp applied)
  exact (context_of_managedSchemaState managed).2

variable {rules : SafetyRules codec Condition Body} {draft : SchemaMigrationDraft Digest Body}
  {source : DeclaredSchema codec} {manifest : VerifiedSchemaMigrationManifest codec Body}

theorem profile_of_verified [DecidableEq Bytes]
    (built : buildVerifiedManifest rules draft source context = .ok manifest)
    (member : .schemaDelta step ∈ manifest.steps) :
    step.delta.source.managedSemanticSchema.semanticProfile = manifest.semanticProfile := by
  obtain ⟨header, -, built⟩ := bind_eq_ok.mp built
  obtain ⟨replayed, run, built⟩ := bind_eq_ok.mp built
  obtain ⟨-, built⟩ := unless_eq_ok.mp built
  obtain ⟨_, -, built⟩ := bind_eq_ok.mp built
  obtain ⟨_, -, built⟩ := bind_eq_ok.mp built
  rw [pure_eq_ok] at built
  subst built
  obtain ⟨before, after, verified⟩ := Checked.exists_step_of_foldlM run member
  obtain ⟨-, verified⟩ := unless_eq_ok.mp verified
  obtain ⟨_, -, verified⟩ := bind_eq_ok.mp verified
  obtain ⟨target, applied, -⟩ := bind_eq_ok.mp verified
  obtain ⟨-, managed, -⟩ := applyDelta_eq_ok_iff.mp (mapError_eq_ok.mp applied)
  exact (context_of_managedSchemaState managed).2

theorem resolves_of_buildVerifiedManifest [DecidableEq Bytes]
    (built : buildVerifiedManifest rules draft source context = .ok manifest) :
    ∃ semantic, SemanticProfile.resolve manifest.semanticProfile = .ok semantic := by
  rw [(of_buildVerifiedManifest built).2.2.1]
  obtain ⟨header, verified, -⟩ := bind_eq_ok.mp built
  obtain ⟨_, -, verified⟩ := bind_eq_ok.mp verified
  obtain ⟨-, verified⟩ := unless_eq_ok.mp verified
  obtain ⟨semantic, resolved, -⟩ := bind_eq_ok.mp verified
  exact ⟨semantic, resolved⟩

end Failing

/-! ## Executed statements -/

def executedQueries (query : Statement → String) (entry : VerifiedMigrationApplyManifest codec Body
        (SchemaLoweringPlan Digest Statement) PlanDigest) :
    List String :=
  entry.transactionGroups.flatMap fun group =>
    (entry.steps[group.schemaDeltaStepIndex]?).elim [] (stepQueries query)

omit [DecidableEq Body] in
theorem flatMap_groupsOf
    (blocks : List (StepBlock Digest Body (SchemaLoweringPlan Digest Statement)))
    (before : List (VerifiedMigrationApplyStep Digest Body (SchemaLoweringPlan Digest Statement)))
    (ordinal : Nat) : ((groupsOf blocks ordinal before.length).flatMap fun group =>
        ((before ++ blocks.flatMap StepBlock.steps)[
          group.schemaDeltaStepIndex]?).elim [] (stepQueries query)) =
      (blocks.flatMap StepBlock.steps).flatMap (stepQueries query) := by
  induction blocks generalizing before ordinal with
  | nil => rfl
  | cons block rest ih =>
    have shifted := fun ordinal => ih (before ++ block.steps) ordinal
    simp only [List.append_assoc, List.length_append] at shifted
    cases block with
    | backfill id plan =>
      rw [List.flatMap_cons, List.flatMap_append]
      exact shifted ordinal
    | guarded assertions step lowering =>
      have length : before.length + (StepBlock.guarded assertions step lowering).steps.length =
            before.length + assertions.length + 1 := by
        simp [StepBlock.steps]
        omega
      have found : (before ++ ((StepBlock.guarded assertions step lowering).steps ++
              rest.flatMap StepBlock.steps))[before.length + assertions.length]? =
            some (.schemaDelta step lowering) := by simp [StepBlock.steps]
      have guards : (StepBlock.guarded assertions step lowering).steps.flatMap
              (stepQueries query) =
            loweredQueries query lowering := by
        simp [StepBlock.steps, List.flatMap_map, stepQueries]
      rw [List.flatMap_cons, List.flatMap_append, guards, groupsOf,
        List.flatMap_cons, found, ← length, shifted]
      rfl

variable {current : DeclaredSchema codec} {manifest : VerifiedSchemaMigrationManifest codec Body}
  {entry : VerifiedMigrationApplyManifest codec Body (SchemaLoweringPlan Digest Statement) PlanDigest}

theorem executedQueries_eq
    (planned : planSteps services context binding approved current manifest = .ok entry) :
    executedQueries query entry = entry.steps.flatMap (stepQueries query) := by
  obtain ⟨blocks, listed, grouped, -⟩ := exists_blocks_of_planSteps planned
  unfold executedQueries
  rw [grouped, listed]
  exact flatMap_groupsOf blocks [] 0

variable {graph : MigrationHistoryGraph codec Body}

omit [DecidableEq Body] in
theorem execution_of_same_profile {execution : ManagedDeltaContext × SchemaLoweringBinding}
    (executes : bridgeAncestorExecution graph manifest context binding = .ok execution)
    (sameCapabilities : binding.availableCapabilities = context.availableCapabilities)
    (sameProfile : manifest.semanticProfile = context.semanticProfile) :
    execution = (context, ⟨manifest.loweringProfile, context.availableCapabilities⟩) := by
  unfold bridgeAncestorExecution at executes
  by_cases direct : manifest.loweringProfile = binding.profile
  · rw [if_pos direct] at executes
    cases executes
    rw [direct, ← sameCapabilities]
  · rw [if_neg direct] at executes
    cases bridged : profileBridgeWithAncestors graph with
    | none =>
      rw [bridged] at executes
      cases executes
    | some entry =>
      rw [bridged] at executes
      obtain ⟨-, executes⟩ := guard_eq_ok.mp executes
      cases registered : MigrationProfile.forSemanticProfile manifest.semanticProfile with
      | none =>
        rw [registered] at executes
        cases executes
      | some profile =>
        rw [registered] at executes
        obtain ⟨same, executes⟩ := guard_eq_ok.mp executes
        cases executes
        rw [not_ne_iff.mp same, sameProfile]

theorem capabilities_of_built [DecidableEq PlanDigest] {applied : IdSet}
    {target : MigrationApplyTarget} {inputs : PlanInputs Digest PlanDigest}
    {plan : VerifiedMigrationApplyPlan codec Body (SchemaLoweringPlan Digest Statement) PlanDigest}
    (built : buildVerifiedMigrationApplyPlan services graph applied target inputs = .ok plan) :
    inputs.binding.availableCapabilities = inputs.context.availableCapabilities := by
  obtain ⟨_, same, -⟩ := bind_eq_ok.mp built
  exact contractRequire_eq_ok.mp same

structure Previewable (manifest : VerifiedSchemaMigrationManifest codec Body)
    (context : ManagedDeltaContext) : Prop where
  registered : (MigrationProfile.forSemanticProfile context.semanticProfile).isSome = true
  ordered : DeltasBeforeBackfills manifest.steps
  sameProfile : ∀ step ∈ manifest.steps, step.isSchemaDelta = true →
      manifest.semanticProfile = context.semanticProfile

instance (manifest : VerifiedSchemaMigrationManifest codec Body) (context : ManagedDeltaContext) :
    Decidable (Previewable manifest context) :=
  decidable_of_iff ((MigrationProfile.forSemanticProfile context.semanticProfile).isSome = true ∧
      DeltasBeforeBackfills manifest.steps ∧ ∀ step ∈ manifest.steps, step.isSchemaDelta = true →
        manifest.semanticProfile = context.semanticProfile)
    ⟨fun ⟨registered, ordered, sameProfile⟩ =>
        ⟨registered, ordered, sameProfile⟩,
      fun ⟨registered, ordered, sameProfile⟩ => ⟨registered, ordered, sameProfile⟩⟩

/-- Identity fingerprints tell declared schemas apart. -/
def CollisionFree (codec : Codec Bytes Digest) : Prop :=
  ∀ left right : DeclaredSchema codec,
    left.fingerprint = right.fingerprint → SameDeclaration left right

omit [DecidableEq Body] in
theorem sameDeclaration_of_continueChain (collisionFree : CollisionFree codec)
    {before : Option (DeclaredSchema codec × ManagedSchemaState Digest)}
    (continued : continueChain manifest before = .ok current) :
    SameDeclaration current manifest.sourceSchema := by
  cases before with
  | none =>
    cases continued
    exact ⟨rfl, rfl, rfl, rfl⟩
  | some reached =>
    obtain ⟨sameSchema, continued⟩ := guard_eq_ok.mp continued
    obtain ⟨-, continued⟩ := guard_eq_ok.mp continued
    cases continued
    exact collisionFree _ _ (not_ne_iff.mp sameSchema)

/--
The preview of a planned manifest lists exactly the statements its transaction
groups execute, if the context has a lowering registry, no backfill precedes a
schema delta, and deltas are bound to the context's profile. Otherwise there
is no preview.
-/
theorem preview_shows_execution_iff [DecidableEq Bytes] [DecidableEq PlanDigest]
    (collisionFree : CollisionFree codec) (reads : ReadsDeclarations lower)
    {graph : MigrationHistoryGraph codec Body}
    (verified : ∀ (id : MigrationId) stored, graph.manifests[id]? = some stored →
        ∃ draft source context, buildVerifiedManifest (schemaSafetyRules compareSameDomain lower)
            draft source context = .ok stored) {applied : IdSet} {target : MigrationApplyTarget}
    {inputs : PlanInputs Digest PlanDigest}
    {plan : VerifiedMigrationApplyPlan codec Body (SchemaLoweringPlan Digest Statement) PlanDigest}
    (planned : buildVerifiedMigrationApplyPlan
        (schemaPlanServices compareSameDomain lower render manifestDigest planFingerprint)
        graph applied target inputs = .ok plan)
    {entry : VerifiedMigrationApplyManifest codec Body
        (SchemaLoweringPlan Digest Statement) PlanDigest} (member : entry ∈ plan.migrations) :
    renderMigrationPreview (schemaPlanServices compareSameDomain lower render manifestDigest
          planFingerprint) query entry.manifest inputs.context =
          .ok (previewText (executedQueries query entry)) ↔
      Previewable entry.manifest inputs.context := by
  obtain ⟨context, binding, approved, current, isPlanned, before,
    continued⟩ := exists_plannedEntry planned member
  obtain ⟨draft, source, verifiedIn, built⟩ := verified _ _ isPlanned.found
  constructor
  · intro previewed
    obtain ⟨registry, bound, previewed⟩ := bind_eq_ok.mp previewed
    obtain ⟨_, -, previewed⟩ := bind_eq_ok.mp previewed
    obtain ⟨walk, run, -⟩ := bind_eq_ok.mp previewed
    refine ⟨?_, deltasBeforeBackfills_of_preview run, ?_⟩
    · rw [mapError_eq_ok] at bound
      unfold SchemaLoweringBinding.forContext at bound
      cases registered : MigrationProfile.forSemanticProfile inputs.context.semanticProfile with
      | none =>
        rw [registered] at bound
        cases bound
      | some profile => rfl
    · intro step isStep isDelta
      cases step with
      | schemaDelta step =>
        rw [← profile_of_verified built isStep]
        exact profile_of_previewed run isStep
      | assertion id plan => cases isDelta
      | backfill id plan => cases isDelta
  · intro previewable
    obtain ⟨replay, run, -, -, sameSteps, -⟩ := planSteps_eq_ok isPlanned.steps
    rw [executedQueries_eq isPlanned.steps, sameSteps]
    obtain ⟨profile, registered⟩ := Option.isSome_iff_exists.mp previewable.registered
    obtain ⟨semantic, resolved⟩ := resolves_of_buildVerifiedManifest built
    by_cases others : ∀ step ∈ entry.manifest.steps, step.isSchemaDelta = false
    · -- Without a delta neither side has a statement.
      obtain ⟨walk, previewRun, sameQueries⟩ := foldlM_previewStep_of_no_delta others
          ⟨entry.manifest.sourceSchema, [], []⟩
      have empty : replay.verifiedSteps.flatMap (stepQueries query) = walk.queries :=
        (foldlM_planStep_queries others run).trans sameQueries.symm
      rw [empty]
      exact renderMigrationPreview_eq_ok (forContext_eq_ok.mpr registered) resolved previewRun
    · simp only [not_forall, Bool.not_eq_false] at others
      obtain ⟨step, isStep, isDelta⟩ := others
      have sameProfile := previewable.sameProfile step isStep isDelta
      have lowering := (of_buildVerifiedManifest built).2.2
      rw [← lowering.1, sameProfile] at lowering
      have bound : SchemaLoweringBinding.forContext inputs.context =
            .ok ⟨entry.manifest.loweringProfile, inputs.context.availableCapabilities⟩ := by
        rw [forContext_eq_ok]
        have isLowering := lowering.2
        unfold loweringProfileBinding at isLowering
        rw [registered] at isLowering ⊢
        cases isLowering
        rfl
      have executes :=
        execution_of_same_profile isPlanned.execution (capabilities_of_built planned) sameProfile
      rw [Prod.mk.injEq] at executes
      obtain ⟨sameContext, sameBinding⟩ := executes
      rw [sameContext, sameBinding] at run
      have start : Mirrors query (⟨current, [], []⟩ :
              ApplyReplay codec Body (SchemaLoweringPlan Digest Statement))
            ⟨entry.manifest.sourceSchema, [], []⟩ :=
        ⟨sameDeclaration_of_continueChain collisionFree continued, rfl, rfl⟩
      obtain ⟨walk, previewRun, sameQueries⟩ := start.exists_preview reads previewable.ordered run
      rw [← sameQueries]
      rw [← sameProfile] at previewRun
      exact renderMigrationPreview_eq_ok bound resolved previewRun

end Walks

/-! ## A backfill before a delta -/

/-- Attributes `a`, `b` and `k`, and an entity `p` owning them, `k` as key. -/
def copyingFacts : List SchemaFact :=
  attributeFacts .string ++ [attributeB, .value ⟨⟨⟨⟨"b"⟩⟩⟩, .string⟩,
      .type ⟨⟨.attribute, ⟨"k"⟩⟩, by decide, by decide⟩,
      .value ⟨⟨⟨⟨"k"⟩⟩⟩, .string⟩,
      entityP, .owns ⟨.ofLabels "p" "a", .unordered⟩, .owns ⟨.ofLabels "p" "b", .unordered⟩,
      .owns ⟨.ofLabels "p" "k", .unordered⟩,
      .annotated ⟨⟨.owns (.ofLabels "p" "k"), .key⟩, .presence, by decide, by decide⟩]

/-- The schema of a copy from `a` to `b`. -/
def copying : DeclaredSchema plainCodec :=
  Checked.get (declarePlain copyingFacts) (by decide +kernel)

/-- The facts `attribute c, value string`. -/
def extraFacts : List SchemaFact :=
  [.type ⟨⟨.attribute, ⟨"c"⟩⟩, by decide, by decide⟩, .value ⟨⟨⟨⟨"c"⟩⟩⟩, .string⟩]

/-- The same schema with an attribute `c`. -/
def copyingBefore : DeclaredSchema plainCodec :=
  Checked.get (declarePlain (copyingFacts ++ extraFacts)) (by decide +kernel)

/-- Capabilities for deltas and for copies. -/
def copyingContext : ManagedDeltaContext :=
  plainContext (insert copyAttributeBackfillCapability droppingContext.availableCapabilities)

/-- The reversible copy from `a` to `b`, in the given schema. -/
def copyStep (schema : DeclaredSchema plainCodec) :
    Except Diagnostic (MigrationStep PlainBytes Unit) := do
  let state ← (managedSchemaState schema copyingContext).mapError
    deltaDiagnostic
  let id ← MigrationStepId.new "copy"
  return .backfill id {
    owner := ⟨.entity, ⟨"p"⟩⟩
    source := ⟨⟨"a"⟩⟩
    destination := ⟨⟨"b"⟩⟩
    batchRows := 1
    stableAttribute := ⟨⟨"k"⟩⟩
    managedSemantics := state.managedSemanticSchema
    reverse := some .removeEqualCopiedDestination
    ownerKind := by decide
    distinctAttributes := by decide
    batchPositive := by decide
    batchBounded := by decide
  }

def copyingManifest (source : DeclaredSchema plainCodec)
    (steps : List (MigrationStep PlainBytes Unit)) :
    Except Diagnostic (VerifiedSchemaMigrationManifest plainCodec Unit) := do
  let id ← MigrationId.new "app" "copy"
  let draft ← SchemaMigrationDraft.new id [] steps
  buildVerifiedManifest droppingServices.rules draft source copyingContext

/-- The migration that removes the attribute `c` and then copies. -/
def dropAndCopy :
    Except Diagnostic (VerifiedSchemaMigrationManifest plainCodec Unit) := do
  let drop ← droppingStep "drop" copyingBefore copying
  let copy ← copyStep copying
  copyingManifest copyingBefore [drop, copy]

/-- The migration that copies and then adds the attribute `c`. -/
def copyAndAdd :
    Except Diagnostic (VerifiedSchemaMigrationManifest plainCodec Unit) := do
  let copy ← copyStep copying
  let add ← droppingStep "add" copying copyingBefore
  copyingManifest copying [copy, add]

def keywordStatements : RenderOperation String
  | .define _, _, _ => .ok ["define"]
  | .redefine _, _, _ => .ok ["redefine"]
  | .undefine _, _, _ => .ok ["undefine"]

/-- Planning with keywords for statements. -/
def previewServices : PlanServices plainCodec OperationCondition Unit
      (SchemaLoweringPlan PlainBytes String) PlainPlanDigest :=
  schemaPlanServices noComparison noAssertions keywordStatements
    (fun manifest => .ok (plainPlanDigest manifest)) plainPlanDigest

def copyingInputs (approvals : List (MigrationApplyApproval PlainBytes PlainPlanDigest)) :
    PlanInputs PlainBytes PlainPlanDigest :=
  ⟨copyingContext, ⟨.typedb3121, copyingContext.availableCapabilities⟩,
    .defaultPolicy, approvals, true⟩

def planOf (built : Except Diagnostic (VerifiedSchemaMigrationManifest plainCodec Unit)) :
    Except MigrationApplyPlanError (VerifiedMigrationApplyPlan plainCodec Unit
        (SchemaLoweringPlan PlainBytes String) PlainPlanDigest) := do
  let manifest ← contractCheck built
  let history ← contractCheck (MigrationHistoryGraph.fromVerified [manifest])
  let approval ←
    contractCheck (MigrationApplyApproval.forManifest previewServices manifest)
  buildVerifiedMigrationApplyPlan previewServices history ∅ .defaultHead (copyingInputs [approval])

/--
The copy and the addition are planned and the addition is executed, but there
is no preview: the copy is taken for an assertion about the addition.
-/
theorem copyAndAdd_not_previewed : ∃ plan, planOf copyAndAdd = .ok plan ∧ ∃ entry ∈ plan.migrations,
        executedQueries id entry = ["define", "define"] ∧
          renderMigrationPreview previewServices id entry.manifest copyingContext =
            .error (.diagnostic ⟨"migration_manifest_extra_assertion"⟩) := by
  have evaluated : Checked.succeedsWith (planOf copyAndAdd) (fun plan =>
        plan.migrations.any fun entry =>
          executedQueries id entry = ["define", "define"] ∧ Checked.failure?
              (renderMigrationPreview previewServices id entry.manifest copyingContext) =
              some (.diagnostic ⟨"migration_manifest_extra_assertion"⟩)) = true := by
    decide +kernel
  obtain ⟨plan, planned, tested⟩ := Checked.exists_of_succeedsWith evaluated
  obtain ⟨entry, member, isEntry⟩ := List.any_eq_true.mp tested
  obtain ⟨executed, failed⟩ := of_decide_eq_true isEntry
  exact ⟨plan, planned, entry, member, executed, Checked.failure?_eq_some.mp failed⟩

theorem collisionFree_plainCodec : CollisionFree plainCodec := by
  intro left right same
  have leftExact := left.fingerprintExact
  have rightExact := right.fingerprintExact
  simp only [plainCodec, Except.map, Except.ok.injEq, id] at leftExact
  simp only [plainCodec, Except.map, Except.ok.injEq, id] at rightExact
  have sameDocument := leftExact.trans (same.trans rightExact.symm)
  simp only [PlainBytes.mk.injEq, true_and] at sameDocument
  obtain ⟨format, capabilities, values⟩ := sameDocument
  exact ⟨format, capabilities, left.keyed.eq_of_values_eq right.keyed values, same⟩

theorem dropAndCopy_verified {manifest : VerifiedSchemaMigrationManifest plainCodec Unit}
    (built : dropAndCopy = .ok manifest) :
    ∃ draft source context, buildVerifiedManifest (schemaSafetyRules noComparison noAssertions)
        draft source context = .ok manifest := by
  obtain ⟨drop, -, built⟩ := bind_eq_ok.mp built
  obtain ⟨copy, -, built⟩ := bind_eq_ok.mp built
  obtain ⟨id, -, built⟩ := bind_eq_ok.mp built
  obtain ⟨draft, -, built⟩ := bind_eq_ok.mp built
  exact ⟨draft, _, _, built⟩

/-- The removal before the copy is previewed as it is executed. -/
theorem dropAndCopy_previewed : ∃ plan, planOf dropAndCopy = .ok plan ∧ ∃ entry ∈ plan.migrations,
        executedQueries id entry = ["undefine"] ∧
          renderMigrationPreview previewServices id entry.manifest
              copyingContext = .ok "undefine\n" := by
  have evaluated : Checked.succeedsWith (planOf dropAndCopy) (fun plan =>
        plan.migrations.any fun entry =>
          executedQueries id entry = ["undefine"] ∧
            Previewable entry.manifest copyingContext) = true := by
    decide +kernel
  obtain ⟨plan, run, tested⟩ := Checked.exists_of_succeedsWith evaluated
  refine ⟨plan, run, ?_⟩
  obtain ⟨entry, member, isEntry⟩ := List.any_eq_true.mp tested
  obtain ⟨isExecuted, previewable⟩ := of_decide_eq_true isEntry
  obtain ⟨manifest, built, planned⟩ := bind_eq_ok.mp run
  obtain ⟨history, accepted, planned⟩ := bind_eq_ok.mp planned
  obtain ⟨approval, -, planned⟩ := bind_eq_ok.mp planned
  have verified : ∀ (id : MigrationId) stored, history.manifests[id]? = some stored →
        ∃ draft source context, buildVerifiedManifest (schemaSafetyRules noComparison noAssertions)
            draft source context = .ok stored := by
    intro id stored found
    obtain ⟨isStored, -⟩ := (MigrationHistoryGraph.getElem?_of_fromVerified
        (mapError_eq_ok.mp accepted)).mp found
    rw [List.mem_singleton] at isStored
    rw [isStored]
    exact dropAndCopy_verified (mapError_eq_ok.mp built)
  refine ⟨entry, member, isExecuted, ?_⟩
  have shown : renderMigrationPreview previewServices id entry.manifest copyingContext =
        .ok (previewText (executedQueries id entry)) :=
    (preview_shows_execution_iff collisionFree_plainCodec
      (fun _ _ _ _ _ => rfl) verified planned member).mpr previewable
  rw [isExecuted] at shown
  exact shown

end TypeBridge.Migration
