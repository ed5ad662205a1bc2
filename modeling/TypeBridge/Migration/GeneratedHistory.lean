import TypeBridge.Migration.Generate
import TypeBridge.Migration.HistoryGrowth

namespace TypeBridge.Migration

open Library Schema
open Library.Checked hiding get

/-!
# The history with a generated migration

A generated migration starts at the sole head of its history, or at the
genesis schema of an empty one, and reaches the desired facts. The history
does not know which context a migration is generated in: the grown history is
accepted exactly if the request continues the head's profile. Where it is
accepted, the migration is its sole head and generation is up to date.
-/

variable {Bytes Digest Condition Body : Type} {codec : Codec Bytes Digest} [DecidableEq Digest]

/-! ## Managed states -/

variable {declared : DeclaredSchema codec} {context : ManagedDeltaContext}
variable {state : ManagedSchemaState Digest}

omit [DecidableEq Digest] in
theorem context_of_managedSchemaState (managed : managedSchemaState declared context = .ok state) :
    state.scope = context.scopeId ∧ state.managedSemanticSchema.semanticProfile =
        context.semanticProfile := by
  obtain ⟨_, -, managed⟩ := bind_eq_ok.mp managed
  obtain ⟨_, -, managed⟩ := bind_eq_ok.mp managed
  obtain ⟨_, -, managed⟩ := bind_eq_ok.mp managed
  obtain ⟨_, -, managed⟩ := bind_eq_ok.mp managed
  obtain ⟨semantic, fingerprinted, managed⟩ := bind_eq_ok.mp managed
  obtain ⟨-, managed⟩ := unless_eq_ok.mp managed
  rw [pure_eq_ok] at managed
  subst managed
  rw [mapError_eq_ok] at fingerprinted
  obtain ⟨_, -, fingerprinted⟩ := bind_eq_ok.mp fingerprinted
  obtain ⟨_, -, fingerprinted⟩ := bind_eq_ok.mp fingerprinted
  obtain ⟨_, -, fingerprinted⟩ := bind_eq_ok.mp fingerprinted
  rw [pure_eq_ok] at fingerprinted
  subst fingerprinted
  exact ⟨rfl, rfl⟩

omit [DecidableEq Digest] in
theorem managedSchemaState_unique {other : ManagedDeltaContext}
    {otherState : ManagedSchemaState Digest}
    (managed : managedSchemaState declared context = .ok state)
    (otherManaged : managedSchemaState declared other = .ok otherState) :
    state = otherState ↔ context.scopeId = other.scopeId ∧
        context.semanticProfile = other.semanticProfile := by
  constructor
  · intro same
    obtain ⟨scope, profile⟩ := context_of_managedSchemaState managed
    obtain ⟨otherScope, otherProfile⟩ := context_of_managedSchemaState otherManaged
    rw [← scope, ← otherScope, ← profile, ← otherProfile, same]
    exact ⟨rfl, rfl⟩
  · intro same
    obtain ⟨sameScope, sameProfile⟩ := same
    unfold managedSchemaState at managed otherManaged
    obtain ⟨_, -, managed⟩ := bind_eq_ok.mp managed
    obtain ⟨_, -, managed⟩ := bind_eq_ok.mp managed
    obtain ⟨_, -, otherManaged⟩ := bind_eq_ok.mp otherManaged
    obtain ⟨_, -, otherManaged⟩ := bind_eq_ok.mp otherManaged
    rw [sameScope, sameProfile] at managed
    exact Except.ok.inj (managed.symm.trans otherManaged)

variable [DecidableEq Bytes] [DecidableEq Body]

/-! ## Verified manifests -/

variable {draft : SchemaMigrationDraft Digest Body} {source : DeclaredSchema codec}

omit [DecidableEq Bytes] [DecidableEq Body] in
theorem of_verifyHeader {header : ManifestHeader Digest}
    (verified : verifyHeader draft source context = .ok header) :
    managedSchemaState source context = .ok header.sourceState ∧
      loweringProfileBinding context.semanticProfile = .ok header.loweringProfile := by
  obtain ⟨sourceState, managed, verified⟩ := bind_eq_ok.mp verified
  obtain ⟨-, verified⟩ := unless_eq_ok.mp verified
  obtain ⟨_, -, verified⟩ := bind_eq_ok.mp verified
  obtain ⟨lowering, bound, verified⟩ := bind_eq_ok.mp verified
  rw [bound, mapError_eq_ok.mp managed]
  cases claimed : draft.profileBridge with
  | none | some profile =>
    simp only [claimed, bind_eq_ok, pure_eq_ok] at verified
    obtain ⟨_, -, _, -, verified⟩ := verified
    subst verified
    exact ⟨rfl, rfl⟩

variable {rules : SafetyRules codec Condition Body}
variable {manifest : VerifiedSchemaMigrationManifest codec Body}

theorem of_buildVerifiedManifest
    (built : buildVerifiedManifest rules draft source context = .ok manifest) :
    managedSchemaState manifest.targetSchema context = .ok manifest.targetState ∧
      manifest.managedScope = context.scopeId ∧ manifest.semanticProfile = context.semanticProfile ∧
      loweringProfileBinding context.semanticProfile = .ok manifest.loweringProfile := by
  obtain ⟨header, verified, built⟩ := bind_eq_ok.mp built
  obtain ⟨replayed, -, built⟩ := bind_eq_ok.mp built
  obtain ⟨-, built⟩ := unless_eq_ok.mp built
  obtain ⟨targetState, managed, built⟩ := bind_eq_ok.mp built
  obtain ⟨_, -, built⟩ := bind_eq_ok.mp built
  rw [pure_eq_ok] at built
  subst built
  exact ⟨mapError_eq_ok.mp managed, rfl, rfl, (of_verifyHeader verified).2⟩

structure Authored (id : MigrationId) (parents : List MigrationId) (delta : SchemaDelta Digest)
    (source : DeclaredSchema codec) (context : ManagedDeltaContext)
    (manifest : VerifiedSchemaMigrationManifest codec Body) : Prop where
  sameId : manifest.id = id
  sameParents : manifest.parents = parents
  notLegacy : manifest.isLegacyBridge = false
  noBridge : manifest.profileBridge = none
  sourceManaged : managedSchemaState source context = .ok manifest.sourceState
  targetManaged : managedSchemaState manifest.targetSchema context = .ok manifest.targetState
  sameProfile : manifest.semanticProfile = context.semanticProfile
  lowering : loweringProfileBinding context.semanticProfile = .ok manifest.loweringProfile
  applied : applyDelta source delta context = .ok manifest.targetSchema

theorem authored_of_authorManifest {id : MigrationId} {parents : List MigrationId}
    {delta inverse : SchemaDelta Digest} (inverted : inverseDelta delta = .ok inverse)
    {target : DeclaredSchema codec} {withReverse : Bool}
    (authored : authorManifest rules id parents delta source target context
        withReverse = .ok (.ok manifest)) :
    Authored id (parents.insertionSort (· ≤ ·)) delta source context manifest := by
  obtain ⟨assertions, step, draft, asserted, -, sameDelta, -, drafted,
    built⟩ := authorManifest_eq_ok inverted authored
  obtain ⟨targetManaged, -, sameProfile, lowering⟩ := of_buildVerifiedManifest built
  obtain ⟨sameId, sameParents, sameSteps, noLegacy, -⟩ := SchemaMigrationDraft.of_new drafted
  obtain ⟨header, verified, built⟩ := bind_eq_ok.mp built
  obtain ⟨sourceManaged, noBridge⟩ := header_of_new drafted verified
  obtain ⟨replayed, run, built⟩ := bind_eq_ok.mp built
  obtain ⟨-, built⟩ := unless_eq_ok.mp built
  obtain ⟨_, -, built⟩ := bind_eq_ok.mp built
  obtain ⟨sourceState, bridged, built⟩ := bind_eq_ok.mp built
  rw [pure_eq_ok] at built
  subst built
  simp only [bridgedState, noBridge] at bridged
  cases bridged
  rw [sameSteps, foldlM_append_eq_ok] at run
  obtain ⟨collected, collecting, run⟩ := run
  obtain ⟨_, stepped, finished⟩ := foldlM_cons_eq_ok.mp run
  rw [List.foldlM_nil, pure_eq_ok] at finished
  subst finished
  obtain ⟨sameSchema, -⟩ :=
    replay_assertions (isAssertion_of_authorAllAssertions asserted) collecting
  have applied := (of_replayDelta stepped).1
  rw [sameSchema, sameDelta] at applied
  exact {
    sameId := sameId
    sameParents := sameParents
    notLegacy := by simp [VerifiedSchemaMigrationManifest.isLegacyBridge, noLegacy]
    noBridge := noBridge
    sourceManaged := sourceManaged
    targetManaged := targetManaged
    sameProfile := sameProfile
    lowering := lowering
    applied := applied
  }

/-! ## Generation -/

section Generation

variable {rules : SafetyRules codec Condition Body} {graph : MigrationHistoryGraph codec Body}
  {request : MigrationGenerationRequest codec}
  {manifest : VerifiedSchemaMigrationManifest codec Body}

variable {source : DeclaredSchema codec} {parents : List MigrationId}

omit [DecidableEq Bytes] [DecidableEq Body] in
theorem generationSource_cases (found : generationSource graph request = .ok (source, parents)) :
    graph.heads = parents ∧ (parents = [] ∧ source = request.genesisSource ∨
        ∃ head stored, parents = [head] ∧ graph.manifests[head]? = some stored ∧
          source = stored.targetSchema) := by
  obtain ⟨head, isHead, found⟩ := bind_eq_ok.mp found
  unfold MigrationHistoryGraph.defaultHead at isHead
  cases shape : graph.heads with
  | nil =>
    simp only [shape] at isHead
    cases isHead
    cases found
    exact ⟨rfl, .inl ⟨rfl, rfl⟩⟩
  | cons first rest =>
    cases rest with
    | cons second others =>
      simp only [shape] at isHead
      cases isHead
    | nil =>
      simp only [shape] at isHead
      cases isHead
      cases stored : graph.manifests[first]? with
      | none =>
        simp only [stored] at found
        cases found
      | some manifest =>
        simp only [stored] at found
        cases found
        exact ⟨rfl, .inr ⟨first, manifest, rfl, stored, rfl⟩⟩

structure GeneratedFrom (rules : SafetyRules codec Condition Body)
    (graph : MigrationHistoryGraph codec Body) (request : MigrationGenerationRequest codec)
    (source : DeclaredSchema codec) (delta : SchemaDelta Digest)
    (manifest : VerifiedSchemaMigrationManifest codec Body) : Prop where
  sameApp : ∀ id ∈ graph.manifests, id.appLabel = request.appLabel
  found : generationSource graph request = .ok (source, manifest.parents)
  diffed : diffManaged source request.desired request.context = .ok delta
  named : manifest.id.appLabel = request.appLabel
  fresh : manifest.id ∉ graph.manifests
  built : ∃ draft, buildVerifiedManifest rules draft source request.context = .ok manifest
  authored : Authored manifest.id manifest.parents delta source request.context manifest

omit [DecidableEq Bytes] [DecidableEq Body] in
theorem insertionSort_heads (found : generationSource graph request = .ok (source, parents)) :
    parents.insertionSort (· ≤ ·) = parents := by
  obtain ⟨-, empty | single⟩ := generationSource_cases found
  · rw [empty.1]
    rfl
  · obtain ⟨head, -, single, -⟩ := single
    rw [single]
    rfl

theorem exists_generatedFrom
    (generated : generateNextMigration rules graph request = .ok (.generated manifest)) :
    ∃ source delta, GeneratedFrom rules graph request source delta manifest := by
  unfold generateNextMigration at generated
  obtain ⟨sameApp, generated⟩ := unless_eq_ok.mp generated
  obtain ⟨⟨source, parents⟩, found, generated⟩ := bind_eq_ok.mp generated
  obtain ⟨_, -, generated⟩ := bind_eq_ok.mp generated
  obtain ⟨_, -, generated⟩ := bind_eq_ok.mp generated
  simp only at generated
  split at generated
  · cases generated
  · obtain ⟨delta, diffed, generated⟩ := bind_eq_ok.mp generated
    rw [mapError_eq_ok] at diffed
    obtain ⟨transition, known⟩ := exists_diffed diffed
    obtain ⟨inverse, inverted, -⟩ := known.exists_inverseDelta
    obtain ⟨id, named, generated⟩ := bind_eq_ok.mp generated
    obtain ⟨fresh, generated⟩ := unless_eq_ok.mp generated
    obtain ⟨attempt, attempted, generated⟩ := bind_eq_ok.mp generated
    have authored : ∃ withReverse, authorManifest rules id parents delta source request.desired
            request.context withReverse = .ok (.ok manifest) := by
      cases attempt with
      | ok accepted =>
        cases generated
        exact ⟨true, attempted⟩
      | error failure =>
        simp only at generated
        split at generated
        · obtain ⟨fallback, retried, generated⟩ := bind_eq_ok.mp generated
          obtain ⟨accepted, rfl, generated⟩ := bind_eq_ok.mp generated
          cases generated
          exact ⟨false, retried⟩
        · cases generated
    obtain ⟨withReverse, authored⟩ := authored
    obtain ⟨_, _, draft, -, -, -, -, -, built⟩ := authorManifest_eq_ok inverted authored
    have isAuthored := authored_of_authorManifest inverted authored
    rw [insertionSort_heads found] at isAuthored
    have sameId := isAuthored.sameId
    have sameParents := isAuthored.sameParents
    subst sameId sameParents
    refine ⟨source, delta, {
      sameApp := ?_
      found := found
      diffed := diffed
      named := ?_
      fresh := fresh
      built := ⟨draft, built⟩
      authored := isAuthored
    }⟩
    · intro id member
      simp only [List.any_eq_true, Std.ExtTreeMap.mem_keys, ne_eq,
        decide_not, Bool.not_eq_eq_eq_not, Bool.not_true,
        decide_eq_false_iff_not, not_exists, not_and, not_not] at sameApp
      exact sameApp id member
    · unfold MigrationId.new at named
      split at named
      · split at named
        · rw [← Except.ok.inj named]
        · cases named
      · cases named

namespace GeneratedFrom

variable {source : DeclaredSchema codec} {delta : SchemaDelta Digest}
  (made : GeneratedFrom rules graph request source delta manifest)
include made

theorem sameDeclaration : SameDeclaration manifest.targetSchema request.desired := by
  obtain ⟨transition, known⟩ := exists_diffed made.diffed
  exact (transition.of_applyDelta known.comparable known.valid.bounded
    known.planned known.targetManaged made.authored.applied).1

theorem onTop : graph.manifests.OnTop manifest where
  fresh := made.fresh
  notLegacy := made.authored.notLegacy
  notBridge := by
    rw [VerifiedSchemaMigrationManifest.isProfileBridge, made.authored.noBridge]
    rfl
  onHeads := by
    intro id
    rw [← (generationSource_cases made.found).1, Manifests.mem_heads]

theorem validateProfileEdge_eq_ok_iff {draft : SchemaMigrationDraft Digest Body}
    {before : DeclaredSchema codec} {context : ManagedDeltaContext}
    {stored : VerifiedSchemaMigrationManifest codec Body}
    (built : buildVerifiedManifest rules draft before context = .ok stored) :
    validateProfileEdge manifest stored = .ok () ↔
      stored.semanticProfile = request.context.semanticProfile := by
  obtain ⟨-, -, sameProfile, lowering⟩ := of_buildVerifiedManifest built
  unfold validateProfileEdge
  simp only [made.authored.noBridge]
  rw [made.authored.sameProfile, guard_eq_ok]
  constructor
  · intro continued
    obtain ⟨continued, -⟩ := continued
    rw [not_or, not_not] at continued
    exact continued.1
  · intro continued
    refine ⟨?_, rfl⟩
    rw [not_or, not_not, not_not]
    refine ⟨continued, ?_⟩
    rw [← sameProfile, continued, made.authored.lowering] at lowering
    exact (Except.ok.inj lowering).symm

theorem upToDate {extended : MigrationHistoryGraph codec Body}
    (isExtended : extended.manifests = graph.manifests.insert manifest.id manifest)
    (soleHead : extended.heads = [manifest.id]) :
    generateNextMigration rules extended request = .ok .upToDate := by
  have stored : extended.manifests[manifest.id]? = some manifest := by
    rw [isExtended, OrderedMap.getElem?_insert_eq, if_pos rfl]
  have found : generationSource extended request = .ok (manifest.targetSchema, [manifest.id]) := by
    unfold generationSource MigrationHistoryGraph.defaultHead
    simp only [soleHead, bind, Except.bind, stored]
    rfl
  have sameApp : ¬ (extended.manifests.keys.any fun id =>
        id.appLabel ≠ request.appLabel) = true := by
    simp only [List.any_eq_true, Std.ExtTreeMap.mem_keys, decide_eq_true_eq,
      ne_eq, not_exists, not_and, not_not]
    intro id member
    rw [isExtended, Std.ExtTreeMap.mem_insert, compare_eq_iff_eq] at member
    rcases member with same | old
    · rw [← same]
      exact made.named
    · exact made.sameApp id old
  have desired := made.authored.targetManaged
  rw [made.sameDeclaration.managedSchemaState_eq] at desired
  unfold generateNextMigration
  simp only [if_neg sameApp, found, bind, Except.bind,
    made.authored.targetManaged, desired, Except.mapError, if_true]
  rfl

end GeneratedFrom

/--
A generated migration reaches exactly the desired facts. It starts in the
state that the genesis schema or the target of the sole head has in the
request's context, which is the head's own state exactly if the request keeps
scope and profile. The history accepts it exactly if the request keeps the
profile of the head, and then has it as its sole head and is up to date.
-/
theorem generated_history {manifests : List (VerifiedSchemaMigrationManifest codec Body)}
    (accepted : MigrationHistoryGraph.fromVerified manifests = .ok graph)
    (verified : ∀ stored ∈ manifests, ∃ draft source context,
        buildVerifiedManifest rules draft source context = .ok stored)
    (generated : generateNextMigration rules graph request = .ok (.generated manifest)) :
    manifest.targetSchema.facts = request.desired.facts ∧ (graph.heads = [] ∧
          managedSchemaState request.genesisSource request.context = .ok manifest.sourceState ∨
        ∃ head stored, graph.heads = [head] ∧ graph.manifests[head]? = some stored ∧
            managedSchemaState stored.targetSchema request.context = .ok manifest.sourceState ∧
            (stored.targetState = manifest.sourceState ↔
              stored.managedScope = request.context.scopeId ∧ stored.semanticProfile =
                  request.context.semanticProfile)) ∧ ((∃ extended,
          MigrationHistoryGraph.fromVerified (manifests ++ [manifest]) = .ok extended) ↔
        ∀ head ∈ graph.heads, ∀ stored, graph.manifests[head]? = some stored →
            stored.semanticProfile = request.context.semanticProfile) ∧ ∀ extended,
        MigrationHistoryGraph.fromVerified (manifests ++ [manifest]) = .ok extended →
          extended.heads = [manifest.id] ∧
            generateNextMigration rules extended request = .ok .upToDate := by
  obtain ⟨source, delta, made⟩ := exists_generatedFrom generated
  have onTop := made.onTop
  obtain ⟨heads, origin⟩ := generationSource_cases made.found
  have built : ∀ {head : MigrationId} {stored}, graph.manifests[head]? = some stored →
        ∃ draft source context, buildVerifiedManifest rules draft source context = .ok stored := by
    intro head stored lookup
    exact verified stored ((MigrationHistoryGraph.getElem?_of_fromVerified accepted).mp lookup).1
  refine ⟨made.sameDeclaration.facts, ?_, ?_, ?_⟩
  · rcases origin with first | next
    · obtain ⟨noParents, isGenesis⟩ := first
      refine .inl ⟨heads.trans noParents, ?_⟩
      rw [← isGenesis]
      exact made.authored.sourceManaged
    · obtain ⟨head, stored, single, lookup, isTarget⟩ := next
      have sourceManaged := made.authored.sourceManaged
      rw [isTarget] at sourceManaged
      refine .inr ⟨head, stored, heads.trans single, lookup, sourceManaged, ?_⟩
      obtain ⟨draft, before, context, verifiedHead⟩ := built lookup
      obtain ⟨targetManaged, sameScope, sameProfile, -⟩ := of_buildVerifiedManifest verifiedHead
      rw [sameScope, sameProfile]
      exact managedSchemaState_unique targetManaged sourceManaged
  · rw [MigrationHistoryGraph.exists_fromVerified_snoc_iff accepted onTop, heads]
    constructor
    · intro continues head isHead stored lookup
      obtain ⟨draft, before, context, verifiedHead⟩ := built lookup
      exact (made.validateProfileEdge_eq_ok_iff verifiedHead).mp
        (continues head stored isHead lookup)
    · intro continued head stored isHead lookup
      obtain ⟨draft, before, context, verifiedHead⟩ := built lookup
      exact (made.validateProfileEdge_eq_ok_iff verifiedHead).mpr
        (continued head isHead stored lookup)
  · intro extended grown
    obtain ⟨isExtended, soleHead⟩ := MigrationHistoryGraph.heads_of_snoc accepted onTop grown
    exact ⟨soleHead, made.upToDate isExtended soleHead⟩

end Generation

def generatedManifest : Except Diagnostic (MigrationGenerationOutcome codec Body) →
      Except Diagnostic (VerifiedSchemaMigrationManifest codec Body)
  | .ok (.generated manifest) => .ok manifest
  | .ok .upToDate => .error ⟨"up_to_date"⟩
  | .error failure => .error failure

omit [DecidableEq Bytes] [DecidableEq Body] in
theorem eq_generated_of_generatedManifest
    {outcome : Except Diagnostic (MigrationGenerationOutcome codec Body)}
    (known : generatedManifest outcome = .ok manifest) : outcome = .ok (.generated manifest) := by
  cases outcome with
  | error failure => cases known
  | ok result =>
    cases result with
    | upToDate => cases known
    | generated made =>
      cases known
      rfl

/-- The migration generated for the first documentation change. -/
def firstManifest : VerifiedSchemaMigrationManifest plainCodec Unit :=
  Checked.get (generatedManifest (generateNextMigration documentationRules emptyHistory
        (firstMigration documented redocumented)))
    (by decide +kernel)

def firstHistory : MigrationHistoryGraph plainCodec Unit :=
  Checked.get (MigrationHistoryGraph.fromVerified [firstManifest]) (by decide +kernel)

theorem firstManifest_verified : ∀ stored ∈ [firstManifest], ∃ draft source context,
      buildVerifiedManifest documentationRules draft source context = .ok stored := by
  intro stored member
  rw [List.mem_singleton] at member
  subst member
  have generated : generateNextMigration documentationRules emptyHistory
          (firstMigration documented redocumented) = .ok (.generated firstManifest) :=
    eq_generated_of_generatedManifest (eq_ok_get _ _)
  obtain ⟨source, _, made⟩ := exists_generatedFrom generated
  obtain ⟨draft, built⟩ := made.built
  exact ⟨draft, source, _, built⟩

/-- The request that takes the change back, on the profile of the head. -/
def revertingRequest : MigrationGenerationRequest plainCodec := firstMigration documented documented

/-- The request that takes the change back, on the newer profile. -/
def upgradingRequest : MigrationGenerationRequest plainCodec :=
  { revertingRequest with
    context := { redefiningContext with semanticProfile := ⟨"typedb-3.13.6/v1"⟩ } }

/-- The migration generated on the profile of the head. -/
def revertingManifest : VerifiedSchemaMigrationManifest plainCodec Unit :=
  Checked.get
    (generatedManifest (generateNextMigration documentationRules firstHistory revertingRequest))
    (by decide +kernel)

/-- The migration generated on the newer profile. -/
def upgradingManifest : VerifiedSchemaMigrationManifest plainCodec Unit :=
  Checked.get
    (generatedManifest (generateNextMigration documentationRules firstHistory upgradingRequest))
    (by decide +kernel)

/--
A migration generated on a newer profile than the head's starts in another
state than the head's, and the history with it is rejected.
-/
theorem upgrading_generation_rejected :
    MigrationHistoryGraph.fromVerified [firstManifest] = .ok firstHistory ∧
      (∀ stored ∈ [firstManifest], ∃ draft source context,
        buildVerifiedManifest documentationRules draft source context = .ok stored) ∧
      generateNextMigration documentationRules firstHistory
          upgradingRequest = .ok (.generated upgradingManifest) ∧
      firstHistory.heads = [firstManifest.id] ∧
      firstManifest.targetState ≠ upgradingManifest.sourceState ∧ Checked.failure?
          (MigrationHistoryGraph.fromVerified [firstManifest, upgradingManifest]) =
        some ⟨"migration_history_profile_change_without_bridge"⟩ := by
  refine ⟨eq_ok_get _ _, firstManifest_verified,
    eq_generated_of_generatedManifest (eq_ok_get _ _), ?_, ?_, ?_⟩
  · decide +kernel
  · decide +kernel
  · decide +kernel

/-- A migration generated on the profile of the head extends the history. -/
theorem reverting_generation_accepted :
    (∃ extended, MigrationHistoryGraph.fromVerified [firstManifest, revertingManifest] =
          .ok extended ∧ extended.heads = [revertingManifest.id] ∧
        generateNextMigration documentationRules extended revertingRequest = .ok .upToDate) ∧
      revertingManifest.targetSchema.facts = documented.facts ∧
      firstManifest.targetState = revertingManifest.sourceState := by
  have history :=
    generated_history (show MigrationHistoryGraph.fromVerified [firstManifest] =
        .ok firstHistory from eq_ok_get _ _) firstManifest_verified
      (show generateNextMigration documentationRules firstHistory
          revertingRequest = .ok (.generated revertingManifest) from
        eq_generated_of_generatedManifest (eq_ok_get _ _))
  obtain ⟨facts, -, -, upToDate⟩ := history
  have grown :=
    eq_ok_get (MigrationHistoryGraph.fromVerified ([firstManifest] ++ [revertingManifest]))
      (by decide +kernel)
  refine ⟨⟨_, grown, upToDate _ grown⟩, facts, ?_⟩
  decide +kernel

end TypeBridge.Migration
