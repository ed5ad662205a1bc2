import TypeBridge.Migration.GeneratedHistory
import TypeBridge.Migration.PlanClosure

namespace TypeBridge.Migration

open Library Library.ReadyOrder Schema

/-!
# The lineage of an accepted history

The checks of a history are local: they compare a manifest with its parents
and ask what is reachable from a bridge. Along the edges they carry over to
the whole history. A profile bridge splits it into ancestors on the old
profile and descendants on the new one, and a legacy bridge is above every
other manifest.
-/

variable {Bytes Digest Body : Type} {codec : Codec Bytes Digest} [DecidableEq Digest]

namespace Manifests

variable {byId : Manifests codec Body}

def profiles (byId : Manifests codec Body) (id : MigrationId) :
    Option (SemanticProfileId × MigrationProfile) :=
  byId[id]?.map fun manifest => (manifest.semanticProfile, manifest.loweringProfile)

variable {id : MigrationId} {manifest : VerifiedSchemaMigrationManifest codec Body}

theorem profiles_of_stored (stored : byId[id]? = some manifest) :
    byId.profiles id = some (manifest.semanticProfile, manifest.loweringProfile) := by
  unfold profiles
  rw [stored]
  rfl

variable {other : MigrationId}

theorem rank_lt_of_descends {rank : MigrationId → Nat}
    (decreasing : ∀ id, ∀ parent ∈ byId.parents id, rank parent < rank id)
    (descends : byId.Descends id other) : rank other < rank id := by
  induction descends with
  | single isParent => exact decreasing _ _ isParent
  | tail _ isParent ih => exact (decreasing _ _ isParent).trans ih

theorem Acyclic.not_descends_self (acyclic : byId.Acyclic) (id : MigrationId) :
    ¬ byId.Descends id id := by
  obtain ⟨rank, decreasing⟩ := acyclic
  intro descends
  exact (rank_lt_of_descends decreasing descends).false

theorem exists_root (admissible : byId.Admissible) (member : id ∈ byId) :
    ∃ root ∈ byId, byId.parents root = [] ∧ (root = id ∨ byId.Descends id root) := by
  obtain ⟨rank, decreasing⟩ := admissible.acyclic
  -- Parents have smaller ranks, so the walk upwards ends.
  induction isRank : rank id using Nat.strong_induction_on generalizing id with
  | h bound ih =>
    cases shape : byId.parents id with
    | nil => exact ⟨id, member, shape, .inl rfl⟩
    | cons parent rest =>
      have isParent : parent ∈ byId.parents id := by
        rw [shape]
        exact List.mem_cons_self
      have smaller := decreasing id parent isParent
      rw [isRank] at smaller
      obtain ⟨root, rootMember, isRoot, above⟩ := ih (rank parent) smaller
          ((admissible.known id).2 parent isParent) rfl
      refine ⟨root, rootMember, isRoot, .inr ?_⟩
      rcases above with same | above
      · rw [same]
        exact .single isParent
      · exact .head isParent above

theorem exists_stored (member : id ∈ byId) : ∃ manifest, byId[id]? = some manifest :=
  Option.isSome_iff_exists.mp (Std.ExtTreeMap.isSome_getElem?_iff_mem.mpr member)

theorem Admissible.descends_legacy (admissible : byId.Admissible) {bridgeId : MigrationId}
    {bridge : VerifiedSchemaMigrationManifest codec Body} (stored : byId[bridgeId]? = some bridge)
    (isBridge : bridge.isLegacyBridge = true) (member : id ∈ byId) :
    id = bridgeId ∨ byId.Descends id bridgeId := by
  obtain ⟨root, rootMember, isRoot, above⟩ := exists_root admissible member
  obtain ⟨manifest, rootStored⟩ := exists_stored rootMember
  rw [parents_of_stored rootStored] at isRoot
  have isOnly : root = bridgeId :=
    admissible.legacy bridgeId root bridge manifest stored isBridge rootStored (.inr isRoot)
  rw [isOnly] at above
  rcases above with same | above
  · exact .inl same.symm
  · exact .inr above

theorem Admissible.profiles_parent (admissible : byId.Admissible) {parent : MigrationId}
    (stored : byId[id]? = some manifest) (noBridge : manifest.profileBridge = none)
    (isParent : parent ∈ byId.parents id) : byId.profiles parent = byId.profiles id := by
  obtain ⟨parentManifest, parentStored⟩ := exists_stored ((admissible.known id).2 parent isParent)
  rw [parents_of_stored stored] at isParent
  have continued :=
    admissible.lineage.continued id parent manifest parentManifest stored isParent parentStored
  simp only [validateProfileEdge, noBridge, Checked.guard_eq_ok, not_or, not_ne_iff] at continued
  rw [profiles_of_stored stored, profiles_of_stored parentStored, continued.1.1, continued.1.2]

section ProfileBridge

variable (admissible : byId.Admissible) {bridgeId : MigrationId}
  {bridge : VerifiedSchemaMigrationManifest codec Body} {old : MigrationProfile}
  (bridgeStored : byId[bridgeId]? = some bridge) (isBridge : bridge.profileBridge = some old)
include admissible bridgeStored isBridge

variable {id : MigrationId}

theorem Admissible.noBridge_of_ne {manifest : VerifiedSchemaMigrationManifest codec Body}
    (stored : byId[id]? = some manifest) (different : id ≠ bridgeId) :
    manifest.profileBridge = none := by
  by_contra claimed
  apply different
  refine admissible.lineage.single bridgeId id bridge manifest bridgeStored ?_ stored ?_
  · rw [VerifiedSchemaMigrationManifest.isProfileBridge, isBridge]
    rfl
  · exact Option.isSome_iff_ne_none.mpr claimed

theorem Admissible.profiles_ancestor (above : byId.Descends bridgeId id) :
    byId.profiles id = some (old.semanticProfileId, old) := by
  induction above with
  | @single parent isParent =>
    obtain ⟨manifest, stored⟩ := exists_stored ((admissible.known bridgeId).2 parent isParent)
    rw [parents_of_stored bridgeStored] at isParent
    have continued :=
      admissible.lineage.continued bridgeId parent bridge manifest bridgeStored isParent stored
    simp only [validateProfileEdge, isBridge, Checked.guard_eq_ok, not_or, not_ne_iff] at continued
    rw [profiles_of_stored stored, continued.1.1, continued.1.2]
  | @tail child parent above isParent ih =>
    obtain ⟨manifest, stored, -⟩ := exists_of_mem_parents isParent
    have different : child ≠ bridgeId := by
      intro same
      rw [same] at above
      exact admissible.acyclic.not_descends_self bridgeId above
    rw [admissible.profiles_parent stored
      (admissible.noBridge_of_ne bridgeStored isBridge stored different) isParent]
    exact ih

theorem Admissible.profiles_descendant (below : byId.Descends id bridgeId) :
    byId.profiles id = byId.profiles bridgeId := by
  induction below using Relation.TransGen.head_induction_on with
  | @single child isParent =>
    obtain ⟨manifest, stored, -⟩ := exists_of_mem_parents isParent
    have different : child ≠ bridgeId := by
      intro same
      rw [same] at isParent
      exact (admissible.known bridgeId).1 isParent
    exact (admissible.profiles_parent stored
      (admissible.noBridge_of_ne bridgeStored isBridge stored different) isParent).symm
  | @head child parent isParent below ih =>
    obtain ⟨manifest, stored, -⟩ := exists_of_mem_parents isParent
    have different : child ≠ bridgeId := by
      intro same
      rw [same] at isParent
      exact admissible.acyclic.not_descends_self bridgeId (.head isParent below)
    rw [← ih]
    exact (admissible.profiles_parent stored
      (admissible.noBridge_of_ne bridgeStored isBridge stored different) isParent).symm

end ProfileBridge

theorem Admissible.profiles_connected (admissible : byId.Admissible)
    (noBridge : ∀ (id : MigrationId) manifest, byId[id]? = some manifest →
        manifest.profileBridge = none)
    (connected : Relation.EqvGen (fun child parent => parent ∈ byId.parents child) id other) :
    byId.profiles id = byId.profiles other := by
  induction connected with
  | rel child parent isParent =>
    obtain ⟨manifest, stored, -⟩ := exists_of_mem_parents isParent
    exact (admissible.profiles_parent stored (noBridge child manifest stored) isParent).symm
  | refl id => rfl
  | symm _ _ _ ih => exact ih.symm
  | trans _ _ _ _ _ first second => exact first.trans second

end Manifests

namespace MigrationHistoryGraph

theorem topological_exact (graph : MigrationHistoryGraph codec Body) :
    graph.topological.Nodup ∧ ∀ id, id ∈ graph.topological ↔ id ∈ graph.manifests := by
  obtain ⟨listed, orders⟩ := orderSubset_eq_ok Std.ExtTreeMap.nodup_keys (by
        intro other _ needed member
        simp only [List.mem_toFinset, List.mem_filter, decide_eq_true_eq] at member ⊢
        exact member.2.1)
      graph.ordered
  refine ⟨orders.nodup, ?_⟩
  intro id
  rw [listed, Std.ExtTreeMap.mem_keys]

end MigrationHistoryGraph

/--
An accepted history has one lineage: parents are known and acyclic; a profile
bridge lies amid the history, with its ancestors on the old and its
descendants on the new profile; without one, connected manifests share a
profile; a legacy bridge is above every other manifest; and the topological
list has every manifest exactly once, parents first.
-/
theorem accepted_history_lineage
    {manifests : List (VerifiedSchemaMigrationManifest codec Body)}
    {graph : MigrationHistoryGraph codec Body}
    (accepted : MigrationHistoryGraph.fromVerified manifests = .ok graph) :
    (∀ (id : MigrationId) manifest,
      graph.manifests[id]? = some manifest ↔
        manifest ∈ manifests ∧ manifest.id = id) ∧
    (∀ id, ¬ graph.manifests.Descends id id) ∧
    (∀ id, ∀ parent ∈ graph.manifests.parents id, parent ∈ graph.manifests) ∧
    (∀ (bridgeId : MigrationId) bridge old,
      graph.manifests[bridgeId]? = some bridge →
      bridge.profileBridge = some old →
      ∀ (id : MigrationId) manifest,
        graph.manifests[id]? = some manifest →
          id = bridgeId ∨
          (graph.manifests.Descends bridgeId id ∧
            manifest.semanticProfile = old.semanticProfileId ∧
            manifest.loweringProfile = old) ∨
          (graph.manifests.Descends id bridgeId ∧
            manifest.semanticProfile = bridge.semanticProfile ∧
            manifest.loweringProfile = bridge.loweringProfile)) ∧
    ((∀ (id : MigrationId) manifest,
        graph.manifests[id]? = some manifest →
          manifest.profileBridge = none) →
      ∀ (id other : MigrationId) manifest otherManifest,
        graph.manifests[id]? = some manifest →
        graph.manifests[other]? = some otherManifest →
        Relation.EqvGen
          (fun child parent => parent ∈ graph.manifests.parents child) id other →
        manifest.semanticProfile = otherManifest.semanticProfile ∧
          manifest.loweringProfile = otherManifest.loweringProfile) ∧
    (∀ (bridgeId : MigrationId) bridge,
      graph.manifests[bridgeId]? = some bridge →
      bridge.isLegacyBridge = true →
      ∀ id ∈ graph.manifests,
        id = bridgeId ∨ graph.manifests.Descends id bridgeId) ∧
    graph.topological.Nodup ∧
    (∀ id, id ∈ graph.topological ↔ id ∈ graph.manifests) ∧
    ∀ id, ∀ parent ∈ graph.manifests.parents id,
      graph.topological.idxOf parent < graph.topological.idxOf id := by
  obtain ⟨-, admissible⟩ := MigrationHistoryGraph.of_fromVerified accepted
  obtain ⟨listedOnce, listedAll⟩ := graph.topological_exact
  refine ⟨?_, admissible.acyclic.not_descends_self,
    fun id => (admissible.known id).2, ?_, ?_, ?_, listedOnce, listedAll, ?_⟩
  · intro id manifest
    exact MigrationHistoryGraph.getElem?_of_fromVerified accepted
  · intro bridgeId bridge old bridgeStored isBridge id manifest stored
    have isProfileBridge : bridge.isProfileBridge = true := by
      rw [VerifiedSchemaMigrationManifest.isProfileBridge, isBridge]
      rfl
    rcases admissible.lineage.connected bridgeId id bridge manifest
      bridgeStored isProfileBridge stored with same | above | below
    · exact .inl same
    · have bound := admissible.profiles_ancestor bridgeStored isBridge above
      rw [Manifests.profiles_of_stored stored, Option.some.injEq, Prod.mk.injEq] at bound
      exact .inr (.inl ⟨above, bound⟩)
    · have bound := admissible.profiles_descendant bridgeStored isBridge below
      rw [Manifests.profiles_of_stored stored,
        Manifests.profiles_of_stored bridgeStored, Option.some.injEq, Prod.mk.injEq] at bound
      exact .inr (.inr ⟨below, bound⟩)
  · intro noBridge id other manifest otherManifest stored otherStored connected
    have bound := admissible.profiles_connected noBridge connected
    rw [Manifests.profiles_of_stored stored,
      Manifests.profiles_of_stored otherStored, Option.some.injEq, Prod.mk.injEq] at bound
    exact bound
  · intro bridgeId bridge bridgeStored isBridge id member
    exact admissible.descends_legacy bridgeStored isBridge member
  · intro id parent isParent
    exact (MigrationHistoryGraph.idxOf_parent_lt isParent).1

/-- The bridge from the profile of the first change to the newer one. -/
def bridgeManifest : VerifiedSchemaMigrationManifest plainCodec Unit :=
  Checked.get (do
      let id ← MigrationId.new "app" "0002_bridge"
      buildVerifiedManifest documentationRules
        { id := id
          parents := [firstManifest.id]
          steps := []
          legacyParents := []
          legacyAppliedSet := none
          profileBridge := some .typedb3121 }
        firstManifest.targetSchema upgradingRequest.context)
    (by decide +kernel)

/-- The first change and the bridge after it. -/
def bridgedHistory : MigrationHistoryGraph plainCodec Unit :=
  Checked.get
    (MigrationHistoryGraph.fromVerified [firstManifest, bridgeManifest]) (by decide +kernel)

/-- The change generated after the bridge. -/
def bridgedManifest : VerifiedSchemaMigrationManifest plainCodec Unit :=
  Checked.get
    (generatedManifest (generateNextMigration documentationRules bridgedHistory upgradingRequest))
    (by decide +kernel)

/-- A bridge between two changes has the one above and the other below it. -/
theorem bridgedManifests_lineage : ∃ graph, MigrationHistoryGraph.fromVerified
          [firstManifest, bridgeManifest, bridgedManifest] = .ok graph ∧
        graph.manifests.Descends bridgeManifest.id firstManifest.id ∧
        graph.manifests.Descends bridgedManifest.id bridgeManifest.id := by
  have accepted :=
    Checked.eq_ok_get (MigrationHistoryGraph.fromVerified
        [firstManifest, bridgeManifest, bridgedManifest]) (by decide +kernel)
  have lineage := accepted_history_lineage accepted
  obtain ⟨stored, -, -, split, -⟩ := lineage
  have bridgeStored :=
    (stored bridgeManifest.id bridgeManifest).mpr ⟨by simp, rfl⟩
  have isBridge : bridgeManifest.profileBridge = some .typedb3121 := by decide +kernel
  refine ⟨_, accepted, ?_, ?_⟩
  · rcases split _ _ _ bridgeStored isBridge firstManifest.id firstManifest
      ((stored _ _).mpr ⟨by simp, rfl⟩) with same | above | below
    · exact absurd same (by decide +kernel)
    · exact above.1
    · exact absurd below.2.1 (by decide +kernel)
  · rcases split _ _ _ bridgeStored isBridge bridgedManifest.id
      bridgedManifest ((stored _ _).mpr ⟨by simp, rfl⟩) with same | above | below
    · exact absurd same (by decide +kernel)
    · exact absurd above.2.1 (by decide +kernel)
    · exact below.1

end TypeBridge.Migration
