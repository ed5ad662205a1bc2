import TypeBridge.Library.Worklist
import TypeBridge.Migration.Manifest

namespace TypeBridge.Migration

open Library Library.ReadyOrder Schema
open Library.Checked hiding get

/-!
# Migration history graphs

A history graph holds verified manifests by identity. `fromVerified` accepts
only complete, acyclic histories of one lineage. Planning works on sets of
applied identities that are closed under parents: an apply plan lists the
missing ancestors of its targets with parents first, a rollback plan lists the
removed identities with children first, and ties are broken by identity.
-/

variable {Bytes Digest Body : Type} {codec : Codec Bytes Digest} [DecidableEq Digest]

/-- Verified manifests by identity. -/
abbrev Manifests (codec : Codec Bytes Digest) (Body : Type) :=
  Std.ExtTreeMap MigrationId (VerifiedSchemaMigrationManifest codec Body)

abbrev IdSet := Std.ExtTreeSet MigrationId

namespace Manifests

def parents (manifests : Manifests codec Body) (id : MigrationId) : List MigrationId :=
  match manifests[id]? with
  | some manifest => manifest.parents
  | none => []

/-- The manifests that name an identity as a parent. -/
def children (manifests : Manifests codec Body) (id : MigrationId) : List MigrationId :=
  manifests.keys.filter fun child => id ∈ manifests.parents child

end Manifests

/-- Order identities after the prerequisites among them, least ready first. -/
def orderSubset (required : List MigrationId) (prerequisites : MigrationId → Finset MigrationId) :
    Except Diagnostic (List MigrationId) :=
  let order := readyOrder (fun _ => ()) required prerequisites
  if order.length = required.length then .ok order
  else .error ⟨"migration_history_cycle"⟩

/-- Order required identities after their unapplied parents. -/
def orderApplySubset (manifests : Manifests codec Body) (required : List MigrationId)
    (applied : IdSet) : Except Diagnostic (List MigrationId) :=
  orderSubset required fun id =>
    ((manifests.parents id).filter fun parent => parent ∈ required ∧ parent ∉ applied).toFinset

def orderRollbackSubset (manifests : Manifests codec Body) (removals : List MigrationId) :
    Except Diagnostic (List MigrationId) :=
  orderSubset removals fun id => ((manifests.children id).filter (· ∈ removals)).toFinset

/-- Everything reachable along some edges in at least one step. -/
def reachable (ids : List MigrationId) (edges : MigrationId → List MigrationId)
    (start : MigrationId) : Finset MigrationId :=
  let bound := (edges start).length + (ids.map fun id => (edges id).length).sum
  let found : Except Diagnostic (Finset MigrationId) :=
    Worklist.closure (fun id => .ok (edges id)) (bound + 1) (edges start) ∅
  found.toOption.getD ∅

/-! ## Building a graph -/

/-- Store a manifest under its identity, if it is new. -/
def collectManifest (byId : Manifests codec Body)
    (manifest : VerifiedSchemaMigrationManifest codec Body) :
    Except Diagnostic (Manifests codec Body) :=
  if manifest.id ∈ byId then .error ⟨"migration_history_duplicate_id"⟩
  else .ok (byId.insert manifest.id manifest)

/-- Store manifests under their identities, each at most once. -/
def collectManifests (manifests : List (VerifiedSchemaMigrationManifest codec Body)) :
    Except Diagnostic (Manifests codec Body) :=
  manifests.foldlM collectManifest ∅

def validateLegacyBridges (byId : Manifests codec Body) : Except Diagnostic Unit :=
  match byId.toList.filter fun entry => entry.2.isLegacyBridge with
  | [] => .ok ()
  | [bridge] =>
      if byId.toList.any fun entry =>
          entry.2.parents.isEmpty && entry.1 ≠ bridge.1 then
        .error ⟨"migration_history_root_beside_legacy_bridge"⟩
      else .ok ()
  | _ => .error ⟨"migration_history_multiple_legacy_bridges"⟩

def validateParents (byId : Manifests codec Body) : Except Diagnostic (List Unit) :=
  byId.toList.mapM fun entry =>
    if entry.1 ∈ entry.2.parents then .error ⟨"migration_history_self_parent"⟩
    else if ∀ parent ∈ entry.2.parents, parent ∈ byId then .ok ()
    else .error ⟨"migration_history_missing_parent"⟩

def validateProfileEdge (manifest parent : VerifiedSchemaMigrationManifest codec Body) :
    Except Diagnostic Unit :=
  match manifest.profileBridge with
  | some profile =>
      if parent.semanticProfile ≠ profile.semanticProfileId ∨ parent.loweringProfile ≠ profile then
        .error ⟨"migration_history_profile_bridge_parent_mismatch"⟩
      else if parent.targetState ≠ manifest.sourceState then
        .error ⟨"migration_history_profile_bridge_state_mismatch"⟩
      else .ok ()
  | none =>
      if parent.semanticProfile ≠ manifest.semanticProfile ∨
          parent.loweringProfile ≠ manifest.loweringProfile then
        .error ⟨"migration_history_profile_change_without_bridge"⟩
      else .ok ()

def validateProfileLineage (byId : Manifests codec Body) :
    Except Diagnostic Unit := do
  let bridges := byId.toList.filter fun entry => entry.2.isProfileBridge
  if bridges.length > 1 then throw ⟨"migration_history_multiple_profile_bridges"⟩
  let _ ←
    byId.toList.mapM fun entry =>
      (entry.2.parents.filterMap (byId[·]?)).mapM (validateProfileEdge entry.2)
  match bridges with
  | [] => .ok ()
  | bridge :: _ =>
      let ancestors := reachable byId.keys byId.parents bridge.1
      let descendants := reachable byId.keys byId.children bridge.1
      let beside :=
        byId.toList.find? fun entry =>
          entry.1 ≠ bridge.1 && entry.1 ∉ ancestors && entry.1 ∉ descendants
      match beside with
      | none => .ok ()
      | some entry =>
          if entry.2.semanticProfile = bridge.2.semanticProfile then
            .error ⟨"migration_history_root_beside_profile_bridge"⟩
          else .error ⟨"migration_history_old_profile_not_bridge_ancestor"⟩

/-- Every manifest is stored under its own identity. -/
def Manifests.Keyed (byId : Manifests codec Body) : Prop :=
  ∀ (id : MigrationId) (manifest), byId[id]? = some manifest → manifest.id = id

structure MigrationHistoryGraph {Bytes Digest : Type} (codec : Codec Bytes Digest) (Body : Type)
    [DecidableEq Digest] where
  manifests : Manifests codec Body
  topological : List MigrationId
  keyed : manifests.Keyed
  complete : ∀ id : MigrationId, ∀ parent ∈ manifests.parents id, parent ∈ manifests
  ordered : orderApplySubset manifests manifests.keys ∅ = .ok topological

variable {byId : Manifests codec Body}

theorem complete_of_validateParents {checks : List Unit}
    (validated : validateParents byId = .ok checks) (id parent : MigrationId)
    (isParent : parent ∈ byId.parents id) : parent ∈ byId := by
  unfold Manifests.parents at isParent
  cases found : byId[id]? with
  | none => simp [found] at isParent
  | some manifest =>
    rw [found] at isParent
    have listed : (id, manifest) ∈ byId.toList :=
      Std.ExtTreeMap.mem_toList_iff_getElem?_eq_some.mpr found
    obtain ⟨value, checked⟩ := (exists_mapM_eq_ok_iff).mp ⟨checks, validated⟩ _ listed
    by_cases selfParent : id ∈ manifest.parents
    · simp [selfParent] at checked
    · by_cases known : ∀ parent ∈ manifest.parents, parent ∈ byId
      · exact known parent isParent
      · rw [if_neg selfParent, if_neg known] at checked
        cases checked

theorem keyed_of_foldlM_collectManifest
    {manifests : List (VerifiedSchemaMigrationManifest codec Body)} {start : Manifests codec Body}
    (startKeyed : start.Keyed) (collected : manifests.foldlM collectManifest start = .ok byId) :
    byId.Keyed := by
  induction manifests generalizing start with
  | nil =>
    rw [List.foldlM_nil, pure_eq_ok] at collected
    subst collected
    exact startKeyed
  | cons first rest ih =>
    obtain ⟨middle, inserted, collected⟩ := foldlM_cons_eq_ok.mp collected
    obtain ⟨-, inserted⟩ := guard_eq_ok.mp inserted
    cases inserted
    refine ih ?_ collected
    intro other stored lookup
    rw [OrderedMap.getElem?_insert_eq] at lookup
    split at lookup
    · rename_i same
      cases lookup
      exact same
    · exact startKeyed other stored lookup

def MigrationHistoryGraph.fromVerified
    (manifests : List (VerifiedSchemaMigrationManifest codec Body)) :
    Except Diagnostic (MigrationHistoryGraph codec Body) :=
  match collected : collectManifests manifests with
  | .error failure => .error failure
  | .ok byId => do
      validateLegacyBridges byId
      match validated : validateParents byId with
      | .error failure => .error failure
      | .ok _ =>
          match ordered : orderApplySubset byId byId.keys ∅ with
          | .error failure => .error failure
          | .ok topological => do
              validateProfileLineage byId
              return {
                manifests := byId
                topological := topological
                keyed :=
                  keyed_of_foldlM_collectManifest (by intro _ _; simp)
                    collected
                complete := complete_of_validateParents validated
                ordered := ordered
              }

namespace MigrationHistoryGraph

variable (graph : MigrationHistoryGraph codec Body)

/-- The identities without children. -/
def heads : List MigrationId :=
  graph.manifests.keys.filter fun id => (graph.manifests.children id).isEmpty

def defaultHead : Except Diagnostic (Option MigrationId) :=
  match graph.heads with
  | [] => .ok none
  | [head] => .ok (some head)
  | _ => .error ⟨"migration_history_ambiguous_default_head"⟩

/-! ## Planning -/

/-- Applied identities are known and applied together with their parents. -/
def validateApplied (applied : IdSet) : Except Diagnostic (List Unit) :=
  applied.toList.mapM fun id =>
    match graph.manifests[id]? with
    | none => .error ⟨"migration_history_unknown_applied_id"⟩
    | some manifest =>
        if ∀ parent ∈ manifest.parents, parent ∈ applied then .ok ()
        else .error ⟨"migration_history_applied_not_downward_closed"⟩

/-- The applied identities without an applied child. -/
def appliedFrontier (applied : IdSet) :
    Except Diagnostic (List MigrationId) := do
  let _ ← graph.validateApplied applied
  return applied.toList.filter fun id =>
    (graph.manifests.children id).all fun child => child ∉ applied

/-- The parents of a planned identity. -/
def knownParents (id : MigrationId) : Except Diagnostic (List MigrationId) :=
  match graph.manifests[id]? with
  | none => .error ⟨"migration_history_unknown_apply_target"⟩
  | some manifest => .ok manifest.parents

def ancestorClosure (targets : IdSet) : Except Diagnostic (Finset MigrationId) :=
  let bound :=
    targets.toList.length + (graph.manifests.keys.map fun id =>
        (graph.manifests.parents id).length).sum
  Worklist.closure graph.knownParents (bound + 1) targets.toList ∅

/-- Plan the unapplied targets and ancestors, parents first. -/
def planApply (applied targets : IdSet) :
    Except Diagnostic (List MigrationId) := do
  let _ ← graph.validateApplied applied
  let closure ← graph.ancestorClosure targets
  orderApplySubset graph.manifests
    (graph.manifests.keys.filter fun id => id ∈ closure ∧ id ∉ applied)
    applied

def planApplyToDefaultHead (applied : IdSet) :
    Except Diagnostic (List MigrationId) := do
  match ← graph.defaultHead with
  | none =>
      let _ ← graph.validateApplied applied
      return []
  | some head => graph.planApply applied ((∅ : IdSet).insert head)

/-- Plan the removal of applied identities, children first. -/
def planRollback (applied removals : IdSet) :
    Except Diagnostic (List MigrationId) := do
  let _ ← graph.validateApplied applied
  let _ ←
    removals.toList.mapM fun id =>
      if id ∉ graph.manifests then
        (.error ⟨"migration_history_unknown_rollback_target"⟩ : Except Diagnostic Unit)
      else if id ∉ applied then .error ⟨"migration_history_rollback_not_applied"⟩
      else if ∃ child ∈ graph.manifests.children id,
          child ∈ applied ∧ child ∉ removals then
        .error ⟨"migration_history_remaining_applied_descendant"⟩
      else .ok ()
  orderRollbackSubset graph.manifests removals.toList

end MigrationHistoryGraph

/-! ## What plans satisfy -/

/-- Every applied identity is known, and its parents are applied. -/
def MigrationHistoryGraph.DownwardClosed (graph : MigrationHistoryGraph codec Body)
    (applied : IdSet) : Prop :=
  ∀ id ∈ applied, id ∈ graph.manifests ∧ ∀ parent ∈ graph.manifests.parents id, parent ∈ applied

structure OrdersAfter (prerequisite : MigrationId → MigrationId → Prop) (order : List MigrationId) :
    Prop where
  nodup : order.Nodup
  before : ∀ (earlier later : List MigrationId) (id needed : MigrationId),
      order = earlier ++ id :: later →
      needed ∈ order →
      prerequisite id needed →
      needed ∈ earlier

theorem orderSubset_eq_ok {required order : List MigrationId}
    {prerequisites : MigrationId → Finset MigrationId} (distinct : required.Nodup)
    (inside : ∀ id ∈ required, prerequisites id ⊆ required.toFinset)
    (ordered : orderSubset required prerequisites = .ok order) :
    (∀ id, id ∈ order ↔ id ∈ required) ∧
      OrdersAfter (fun id needed => needed ∈ prerequisites id) order := by
  unfold orderSubset at ordered
  by_cases complete : (readyOrder (fun _ => ()) required prerequisites).length = required.length
  · simp only [complete, ↓reduceIte, Except.ok.injEq] at ordered
    have ready := readyOrder_leastReady distinct inside complete
    rw [ordered] at ready
    refine ⟨fun id => by simpa using ready.mem_iff, ready.nodup, ?_⟩
    intro earlier later id needed shape listed needs
    rw [shape] at ready
    apply ready.mem_before _ needs
    rw [← shape] at ready
    exact ready.mem_iff.mp listed
  · simp [complete] at ordered

namespace MigrationHistoryGraph

variable {graph : MigrationHistoryGraph codec Body} {applied : IdSet}

theorem validateApplied_eq_ok_iff :
    (∃ checks, graph.validateApplied applied = .ok checks) ↔ graph.DownwardClosed applied := by
  unfold validateApplied DownwardClosed
  rw [exists_mapM_eq_ok_iff]
  simp only [Std.ExtTreeSet.mem_toList]
  refine forall₂_congr fun id member => ?_
  cases found : graph.manifests[id]? with
  | none =>
    have unknown : id ∉ graph.manifests := by
      rw [← Std.ExtTreeMap.isSome_getElem?_iff_mem, found]
      simp
    simp [unknown]
  | some manifest =>
    have known : id ∈ graph.manifests := by
      rw [← Std.ExtTreeMap.isSome_getElem?_iff_mem, found]
      rfl
    simp only [Manifests.parents, found, known, true_and]
    by_cases closed : ∀ parent ∈ manifest.parents, parent ∈ applied
    · rw [if_pos closed]
      exact ⟨fun _ => closed, fun _ => ⟨(), rfl⟩⟩
    · rw [if_neg closed]
      constructor
      · rintro ⟨value, failed⟩
        cases failed
      · intro holds
        exact (closed holds).elim

variable {id : MigrationId}

theorem mem_of_mem_parents {parent : MigrationId} (isParent : parent ∈ graph.manifests.parents id) :
    id ∈ graph.manifests := by
  unfold Manifests.parents at isParent
  rw [← Std.ExtTreeMap.isSome_getElem?_iff_mem]
  cases found : graph.manifests[id]? with
  | none => simp [found] at isParent
  | some manifest => rfl

theorem mem_children_iff {child : MigrationId} :
    child ∈ graph.manifests.children id ↔ id ∈ graph.manifests.parents child := by
  unfold Manifests.children
  simp only [List.mem_filter, Std.ExtTreeMap.mem_keys, decide_eq_true_eq, and_iff_right_iff_imp]
  exact mem_of_mem_parents

/-- The identity is reached from a target along parents. -/
def IsAncestorOf (graph : MigrationHistoryGraph codec Body) (targets : IdSet) (id : MigrationId) :
    Prop :=
  ∃ target ∈ targets, Relation.ReflTransGen
      (fun child parent => parent ∈ graph.manifests.parents child) target id

def known (graph : MigrationHistoryGraph codec Body) : Finset MigrationId :=
  graph.manifests.keys.toFinset

@[simp]
theorem mem_known : id ∈ graph.known ↔ id ∈ graph.manifests := by
  simp [known, Std.ExtTreeMap.mem_keys]

theorem knownParents_of_mem (id : MigrationId) (isKnown : id ∈ graph.known) :
    graph.knownParents id = .ok (graph.manifests.parents id) := by
  obtain ⟨manifest, found⟩ := Option.isSome_iff_exists.mp
      (Std.ExtTreeMap.isSome_getElem?_iff_mem.mpr (mem_known.mp isKnown))
  simp [knownParents, Manifests.parents, found]

theorem knownParents_of_notMem (id : MigrationId) (unknown : id ∉ graph.known) :
    graph.knownParents id = .error ⟨"migration_history_unknown_apply_target"⟩ := by
  have missing : graph.manifests[id]? = none := by
    apply Std.ExtTreeMap.getElem?_eq_none
    simpa using unknown
  simp only [knownParents, missing]

theorem parents_known (id : MigrationId) (_ : id ∈ graph.known) (parent : MigrationId)
    (isParent : parent ∈ graph.manifests.parents id) : parent ∈ graph.known :=
  mem_known.mpr (graph.complete id parent isParent)

theorem rounds_lt_fuel (targets : IdSet) :
    Worklist.rounds graph.manifests.parents graph.known targets.toList ∅ < targets.toList.length +
        (graph.manifests.keys.map fun id => (graph.manifests.parents id).length).sum + 1 := by
  have distinct : graph.manifests.keys.Nodup := Std.ExtTreeMap.nodup_keys
  rw [Worklist.rounds, Finset.sdiff_empty, known, List.sum_toFinset _ distinct]
  omega

variable {targets : IdSet} {closure : Finset MigrationId}

theorem known_of_ancestorClosure (closed : graph.ancestorClosure targets = .ok closure) :
    ∀ target ∈ targets.toList, target ∈ graph.known :=
  Worklist.known_of_closure knownParents_of_mem
    (fun id unknown => ⟨_, knownParents_of_notMem id unknown⟩)
    _ _ _ (rounds_lt_fuel targets) closed

theorem ancestorClosure_spec (isKnown : ∀ target ∈ targets.toList, target ∈ graph.known) :
    ∃ closure, graph.ancestorClosure targets = .ok closure ∧
        Worklist.ClosureSpec graph.manifests.parents targets.toList ∅ closure :=
  Worklist.closure_spec knownParents_of_mem parents_known _ _ _ isKnown (rounds_lt_fuel targets)

theorem exists_ancestorClosure_iff : (∃ closure, graph.ancestorClosure targets = .ok closure) ↔
      ∀ target ∈ targets, target ∈ graph.manifests := by
  constructor
  · intro closes target isTarget
    obtain ⟨closure, closed⟩ := closes
    exact mem_known.mp (known_of_ancestorClosure closed target
        (Std.ExtTreeSet.mem_toList.mpr isTarget))
  · intro isKnown
    obtain ⟨closure, closed, -⟩ := ancestorClosure_spec fun target isTarget =>
        mem_known.mpr (isKnown target (Std.ExtTreeSet.mem_toList.mp isTarget))
    exact ⟨closure, closed⟩

theorem ancestorClosure_eq_ok (closed : graph.ancestorClosure targets = .ok closure)
    (id : MigrationId) :
    (id ∈ closure ↔ graph.IsAncestorOf targets id) ∧ (id ∈ closure → id ∈ graph.manifests) := by
  have isKnown := known_of_ancestorClosure closed
  obtain ⟨result, run, spec⟩ := ancestorClosure_spec isKnown
  cases closed.symm.trans run
  refine ⟨⟨?_, ?_⟩, ?_⟩
  · intro member
    obtain ⟨target, isTarget, path⟩ := spec.reachable id member (by simp)
    exact ⟨target, Std.ExtTreeSet.mem_toList.mp isTarget, path⟩
  · intro ancestor
    obtain ⟨target, isTarget, path⟩ := ancestor
    have start := spec.pendingTaken target (Std.ExtTreeSet.mem_toList.mpr isTarget)
    induction path with
    | refl => exact start
    | tail _ isParent ih => exact spec.closed _ ih (by simp) _ isParent
  · intro member
    obtain ⟨target, isTarget, path⟩ := spec.reachable id member (by simp)
    have start := isKnown target isTarget
    cases path with
    | refl => exact mem_known.mp start
    | tail _ isParent => exact graph.complete _ id isParent

structure AppliesInOrder (graph : MigrationHistoryGraph codec Body) (applied : IdSet)
    (order : List MigrationId) : Prop where
  nodup : order.Nodup
  fresh : ∀ id ∈ order, id ∉ applied
  known : ∀ id ∈ order, id ∈ graph.manifests
  parents : ∀ (earlier later : List MigrationId) (id : MigrationId),
      order = earlier ++ id :: later →
      ∀ parent ∈ graph.manifests.parents id, parent ∈ applied ∨ parent ∈ earlier

variable {order : List MigrationId}

theorem planApply_eq_ok (planned : graph.planApply applied targets = .ok order) :
    graph.DownwardClosed applied ∧ graph.AppliesInOrder applied order ∧
      ∀ id, id ∈ order ↔ graph.IsAncestorOf targets id ∧ id ∉ applied := by
  obtain ⟨checks, validated, planned⟩ := bind_eq_ok.mp planned
  obtain ⟨closure, closed, ordered⟩ := bind_eq_ok.mp planned
  have downward := validateApplied_eq_ok_iff.mp ⟨checks, validated⟩
  have distinct : (graph.manifests.keys.filter fun id => id ∈ closure ∧ id ∉ applied).Nodup :=
    Std.ExtTreeMap.nodup_keys.filter _
  obtain ⟨listed, orders⟩ := orderSubset_eq_ok distinct (by
        intro id _ needed member
        simp only [List.mem_toFinset, List.mem_filter, decide_eq_true_eq] at member ⊢
        exact member.2.1)
      ordered
  have required : ∀ id, id ∈ order ↔ id ∈ closure ∧ id ∉ applied := by
    intro id
    have facts := graph.ancestorClosure_eq_ok closed id
    rw [listed id, List.mem_filter, Std.ExtTreeMap.mem_keys,
      decide_eq_true_eq, and_iff_right_iff_imp]
    exact fun member => facts.2 member.1
  have ancestors : ∀ id, id ∈ order ↔ graph.IsAncestorOf targets id ∧ id ∉ applied := by
    intro id
    rw [required id, (graph.ancestorClosure_eq_ok closed id).1]
  refine ⟨downward, ?_, ancestors⟩
  exact {
    nodup := orders.nodup
    fresh := fun id member => ((required id).mp member).2
    known := fun id member => (graph.ancestorClosure_eq_ok closed id).2 ((required id).mp member).1
    parents := by
      intro earlier later id shape parent isParent
      by_cases done : parent ∈ applied
      · exact Or.inl done
      · obtain ⟨⟨target, isTarget, path⟩, -⟩ := (ancestors id).mp (by simp [shape])
        have parentListed : parent ∈ order := (ancestors parent).mpr
            ⟨⟨target, isTarget, path.tail isParent⟩, done⟩
        refine Or.inr (orders.before earlier later id parent shape parentListed ?_)
        simp only [List.mem_toFinset, List.mem_filter, decide_eq_true_eq]
        exact ⟨isParent, by simpa using (listed parent).mp parentListed, done⟩
  }

structure RollsBackInOrder (graph : MigrationHistoryGraph codec Body) (applied : IdSet)
    (order : List MigrationId) : Prop where
  nodup : order.Nodup
  present : ∀ id ∈ order, id ∈ applied
  children : ∀ (earlier later : List MigrationId) (id : MigrationId),
      order = earlier ++ id :: later →
      ∀ child ∈ applied, id ∈ graph.manifests.parents child → child ∈ earlier

theorem planRollback_eq_ok {removals : IdSet}
    (planned : graph.planRollback applied removals = .ok order) :
    graph.DownwardClosed applied ∧ graph.RollsBackInOrder applied order ∧
      ∀ id, id ∈ order ↔ id ∈ removals := by
  obtain ⟨checks, validated, planned⟩ := bind_eq_ok.mp planned
  obtain ⟨removalChecks, removable, ordered⟩ := bind_eq_ok.mp planned
  have downward := validateApplied_eq_ok_iff.mp ⟨checks, validated⟩
  have removalFacts : ∀ id ∈ removals, id ∈ applied ∧
          ∀ child ∈ applied, id ∈ graph.manifests.parents child → child ∈ removals := by
    intro id member
    obtain ⟨value, checked⟩ := exists_mapM_eq_ok_iff.mp ⟨removalChecks, removable⟩ id
        (Std.ExtTreeSet.mem_toList.mpr member)
    rw [guard_eq_ok, guard_eq_ok, guard_eq_ok] at checked
    obtain ⟨-, isApplied, noChild, -⟩ := checked
    refine ⟨not_not.mp isApplied, ?_⟩
    intro child childApplied isChild
    by_contra kept
    exact noChild ⟨child, mem_children_iff.mpr isChild, childApplied, kept⟩
  have distinct : removals.toList.Nodup := Std.ExtTreeSet.ordered_toList.imp fun less =>
      ne_of_lt (compare_lt_iff_lt.mp less)
  obtain ⟨listed, orders⟩ := orderSubset_eq_ok distinct (by
        intro id _ needed member
        simp only [List.mem_toFinset, List.mem_filter, decide_eq_true_eq] at member ⊢
        exact member.2)
      ordered
  have exactly : ∀ id, id ∈ order ↔ id ∈ removals := by
    intro id
    rw [listed id, Std.ExtTreeSet.mem_toList]
  refine ⟨downward, ?_, exactly⟩
  exact {
    nodup := orders.nodup
    present := fun id member => (removalFacts id ((exactly id).mp member)).1
    children := by
      intro earlier later id shape child childApplied isChild
      have idRemoved : id ∈ removals := (exactly id).mp (by simp [shape])
      have childRemoved := (removalFacts id idRemoved).2 child childApplied isChild
      apply orders.before earlier later id child shape ((exactly child).mpr childRemoved)
      simp only [List.mem_toFinset, List.mem_filter, decide_eq_true_eq]
      exact ⟨mem_children_iff.mpr isChild, Std.ExtTreeSet.mem_toList.mpr childRemoved⟩
  }

def IsFrontier (graph : MigrationHistoryGraph codec Body) (applied : IdSet) (id : MigrationId) :
    Prop :=
  id ∈ applied ∧ ∀ child ∈ applied, id ∉ graph.manifests.parents child

theorem appliedFrontier_eq_ok (downward : graph.DownwardClosed applied) :
    ∃ frontier, graph.appliedFrontier applied = .ok frontier ∧
        ∀ id, id ∈ frontier ↔ graph.IsFrontier applied id := by
  obtain ⟨checks, validated⟩ := validateApplied_eq_ok_iff.mpr downward
  refine ⟨_, bind_eq_ok.mpr ⟨checks, validated, rfl⟩, ?_⟩
  intro id
  simp only [IsFrontier, List.mem_filter, Std.ExtTreeSet.mem_toList,
    List.all_eq_true, decide_eq_true_eq, mem_children_iff]
  refine and_congr_right fun _ => ?_
  constructor
  · intro unapplied child childApplied isChild
    exact unapplied child isChild childApplied
  · intro maximal child isChild childApplied
    exact maximal child childApplied isChild

end MigrationHistoryGraph

end TypeBridge.Migration
