import TypeBridge.Migration.History

namespace TypeBridge.Migration

open Library Library.ReadyOrder Schema
open Library.Checked hiding get

/-!
# Accepted histories and their growth

`Admissible` says what `fromVerified` checks, without the order in which it
goes through the manifests: parents are known and acyclic, a legacy bridge is
the only root, and profiles change at one bridge that every manifest lies
before or after.

A new manifest on top of the only head keeps a history admissible exactly if
it continues the head's profile. It then is the only head itself.
-/

variable {Bytes Digest Body : Type} {codec : Codec Bytes Digest} [DecidableEq Digest]

namespace Manifests

def OneLegacyRoot (byId : Manifests codec Body) : Prop :=
  ∀ (id other : MigrationId) (bridge manifest),
    byId[id]? = some bridge → bridge.isLegacyBridge = true →
    byId[other]? = some manifest →
    manifest.isLegacyBridge = true ∨ manifest.parents = [] → other = id

def ParentsKnown (byId : Manifests codec Body) : Prop :=
  ∀ id : MigrationId, id ∉ byId.parents id ∧ ∀ parent ∈ byId.parents id, parent ∈ byId

/-- Parents decrease a rank. -/
def Acyclic (byId : Manifests codec Body) : Prop :=
  ∃ rank : MigrationId → Nat, ∀ id, ∀ parent ∈ byId.parents id, rank parent < rank id

/-- The second identity is reached from the first along parents. -/
def Descends (byId : Manifests codec Body) : MigrationId → MigrationId → Prop :=
  Relation.TransGen fun child parent => parent ∈ byId.parents child

structure ProfileLineage (byId : Manifests codec Body) : Prop where
  single : ∀ (id other : MigrationId) (bridge manifest),
      byId[id]? = some bridge → bridge.isProfileBridge = true →
      byId[other]? = some manifest → manifest.isProfileBridge = true → other = id
  continued : ∀ (id parent : MigrationId) (manifest parentManifest),
      byId[id]? = some manifest → parent ∈ manifest.parents →
      byId[parent]? = some parentManifest → validateProfileEdge manifest parentManifest = .ok ()
  connected : ∀ (id other : MigrationId) (bridge manifest),
      byId[id]? = some bridge → bridge.isProfileBridge = true →
      byId[other]? = some manifest → other = id ∨ byId.Descends id other ∨ byId.Descends other id

/-- What an accepted history satisfies. -/
structure Admissible (byId : Manifests codec Body) : Prop where
  keyed : byId.Keyed
  legacy : byId.OneLegacyRoot
  known : byId.ParentsKnown
  acyclic : byId.Acyclic
  lineage : byId.ProfileLineage

/-! ## The checks -/

variable {byId : Manifests codec Body} {id : MigrationId}

theorem exists_of_mem_parents {parent : MigrationId} (isParent : parent ∈ byId.parents id) :
    ∃ manifest, byId[id]? = some manifest ∧ parent ∈ manifest.parents := by
  unfold parents at isParent
  cases stored : byId[id]? with
  | none => simp [stored] at isParent
  | some manifest =>
    rw [stored] at isParent
    exact ⟨manifest, rfl, isParent⟩

variable {manifest : VerifiedSchemaMigrationManifest codec Body}

theorem parents_of_stored (stored : byId[id]? = some manifest) :
    byId.parents id = manifest.parents := by
  unfold parents
  rw [stored]

theorem mem_keys_of_stored (stored : byId[id]? = some manifest) : id ∈ byId.keys := by
  rw [Std.ExtTreeMap.mem_keys, ← Std.ExtTreeMap.isSome_getElem?_iff_mem, stored]
  rfl

theorem mem_children {child : MigrationId} :
    child ∈ byId.children id ↔ id ∈ byId.parents child := by
  unfold children
  rw [List.mem_filter, decide_eq_true_eq, and_iff_right_iff_imp]
  intro isParent
  obtain ⟨manifest, stored, -⟩ := exists_of_mem_parents isParent
  exact mem_keys_of_stored stored

variable {entry : MigrationId × VerifiedSchemaMigrationManifest codec Body}

theorem eq_of_mem_toList {other : MigrationId × VerifiedSchemaMigrationManifest codec Body}
    (listed : entry ∈ byId.toList) (otherListed : other ∈ byId.toList) (same : entry.1 = other.1) :
    entry = other := by
  have stored := Std.ExtTreeMap.mem_toList_iff_getElem?_eq_some.mp listed
  have otherStored := Std.ExtTreeMap.mem_toList_iff_getElem?_eq_some.mp otherListed
  rw [same, otherStored, Option.some.injEq] at stored
  exact Prod.ext same stored.symm

/-- A selection of entries has at most one if they share their key. -/
theorem filter_cases (byId : Manifests codec Body)
    (selected : MigrationId × VerifiedSchemaMigrationManifest codec Body → Bool) :
    (byId.toList.filter selected = [] ∨ ∃ entry, byId.toList.filter selected = [entry]) ↔
      ∀ entry ∈ byId.toList, ∀ other ∈ byId.toList, selected entry = true → selected other = true →
          entry.1 = other.1 := by
  constructor
  · intro shape entry listed other otherListed isSelected otherSelected
    have member : entry ∈ byId.toList.filter selected := List.mem_filter.mpr ⟨listed, isSelected⟩
    have otherMember : other ∈ byId.toList.filter selected :=
      List.mem_filter.mpr ⟨otherListed, otherSelected⟩
    rcases shape with empty | single
    · rw [empty] at member
      cases member
    · obtain ⟨only, isOnly⟩ := single
      rw [isOnly, List.mem_singleton] at member otherMember
      rw [member, otherMember]
  · intro same
    cases shape : byId.toList.filter selected with
    | nil => exact .inl rfl
    | cons first rest =>
      right
      refine ⟨first, ?_⟩
      cases rest with
      | nil => rfl
      | cons second rest =>
        have firstMember : first ∈ byId.toList.filter selected := by
          rw [shape]
          simp
        have secondMember : second ∈ byId.toList.filter selected := by
          rw [shape]
          simp
        obtain ⟨firstListed, isFirst⟩ := List.mem_filter.mp firstMember
        obtain ⟨secondListed, isSecond⟩ := List.mem_filter.mp secondMember
        have sameEntry :=
          eq_of_mem_toList firstListed secondListed
            (same first firstListed second secondListed isFirst isSecond)
        have distinct := (OrderedMap.nodup_keys byId).of_map.filter selected
        rw [shape, sameEntry] at distinct
        simp at distinct

/-- The legacy check accepts exactly histories with one legacy root. -/
theorem validateLegacyBridges_eq_ok_iff :
    validateLegacyBridges byId = .ok () ↔ byId.OneLegacyRoot := by
  have shapes := filter_cases byId fun entry => entry.2.isLegacyBridge
  have listed : ∀ {id : MigrationId} {manifest}, byId[id]? = some manifest →
        (id, manifest) ∈ byId.toList :=
    fun stored => Std.ExtTreeMap.mem_toList_iff_getElem?_eq_some.mpr stored
  unfold validateLegacyBridges
  cases shape : byId.toList.filter fun entry => entry.2.isLegacyBridge with
  | nil =>
    simp only [true_iff]
    intro id other bridge manifest stored isBridge
    have member : (id, bridge) ∈ byId.toList.filter fun entry => entry.2.isLegacyBridge :=
      List.mem_filter.mpr ⟨listed stored, isBridge⟩
    rw [shape] at member
    cases member
  | cons first rest =>
    have firstMember : first ∈ byId.toList.filter fun entry => entry.2.isLegacyBridge := by
      rw [shape]
      simp
    obtain ⟨firstListed, isFirst⟩ := List.mem_filter.mp firstMember
    have firstStored := Std.ExtTreeMap.mem_toList_iff_getElem?_eq_some.mp firstListed
    cases rest with
    | nil =>
      rw [guard_eq_ok]
      simp only [and_true]
      constructor
      · intro noRoot id other bridge manifest stored isBridge otherStored isRoot
        have isOnly : ∀ {key entry}, byId[key]? = some entry →
            entry.isLegacyBridge = true → key = first.1 := by
          intro key entry keyStored keyBridge
          have member : (key, entry) ∈ byId.toList.filter fun entry => entry.2.isLegacyBridge :=
            List.mem_filter.mpr ⟨listed keyStored, keyBridge⟩
          rw [shape, List.mem_singleton] at member
          exact congrArg Prod.fst member
        rw [isOnly stored isBridge]
        rcases isRoot with alsoBridge | noParents
        · exact isOnly otherStored alsoBridge
        · by_contra differs
          apply noRoot
          refine List.any_eq_true.mpr ⟨(other, manifest), listed otherStored, ?_⟩
          simp [noParents, differs]
      · intro alone anyRoot
        obtain ⟨entry, isListed, isRoot⟩ := List.any_eq_true.mp anyRoot
        simp only [Bool.and_eq_true, List.isEmpty_iff, decide_eq_true_eq] at isRoot
        exact isRoot.2 (alone first.1 entry.1 first.2 entry.2 firstStored isFirst
          (Std.ExtTreeMap.mem_toList_iff_getElem?_eq_some.mp isListed) (.inr isRoot.1))
    | cons second rest =>
      simp only [reduceCtorEq, false_iff]
      intro alone
      have single :=
        shapes.mpr (fun entry isListed other otherListed isBridge otherBridge =>
            (alone other.1 entry.1 other.2 entry.2
              (Std.ExtTreeMap.mem_toList_iff_getElem?_eq_some.mp otherListed) otherBridge
              (Std.ExtTreeMap.mem_toList_iff_getElem?_eq_some.mp isListed) (.inl isBridge)))
      rw [shape] at single
      rcases single with empty | only
      · cases empty
      · obtain ⟨entry, isOnly⟩ := only
        cases isOnly

theorem exists_validateParents_iff :
    (∃ checks, validateParents byId = .ok checks) ↔ byId.ParentsKnown := by
  unfold validateParents
  rw [exists_mapM_eq_ok_iff]
  constructor
  · intro checked id
    cases stored : byId[id]? with
    | none => simp [parents, stored]
    | some manifest =>
      rw [parents_of_stored stored]
      obtain ⟨value, isOk⟩ := checked (id, manifest)
          (Std.ExtTreeMap.mem_toList_iff_getElem?_eq_some.mpr stored)
      obtain ⟨notSelf, isOk⟩ := guard_eq_ok.mp isOk
      exact ⟨notSelf, (require_eq_ok.mp isOk).1⟩
  · intro known entry isListed
    have stored := Std.ExtTreeMap.mem_toList_iff_getElem?_eq_some.mp isListed
    have isKnown := known entry.1
    rw [parents_of_stored stored] at isKnown
    exact ⟨(), by rw [if_neg isKnown.1, if_pos isKnown.2]⟩

/-- The order check accepts exactly acyclic histories. -/
theorem exists_orderApplySubset_iff (known : byId.ParentsKnown) :
    (∃ order, orderApplySubset byId byId.keys ∅ = .ok order) ↔ byId.Acyclic := by
  have distinct : byId.keys.Nodup := Std.ExtTreeMap.nodup_keys
  have prerequisite : ∀ id parent, parent ∈ ((byId.parents id).filter fun parent =>
          parent ∈ byId.keys ∧ parent ∉ (∅ : IdSet)).toFinset ↔
          parent ∈ byId.parents id := by
    intro id parent
    simp only [List.mem_toFinset, List.mem_filter, decide_eq_true_eq,
      Std.ExtTreeMap.mem_keys, Std.ExtTreeSet.not_mem_empty,
      not_false_eq_true, and_true, and_iff_left_iff_imp]
    exact (known id).2 parent
  have inside : ∀ id ∈ byId.keys, ((byId.parents id).filter fun parent =>
          parent ∈ byId.keys ∧ parent ∉ (∅ : IdSet)).toFinset ⊆
          byId.keys.toFinset := by
    intro id _ parent isParent
    rw [prerequisite] at isParent
    rw [List.mem_toFinset, Std.ExtTreeMap.mem_keys]
    exact (known id).2 parent isParent
  constructor
  · intro ordered
    obtain ⟨order, isOrder⟩ := ordered
    obtain ⟨members, after⟩ := orderSubset_eq_ok distinct inside isOrder
    refine ⟨order.idxOf, ?_⟩
    intro id parent isParent
    obtain ⟨manifest, stored, -⟩ := exists_of_mem_parents isParent
    have isListed : id ∈ order := by
      rw [members, Std.ExtTreeMap.mem_keys, ← Std.ExtTreeMap.isSome_getElem?_iff_mem, stored]
      rfl
    have parentListed : parent ∈ order := by
      rw [members, Std.ExtTreeMap.mem_keys]
      exact (known id).2 parent isParent
    obtain ⟨earlier, later, shape⟩ := List.append_of_mem isListed
    have isEarlier :=
      after.before earlier later id parent shape parentListed
        ((prerequisite id parent).mpr isParent)
    have notEarlier : id ∉ earlier := by
      intro member
      have distinctOrder := after.nodup
      rw [shape, List.nodup_append] at distinctOrder
      exact distinctOrder.2.2 id member id (by simp) rfl
    show order.idxOf parent < order.idxOf id
    rw [shape, List.idxOf_append_of_mem isEarlier,
      List.idxOf_append_of_notMem notEarlier, List.idxOf_cons_self]
    exact List.idxOf_lt_length_of_mem isEarlier
  · intro acyclic
    obtain ⟨rank, ranked⟩ := acyclic
    exact ⟨_, if_pos (length_readyOrder distinct inside fun id _ parent isParent =>
        ranked id parent ((prerequisite id parent).mp isParent))⟩

theorem mem_reachable {ids : List MigrationId} {edges : MigrationId → List MigrationId}
    {start : MigrationId} (distinct : ids.Nodup)
    (inside : ∀ id ∈ ids, ∀ next ∈ edges id, next ∈ ids) (isKnown : start ∈ ids)
    (id : MigrationId) : id ∈ reachable ids edges start ↔
      Relation.TransGen (fun left right => right ∈ edges left) start id := by
  have enough : Worklist.rounds edges ids.toFinset (edges start) ∅ <
        (edges start).length + (ids.map fun id => (edges id).length).sum + 1 := by
    rw [Worklist.rounds, Finset.sdiff_empty, List.sum_toFinset _ distinct]
    omega
  obtain ⟨result, run, spec⟩ := Worklist.closure_spec (show ∀ id ∈ ids.toFinset,
          (fun id => (.ok (edges id) : Except Diagnostic _)) id =
            .ok (edges id) from fun _ _ => rfl) (by simpa using inside) _ (edges start) ∅
      (by simpa using inside start isKnown) enough
  have isResult : reachable ids edges start = result := by
    unfold reachable
    simp only [run]
    rfl
  rw [isResult]
  constructor
  · intro member
    obtain ⟨first, isFirst, path⟩ := spec.reachable id member (by simp)
    exact .head' isFirst path
  · intro path
    induction path with
    | single isNext => exact spec.pendingTaken _ isNext
    | tail _ isNext ih => exact spec.closed _ ih (by simp) _ isNext

def profileBridges (byId : Manifests codec Body) :
    List (MigrationId × VerifiedSchemaMigrationManifest codec Body) :=
  byId.toList.filter fun entry => entry.2.isProfileBridge

theorem mem_profileBridges : entry ∈ byId.profileBridges ↔
      byId[entry.1]? = some entry.2 ∧ entry.2.isProfileBridge = true := by
  unfold profileBridges
  rw [List.mem_filter]
  exact and_congr_left' Std.ExtTreeMap.mem_toList_iff_getElem?_eq_some

theorem profileBridges_le_one_iff :
    ¬ byId.profileBridges.length > 1 ↔ ∀ (id other : MigrationId) (bridge manifest),
        byId[id]? = some bridge → bridge.isProfileBridge = true →
        byId[other]? = some manifest → manifest.isProfileBridge = true → other = id := by
  have shapes := filter_cases byId fun entry => entry.2.isProfileBridge
  have short : ¬ byId.profileBridges.length > 1 ↔ byId.profileBridges = [] ∨
          ∃ entry, byId.profileBridges = [entry] := by
    cases byId.profileBridges with
    | nil => simp
    | cons first rest =>
      cases rest with
      | nil => simp
      | cons second rest => simp
  rw [short]
  unfold profileBridges
  rw [shapes]
  constructor
  · intro same id other bridge manifest stored isBridge otherStored otherBridge
    exact same (other, manifest) (Std.ExtTreeMap.mem_toList_iff_getElem?_eq_some.mpr otherStored)
      (id, bridge) (Std.ExtTreeMap.mem_toList_iff_getElem?_eq_some.mpr stored) otherBridge isBridge
  · intro same entry listed other otherListed isBridge otherBridge
    exact same other.1 entry.1 other.2 entry.2
      (Std.ExtTreeMap.mem_toList_iff_getElem?_eq_some.mp otherListed) otherBridge
      (Std.ExtTreeMap.mem_toList_iff_getElem?_eq_some.mp listed) isBridge

theorem exists_validateProfileEdges_iff :
    (∃ checks, (byId.toList.mapM fun entry => (entry.2.parents.filterMap (byId[·]?)).mapM
          (validateProfileEdge entry.2)) = .ok checks) ↔
      ∀ (id parent : MigrationId) (manifest parentManifest),
        byId[id]? = some manifest → parent ∈ manifest.parents →
        byId[parent]? = some parentManifest →
          validateProfileEdge manifest parentManifest = .ok () := by
  rw [exists_mapM_eq_ok_iff]
  constructor
  · intro checked id parent manifest parentManifest stored isParent parentStored
    obtain ⟨edge, isOk⟩ := exists_mapM_eq_ok_iff.mp (checked (id, manifest)
          (Std.ExtTreeMap.mem_toList_iff_getElem?_eq_some.mpr stored)) parentManifest
        (List.mem_filterMap.mpr ⟨parent, isParent, parentStored⟩)
    exact isOk
  · intro continued entry listed
    refine exists_mapM_eq_ok_iff.mpr ?_
    intro parentManifest member
    obtain ⟨parent, isParent, parentStored⟩ := List.mem_filterMap.mp member
    exact ⟨(), continued entry.1 parent entry.2 parentManifest
      (Std.ExtTreeMap.mem_toList_iff_getElem?_eq_some.mp listed) isParent parentStored⟩

theorem children_known (id : MigrationId) (child : MigrationId)
    (isChild : child ∈ byId.children id) : child ∈ byId.keys := by
  unfold children at isChild
  exact (List.mem_filter.mp isChild).1

theorem transGen_children_iff {other : MigrationId} :
    Relation.TransGen (fun parent child => child ∈ byId.children parent) id other ↔
      byId.Descends other id := by
  have same : (fun parent child => child ∈ byId.children parent) =
        Function.swap fun child parent => parent ∈ byId.parents child := by
    funext parent child
    exact propext mem_children
  rw [same]
  exact Relation.transGen_swap

theorem mem_ancestors_iff (known : byId.ParentsKnown) (stored : byId[id]? = some manifest)
    (other : MigrationId) :
    other ∈ reachable byId.keys byId.parents id ↔ byId.Descends id other := by
  refine mem_reachable Std.ExtTreeMap.nodup_keys ?_ (mem_keys_of_stored stored) other
  intro key _ parent isParent
  rw [Std.ExtTreeMap.mem_keys]
  exact (known key).2 parent isParent

theorem mem_descendants_iff (stored : byId[id]? = some manifest) (other : MigrationId) :
    other ∈ reachable byId.keys byId.children id ↔ byId.Descends other id := by
  rw [← transGen_children_iff]
  exact mem_reachable Std.ExtTreeMap.nodup_keys
    (fun key _ => children_known key) (mem_keys_of_stored stored) other

theorem find_beside_eq_none_iff (known : byId.ParentsKnown)
    {bridge : MigrationId × VerifiedSchemaMigrationManifest codec Body}
    (stored : byId[bridge.1]? = some bridge.2) :
    (byId.toList.find? fun entry => entry.1 ≠ bridge.1 &&
          entry.1 ∉ reachable byId.keys byId.parents bridge.1 &&
          entry.1 ∉ reachable byId.keys byId.children bridge.1) = none ↔ ∀ (other : MigrationId)
        (manifest : VerifiedSchemaMigrationManifest codec Body), byId[other]? = some manifest →
          other = bridge.1 ∨ byId.Descends bridge.1 other ∨ byId.Descends other bridge.1 := by
  rw [List.find?_eq_none]
  constructor
  · intro nothing other manifest otherStored
    have rejected :=
      nothing (other, manifest) (Std.ExtTreeMap.mem_toList_iff_getElem?_eq_some.mpr otherStored)
    simp only [mem_ancestors_iff known stored, mem_descendants_iff stored,
      Bool.and_eq_true, decide_eq_true_eq] at rejected
    tauto
  · intro connected entry member
    have beside :=
      connected entry.1 entry.2 (Std.ExtTreeMap.mem_toList_iff_getElem?_eq_some.mp member)
    simp only [mem_ancestors_iff known stored, mem_descendants_iff stored,
      Bool.and_eq_true, decide_eq_true_eq]
    tauto

/-- The profile check accepts exactly histories with a profile lineage. -/
theorem validateProfileLineage_eq_ok_iff (known : byId.ParentsKnown) :
    validateProfileLineage byId = .ok () ↔ byId.ProfileLineage := by
  unfold validateProfileLineage
  simp only
  rw [← profileBridges, unless_eq_ok, bind_eq_ok, profileBridges_le_one_iff]
  cases shape : byId.profileBridges with
  | nil =>
    have noBridge : ∀ (id : MigrationId) bridge, byId[id]? = some bridge →
          bridge.isProfileBridge = true → False := by
      intro id bridge stored isBridge
      have member : (id, bridge) ∈ byId.profileBridges := mem_profileBridges.mpr ⟨stored, isBridge⟩
      rw [shape] at member
      cases member
    constructor
    · intro accepted
      obtain ⟨single, checks, edges, _⟩ := accepted
      refine ⟨single, exists_validateProfileEdges_iff.mp ⟨checks, edges⟩, ?_⟩
      intro id other bridge manifest stored isBridge _
      exact (noBridge id bridge stored isBridge).elim
    · intro lineage
      obtain ⟨checks, edges⟩ := exists_validateProfileEdges_iff.mpr lineage.continued
      exact ⟨lineage.single, checks, edges, rfl⟩
  | cons first rest =>
    have firstMember : first ∈ byId.profileBridges := by
      rw [shape]
      exact List.mem_cons_self
    obtain ⟨firstStored, firstBridge⟩ := mem_profileBridges.mp firstMember
    have nothingBeside := find_beside_eq_none_iff known firstStored
    cases beside : byId.toList.find? fun entry =>
          entry.1 ≠ first.1 && entry.1 ∉ reachable byId.keys byId.parents first.1 &&
            entry.1 ∉ reachable byId.keys byId.children first.1 with
    | some entry =>
      rw [beside] at nothingBeside
      constructor
      · intro accepted
        obtain ⟨_, _, _, accepted⟩ := accepted
        simp only [beside] at accepted
        split at accepted <;> cases accepted
      · intro lineage
        have none_eq :=
          nothingBeside.mpr fun other manifest otherStored =>
            lineage.connected first.1 other first.2 manifest firstStored firstBridge otherStored
        cases none_eq
    | none =>
      constructor
      · intro accepted
        obtain ⟨single, checks, edges, _⟩ := accepted
        refine ⟨single, exists_validateProfileEdges_iff.mp ⟨checks, edges⟩, ?_⟩
        intro id other bridge manifest stored isBridge otherStored
        have isFirst : first.1 = id :=
          single id first.1 bridge first.2 stored isBridge firstStored firstBridge
        rw [← isFirst]
        exact nothingBeside.mp beside other manifest otherStored
      · intro lineage
        obtain ⟨checks, edges⟩ := exists_validateProfileEdges_iff.mpr lineage.continued
        refine ⟨lineage.single, checks, edges, ?_⟩
        simp only [beside]

/-! ## Heads -/

theorem mem_heads {graph : MigrationHistoryGraph codec Body} :
    id ∈ graph.heads ↔ id ∈ graph.manifests ∧ ∀ child, id ∉ graph.manifests.parents child := by
  unfold MigrationHistoryGraph.heads
  rw [List.mem_filter, Std.ExtTreeMap.mem_keys, List.isEmpty_iff, List.eq_nil_iff_forall_not_mem]
  simp only [mem_children]

theorem nodup_heads (graph : MigrationHistoryGraph codec Body) : graph.heads.Nodup :=
  List.Nodup.filter _ Std.ExtTreeMap.nodup_keys

theorem exists_head (acyclic : byId.Acyclic) (member : id ∈ byId) :
    ∃ head ∈ byId, (∀ child, head ∉ byId.parents child) ∧ (head = id ∨ byId.Descends head id) := by
  obtain ⟨rank, decreasing⟩ := acyclic
  classical
  let above := byId.keys.toFinset.filter fun other => other = id ∨ byId.Descends other id
  have nonempty : above.Nonempty := ⟨id, by simp [above, member]⟩
  obtain ⟨head, isAbove, highest⟩ := Finset.exists_max_image above rank nonempty
  simp only [above, Finset.mem_filter, List.mem_toFinset,
    Std.ExtTreeMap.mem_keys] at isAbove highest
  refine ⟨head, isAbove.1, ?_, isAbove.2⟩
  intro child isParent
  obtain ⟨manifest, stored, -⟩ := exists_of_mem_parents isParent
  have descends : byId.Descends child id := by
    rcases isAbove.2 with same | below
    · rw [← same]
      exact .single isParent
    · exact .head isParent below
  have childMember : child ∈ byId := Std.ExtTreeMap.mem_keys.mp (mem_keys_of_stored stored)
  have bounded := highest child ⟨childMember, .inr descends⟩
  have smaller := decreasing child head isParent
  omega

/-! ## Growth -/

section Insert

variable {manifest : VerifiedSchemaMigrationManifest codec Body}

theorem parents_insert (id : MigrationId) : parents (byId.insert manifest.id manifest) id =
      if manifest.id = id then manifest.parents else byId.parents id := by
  unfold parents
  rw [OrderedMap.getElem?_insert_eq]
  by_cases same : manifest.id = id
  · rw [if_pos same, if_pos same]
  · rw [if_neg same, if_neg same]

variable {id : MigrationId}

theorem ne_of_mem_parents (fresh : manifest.id ∉ byId) {parent : MigrationId}
    (isParent : parent ∈ byId.parents id) : manifest.id ≠ id := by
  obtain ⟨stored, lookup, -⟩ := exists_of_mem_parents isParent
  intro same
  apply fresh
  rw [same]
  exact Std.ExtTreeMap.mem_keys.mp (mem_keys_of_stored lookup)

theorem Descends.insert (fresh : manifest.id ∉ byId) {other : MigrationId}
    (descends : byId.Descends id other) : Descends (byId.insert manifest.id manifest) id other := by
  refine Relation.TransGen.mono ?_ id other descends
  intro child parent isParent
  rw [parents_insert, if_neg (ne_of_mem_parents fresh isParent)]
  exact isParent

theorem lookup_cases {stored : VerifiedSchemaMigrationManifest codec Body}
    (lookup : (byId.insert manifest.id manifest)[id]? = some stored) :
    (id = manifest.id ∧ stored = manifest) ∨ (manifest.id ≠ id ∧ byId[id]? = some stored) := by
  rw [OrderedMap.getElem?_insert_eq] at lookup
  by_cases same : manifest.id = id
  · rw [if_pos same] at lookup
    exact .inl ⟨same.symm, (Option.some.inj lookup).symm⟩
  · rw [if_neg same] at lookup
    exact .inr ⟨same, lookup⟩

structure OnTop (byId : Manifests codec Body)
    (manifest : VerifiedSchemaMigrationManifest codec Body) : Prop where
  fresh : manifest.id ∉ byId
  notLegacy : manifest.isLegacyBridge = false
  notBridge : manifest.isProfileBridge = false
  onHeads : ∀ id, id ∈ manifest.parents ↔ id ∈ byId ∧ ∀ child, id ∉ byId.parents child

namespace OnTop

variable (onTop : byId.OnTop manifest)
include onTop

variable {id : MigrationId}

theorem descends (acyclic : byId.Acyclic) (member : id ∈ byId) :
    Descends (byId.insert manifest.id manifest) manifest.id id := by
  obtain ⟨head, headMember, childless, below⟩ := exists_head acyclic member
  have isParent : head ∈ parents (byId.insert manifest.id manifest) manifest.id := by
    rw [parents_insert, if_pos rfl]
    exact (onTop.onHeads head).mpr ⟨headMember, childless⟩
  rcases below with same | below
  · rw [← same]
    exact .single isParent
  · exact .head isParent (below.insert onTop.fresh)

theorem childless_iff (admissible : byId.Admissible) : (id ∈ byId.insert manifest.id manifest ∧
        ∀ child, id ∉ parents (byId.insert manifest.id manifest) child) ↔ id = manifest.id := by
  have isMember : ∀ other : MigrationId, other ∈ byId.insert manifest.id manifest ↔
        manifest.id = other ∨ other ∈ byId := by
    intro other
    rw [Std.ExtTreeMap.mem_insert, compare_eq_iff_eq]
  constructor
  · intro childless
    obtain ⟨member, childless⟩ := childless
    rcases (isMember id).mp member with same | old
    · exact same.symm
    · have below := onTop.descends admissible.acyclic old
      obtain ⟨child, -, isParent⟩ := Relation.TransGen.tail'_iff.mp below
      exact (childless child isParent).elim
  · intro same
    subst same
    refine ⟨(isMember _).mpr (.inl rfl), ?_⟩
    intro child isParent
    rw [parents_insert] at isParent
    split at isParent
    · exact onTop.fresh ((onTop.onHeads _).mp isParent).1
    · exact onTop.fresh ((admissible.known child).2 _ isParent)

theorem oneLegacyRoot (admissible : byId.Admissible) :
    OneLegacyRoot (byId.insert manifest.id manifest) := by
  intro id other bridge stored lookup isBridge otherLookup rootOrBridge
  rcases lookup_cases lookup with ⟨-, rfl⟩ | ⟨-, old⟩
  · rw [onTop.notLegacy] at isBridge
    cases isBridge
  · rcases lookup_cases otherLookup with ⟨-, rfl⟩ | ⟨-, otherOld⟩
    · rcases rootOrBridge with isLegacy | isRoot
      · rw [onTop.notLegacy] at isLegacy
        cases isLegacy
      · -- A history with a bridge has a head, so the manifest has a parent.
        obtain ⟨head, headMember, childless, -⟩ := exists_head admissible.acyclic
            (Std.ExtTreeMap.mem_keys.mp (mem_keys_of_stored old))
        have isParent := (onTop.onHeads head).mpr ⟨headMember, childless⟩
        rw [isRoot] at isParent
        cases isParent
    · exact admissible.legacy id other bridge stored old isBridge otherOld rootOrBridge

theorem parentsKnown (known : byId.ParentsKnown) :
    ParentsKnown (byId.insert manifest.id manifest) := by
  intro id
  rw [parents_insert]
  by_cases same : manifest.id = id
  · rw [if_pos same, ← same]
    refine ⟨?_, ?_⟩
    · intro isParent
      exact onTop.fresh ((onTop.onHeads _).mp isParent).1
    · intro parent isParent
      exact Std.ExtTreeMap.mem_insert.mpr (.inr ((onTop.onHeads parent).mp isParent).1)
  · rw [if_neg same]
    refine ⟨(known id).1, ?_⟩
    intro parent isParent
    exact Std.ExtTreeMap.mem_insert.mpr (.inr ((known id).2 parent isParent))

theorem stillAcyclic (admissible : byId.Admissible) :
    Acyclic (byId.insert manifest.id manifest) := by
  obtain ⟨rank, decreasing⟩ := admissible.acyclic
  have ne_fresh : ∀ {other : MigrationId}, other ∈ byId → manifest.id ≠ other := by
    intro other member same
    rw [← same] at member
    exact onTop.fresh member
  refine ⟨fun id =>
    if manifest.id = id then (manifest.parents.map rank).sum + 1
    else rank id, ?_⟩
  intro id parent isParent
  rw [parents_insert] at isParent
  by_cases same : manifest.id = id
  · rw [if_pos same] at isParent
    have old := ((onTop.onHeads parent).mp isParent).1
    have bounded : rank parent ≤ (manifest.parents.map rank).sum :=
      List.le_sum_of_mem (List.mem_map_of_mem isParent)
    simp only [if_pos same, if_neg (ne_fresh old)]
    omega
  · rw [if_neg same] at isParent
    have old := (admissible.known id).2 parent isParent
    simp only [if_neg same, if_neg (ne_fresh old)]
    exact decreasing id parent isParent

theorem profileLineage (admissible : byId.Admissible)
    (continues : ∀ (parent : MigrationId) (stored : VerifiedSchemaMigrationManifest codec Body),
        parent ∈ manifest.parents → byId[parent]? = some stored →
          validateProfileEdge manifest stored = .ok ()) :
    ProfileLineage (byId.insert manifest.id manifest) := by
  have notNew : ∀ {id : MigrationId} {bridge},
        (byId.insert manifest.id manifest)[id]? = some bridge →
        bridge.isProfileBridge = true → byId[id]? = some bridge := by
    intro id bridge lookup isBridge
    rcases lookup_cases lookup with ⟨-, rfl⟩ | ⟨-, old⟩
    · rw [onTop.notBridge] at isBridge
      cases isBridge
    · exact old
  have parentOld : ∀ {parent : MigrationId} {stored}, parent ∈ byId →
        (byId.insert manifest.id manifest)[parent]? = some stored →
          byId[parent]? = some stored := by
    intro parent stored member lookup
    rcases lookup_cases lookup with ⟨isNew, -⟩ | ⟨-, old⟩
    · rw [isNew] at member
      exact (onTop.fresh member).elim
    · exact old
  refine ⟨?_, ?_, ?_⟩
  · intro id other bridge stored lookup isBridge otherLookup otherBridge
    exact admissible.lineage.single id other bridge stored
      (notNew lookup isBridge) isBridge (notNew otherLookup otherBridge) otherBridge
  · intro id parent stored parentStored lookup isParent parentLookup
    rcases lookup_cases lookup with ⟨-, rfl⟩ | ⟨-, old⟩
    · have member := ((onTop.onHeads parent).mp isParent).1
      exact continues parent parentStored isParent (parentOld member parentLookup)
    · have isKnown : parent ∈ byId.parents id := by
        rw [parents_of_stored old]
        exact isParent
      exact admissible.lineage.continued id parent stored parentStored old isParent
        (parentOld ((admissible.known id).2 parent isKnown) parentLookup)
  · intro id other bridge stored lookup isBridge otherLookup
    have old := notNew lookup isBridge
    rcases lookup_cases otherLookup with ⟨isNew, -⟩ | ⟨-, otherOld⟩
    · rw [isNew]
      exact .inr (.inr (onTop.descends admissible.acyclic
        (Std.ExtTreeMap.mem_keys.mp (mem_keys_of_stored old))))
    · rcases admissible.lineage.connected id other bridge stored old isBridge
        otherOld with same | below | above
      · exact .inl same
      · exact .inr (.inl (below.insert onTop.fresh))
      · exact .inr (.inr (above.insert onTop.fresh))

theorem stillKeyed (keyed : byId.Keyed) : Keyed (byId.insert manifest.id manifest) := by
  intro id stored lookup
  rcases lookup_cases lookup with ⟨same, rfl⟩ | ⟨-, old⟩
  · exact same.symm
  · exact keyed id stored old

/--
A new manifest on top of a history keeps it admissible exactly if it continues
the profiles of its parents.
-/
theorem admissible_iff (admissible : byId.Admissible) :
    Admissible (byId.insert manifest.id manifest) ↔ ∀ (parent : MigrationId)
        (stored : VerifiedSchemaMigrationManifest codec Body),
        parent ∈ manifest.parents → byId[parent]? = some stored →
          validateProfileEdge manifest stored = .ok () := by
  constructor
  · intro extended parent stored isParent lookup
    refine extended.lineage.continued manifest.id parent manifest stored ?_ isParent ?_
    · rw [OrderedMap.getElem?_insert_eq, if_pos rfl]
    · rw [OrderedMap.getElem?_insert_eq, if_neg ?_]
      · exact lookup
      · intro same
        apply onTop.fresh
        rw [same]
        exact ((onTop.onHeads parent).mp isParent).1
  · intro continues
    exact {
      keyed := onTop.stillKeyed admissible.keyed
      legacy := onTop.oneLegacyRoot admissible
      known := onTop.parentsKnown admissible.known
      acyclic := onTop.stillAcyclic admissible
      lineage := onTop.profileLineage admissible continues
    }

end OnTop

end Insert

end Manifests

/-! ## Accepted histories -/

namespace MigrationHistoryGraph

variable {manifests : List (VerifiedSchemaMigrationManifest codec Body)}
  {graph : MigrationHistoryGraph codec Body}

theorem of_fromVerified (accepted : fromVerified manifests = .ok graph) :
    collectManifests manifests = .ok graph.manifests ∧ graph.manifests.Admissible := by
  unfold fromVerified at accepted
  split at accepted
  · cases accepted
  · rename_i byId collected
    obtain ⟨_, legacy, accepted⟩ := bind_eq_ok.mp accepted
    split at accepted
    · cases accepted
    · rename_i checks validated
      split at accepted
      · cases accepted
      · rename_i topological ordered
        obtain ⟨_, lineage, accepted⟩ := bind_eq_ok.mp accepted
        rw [pure_eq_ok] at accepted
        subst accepted
        have known := Manifests.exists_validateParents_iff.mp ⟨_, validated⟩
        refine ⟨collected, ?_⟩
        exact {
          keyed := keyed_of_foldlM_collectManifest (by intro _ _; simp) collected
          legacy := Manifests.validateLegacyBridges_eq_ok_iff.mp legacy
          known := known
          acyclic := (Manifests.exists_orderApplySubset_iff known).mp ⟨_, ordered⟩
          lineage := (Manifests.validateProfileLineage_eq_ok_iff known).mp lineage
        }

variable {manifest : VerifiedSchemaMigrationManifest codec Body}

theorem getElem?_of_fromVerified (accepted : fromVerified manifests = .ok graph) {id : MigrationId} :
    graph.manifests[id]? = some manifest ↔ manifest ∈ manifests ∧ manifest.id = id := by
  obtain ⟨collected, -⟩ := of_fromVerified accepted
  refine foldlM_invariant (fun done (byId : Manifests codec Body) =>
      ∀ (id : MigrationId) manifest, byId[id]? = some manifest ↔ manifest ∈ done ∧ manifest.id = id)
    ?_ ?_ collected id manifest
  · intro id manifest
    simp
  · intro done item byId next invariant inserted id manifest
    obtain ⟨fresh, inserted⟩ := guard_eq_ok.mp inserted
    cases inserted
    rw [List.mem_append, List.mem_singleton]
    constructor
    · intro lookup
      rcases Manifests.lookup_cases lookup with ⟨isNew, rfl⟩ | ⟨-, old⟩
      · exact ⟨.inr rfl, isNew.symm⟩
      · obtain ⟨member, same⟩ := (invariant id manifest).mp old
        exact ⟨.inl member, same⟩
    · intro listed
      obtain ⟨member, same⟩ := listed
      rw [OrderedMap.getElem?_insert_eq]
      rcases member with old | isNew
      · have stored := (invariant id manifest).mpr ⟨old, same⟩
        rw [if_neg ?_]
        · exact stored
        · intro sameId
          apply fresh
          rw [sameId]
          exact Std.ExtTreeMap.mem_keys.mp (Manifests.mem_keys_of_stored stored)
      · subst isNew
        rw [if_pos same]

variable {byId : Manifests codec Body}

theorem exists_fromVerified (collected : collectManifests manifests = .ok byId)
    (admissible : byId.Admissible) : ∃ graph, fromVerified manifests = .ok graph := by
  have legacy := Manifests.validateLegacyBridges_eq_ok_iff.mpr admissible.legacy
  obtain ⟨checks, validated⟩ := Manifests.exists_validateParents_iff.mpr admissible.known
  obtain ⟨topological, ordered⟩ := (Manifests.exists_orderApplySubset_iff admissible.known).mpr
      admissible.acyclic
  have lineage :=
    (Manifests.validateProfileLineage_eq_ok_iff admissible.known).mpr admissible.lineage
  unfold fromVerified
  split
  · rename_i failed
    cases collected.symm.trans failed
  · rename_i same
    cases collected.symm.trans same
    rw [legacy]
    simp only [bind, Except.bind]
    split
    · rename_i failed
      cases validated.symm.trans failed
    · split
      · rename_i failed
        cases ordered.symm.trans failed
      · rw [lineage]
        exact ⟨_, rfl⟩

theorem collectManifests_snoc (collected : collectManifests manifests = .ok byId)
    (fresh : manifest.id ∉ byId) :
    collectManifests (manifests ++ [manifest]) = .ok (byId.insert manifest.id manifest) := by
  unfold collectManifests at collected ⊢
  rw [List.foldlM_append, collected]
  simp only [bind, Except.bind, List.foldlM_cons, List.foldlM_nil, collectManifest, if_neg fresh]
  rfl

/--
A manifest on top of an accepted history is accepted exactly if it continues
the profiles of its parents.
-/
theorem exists_fromVerified_snoc_iff (accepted : fromVerified manifests = .ok graph)
    (onTop : graph.manifests.OnTop manifest) :
    (∃ extended, fromVerified (manifests ++ [manifest]) = .ok extended) ↔ ∀ (parent : MigrationId)
        (stored : VerifiedSchemaMigrationManifest codec Body),
        parent ∈ manifest.parents → graph.manifests[parent]? = some stored →
          validateProfileEdge manifest stored = .ok () := by
  obtain ⟨collected, admissible⟩ := of_fromVerified accepted
  have added := collectManifests_snoc collected onTop.fresh
  rw [← onTop.admissible_iff admissible]
  constructor
  · intro accepted
    obtain ⟨extended, accepted⟩ := accepted
    obtain ⟨same, still⟩ := of_fromVerified accepted
    rw [← Except.ok.inj (same.symm.trans added)]
    exact still
  · intro still
    exact exists_fromVerified added still

theorem heads_of_snoc {extended : MigrationHistoryGraph codec Body}
    (accepted : fromVerified manifests = .ok graph) (onTop : graph.manifests.OnTop manifest)
    (grown : fromVerified (manifests ++ [manifest]) = .ok extended) :
    extended.manifests = graph.manifests.insert manifest.id manifest ∧
      extended.heads = [manifest.id] := by
  obtain ⟨collected, admissible⟩ := of_fromVerified accepted
  have added := collectManifests_snoc collected onTop.fresh
  obtain ⟨same, -⟩ := of_fromVerified grown
  have isExtended := Except.ok.inj (same.symm.trans added)
  refine ⟨isExtended, List.perm_singleton.mp ?_⟩
  rw [List.perm_ext_iff_of_nodup (Manifests.nodup_heads extended) (List.nodup_singleton _)]
  intro id
  rw [Manifests.mem_heads, isExtended, onTop.childless_iff admissible, List.mem_singleton]

end MigrationHistoryGraph

end TypeBridge.Migration
