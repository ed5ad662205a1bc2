import TypeBridge.Migration.PlanningRun

namespace TypeBridge.Migration

open Library Library.ReadyOrder Schema
open Library.Checked hiding get

/-!
# Plans are closures in dependency order

The ordering loops keep a counter for every selected migration that is not
listed yet. A graph is built only after all its migrations were listed
parents first, and their positions in that list rank every selection of them.
So neither loop leaves a counter behind, and no counter is lowered below zero:
a plan exists whenever its checks pass.
-/

variable {Bytes Digest Body : Type} {codec : Codec Bytes Digest} [DecidableEq Digest]

/-! ## The ordering loops -/

/--
List the selected migrations by counting down their open prerequisites.

The result is `none` when a counter underflows.
-/
def countDownSubset (selected : List MigrationId) (prerequisites : MigrationId → Finset MigrationId)
    (dependents : MigrationId → List MigrationId) :
    Option (Except Diagnostic (List MigrationId)) := do
  let result ←
    Countdown.run (fun _ => ()) dependents selected.length
      (Countdown.start (fun _ => ()) selected prerequisites)
  return if ∀ id ∈ selected, result.2.counts id = none then .ok result.1
  else .error ⟨"migration_history_cycle"⟩

def applySubsetLoop (manifests : Manifests codec Body) (required : List MigrationId)
    (applied : IdSet) : Option (Except Diagnostic (List MigrationId)) :=
  countDownSubset required (fun id =>
      ((manifests.parents id).filter fun parent => parent ∈ required ∧ parent ∉ applied).toFinset)
    manifests.children

def rollbackSubsetLoop (manifests : Manifests codec Body) (removals : List MigrationId) :
    Option (Except Diagnostic (List MigrationId)) :=
  countDownSubset removals (fun id => ((manifests.children id).filter (· ∈ removals)).toFinset)
    -- The parents of a migration are a set.
    (fun id => (manifests.parents id).dedup)

variable {selected : List MigrationId} {prerequisites : MigrationId → Finset MigrationId}

theorem countDownSubset_eq {dependents : MigrationId → List MigrationId}
    (distinctSelected : selected.Nodup)
    (inside : ∀ id ∈ selected, prerequisites id ⊆ selected.toFinset)
    (distinct : ∀ id, (dependents id).Nodup) (exactly : ∀ id ∈ selected, ∀ other ∈ selected,
        other ∈ dependents id ↔ id ∈ prerequisites other) :
    countDownSubset selected prerequisites dependents =
      some (orderSubset selected prerequisites) := by
  obtain ⟨final, run, settled⟩ := exists_run_start (fun _ => ()) distinctSelected inside distinct
      exactly
  unfold countDownSubset orderSubset
  simp only [run, Option.bind_eq_bind, Option.bind_some, Option.pure_def, settled]

theorem exists_orderSubset (rank : MigrationId → Nat) (distinct : selected.Nodup)
    (inside : ∀ id ∈ selected, prerequisites id ⊆ selected.toFinset)
    (ranked : ∀ id ∈ selected, ∀ needed ∈ prerequisites id, rank needed < rank id) :
    ∃ order, orderSubset selected prerequisites = .ok order := by
  unfold orderSubset
  rw [if_pos (length_readyOrder distinct inside ranked)]
  exact ⟨_, rfl⟩

namespace MigrationHistoryGraph

variable {graph : MigrationHistoryGraph codec Body}

theorem idxOf_parent_lt {id parent : MigrationId} (isParent : parent ∈ graph.manifests.parents id) :
    graph.topological.idxOf parent < graph.topological.idxOf id ∧
      graph.topological.idxOf id < graph.topological.length := by
  have distinct : graph.manifests.keys.Nodup := Std.ExtTreeMap.nodup_keys
  obtain ⟨listed, orders⟩ := orderSubset_eq_ok distinct (by
        intro other _ needed member
        simp only [List.mem_toFinset, List.mem_filter, decide_eq_true_eq] at member ⊢
        exact member.2.1)
      graph.ordered
  have parentKey : parent ∈ graph.manifests.keys :=
    Std.ExtTreeMap.mem_keys.mpr (graph.complete id parent isParent)
  have isListed : id ∈ graph.topological := (listed id).mpr
      (Std.ExtTreeMap.mem_keys.mpr (mem_of_mem_parents isParent))
  refine ⟨?_, List.idxOf_lt_length_of_mem isListed⟩
  obtain ⟨earlier, later, shape⟩ := List.append_of_mem isListed
  have before : parent ∈ earlier := by
    apply orders.before earlier later id parent shape ((listed parent).mpr parentKey)
    simp only [List.mem_toFinset, List.mem_filter, decide_eq_true_eq]
    exact ⟨isParent, parentKey, Std.ExtTreeSet.not_mem_empty⟩
  have idLater : id ∉ earlier := by
    intro isEarlier
    have nodup := orders.nodup
    rw [shape, List.nodup_append] at nodup
    exact nodup.2.2 id isEarlier id (by simp) rfl
  rw [shape, List.idxOf_append_of_mem before,
    List.idxOf_append_of_notMem idLater, List.idxOf_cons_self]
  have bound := List.idxOf_lt_length_of_mem before
  omega

def unapplied (graph : MigrationHistoryGraph codec Body) (closure : Finset MigrationId)
    (applied : IdSet) : List MigrationId :=
  graph.manifests.keys.filter fun id => id ∈ closure ∧ id ∉ applied

theorem subset_required (required : List MigrationId) (applied : IdSet) (id : MigrationId) :
    ((graph.manifests.parents id).filter fun parent =>
        parent ∈ required ∧ parent ∉ applied).toFinset ⊆ required.toFinset := by
  intro needed member
  simp only [List.mem_toFinset, List.mem_filter, decide_eq_true_eq] at member ⊢
  exact member.2.1

theorem subset_removals (removals : List MigrationId) (id : MigrationId) :
    ((graph.manifests.children id).filter (· ∈ removals)).toFinset ⊆ removals.toFinset := by
  intro needed member
  simp only [List.mem_toFinset, List.mem_filter, decide_eq_true_eq] at member ⊢
  exact member.2

variable {applied : IdSet}

theorem exists_planApply_iff {targets : IdSet} (downward : graph.DownwardClosed applied) :
    (∃ order, graph.planApply applied targets = .ok order) ↔
      ∀ target ∈ targets, target ∈ graph.manifests := by
  obtain ⟨checks, validated⟩ := validateApplied_eq_ok_iff.mpr downward
  rw [← exists_ancestorClosure_iff]
  constructor
  · intro planned
    obtain ⟨order, planned⟩ := planned
    obtain ⟨_, -, planned⟩ := bind_eq_ok.mp planned
    obtain ⟨closure, closed, -⟩ := bind_eq_ok.mp planned
    exact ⟨closure, closed⟩
  · intro closes
    obtain ⟨closure, closed⟩ := closes
    have ordered : ∃ order, orderApplySubset graph.manifests (graph.unapplied closure applied)
            applied = .ok order := by
      refine exists_orderSubset (fun id => graph.topological.idxOf id)
        (Std.ExtTreeMap.nodup_keys.filter _) (fun id _ => subset_required _ _ id) ?_
      intro id _ needed member
      simp only [List.mem_toFinset, List.mem_filter] at member
      exact (idxOf_parent_lt member.1).1
    obtain ⟨order, ordered⟩ := ordered
    exact ⟨order, bind_eq_ok.mpr ⟨checks, validated, bind_eq_ok.mpr ⟨closure, closed, ordered⟩⟩⟩

theorem applySubsetLoop_eq (closure : Finset MigrationId) (applied : IdSet) :
    applySubsetLoop graph.manifests (graph.unapplied closure applied) applied = some
        (orderApplySubset graph.manifests (graph.unapplied closure applied) applied) := by
  refine countDownSubset_eq (Std.ExtTreeMap.nodup_keys.filter _)
    (fun id _ => subset_required _ _ id) (fun id => Std.ExtTreeMap.nodup_keys.filter _) ?_
  intro id selected child _
  have unapplied : id ∉ applied := by
    simp only [MigrationHistoryGraph.unapplied, List.mem_filter, decide_eq_true_eq] at selected
    exact selected.2.2
  simp only [mem_children_iff, List.mem_toFinset, List.mem_filter,
    decide_eq_true_eq, selected, unapplied, not_false_eq_true, and_self, and_true]

theorem rollbackSubsetLoop_eq (removals : IdSet) :
    rollbackSubsetLoop graph.manifests removals.toList =
      some (orderRollbackSubset graph.manifests removals.toList) := by
  have distinct : removals.toList.Nodup := Std.ExtTreeSet.ordered_toList.imp fun less =>
      ne_of_lt (compare_lt_iff_lt.mp less)
  refine countDownSubset_eq distinct (fun id _ => subset_removals _ id)
    (fun id => List.nodup_dedup _) ?_
  intro id selected parent _
  simp only [List.mem_dedup, List.mem_toFinset, List.mem_filter,
    mem_children_iff, decide_eq_true_eq, selected, and_true]

/-- Planning rollback succeeds exactly when the rest stays closed. -/
theorem exists_planRollback_iff {removals : IdSet} (downward : graph.DownwardClosed applied) :
    (∃ order, graph.planRollback applied removals = .ok order) ↔ (∀ id ∈ removals, id ∈ applied) ∧
        graph.DownwardClosed (applied \ removals) := by
  constructor
  · intro planned
    obtain ⟨order, planned⟩ := planned
    obtain ⟨-, rollsBack, exactly⟩ := planRollback_eq_ok planned
    refine ⟨?_, AppliedLog.downward_diff downward rollsBack exactly⟩
    intro id isRemoved
    exact rollsBack.present id ((exactly id).mpr isRemoved)
  · intro accepted
    obtain ⟨present, restClosed⟩ := accepted
    obtain ⟨checks, validated⟩ := validateApplied_eq_ok_iff.mpr downward
    have ordered : ∃ order, orderRollbackSubset graph.manifests removals.toList = .ok order := by
      -- Children come later in the topological list than their parents.
      refine exists_orderSubset (fun id => graph.topological.length - graph.topological.idxOf id)
        ?_ (fun id _ => subset_removals _ id) ?_
      · exact Std.ExtTreeSet.ordered_toList.imp fun less => ne_of_lt (compare_lt_iff_lt.mp less)
      · intro id _ child member
        simp only [List.mem_toFinset, List.mem_filter, mem_children_iff] at member
        have later := idxOf_parent_lt member.1
        omega
    have removable : ∀ id ∈ removals.toList, ∃ value, (if id ∉ graph.manifests then
            (.error ⟨"migration_history_unknown_rollback_target"⟩ : Except Diagnostic Unit)
          else if id ∉ applied then .error ⟨"migration_history_rollback_not_applied"⟩
          else if ∃ child ∈ graph.manifests.children id, child ∈ applied ∧ child ∉ removals then
            .error ⟨"migration_history_remaining_applied_descendant"⟩
          else .ok ()) = .ok value := by
      intro id listed
      have isRemoved := Std.ExtTreeSet.mem_toList.mp listed
      have isApplied := present id isRemoved
      have noChild : ¬ ∃ child ∈ graph.manifests.children id,
            child ∈ applied ∧ child ∉ removals := by
        intro remaining
        obtain ⟨child, isChild, childApplied, kept⟩ := remaining
        have childRest : child ∈ applied \ removals :=
          Std.ExtTreeSet.mem_diff_iff.mpr ⟨childApplied, kept⟩
        have idRest := (restClosed child childRest).2 id (mem_children_iff.mp isChild)
        exact (Std.ExtTreeSet.mem_diff_iff.mp idRest).2 isRemoved
      rw [if_neg (not_not.mpr (downward id isApplied).1),
        if_neg (not_not.mpr isApplied), if_neg noChild]
      exact ⟨(), rfl⟩
    obtain ⟨removalChecks, checked⟩ := exists_mapM_eq_ok_iff.mpr removable
    obtain ⟨order, ordered⟩ := ordered
    exact ⟨order, bind_eq_ok.mpr ⟨checks, validated,
      bind_eq_ok.mpr ⟨removalChecks, checked, ordered⟩⟩⟩

variable {earlier later : List MigrationId}

theorem AppliesInOrder.of_append (order : graph.AppliesInOrder applied (earlier ++ later)) :
    graph.AppliesInOrder applied earlier where
  nodup := order.nodup.of_append_left
  fresh := fun id member => order.fresh id (by simp [member])
  known := fun id member => order.known id (by simp [member])
  parents := by
    intro before after id shape parent isParent
    refine order.parents before (after ++ later) id ?_ parent isParent
    rw [shape]
    simp

theorem RollsBackInOrder.of_append (order : graph.RollsBackInOrder applied (earlier ++ later)) :
    graph.RollsBackInOrder applied earlier where
  nodup := order.nodup.of_append_left
  present := fun id member => order.present id (by simp [member])
  children := by
    intro before after id shape child childApplied isChild
    refine order.children before (after ++ later) id ?_ child childApplied isChild
    rw [shape]
    simp

theorem AppliesInOrder.insertMany_diff {added : IdSet} {order : List MigrationId}
    (applies : graph.AppliesInOrder applied order) (exactly : ∀ id, id ∈ added ↔ id ∈ order) :
    applied.insertMany order \ added = applied := by
  apply Std.ExtTreeSet.ext_mem
  intro id
  rw [Std.ExtTreeSet.mem_diff_iff, Std.ExtTreeSet.mem_insertMany_list,
    List.contains_iff_mem, exactly id]
  constructor
  · intro remaining
    exact remaining.1.resolve_right remaining.2
  · intro isApplied
    exact ⟨Or.inl isApplied, fun planned => applies.fresh id planned isApplied⟩

end MigrationHistoryGraph

/--
Plans are exact closures in dependency order.

From a downward closed set, application to any known targets lists exactly
their unapplied ancestors, parents first, and stays closed after every prefix.
A removal set is accepted exactly when it is applied and leaves a closed set,
and is listed children first, closed after every prefix. Neither ordering
loop underflows or reports a cycle, and removing what was added restores the
applied set.
-/
theorem plans_are_exact_closures
    (graph : MigrationHistoryGraph codec Body)
    (applied : IdSet)
    (downward : graph.DownwardClosed applied) :
    (∀ targets : IdSet,
      ((∃ order, graph.planApply applied targets = .ok order) ↔
        ∀ target ∈ targets, target ∈ graph.manifests) ∧
      ∀ order,
        graph.planApply applied targets = .ok order →
          graph.AppliesInOrder applied order ∧
          (∀ id, id ∈ order ↔ graph.IsAncestorOf targets id ∧ id ∉ applied) ∧
          (∀ earlier later,
            order = earlier ++ later →
              graph.DownwardClosed (applied.insertMany earlier)) ∧
          (∃ closure,
            graph.ancestorClosure targets = .ok closure ∧
            applySubsetLoop graph.manifests (graph.unapplied closure applied) applied =
              some (.ok order)) ∧
          ∀ added : IdSet,
            (∀ id, id ∈ added ↔ id ∈ order) →
              (∃ back, graph.planRollback (applied.insertMany order) added = .ok back) ∧
              applied.insertMany order \ added = applied) ∧
    ∀ removals : IdSet,
      ((∃ order, graph.planRollback applied removals = .ok order) ↔
        (∀ id ∈ removals, id ∈ applied) ∧
          graph.DownwardClosed (applied \ removals)) ∧
      ∀ order,
        graph.planRollback applied removals = .ok order →
          graph.RollsBackInOrder applied order ∧
          (∀ id, id ∈ order ↔ id ∈ removals) ∧
          (∀ earlier later,
            order = earlier ++ later →
              ∀ removed : IdSet,
                (∀ id, id ∈ removed ↔ id ∈ earlier) →
                  graph.DownwardClosed (applied \ removed)) ∧
          rollbackSubsetLoop graph.manifests removals.toList = some (.ok order) := by
  constructor
  · intro targets
    refine ⟨MigrationHistoryGraph.exists_planApply_iff downward, ?_⟩
    intro order planned
    obtain ⟨-, applies, ancestors⟩ := MigrationHistoryGraph.planApply_eq_ok planned
    refine ⟨applies, ancestors, ?_, ?_, ?_⟩
    · intro earlier later shape
      rw [shape] at applies
      exact AppliedLog.downward_insertMany downward applies.of_append
    · obtain ⟨_, -, planned⟩ := bind_eq_ok.mp planned
      obtain ⟨closure, closed, ordered⟩ := bind_eq_ok.mp planned
      refine ⟨closure, closed, ?_⟩
      rw [MigrationHistoryGraph.applySubsetLoop_eq]
      exact congrArg some ordered
    · intro added exactly
      have restored := applies.insertMany_diff exactly
      have extended := AppliedLog.downward_insertMany downward applies
      refine ⟨(MigrationHistoryGraph.exists_planRollback_iff extended).mpr ⟨?_, ?_⟩, restored⟩
      · intro id isAdded
        rw [Std.ExtTreeSet.mem_insertMany_list, List.contains_iff_mem]
        exact Or.inr ((exactly id).mp isAdded)
      · rw [restored]
        exact downward
  · intro removals
    refine ⟨MigrationHistoryGraph.exists_planRollback_iff downward, ?_⟩
    intro order planned
    obtain ⟨-, rollsBack, exactly⟩ := MigrationHistoryGraph.planRollback_eq_ok planned
    refine ⟨rollsBack, exactly, ?_, ?_⟩
    · intro earlier later shape removed removedExactly
      rw [shape] at rollsBack
      exact AppliedLog.downward_diff downward rollsBack.of_append fun id => (removedExactly id).symm
    · obtain ⟨_, -, planned⟩ := bind_eq_ok.mp planned
      obtain ⟨_, -, ordered⟩ := bind_eq_ok.mp planned
      rw [MigrationHistoryGraph.rollbackSubsetLoop_eq]
      exact congrArg some ordered

/-- With the root applied, its children can be applied and it can be removed. -/
theorem forkedHistory_plans :
    (∃ order, forkedHistory.planApply (namedIds ["a"]) (namedIds ["b", "c"]) = .ok order) ∧
      ∃ order, forkedHistory.planRollback (namedIds ["a"]) (namedIds ["a"]) = .ok order := by
  have downward : forkedHistory.DownwardClosed (namedIds ["a"]) :=
    MigrationHistoryGraph.validateApplied_eq_ok_iff.mp ⟨_, eq_ok_get _ (by decide +kernel)⟩
  obtain ⟨applies, rollsBack⟩ := plans_are_exact_closures forkedHistory (namedIds ["a"]) downward
  refine ⟨(applies (namedIds ["b", "c"])).1.mpr ?_,
    (rollsBack (namedIds ["a"])).1.mpr ⟨fun id member => member, ?_⟩⟩
  · have known : ∀ id ∈ (namedIds ["b", "c"]).toList, id ∈ forkedHistory.manifests := by
      decide +kernel
    intro id member
    exact known id (Std.ExtTreeSet.mem_toList.mpr member)
  · intro id member
    rw [Std.ExtTreeSet.mem_diff_iff] at member
    exact (member.2 member.1).elim

/-- A target without a manifest is rejected, even when nothing is applied. -/
theorem unknown_target_rejected :
    forkedHistory.DownwardClosed ∅ ∧ forkedHistory.planApply ∅ (namedIds ["d"]) =
        .error ⟨"migration_history_unknown_apply_target"⟩ := by
  constructor
  · intro id member
    exact (Std.ExtTreeSet.not_mem_empty member).elim
  · decide +kernel

end TypeBridge.Migration
