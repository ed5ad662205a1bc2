import TypeBridge.Library.ChainedLog
import TypeBridge.Migration.Generate
import TypeBridge.Migration.TransactionGroup

namespace TypeBridge.Migration

open Library Library.ChainedLog Schema
open Library.Checked hiding get

/-!
# Runs of plans

A run starts with nothing applied and takes one plan after the other. The
applied set stays closed under parents, whatever the plans are.

A plan only checks the chain of states it walks. The log below lists the
applied migrations in an order in which their states chain. While every
frontier that a plan leaves is comparable to the migrations that change the
state, all frontier members end where the log ends, so the next plan starts
where the last one stopped.
-/

variable {Bytes Digest Condition Body Lowered PlanDigest : Type} {codec : Codec Bytes Digest}
  [DecidableEq Digest]

abbrev Position (Digest : Type) := Digest × ManagedSchemaState Digest

def positionOf (reached : DeclaredSchema codec × ManagedSchemaState Digest) : Position Digest :=
  (reached.1.fingerprint, reached.2)

namespace MigrationHistoryGraph

def sourceOf (graph : MigrationHistoryGraph codec Body) (id : MigrationId) :
    Option (Position Digest) :=
  (graph.manifests[id]?).map fun manifest =>
    positionOf (manifest.sourceSchema, manifest.sourceState)

def targetOf (graph : MigrationHistoryGraph codec Body) (id : MigrationId) :
    Option (Position Digest) :=
  (graph.manifests[id]?).map fun manifest =>
    positionOf (manifest.targetSchema, manifest.targetState)

def ChangesState (graph : MigrationHistoryGraph codec Body) (id : MigrationId) : Prop :=
  graph.sourceOf id ≠ graph.targetOf id

def Ancestor (graph : MigrationHistoryGraph codec Body) : MigrationId → MigrationId → Prop :=
  Relation.TransGen fun parent child => parent ∈ graph.manifests.parents child

/--
Every member of the frontier after a step is comparable to every migration
that changes the state and is applied before or after the step.
-/
def KeepsComparable (graph : MigrationHistoryGraph codec Body) (before after : IdSet) : Prop :=
  ∀ id, graph.IsFrontier after id → ∀ changing, changing ∈ before ∨ changing ∈ after →
      graph.ChangesState changing →
      changing = id ∨ graph.Ancestor changing id ∨ graph.Ancestor id changing

/--
The members of the frontier after a step end in one state, and each of them is
an ancestor of every migration that changed the state and was taken back.
-/
def KeepsCoherent (graph : MigrationHistoryGraph codec Body) (before after : IdSet) : Prop :=
  (∀ id other, graph.IsFrontier after id → graph.IsFrontier after other →
      graph.targetOf id = graph.targetOf other) ∧
    ∀ id, graph.IsFrontier after id → ∀ changing ∈ before, changing ∉ after →
      graph.ChangesState changing → graph.Ancestor id changing

/-- A step keeps the frontier comparable or coherent. -/
def KeepsFrontier (graph : MigrationHistoryGraph codec Body) (before after : IdSet) : Prop :=
  graph.KeepsComparable before after ∨ graph.KeepsCoherent before after

end MigrationHistoryGraph

/-! ## What a plan has checked -/

section Plans

variable {graph : MigrationHistoryGraph codec Body} {position : Option (Position Digest)}
  {frontier : List MigrationId}

/-- Comparing members that end in one position succeeds. -/
theorem exists_foldlM_coherentStep (known : ∀ id ∈ frontier, id ∈ graph.manifests)
    (agree : ∀ id ∈ frontier, graph.targetOf id = position)
    {start : Option (DeclaredSchema codec × ManagedSchemaState Digest)}
    (startAgrees : ∀ current ∈ start, some (positionOf current) = position) :
    ∃ reached, frontier.foldlM (coherentStep graph) start = .ok reached ∧
        (frontier = [] → reached = start) ∧
        (frontier ≠ [] → reached.map positionOf = position) := by
  induction frontier generalizing start with
  | nil => exact ⟨start, rfl, fun _ => rfl, fun nonempty => (nonempty rfl).elim⟩
  | cons first rest ih =>
    obtain ⟨manifest, found⟩ := Option.isSome_iff_exists.mp
        (Std.ExtTreeMap.isSome_getElem?_iff_mem.mpr (known first (by simp)))
    have leads : some (positionOf (manifest.targetSchema, manifest.targetState)) = position := by
      rw [← agree first (by simp), MigrationHistoryGraph.targetOf, found]
      rfl
    have stepped : coherentStep graph start first =
          .ok (some (manifest.targetSchema, manifest.targetState)) := by
      unfold coherentStep
      rw [found]
      refine if_neg ?_
      intro differs
      obtain ⟨current, isStart, differs⟩ := differs
      have same := (startAgrees current isStart).trans leads.symm
      rw [Option.some.injEq, positionOf, positionOf, Prod.mk.injEq] at same
      rcases differs with differs | differs
      · exact differs same.1
      · exact differs same.2
    have nextAgrees : ∀ current ∈ some (manifest.targetSchema, manifest.targetState),
          some (positionOf current) = position := by
      intro current isCurrent
      cases isCurrent
      exact leads
    obtain ⟨reached, run, whenEmpty, whenMore⟩ := ih (fun id member => known id (by simp [member]))
        (fun id member => agree id (by simp [member])) nextAgrees
    refine ⟨reached, ?_, by simp, ?_⟩
    · exact foldlM_cons_eq_ok.mpr ⟨_, stepped, run⟩
    · intro _
      by_cases restEmpty : rest = []
      · rw [whenEmpty restEmpty]
        exact leads
      · exact whenMore restEmpty

theorem coherentFrontierState_of_agree (known : ∀ id ∈ frontier, id ∈ graph.manifests)
    (agree : ∀ id ∈ frontier, graph.targetOf id = position) :
    ∃ reached, coherentFrontierState graph frontier = .ok reached ∧
        (frontier = [] → reached = none) ∧ (frontier ≠ [] → reached.map positionOf = position) :=
  exists_foldlM_coherentStep known agree (by simp)

variable [DecidableEq Body] [DecidableEq PlanDigest]
  {services : PlanServices codec Condition Body Lowered PlanDigest}
  {inputs : PlanInputs Digest PlanDigest} {id : MigrationId}

variable {walk reached : ApplyWalk codec Body Lowered PlanDigest}

theorem planManifest_eq_ok (planned : planManifest services graph inputs walk id = .ok reached) :
    (∀ current ∈ walk.current, graph.sourceOf id = some (positionOf current)) ∧ (∃ moved,
        reached.current = some moved ∧ graph.targetOf id = some (positionOf moved)) ∧
      reached.migrations.map (·.manifest.id) = walk.migrations.map (·.manifest.id) ++ [id] := by
  unfold planManifest at planned
  cases found : graph.manifests[id]? with
  | none =>
    rw [found] at planned
    cases planned
  | some manifest =>
    rw [found] at planned
    obtain ⟨execution, -, planned⟩ := bind_eq_ok.mp planned
    obtain ⟨_, -, planned⟩ := bind_eq_ok.mp planned
    obtain ⟨_, -, planned⟩ := bind_eq_ok.mp planned
    obtain ⟨_, -, planned⟩ := bind_eq_ok.mp planned
    obtain ⟨schema, continued, planned⟩ := bind_eq_ok.mp planned
    obtain ⟨entry, verified, planned⟩ := bind_eq_ok.mp planned
    rw [pure_eq_ok] at planned
    subst planned
    refine ⟨?_, ?_, ?_⟩
    · intro current isCurrent
      rw [isCurrent] at continued
      obtain ⟨sameSchema, continued⟩ := guard_eq_ok.mp continued
      obtain ⟨sameState, -⟩ := guard_eq_ok.mp continued
      rw [not_ne_iff] at sameSchema sameState
      rw [MigrationHistoryGraph.sourceOf, found, Option.map_some,
        positionOf, positionOf, sameSchema, sameState]
    · refine ⟨_, rfl, ?_⟩
      rw [MigrationHistoryGraph.targetOf, found]
      rfl
    · rw [List.map_append, List.map_singleton,
        manifest_of_planSteps verified, graph.keyed id manifest found]

variable {ids : List MigrationId}

theorem foldlM_planManifest
    (run : ids.foldlM (planManifest services graph inputs) walk = .ok reached) :
    (ids = [] → reached.current = walk.current) ∧ reached.migrations.map (·.manifest.id) =
        walk.migrations.map (·.manifest.id) ++ ids ∧ ∃ start,
        (∀ current ∈ walk.current, start = some (positionOf current)) ∧ (ids ≠ [] →
            Chain graph.sourceOf graph.targetOf start ids (reached.current.map positionOf)) := by
  induction ids generalizing walk with
  | nil =>
    rw [List.foldlM_nil, pure_eq_ok] at run
    subst run
    refine ⟨fun _ => rfl, by simp, walk.current.map positionOf, ?_, ?_⟩
    · intro current isCurrent
      rw [isCurrent]
      rfl
    · intro nonempty
      exact (nonempty rfl).elim
  | cons first rest ih =>
    obtain ⟨middle, stepped, run⟩ := foldlM_cons_eq_ok.mp run
    obtain ⟨continues, ⟨moved, isMoved, leads⟩, recorded⟩ := planManifest_eq_ok stepped
    obtain ⟨whenEmpty, listed, start, continuesRest, chained⟩ := ih run
    refine ⟨by simp, ?_, graph.sourceOf first, continues, ?_⟩
    · rw [listed, recorded, List.append_assoc]
      rfl
    · intro _
      refine .cons ?_
      rw [leads]
      by_cases restEmpty : rest = []
      · subst restEmpty
        rw [whenEmpty rfl, isMoved]
        exact .nil _
      · rw [← continuesRest moved isMoved]
        exact chained restEmpty

variable {applied : IdSet} {target : MigrationApplyTarget}

omit [DecidableEq Body] in
theorem plannedIds_eq_ok (planned : plannedIds graph applied target = .ok ids) :
    graph.DownwardClosed applied ∧ graph.AppliesInOrder applied ids := by
  cases target with
  | explicit targets =>
    obtain ⟨downward, order, -⟩ := MigrationHistoryGraph.planApply_eq_ok planned
    exact ⟨downward, order⟩
  | defaultHead =>
    obtain ⟨head, -, planned⟩ := bind_eq_ok.mp planned
    cases head with
    | none =>
      obtain ⟨checks, validated, listed⟩ := bind_eq_ok.mp planned
      rw [pure_eq_ok] at listed
      subst listed
      refine ⟨MigrationHistoryGraph.validateApplied_eq_ok_iff.mp ⟨checks, validated⟩, ?_⟩
      exact {
        nodup := List.nodup_nil
        fresh := by simp
        known := by simp
        parents := by simp
      }
    | some head =>
      obtain ⟨downward, order, -⟩ := MigrationHistoryGraph.planApply_eq_ok planned
      exact ⟨downward, order⟩

structure ChecksApply (graph : MigrationHistoryGraph codec Body) (applied : IdSet)
    (plan : VerifiedMigrationApplyPlan codec Body Lowered PlanDigest) (ids : List MigrationId)
    (frontier : List MigrationId)
    (current : Option (DeclaredSchema codec × ManagedSchemaState Digest))
    (final : Option (Position Digest)) : Prop where
  downward : graph.DownwardClosed applied
  order : graph.AppliesInOrder applied ids
  recorded : plan.migrations.map (·.manifest.id) = ids
  isFrontier : graph.appliedFrontier applied = .ok frontier
  coherent : coherentFrontierState graph frontier = .ok current
  sourceState : plan.sourceState = plannedSourceState (current.map Prod.snd) plan.migrations
  targetState : plan.targetState = final.map Prod.snd
  unchanged : ids = [] → final = current.map positionOf
  chained : ∃ start, (∀ reached ∈ current, start = some (positionOf reached)) ∧
        (ids ≠ [] → Chain graph.sourceOf graph.targetOf start ids final)

theorem exists_checksApply {plan : VerifiedMigrationApplyPlan codec Body Lowered PlanDigest}
    (built : buildVerifiedMigrationApplyPlan services graph applied target inputs = .ok plan) :
    ∃ ids frontier current final, ChecksApply graph applied plan ids frontier current final := by
  obtain ⟨_, -, built⟩ := bind_eq_ok.mp built
  obtain ⟨ids, planned, built⟩ := bind_eq_ok.mp built
  obtain ⟨frontier, isFrontier, built⟩ := bind_eq_ok.mp built
  obtain ⟨current, coherent, built⟩ := bind_eq_ok.mp built
  obtain ⟨walk, run, built⟩ := bind_eq_ok.mp built
  obtain ⟨targetFrontier, -, built⟩ := bind_eq_ok.mp built
  rw [pure_eq_ok] at built
  subst built
  obtain ⟨downward, order⟩ := plannedIds_eq_ok (mapError_eq_ok.mp planned)
  obtain ⟨whenEmpty, recorded, start, continues, chained⟩ := foldlM_planManifest run
  refine ⟨ids, frontier, current, walk.current.map positionOf, {
    downward := downward
    order := order
    recorded := recorded
    isFrontier := mapError_eq_ok.mp isFrontier
    coherent := coherent
    sourceState := rfl
    targetState := ?_
    unchanged := ?_
    chained := ⟨start, continues, chained⟩
  }⟩
  · rw [Option.map_map]
    rfl
  · intro empty
    rw [whenEmpty empty]

variable {walk reached : RollbackWalk codec Body Lowered PlanDigest}

theorem rollbackManifest_eq_ok
    (planned : rollbackManifest services graph inputs walk id = .ok reached) :
    graph.targetOf id = some (positionOf (walk.currentSchema, walk.currentState)) ∧
      graph.sourceOf id = some (positionOf (reached.currentSchema, reached.currentState)) := by
  unfold rollbackManifest at planned
  cases found : graph.manifests[id]? with
  | none =>
    rw [found] at planned
    cases planned
  | some manifest =>
    rw [found] at planned
    obtain ⟨_, -, planned⟩ := bind_eq_ok.mp planned
    obtain ⟨_, ends, planned⟩ := bind_eq_ok.mp planned
    obtain ⟨_, -, planned⟩ := bind_eq_ok.mp planned
    rw [pure_eq_ok] at planned
    subst planned
    obtain ⟨sameState, sameSchema⟩ := contractRequire_eq_ok.mp ends
    refine ⟨?_, ?_⟩
    · rw [MigrationHistoryGraph.targetOf, found, Option.map_some,
        positionOf, positionOf, sameState, sameSchema]
    · rw [MigrationHistoryGraph.sourceOf, found]
      rfl

theorem foldlM_rollbackManifest
    (run : ids.foldlM (rollbackManifest services graph inputs) walk = .ok reached) :
    Chain graph.targetOf graph.sourceOf
      (some (positionOf (walk.currentSchema, walk.currentState))) ids
      (some (positionOf (reached.currentSchema, reached.currentState))) := by
  induction ids generalizing walk with
  | nil =>
    rw [List.foldlM_nil, pure_eq_ok] at run
    subst run
    exact .nil _
  | cons first rest ih =>
    obtain ⟨middle, stepped, run⟩ := foldlM_cons_eq_ok.mp run
    obtain ⟨ends, starts⟩ := rollbackManifest_eq_ok stepped
    rw [← ends]
    refine .cons ?_
    rw [starts]
    exact ih run

structure ChecksRollback (graph : MigrationHistoryGraph codec Body) (applied removals : IdSet)
    (plan : VerifiedMigrationRollbackPlan codec Body Lowered PlanDigest) (ids : List MigrationId)
    (frontier : List MigrationId) (current : DeclaredSchema codec × ManagedSchemaState Digest) :
    Prop where
  downward : graph.DownwardClosed applied
  order : graph.RollsBackInOrder applied ids
  removed : ∀ id, id ∈ ids ↔ id ∈ removals
  isFrontier : graph.appliedFrontier applied = .ok frontier
  coherent : coherentFrontierState graph frontier = .ok (some current)
  sourceState : plan.sourceState = current.2
  chained : Chain graph.targetOf graph.sourceOf (some (positionOf current)) ids
      (some (positionOf (plan.targetSchema, plan.targetState)))

theorem exists_checksRollback {removals : IdSet}
    {plan : VerifiedMigrationRollbackPlan codec Body Lowered PlanDigest}
    (built : buildVerifiedMigrationRollbackPlan services graph applied removals inputs = .ok plan) :
    ∃ ids frontier current, ChecksRollback graph applied removals plan ids frontier current := by
  obtain ⟨_, -, built⟩ := bind_eq_ok.mp built
  obtain ⟨ids, planned, built⟩ := bind_eq_ok.mp built
  obtain ⟨frontier, isFrontier, built⟩ := bind_eq_ok.mp built
  obtain ⟨current, coherent, built⟩ := bind_eq_ok.mp built
  cases current with
  | none => cases built
  | some current =>
    obtain ⟨walk, run, built⟩ := bind_eq_ok.mp built
    rw [pure_eq_ok] at built
    subst built
    obtain ⟨downward, order, removed⟩ := MigrationHistoryGraph.planRollback_eq_ok
        (mapError_eq_ok.mp planned)
    exact ⟨ids, frontier, current, {
      downward := downward
      order := order
      removed := removed
      isFrontier := mapError_eq_ok.mp isFrontier
      coherent := coherent
      sourceState := rfl
      chained := foldlM_rollbackManifest run
    }⟩

end Plans

/-! ## Logs of applied migrations -/

section Log

variable {graph : MigrationHistoryGraph codec Body} {applied : IdSet} {log : List MigrationId}
  {start final : Option (Position Digest)}

structure AppliedLog (graph : MigrationHistoryGraph codec Body) (applied : IdSet)
    (log : List MigrationId) (start final : Option (Position Digest)) : Prop where
  downward : graph.DownwardClosed applied
  nodup : log.Nodup
  lists : ∀ id, id ∈ log ↔ id ∈ applied
  ordered : log.Pairwise fun earlier later =>
      later ∉ graph.manifests.parents earlier
  proper : ∀ id ∈ log, id ∉ graph.manifests.parents id
  chain : Chain graph.sourceOf graph.targetOf start log final

namespace AppliedLog

variable {id : MigrationId} (logged : AppliedLog graph applied log start final)
include logged

theorem parent_lt {parent : MigrationId} (isApplied : id ∈ applied)
    (isParent : parent ∈ graph.manifests.parents id) : log.idxOf parent < log.idxOf id := by
  have parentApplied := (logged.downward id isApplied).2 parent isParent
  have listed := (logged.lists id).mpr isApplied
  obtain ⟨earlier, later, shape⟩ := List.append_of_mem listed
  have parentListed := (logged.lists parent).mpr parentApplied
  have distinct := logged.nodup
  have ordered := logged.ordered
  rw [shape] at parentListed distinct ordered ⊢
  rw [List.mem_append, List.mem_cons] at parentListed
  have notEarlier : id ∉ earlier := by
    intro member
    exact (List.disjoint_of_nodup_append distinct) member (by simp)
  rw [List.idxOf_append_of_notMem notEarlier, List.idxOf_cons_self, Nat.add_zero]
  rcases parentListed with before | same | after
  · rw [List.idxOf_append_of_mem before]
    exact List.idxOf_lt_length_of_mem before
  · subst same
    exact (logged.proper parent listed isParent).elim
  · have following := (List.pairwise_append.mp ordered).2.1
    exact ((List.pairwise_cons.mp following).1 parent after isParent).elim

theorem ancestor_lt {ancestor : MigrationId} (isApplied : id ∈ applied)
    (isAncestor : graph.Ancestor ancestor id) :
    ancestor ∈ applied ∧ log.idxOf ancestor < log.idxOf id := by
  induction isAncestor with
  | single isParent =>
    exact ⟨(logged.downward _ isApplied).2 _ isParent, logged.parent_lt isApplied isParent⟩
  | tail _ isParent ih =>
    have parentApplied := (logged.downward _ isApplied).2 _ isParent
    obtain ⟨ancestorApplied, before⟩ := ih parentApplied
    exact ⟨ancestorApplied, before.trans (logged.parent_lt isApplied isParent)⟩

theorem idxOf_lt_of_later {earlier later : List MigrationId} {other : MigrationId}
    (shape : log = earlier ++ id :: later) (isLater : other ∈ later) :
    log.idxOf id < log.idxOf other := by
  have distinct := logged.nodup
  rw [shape] at distinct ⊢
  have apart := List.disjoint_of_nodup_append distinct
  have tailDistinct := (List.nodup_append.mp distinct).2.1
  have notEarlier : id ∉ earlier := fun member => apart member (by simp)
  have otherNotEarlier : other ∉ earlier := fun member => apart member (by simp [isLater])
  have different : id ≠ other := by
    intro same
    subst same
    exact (List.nodup_cons.mp tailDistinct).1 isLater
  rw [List.idxOf_append_of_notMem notEarlier,
    List.idxOf_append_of_notMem otherNotEarlier, List.idxOf_cons_self,
    List.idxOf_cons_ne _ different]
  omega

theorem exists_frontier_above {kept : IdSet} (inside : ∀ id ∈ kept, id ∈ applied)
    (isKept : id ∈ kept) :
    ∃ top, graph.IsFrontier kept top ∧ (id = top ∨ graph.Ancestor id top) := by
  classical
  let above : Finset MigrationId := log.toFinset.filter fun other =>
      other ∈ kept ∧ (id = other ∨ graph.Ancestor id other)
  have nonempty : above.Nonempty := by
    have listed := (logged.lists id).mpr (inside id isKept)
    exact ⟨id, Finset.mem_filter.mpr ⟨List.mem_toFinset.mpr listed, isKept, Or.inl rfl⟩⟩
  obtain ⟨top, topAbove, maximal⟩ := Finset.exists_max_image above log.idxOf nonempty
  simp only [above, Finset.mem_filter, List.mem_toFinset] at topAbove
  obtain ⟨-, topKept, reaches⟩ := topAbove
  refine ⟨top, ⟨topKept, ?_⟩, reaches⟩
  intro child childKept isChild
  have childApplied := inside child childKept
  have childAbove : child ∈ above := by
    simp only [above, Finset.mem_filter, List.mem_toFinset]
    refine ⟨(logged.lists child).mpr childApplied, childKept, Or.inr ?_⟩
    rcases reaches with same | isAncestor
    · subst same
      exact .single isChild
    · exact .tail isAncestor isChild
  have before := logged.parent_lt childApplied isChild
  exact absurd (maximal child childAbove) (Nat.not_le.mpr before)

theorem targetOf_frontier (isFrontier : graph.IsFrontier applied id)
    (comparable : ∀ changing ∈ applied, graph.ChangesState changing →
        changing = id ∨ graph.Ancestor changing id ∨ graph.Ancestor id changing) :
    graph.targetOf id = final := by
  obtain ⟨earlier, later, shape⟩ := List.append_of_mem ((logged.lists id).mpr isFrontier.1)
  have chain := logged.chain
  rw [shape] at chain
  refine chain.target_eq ?_
  intro other isLater
  by_contra changes
  have listed : other ∈ log := by
    rw [shape]
    simp [isLater]
  have isApplied := (logged.lists other).mp listed
  have after := logged.idxOf_lt_of_later shape isLater
  rcases comparable other isApplied changes with same | below | above
  · subst same
    exact (lt_irrefl _ after).elim
  · have before := (logged.ancestor_lt isFrontier.1 below).2
    omega
  · -- The first step up from a frontier member would be an applied child.
    obtain ⟨child, isChild, rest⟩ := Relation.TransGen.head'_iff.mp above
    have childApplied : child ∈ applied := by
      rcases Relation.reflTransGen_iff_eq_or_transGen.mp rest with same | isAncestor
      · subst same
        exact isApplied
      · exact (logged.ancestor_lt isApplied isAncestor).1
    exact isFrontier.2 child childApplied isChild

/-- The last entry of a log is a frontier member, and the log ends in its target. -/
theorem exists_final (isApplied : id ∈ applied) :
    ∃ top, graph.IsFrontier applied top ∧ graph.targetOf top = final := by
  obtain rfl | ⟨earlier, top, shape⟩ := List.eq_nil_or_concat' log
  · exact (List.not_mem_nil ((logged.lists id).mpr isApplied)).elim
  have chain := logged.chain
  rw [shape] at chain
  refine ⟨top, ⟨(logged.lists top).mp (by simp [shape]), ?_⟩, chain.target_eq (by simp)⟩
  intro child childApplied isChild
  have before := logged.parent_lt childApplied isChild
  have childListed := (logged.lists child).mpr childApplied
  rw [shape] at childListed before
  rcases List.mem_append.mp childListed with isEarlier | isLast
  · -- An entry before the last has the smaller index.
    rw [List.idxOf_append_of_mem isEarlier] at before
    have childBefore := List.idxOf_lt_length_of_mem isEarlier
    have topAfter : top ∉ earlier := by
      have distinct := logged.nodup
      rw [shape] at distinct
      exact fun member => List.disjoint_of_nodup_append distinct member (by simp)
    rw [List.idxOf_append_of_notMem topAfter] at before
    omega
  · rw [List.mem_singleton.mp isLast] at before
    exact lt_irrefl _ before

theorem targetOf_of_agree (isFrontier : graph.IsFrontier applied id)
    (agree : ∀ id other, graph.IsFrontier applied id → graph.IsFrontier applied other →
        graph.targetOf id = graph.targetOf other) :
    graph.targetOf id = final := by
  obtain ⟨top, topFrontier, leads⟩ := logged.exists_final isFrontier.1
  rw [agree id top isFrontier topFrontier, leads]

end AppliedLog

end Log

section Steps

variable {graph : MigrationHistoryGraph codec Body} {before after : IdSet}

/-- What a step takes back lies above each member of the frontier it leaves. -/
theorem MigrationHistoryGraph.KeepsFrontier.undone (kept : graph.KeepsFrontier before after)
    (downward : graph.DownwardClosed after) {id changing : MigrationId}
    (isFrontier : graph.IsFrontier after id)
    (wasApplied : changing ∈ before) (takenBack : changing ∉ after)
    (changes : graph.ChangesState changing) :
    graph.Ancestor id changing := by
  rcases kept with comparable | coherent
  · rcases comparable id isFrontier changing (Or.inl wasApplied) changes with
      same | below | above
    · subst same
      exact (takenBack isFrontier.1).elim
    · -- An ancestor of a frontier member is still applied.
      refine (takenBack ?_).elim
      have kept := isFrontier.1
      clear isFrontier
      induction below with
      | single isParent => exact (downward _ kept).2 _ isParent
      | tail _ isParent ih => exact ih ((downward _ kept).2 _ isParent)
    · exact above
  · exact coherent.2 id isFrontier changing wasApplied takenBack changes

theorem MigrationHistoryGraph.KeepsFrontier.targetOf_eq (kept : graph.KeepsFrontier before after)
    {log : List MigrationId} {start final : Option (Position Digest)}
    (logged : AppliedLog graph after log start final) {id : MigrationId}
    (isFrontier : graph.IsFrontier after id) :
    graph.targetOf id = final := by
  rcases kept with comparable | coherent
  · exact logged.targetOf_frontier isFrontier (fun changing isApplied =>
      comparable id isFrontier changing (Or.inr isApplied))
  · exact logged.targetOf_of_agree isFrontier coherent.1

end Steps

namespace AppliedLog

variable {graph : MigrationHistoryGraph codec Body} {applied : IdSet} {log : List MigrationId}
  {start final reached : Option (Position Digest)}

theorem empty (graph : MigrationHistoryGraph codec Body) (position : Option (Position Digest)) :
    AppliedLog graph ∅ [] position position where
  downward := by
    intro id isApplied
    exact (Std.ExtTreeSet.not_mem_empty isApplied).elim
  nodup := List.nodup_nil
  lists := by
    intro id
    simp
  ordered := List.Pairwise.nil
  proper := by simp
  chain := .nil position

variable {ids : List MigrationId}

theorem downward_insertMany (downward : graph.DownwardClosed applied)
    (order : graph.AppliesInOrder applied ids) : graph.DownwardClosed (applied.insertMany ids) := by
  intro id member
  rw [Std.ExtTreeSet.mem_insertMany_list, List.contains_iff_mem] at member
  have lifted : ∀ parent, parent ∈ applied ∨ parent ∈ ids → parent ∈ applied.insertMany ids := by
    intro parent isApplied
    rw [Std.ExtTreeSet.mem_insertMany_list, List.contains_iff_mem]
    exact isApplied
  rcases member with isApplied | planned
  · refine ⟨(downward id isApplied).1, ?_⟩
    intro parent isParent
    exact lifted parent (Or.inl ((downward id isApplied).2 parent isParent))
  · refine ⟨order.known id planned, ?_⟩
    intro parent isParent
    obtain ⟨earlier, later, shape⟩ := List.append_of_mem planned
    rcases order.parents earlier later id shape parent isParent with isApplied | before
    · exact lifted parent (Or.inl isApplied)
    · refine lifted parent (Or.inr ?_)
      rw [shape]
      simp [before]

theorem pairwise_of_appliesInOrder (order : graph.AppliesInOrder applied ids) :
    ids.Pairwise fun earlier later => later ∉ graph.manifests.parents earlier := by
  rw [List.pairwise_iff_getElem]
  intro earlier later earlierBound laterBound before isParent
  have shape : ids = ids.take earlier ++ ids[earlier] :: ids.drop (earlier + 1) := by
    rw [← List.drop_eq_getElem_cons earlierBound, List.take_append_drop]
  rcases order.parents _ _ _ shape _ isParent with isApplied | leading
  · exact order.fresh _ (List.getElem_mem laterBound) isApplied
  · obtain ⟨index, bound, same⟩ := List.mem_take_iff_getElem.mp leading
    have sameIndex := (order.nodup.getElem_inj_iff).mp same
    omega

theorem proper_of_appliesInOrder (order : graph.AppliesInOrder applied ids) {id : MigrationId}
    (planned : id ∈ ids) : id ∉ graph.manifests.parents id := by
  intro isParent
  obtain ⟨earlier, later, shape⟩ := List.append_of_mem planned
  rcases order.parents earlier later id shape id isParent with isApplied | before
  · exact order.fresh id planned isApplied
  · have distinct := order.nodup
    rw [shape] at distinct
    exact List.disjoint_of_nodup_append distinct before (by simp)

theorem extend (logged : AppliedLog graph applied log start final)
    (order : graph.AppliesInOrder applied ids)
    (chain : Chain graph.sourceOf graph.targetOf final ids reached) :
    AppliedLog graph (applied.insertMany ids) (log ++ ids) start reached where
  downward := downward_insertMany logged.downward order
  nodup := by
    rw [List.nodup_append]
    refine ⟨logged.nodup, order.nodup, ?_⟩
    intro id isLogged other planned same
    subst same
    exact order.fresh id planned ((logged.lists id).mp isLogged)
  lists := by
    intro id
    rw [List.mem_append, logged.lists, Std.ExtTreeSet.mem_insertMany_list, List.contains_iff_mem]
  ordered := by
    rw [List.pairwise_append]
    refine ⟨logged.ordered, pairwise_of_appliesInOrder order, ?_⟩
    intro earlier isLogged later planned isParent
    have isApplied := (logged.lists earlier).mp isLogged
    exact order.fresh later planned ((logged.downward earlier isApplied).2 later isParent)
  proper := by
    intro id member
    rcases List.mem_append.mp member with isLogged | planned
    · exact logged.proper id isLogged
    · exact proper_of_appliesInOrder order planned
  chain := Chain.append_iff.mpr ⟨final, logged.chain, chain⟩

variable {removals : IdSet}

theorem downward_diff (downward : graph.DownwardClosed applied)
    (order : graph.RollsBackInOrder applied ids) (removed : ∀ id, id ∈ ids ↔ id ∈ removals) :
    graph.DownwardClosed (applied \ removals) := by
  intro id member
  rw [Std.ExtTreeSet.mem_diff_iff] at member
  refine ⟨(downward id member.1).1, ?_⟩
  intro parent isParent
  rw [Std.ExtTreeSet.mem_diff_iff]
  refine ⟨(downward id member.1).2 parent isParent, ?_⟩
  intro parentRemoved
  obtain ⟨earlier, later, shape⟩ := List.append_of_mem ((removed parent).mpr parentRemoved)
  have before := order.children earlier later parent shape id member.1 isParent
  have childRemoved : id ∈ ids := by
    rw [shape]
    simp [before]
  exact member.2 ((removed id).mp childRemoved)

/--
Rolled back migrations are dropped from the log, as long as every change among
them lies above the frontier they leave.
-/
theorem retract (logged : AppliedLog graph applied log start final)
    (order : graph.RollsBackInOrder applied ids) (removed : ∀ id, id ∈ ids ↔ id ∈ removals)
    (keeps : graph.KeepsFrontier applied (applied \ removals))
    (undone : Chain graph.targetOf graph.sourceOf final ids reached) :
    ∃ kept, AppliedLog graph (applied \ removals) kept start reached := by
  have downward := downward_diff logged.downward order removed
  have inside : ∀ id ∈ applied \ removals, id ∈ applied :=
    fun id member => (Std.ExtTreeSet.mem_diff_iff.mp member).1
  let keep : MigrationId → Bool := fun id => id ∉ removals
  have keptFirst : ∀ earlier entry later, log = earlier ++ entry :: later → keep entry = false →
        graph.sourceOf entry ≠ graph.targetOf entry → ∀ other ∈ later, keep other = false := by
    intro earlier entry later shape isRemoved changes other isLater
    by_contra isKept
    simp only [keep, decide_eq_false_iff_not, not_not] at isRemoved isKept
    have otherApplied : other ∈ applied := (logged.lists other).mp (by rw [shape]; simp [isLater])
    have entryApplied : entry ∈ applied := (logged.lists entry).mp (by rw [shape]; simp)
    have otherKept : other ∈ applied \ removals :=
      Std.ExtTreeSet.mem_diff_iff.mpr ⟨otherApplied, isKept⟩
    have after := logged.idxOf_lt_of_later shape isLater
    -- The frontier above a kept later entry must lie below the removed one.
    obtain ⟨top, topFrontier, reaches⟩ := logged.exists_frontier_above inside otherKept
    have entryRemoved : entry ∉ applied \ removals :=
      fun member => (Std.ExtTreeSet.mem_diff_iff.mp member).2 isRemoved
    have above := keeps.undone downward topFrontier entryApplied entryRemoved changes
    have topBefore := (logged.ancestor_lt entryApplied above).2
    rcases reaches with same | isAncestor
    · subst same
      omega
    · have otherBefore := (logged.ancestor_lt (inside top topFrontier.1) isAncestor).2
      omega
  obtain ⟨middle, keptChain⟩ := logged.chain.exists_filter keep keptFirst
  have permutation : ids.Perm (log.filter fun entry => !keep entry) := by
    rw [List.perm_ext_iff_of_nodup order.nodup (logged.nodup.filter _)]
    intro id
    simp only [List.mem_filter, keep, Bool.not_eq_true', logged.lists,
      decide_eq_false_iff_not, not_not]
    constructor
    · intro isRemoved
      exact ⟨order.present id isRemoved, (removed id).mp isRemoved⟩
    · intro both
      exact (removed id).mpr both.2
  have sameEnd := logged.chain.eq_of_undone keptChain permutation undone
  rw [sameEnd] at keptChain
  exact ⟨log.filter keep, {
    downward := downward
    nodup := logged.nodup.filter _
    lists := by
      intro id
      simp only [List.mem_filter, keep, decide_eq_true_eq, logged.lists,
        Std.ExtTreeSet.mem_diff_iff]
    ordered := logged.ordered.filter _
    proper := fun id member => logged.proper id (List.mem_of_mem_filter member)
    chain := keptChain
  }⟩

end AppliedLog

/-! ## Runs -/

section Run

variable [DecidableEq Body] [DecidableEq PlanDigest]
  {services : PlanServices codec Condition Body Lowered PlanDigest}
  {graph : MigrationHistoryGraph codec Body} {allowed : IdSet → IdSet → Prop} {applied : IdSet}
  {last : Option (ManagedSchemaState Digest)}

/--
The applied set after some successful plans, and the state in which the last
of them ends. Every step from one applied set to the next is allowed.
-/
inductive PlanningRun (services : PlanServices codec Condition Body Lowered PlanDigest)
    (graph : MigrationHistoryGraph codec Body) (allowed : IdSet → IdSet → Prop) :
    IdSet → Option (ManagedSchemaState Digest) → Prop where
  | start : PlanningRun services graph allowed ∅ none
  | apply
      {applied : IdSet}
      {last : Option (ManagedSchemaState Digest)}
      {target : MigrationApplyTarget}
      {inputs : PlanInputs Digest PlanDigest}
      {plan : VerifiedMigrationApplyPlan codec Body Lowered PlanDigest}
      (run : PlanningRun services graph allowed applied last)
      (built : buildVerifiedMigrationApplyPlan services graph applied target inputs = .ok plan)
      (permitted : allowed applied (applied.insertMany (plan.migrations.map (·.manifest.id)))) :
      PlanningRun services graph allowed (applied.insertMany (plan.migrations.map (·.manifest.id)))
        plan.targetState
  | rollback
      {applied removals : IdSet}
      {last : Option (ManagedSchemaState Digest)}
      {inputs : PlanInputs Digest PlanDigest}
      {plan : VerifiedMigrationRollbackPlan codec Body Lowered PlanDigest}
      (run : PlanningRun services graph allowed applied last)
      (built : buildVerifiedMigrationRollbackPlan services graph applied removals inputs = .ok plan)
      (permitted : allowed applied (applied \ removals)) :
      PlanningRun services graph allowed (applied \ removals) (some plan.targetState)

theorem PlanningRun.apply_to {after : IdSet} {target : MigrationApplyTarget}
    {inputs : PlanInputs Digest PlanDigest}
    {plan : VerifiedMigrationApplyPlan codec Body Lowered PlanDigest}
    (run : PlanningRun services graph allowed applied last)
    (built : buildVerifiedMigrationApplyPlan services graph applied target inputs = .ok plan)
    (reaches : applied.insertMany (plan.migrations.map (·.manifest.id)) = after)
    (permitted : allowed applied after) :
    PlanningRun services graph allowed after plan.targetState := by
  subst reaches
  exact .apply run built permitted

theorem PlanningRun.downwardClosed (run : PlanningRun services graph allowed applied last) :
    graph.DownwardClosed applied := by
  cases run with
  | start => exact (AppliedLog.empty graph none).downward
  | apply _ built _ =>
    obtain ⟨ids, _, _, _, checks⟩ := exists_checksApply built
    rw [checks.recorded]
    exact AppliedLog.downward_insertMany checks.downward checks.order
  | rollback _ built _ =>
    obtain ⟨ids, _, _, checks⟩ := exists_checksRollback built
    exact AppliedLog.downward_diff checks.downward checks.order checks.removed

structure EndsAt (graph : MigrationHistoryGraph codec Body) (applied : IdSet)
    (last : Option (ManagedSchemaState Digest)) (log : List MigrationId)
    (start final : Option (Position Digest)) : Prop where
  logged : AppliedLog graph applied log start final
  frontier : ∀ id, graph.IsFrontier applied id → graph.targetOf id = final
  state : applied ≠ ∅ → last = final.map Prod.snd

variable {log : List MigrationId} {start final : Option (Position Digest)}

omit [DecidableEq Body] in
theorem EndsAt.exists_coherent (ends : EndsAt graph applied last log start final) :
    ∃ frontier current, graph.appliedFrontier applied = .ok frontier ∧
        coherentFrontierState graph frontier = .ok current ∧ (applied = ∅ → current = none) ∧
        (applied ≠ ∅ → current.map positionOf = final ∧ current.isSome) := by
  obtain ⟨frontier, isFrontier, members⟩ :=
    MigrationHistoryGraph.appliedFrontier_eq_ok ends.logged.downward
  have known : ∀ id ∈ frontier, id ∈ graph.manifests := fun id member =>
      (ends.logged.downward id ((members id).mp member).1).1
  obtain ⟨current, coherent, whenEmpty, whenMore⟩ := coherentFrontierState_of_agree known
      (fun id member => ends.frontier id ((members id).mp member))
  refine ⟨frontier, current, isFrontier, coherent, ?_, ?_⟩
  · intro nothing
    apply whenEmpty
    rw [List.eq_nil_iff_forall_not_mem]
    intro id member
    have isApplied := ((members id).mp member).1
    rw [nothing] at isApplied
    exact Std.ExtTreeSet.not_mem_empty isApplied
  · intro something
    have exists_applied : ∃ id, id ∈ applied := by
      by_contra none
      exact something (Std.ExtTreeSet.eq_empty_iff_forall_not_mem.mpr
        (fun id member => none ⟨id, member⟩))
    obtain ⟨id, isApplied⟩ := exists_applied
    obtain ⟨top, topFrontier, -⟩ :=
      ends.logged.exists_frontier_above (fun _ member => member) isApplied
    have topListed := (members top).mpr topFrontier
    have agrees := whenMore (List.ne_nil_of_mem topListed)
    refine ⟨agrees, ?_⟩
    obtain ⟨manifest, found⟩ := Option.isSome_iff_exists.mp
        (Std.ExtTreeMap.isSome_getElem?_iff_mem.mpr (known top topListed))
    have leads := ends.frontier top topFrontier
    rw [MigrationHistoryGraph.targetOf, found, ← agrees] at leads
    cases current with
    | none => cases leads
    | some reached => rfl

variable {inputs : PlanInputs Digest PlanDigest}

theorem EndsAt.apply (ends : EndsAt graph applied last log start final)
    {target : MigrationApplyTarget}
    {plan : VerifiedMigrationApplyPlan codec Body Lowered PlanDigest}
    (built : buildVerifiedMigrationApplyPlan services graph applied target inputs = .ok plan)
    (keeps : graph.KeepsFrontier applied
        (applied.insertMany (plan.migrations.map (·.manifest.id)))) :
    ∃ log start final, EndsAt graph (applied.insertMany (plan.migrations.map (·.manifest.id)))
        plan.targetState log start final := by
  obtain ⟨ids, frontier, current, reached, checks⟩ := exists_checksApply built
  obtain ⟨_, _, isFrontier, coherent, whenEmpty, whenMore⟩ := ends.exists_coherent
  cases checks.isFrontier.symm.trans isFrontier
  cases checks.coherent.symm.trans coherent
  rw [checks.recorded] at keeps ⊢
  by_cases nothing : ids = []
  · -- An empty plan leaves everything as it is.
    have same : applied.insertMany ids = applied := by
      rw [nothing]
      rfl
    rw [same]
    refine ⟨log, start, final, ends.logged, ends.frontier, ?_⟩
    intro something
    rw [checks.targetState, checks.unchanged nothing, (whenMore something).1]
  · obtain ⟨origin, continues, chained⟩ := checks.chained
    have extended : ∃ log start, AppliedLog graph (applied.insertMany ids) log start reached := by
      by_cases empty : applied = ∅
      · subst empty
        exact ⟨_, origin, (AppliedLog.empty graph origin).extend checks.order (chained nothing)⟩
      · obtain ⟨agrees, isSome⟩ := whenMore empty
        obtain ⟨position, isCurrent⟩ := Option.isSome_iff_exists.mp isSome
        have sameOrigin : origin = final := by
          rw [continues position isCurrent, ← agrees, isCurrent]
          rfl
        exact ⟨_, start, ends.logged.extend checks.order (sameOrigin ▸ chained nothing)⟩
    obtain ⟨newLog, newStart, logged⟩ := extended
    refine ⟨newLog, newStart, reached, logged, ?_, fun _ => checks.targetState⟩
    exact fun id topFrontier => keeps.targetOf_eq logged topFrontier

theorem EndsAt.rollback (ends : EndsAt graph applied last log start final) {removals : IdSet}
    {plan : VerifiedMigrationRollbackPlan codec Body Lowered PlanDigest}
    (built : buildVerifiedMigrationRollbackPlan services graph applied removals inputs = .ok plan)
    (keeps : graph.KeepsFrontier applied (applied \ removals)) :
    ∃ log start final, EndsAt graph (applied \ removals) (some plan.targetState) log start
        final := by
  obtain ⟨ids, frontier, current, checks⟩ := exists_checksRollback built
  obtain ⟨_, _, isFrontier, coherent, whenEmpty, whenMore⟩ := ends.exists_coherent
  cases checks.isFrontier.symm.trans isFrontier
  cases checks.coherent.symm.trans coherent
  have something : applied ≠ ∅ := by
    intro nothing
    cases whenEmpty nothing
  have undone := checks.chained
  rw [show some (positionOf current) = final from (whenMore something).1] at undone
  obtain ⟨kept, logged⟩ := ends.logged.retract checks.order checks.removed keeps undone
  refine ⟨kept, start, _, logged, ?_, fun _ => rfl⟩
  exact fun id topFrontier => keeps.targetOf_eq logged topFrontier

theorem PlanningRun.exists_endsAt (run : PlanningRun services graph allowed applied last)
    (keeps : ∀ before after, allowed before after → graph.KeepsFrontier before after) :
    ∃ log start final, EndsAt graph applied last log start final := by
  induction run with
  | start =>
    refine ⟨[], none, none, AppliedLog.empty graph none, ?_, ?_⟩
    · intro id topFrontier
      exact (Std.ExtTreeSet.not_mem_empty topFrontier.1).elim
    · intro something
      exact (something rfl).elim
  | apply _ built permitted ih =>
    obtain ⟨log, start, final, ends⟩ := ih
    exact ends.apply built (keeps _ _ permitted)
  | rollback _ built permitted ih =>
    obtain ⟨log, start, final, ends⟩ := ih
    exact ends.rollback built (keeps _ _ permitted)

/--
Every run leaves a set closed under parents. If each step leaves a frontier
that is comparable to the changes applied before and after it, or one that
ends in a single state and takes back only changes above it, the frontier is
coherent, it ends in the state of the last plan unless nothing is applied, and
the next plan starts there unless it starts at a profile bridge.
-/
theorem planningRun_leaves_state
    (run : PlanningRun services graph allowed applied last) :
    graph.DownwardClosed applied ∧
      ((∀ before after, allowed before after → graph.KeepsFrontier before after) →
        ∃ frontier current,
          graph.appliedFrontier applied = .ok frontier ∧
            coherentFrontierState graph frontier = .ok current ∧
            (current.map Prod.snd = if applied = ∅ then none else last) ∧
            (∀ target inputs plan,
              buildVerifiedMigrationApplyPlan services graph applied target inputs = .ok plan →
              applied ≠ ∅ →
              (∀ first ∈ plan.migrations.head?, first.manifest.isProfileBridge = false) →
              plan.sourceState = last) ∧
            ∀ removals inputs plan,
              buildVerifiedMigrationRollbackPlan services graph applied removals inputs =
                .ok plan →
              some plan.sourceState = last) := by
  refine ⟨run.downwardClosed, ?_⟩
  intro keeps
  obtain ⟨log, start, final, ends⟩ := run.exists_endsAt keeps
  obtain ⟨frontier, current, isFrontier, coherent, whenEmpty, whenMore⟩ := ends.exists_coherent
  have state : applied ≠ ∅ → current.map Prod.snd = last := by
    intro something
    rw [ends.state something, ← (whenMore something).1, Option.map_map]
    rfl
  refine ⟨frontier, current, isFrontier, coherent, ?_, ?_, ?_⟩
  · by_cases nothing : applied = ∅
    · rw [if_pos nothing, whenEmpty nothing]
      rfl
    · rw [if_neg nothing, state nothing]
  · intro target inputs plan built something noBridge
    obtain ⟨ids, _, _, reached, checks⟩ := exists_checksApply built
    cases checks.isFrontier.symm.trans isFrontier
    cases checks.coherent.symm.trans coherent
    obtain ⟨position, isCurrent⟩ := Option.isSome_iff_exists.mp (whenMore something).2
    rw [checks.sourceState, ← state something, isCurrent]
    cases entries : plan.migrations with
    | nil => rfl
    | cons first rest =>
      have plain := noBridge first (by rw [entries]; rfl)
      simp [plannedSourceState, plain]
  · intro removals inputs plan built
    obtain ⟨ids, _, position, checks⟩ := exists_checksRollback built
    cases checks.isFrontier.symm.trans isFrontier
    cases checks.coherent.symm.trans coherent
    have something : applied ≠ ∅ := by
      intro nothing
      cases whenEmpty nothing
    rw [checks.sourceState, ← state something]
    rfl

end Run

/-! ## Short runs -/

/-- Attribute `a` with a documentation. -/
def noted (text : String) : Except (List Diagnostic) (DeclaredSchema plainCodec) :=
  declarePlain [attributeA, .value ⟨⟨⟨⟨"a"⟩⟩⟩, .string⟩, documentation "a" text]

/-- The attribute with its first documentation. -/
def firstNote : DeclaredSchema plainCodec := Checked.get (noted "first") (by decide +kernel)

/-- The attribute with its second documentation. -/
def secondNote : DeclaredSchema plainCodec := Checked.get (noted "second") (by decide +kernel)

/-- The attribute with its third documentation. -/
def thirdNote : DeclaredSchema plainCodec := Checked.get (noted "third") (by decide +kernel)

/-- A delta step and its inverse. -/
def notedStep (name : String) (source target : DeclaredSchema plainCodec) :
    Except Diagnostic (MigrationStep PlainBytes Unit) := do
  let delta ← (diffManaged source target redefiningContext).mapError deltaDiagnostic
  let inverse ← (inverseDelta delta).mapError deltaDiagnostic
  let id ← MigrationStepId.new name
  let step ← SchemaDeltaStep.new id delta (some inverse)
  return .schemaDelta step

/-- A verified migration that changes the documentation twice. -/
def notedManifest (name : String) (parents : List String)
    (source middle target : DeclaredSchema plainCodec) :
    Except Diagnostic (VerifiedSchemaMigrationManifest plainCodec Unit) := do
  let id ← MigrationId.new "app" name
  let parents ← parents.mapM (MigrationId.new "app")
  let first ← notedStep "first" source middle
  let second ← notedStep "second" middle target
  let draft ← SchemaMigrationDraft.new id parents [first, second]
  buildVerifiedManifest documentationRules draft source redefiningContext

/--
A root `a` that ends with the second note, and two children: `b` comes back to
the second note, `c` ends with the third.
-/
def forkedHistory : MigrationHistoryGraph plainCodec Unit :=
  Checked.get (do
      let root ← notedManifest "a" [] firstNote thirdNote secondNote
      let back ← notedManifest "b" ["a"] secondNote firstNote secondNote
      let away ← notedManifest "c" ["a"] secondNote firstNote thirdNote
      MigrationHistoryGraph.fromVerified [root, back, away])
    (by decide +kernel)

def plainServices : PlanServices plainCodec Unit Unit Unit Unit where
  rules := documentationRules
  lower _ _ _ _ _ _ := .ok ()
  manifestDigest _ := .ok ()
  planFingerprint _ := ()

/-- Inputs under the default policy and without approvals. -/
def plainInputs : PlanInputs PlainBytes Unit :=
  ⟨redefiningContext, ⟨.typedb3121, redefiningContext.availableCapabilities⟩,
    .defaultPolicy, [], true⟩

/-- Migrations of the application by name. -/
def namedIds (names : List String) : IdSet :=
  (names.filterMap fun name => (MigrationId.new "app" name).toOption).foldl
    (fun ids id => ids.insert id) ∅

/-- Runs of the forked history without a restriction. -/
abbrev ForkedRun := PlanningRun plainServices forkedHistory fun _ _ => True

def rootId : MigrationId := Checked.get (MigrationId.new "app" "a") (by decide +kernel)

theorem exists_rootPlan : ∃ plan, buildVerifiedMigrationApplyPlan plainServices forkedHistory ∅
          (.explicit (namedIds ["a"])) plainInputs = .ok plan ∧
        plan.migrations.map (·.manifest.id) = [rootId] := by
  refine ⟨_, eq_ok_get _ (by decide +kernel), ?_⟩
  decide +kernel

/--
After rolling the root back the empty frontier has no state, although the
rollback ends in one; and after applying both children the frontier diverges.
-/
theorem forkedHistory_corners : (∃ applied last, ForkedRun applied (some last) ∧
        forkedHistory.appliedFrontier applied = .ok [] ∧
        coherentFrontierState forkedHistory [] = .ok none) ∧
      ∃ applied last frontier, ForkedRun applied last ∧
          forkedHistory.appliedFrontier applied = .ok frontier ∧
          coherentFrontierState forkedHistory frontier =
            .error (.contract ⟨"migration_apply_divergent_frontier"⟩) := by
  constructor
  · obtain ⟨plan, built, planned⟩ := exists_rootPlan
    have run : ForkedRun _ _ := PlanningRun.apply .start built trivial
    rw [planned] at run
    have rolledBack :=
      eq_ok_get (buildVerifiedMigrationRollbackPlan plainServices forkedHistory
          ((∅ : IdSet).insertMany [rootId]) (namedIds ["a"]) plainInputs) (by decide +kernel)
    refine ⟨_, _, PlanningRun.rollback run rolledBack trivial, ?_, rfl⟩
    decide +kernel
  · have built := eq_ok_get (buildVerifiedMigrationApplyPlan plainServices forkedHistory ∅
          (.explicit (namedIds ["b", "c"])) plainInputs) (by decide +kernel)
    refine ⟨_, _, (namedIds ["b", "c"]).toList, PlanningRun.apply .start built trivial, ?_, ?_⟩
    · decide +kernel
    · apply Checked.failure?_eq_some.mp
      decide +kernel

/-- The forked history and `d`, which leads `c` back to the second note. -/
def rejoinedHistory : MigrationHistoryGraph plainCodec Unit :=
  Checked.get (do
      let root ← notedManifest "a" [] firstNote thirdNote secondNote
      let back ← notedManifest "b" ["a"] secondNote firstNote secondNote
      let away ← notedManifest "c" ["a"] secondNote firstNote thirdNote
      let rejoining ← notedManifest "d" ["c"] thirdNote firstNote secondNote
      MigrationHistoryGraph.fromVerified [root, back, away, rejoining])
    (by decide +kernel)

/-- An agreeing frontier is kept if only migrations that change nothing are taken back. -/
theorem keepsFrontier_of_agree {graph : MigrationHistoryGraph codec Body} {before after : IdSet}
    (frontier : List MigrationId) (position : Option (Position Digest))
    (isFrontier : graph.appliedFrontier after = .ok frontier)
    (agree : ∀ id ∈ frontier, graph.targetOf id = position)
    (unchanged : ∀ changing ∈ before.toList, changing ∉ after →
      graph.sourceOf changing = graph.targetOf changing) :
    graph.KeepsFrontier before after := by
  obtain ⟨checks, validated, -⟩ := bind_eq_ok.mp isFrontier
  obtain ⟨_, isFrontier', members⟩ := MigrationHistoryGraph.appliedFrontier_eq_ok
    (MigrationHistoryGraph.validateApplied_eq_ok_iff.mp ⟨checks, validated⟩)
  cases isFrontier.symm.trans isFrontier'
  refine Or.inr ⟨?_, ?_⟩
  · intro id other isTop otherTop
    rw [agree id ((members id).mpr isTop), agree other ((members other).mpr otherTop)]
  · intro id _ changing wasApplied takenBack changes
    exact (changes (unchanged changing (Std.ExtTreeSet.mem_toList.mpr wasApplied) takenBack)).elim

/-- The plan that applies some migrations of the rejoined history after others. -/
def rejoinedApply (applied targets : List String) :
    Except MigrationApplyPlanError (VerifiedMigrationApplyPlan plainCodec Unit Unit Unit) :=
  buildVerifiedMigrationApplyPlan plainServices rejoinedHistory (namedIds applied)
    (.explicit (namedIds targets)) plainInputs

/-- The plan that rolls some applied migrations of the rejoined history back. -/
def rejoinedRollback (applied removals : List String) :
    Except MigrationApplyPlanError (VerifiedMigrationRollbackPlan plainCodec Unit Unit Unit) :=
  buildVerifiedMigrationRollbackPlan plainServices rejoinedHistory (namedIds applied)
    (namedIds removals) plainInputs

/-- Runs of the rejoined history whose steps keep the frontier. -/
abbrev RejoinedRun := PlanningRun plainServices rejoinedHistory rejoinedHistory.KeepsFrontier

/--
The root is applied, then `b`, `c` and `d`, then `b` is rolled back. The
second plan leaves two frontier members, and `b` is not comparable to `c`.
-/
theorem rejoinedRun_leaves_state :
    ∃ first second third frontier current,
      rejoinedApply [] ["a"] = .ok first ∧
        rejoinedApply ["a"] ["b", "d"] = .ok second ∧
        rejoinedRollback ["a", "b", "c", "d"] ["b"] = .ok third ∧
        RejoinedRun (namedIds ["a"]) first.targetState ∧
        RejoinedRun (namedIds ["a", "b", "c", "d"]) second.targetState ∧
        RejoinedRun (namedIds ["a", "c", "d"]) (some third.targetState) ∧
        rejoinedHistory.appliedFrontier (namedIds ["a", "c", "d"]) = .ok frontier ∧
        coherentFrontierState rejoinedHistory frontier = .ok current ∧
        current.map Prod.snd = some third.targetState := by
  have first := eq_ok_get (rejoinedApply [] ["a"]) (by decide +kernel)
  have second := eq_ok_get (rejoinedApply ["a"] ["b", "d"]) (by decide +kernel)
  have third := eq_ok_get (rejoinedRollback ["a", "b", "c", "d"] ["b"]) (by decide +kernel)
  have keepsFirst : rejoinedHistory.KeepsFrontier (namedIds []) (namedIds ["a"]) :=
    keepsFrontier_of_agree (namedIds ["a"]).toList (rejoinedHistory.targetOf rootId)
      (by decide +kernel) (by decide +kernel) (by decide +kernel)
  have keepsSecond :
      rejoinedHistory.KeepsFrontier (namedIds ["a"]) (namedIds ["a", "b", "c", "d"]) :=
    keepsFrontier_of_agree (namedIds ["b", "d"]).toList (rejoinedHistory.targetOf rootId)
      (by decide +kernel) (by decide +kernel) (by decide +kernel)
  have remaining :
      namedIds ["a", "b", "c", "d"] \ namedIds ["b"] = namedIds ["a", "c", "d"] := by
    decide +kernel
  have keepsThird : rejoinedHistory.KeepsFrontier (namedIds ["a", "b", "c", "d"])
      (namedIds ["a", "b", "c", "d"] \ namedIds ["b"]) :=
    keepsFrontier_of_agree (namedIds ["d"]).toList (rejoinedHistory.targetOf rootId)
      (by decide +kernel) (by decide +kernel) (by decide +kernel)
  have afterFirst := PlanningRun.apply_to .start first (by decide +kernel) keepsFirst
  have afterSecond := PlanningRun.apply_to afterFirst second (by decide +kernel) keepsSecond
  have afterThird := PlanningRun.rollback afterSecond third keepsThird
  rw [remaining] at afterThird
  obtain ⟨-, leaves⟩ := planningRun_leaves_state afterThird
  obtain ⟨frontier, current, isFrontier, coherent, state, -⟩ := leaves (fun _ _ kept => kept)
  have something : namedIds ["a", "c", "d"] ≠ ∅ := by decide +kernel
  rw [if_neg something] at state
  exact ⟨_, _, _, frontier, current, first, second, third, afterFirst, afterSecond, afterThird,
    isFrontier, coherent, state⟩

end TypeBridge.Migration
