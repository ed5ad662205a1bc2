import TypeBridge.Library.ReadyOrder

namespace TypeBridge.Library.Components

/-!
# Strongly connected components in dependency order

`stronglyConnectedComponents` is Tarjan's algorithm over the dependencies of a
sorted node list; `orderedComponents` lists the components so that every
component follows its prerequisites, taking the least ready component first.

For an acyclic dependency relation every component is a single node, and the
resulting order is the one that repeatedly takes the least node without
remaining prerequisites.
-/

open ReadyOrder

section Tarjan

variable {α : Type*} [LinearOrder α]

structure TarjanState (α : Type*) [LinearOrder α] where
  nextIndex : Nat
  stack : List α
  onStack : Std.ExtTreeSet α
  indices : Std.ExtTreeMap α Nat
  lowlinks : Std.ExtTreeMap α Nat
  components : List (List α)

namespace TarjanState

/-- Nothing visited. -/
def initial : TarjanState α where
  nextIndex := 0
  stack := []
  onStack := ∅
  indices := ∅
  lowlinks := ∅
  components := []

/-- Number a node and push it. -/
def enter (state : TarjanState α) (node : α) : TarjanState α where
  nextIndex := state.nextIndex + 1
  stack := node :: state.stack
  onStack := state.onStack.insert node
  indices := state.indices.insert node state.nextIndex
  lowlinks := state.lowlinks.insert node state.nextIndex
  components := state.components

def lower (state : TarjanState α) (node : α) (bound : Nat) : TarjanState α :=
  { state with
    lowlinks := state.lowlinks.insert node (min (state.lowlinks.getD node 0) bound) }

/-- Pop the stack down to a node and record the popped nodes in order. -/
def popComponent (state : TarjanState α) (node : α) : TarjanState α :=
  let popped := state.stack.takeWhile (· ≠ node) ++ [node]
  { state with
    stack := (state.stack.dropWhile (· ≠ node)).tail
    onStack := popped.foldl Std.ExtTreeSet.erase state.onStack
    components := state.components ++ [popped.insertionSort (· ≤ ·)] }

/-- Emit a component when a node is the root of one. -/
def leave (state : TarjanState α) (node : α) : TarjanState α :=
  if state.lowlinks[node]? = state.indices[node]? then state.popComponent node
  else state

end TarjanState

def visitNeighbor (visit : α → TarjanState α → TarjanState α) (node : α) (state : TarjanState α)
    (neighbor : α) : TarjanState α :=
  if neighbor ∉ state.indices then
    let visited := visit neighbor state
    visited.lower node (visited.lowlinks.getD neighbor 0)
  else if neighbor ∈ state.onStack then state.lower node (state.indices.getD neighbor 0)
  else state

def visit (deps : α → List α) (nodes : List α) : Nat → α → TarjanState α → TarjanState α
  | 0, _, state => state
  | fuel + 1, node, state =>
      (((deps node).filter (· ∈ nodes)).foldl (visitNeighbor (visit deps nodes fuel) node)
        (state.enter node)).leave node

/-- The strongly connected components of the dependencies among the nodes. -/
def stronglyConnectedComponents (deps : α → List α) (nodes : List α) : List (List α) :=
  (nodes.foldl (fun state node =>
      if node ∉ state.indices then visit deps nodes nodes.length node state
      else state)
    TarjanState.initial).components

end Tarjan

section Acyclic

variable {α : Type*} [LinearOrder α]

/--
One exploration leaves the stack as it found it and emits each newly
numbered node as a component of its own.
-/
structure Extends (nodes : List α) (before after : TarjanState α) (fresh : List α) : Prop where
  stack : after.stack = before.stack
  onStack : ∀ node, node ∈ after.onStack ↔ node ∈ before.onStack
  nextIndex : before.nextIndex ≤ after.nextIndex
  components : after.components = before.components ++ fresh.map fun node => [node]
  numbered : ∀ node, node ∈ after.indices ↔ node ∈ before.indices ∨ node ∈ fresh
  freshNodup : fresh.Nodup
  freshUnnumbered : ∀ node ∈ fresh, node ∉ before.indices
  freshNodes : ∀ node ∈ fresh, node ∈ nodes
  indices : ∀ node ∈ before.indices, after.indices[node]? = before.indices[node]?
  lowlinks : ∀ node ∈ before.indices, after.lowlinks[node]? = before.lowlinks[node]?

namespace Extends

variable {nodes : List α}

theorem refl (state : TarjanState α) : Extends nodes state state [] where
  stack := rfl
  onStack := fun _ => Iff.rfl
  nextIndex := le_rfl
  components := by simp
  numbered := by simp
  freshNodup := List.nodup_nil
  freshUnnumbered := by simp
  freshNodes := by simp
  indices := fun _ _ => rfl
  lowlinks := fun _ _ => rfl

/-- Explorations compose. -/
theorem trans {first second third : TarjanState α} {earlier later : List α}
    (left : Extends nodes first second earlier) (right : Extends nodes second third later) :
    Extends nodes first third (earlier ++ later) where
  stack := right.stack.trans left.stack
  onStack := fun node => (right.onStack node).trans (left.onStack node)
  nextIndex := left.nextIndex.trans right.nextIndex
  components := by
    rw [right.components, left.components]
    simp
  numbered := by
    intro node
    rw [right.numbered, left.numbered, List.mem_append, or_assoc]
  freshNodup := by
    rw [List.nodup_append]
    refine ⟨left.freshNodup, right.freshNodup, ?_⟩
    intro node inEarlier other inLater same
    subst other
    exact right.freshUnnumbered node inLater ((left.numbered node).mpr (Or.inr inEarlier))
  freshUnnumbered := by
    intro node member
    rcases List.mem_append.mp member with inEarlier | inLater
    · exact left.freshUnnumbered node inEarlier
    · intro numbered
      exact right.freshUnnumbered node inLater ((left.numbered node).mpr (Or.inl numbered))
  freshNodes := by
    intro node member
    rcases List.mem_append.mp member with inEarlier | inLater
    · exact left.freshNodes node inEarlier
    · exact right.freshNodes node inLater
  indices := by
    intro node numbered
    rw [right.indices node ((left.numbered node).mpr (Or.inl numbered)), left.indices node numbered]
  lowlinks := by
    intro node numbered
    rw [right.lowlinks node ((left.numbered node).mpr (Or.inl numbered)),
      left.lowlinks node numbered]

end Extends

/-- The number of nodes not numbered yet. -/
def unnumbered (nodes : List α) (state : TarjanState α) : Nat :=
  (nodes.toFinset.filter (· ∉ state.indices)).card

variable {nodes fresh : List α} {before after : TarjanState α}

theorem Extends.unnumbered_le (explored : Extends nodes before after fresh) :
    unnumbered nodes after ≤ unnumbered nodes before := by
  apply Finset.card_le_card
  intro node member
  simp only [Finset.mem_filter] at member ⊢
  exact ⟨member.1, fun numbered => member.2 ((explored.numbered node).mpr (Or.inl numbered))⟩

variable {state : TarjanState α} {node : α}

theorem unnumbered_enter_lt (member : node ∈ nodes) (absent : node ∉ state.indices) :
    unnumbered nodes (state.enter node) < unnumbered nodes state := by
  apply Finset.card_lt_card
  rw [Finset.ssubset_iff_of_subset]
  · refine ⟨node, by simp [member, absent], ?_⟩
    simp [TarjanState.enter]
  · intro other otherMember
    simp only [Finset.mem_filter, TarjanState.enter,
      Std.ExtTreeMap.mem_insert, not_or] at otherMember ⊢
    exact ⟨otherMember.1, otherMember.2.2⟩

structure Consistent (state : TarjanState α) : Prop where
  onStack : ∀ node, node ∈ state.onStack ↔ node ∈ state.stack
  stackNumbered : ∀ node ∈ state.stack, node ∈ state.indices

theorem Extends.consistent (explored : Extends nodes before after fresh)
    (consistent : Consistent before) : Consistent after where
  onStack := by
    intro node
    rw [explored.onStack, explored.stack]
    exact consistent.onStack node
  stackNumbered := by
    intro node member
    rw [explored.stack] at member
    exact (explored.numbered node).mpr (Or.inl (consistent.stackNumbered node member))

theorem Consistent.enter (consistent : Consistent state) (node : α) :
    Consistent (state.enter node) where
  onStack := by
    intro other
    simp only [TarjanState.enter, Std.ExtTreeSet.mem_insert,
      compare_eq_iff_eq, List.mem_cons, consistent.onStack other]
    exact or_congr eq_comm Iff.rfl
  stackNumbered := by
    intro other member
    simp only [TarjanState.enter, List.mem_cons] at member
    simp only [TarjanState.enter, Std.ExtTreeMap.mem_insert, compare_eq_iff_eq]
    rcases member with isNode | older
    · exact Or.inl isNode.symm
    · exact Or.inr (consistent.stackNumbered other older)

theorem TarjanState.lower_eq_self {lowlink bound : Nat}
    (current : state.lowlinks[node]? = some lowlink) (notLower : lowlink ≤ bound) :
    state.lower node bound = state := by
  have same : state.lowlinks.insert node (min (state.lowlinks.getD node 0) bound) =
        state.lowlinks := by
    apply Std.ExtTreeMap.ext_getElem?
    intro query
    rw [OrderedMap.getElem?_insert_eq]
    split
    · next isNode =>
        rw [← isNode, current, Std.ExtTreeMap.getD_eq_getD_getElem?, current]
        simp [notLower]
    · rfl
  rw [TarjanState.lower, same]

/-- A dependency relation among nodes that strictly decreases a rank. -/
def Ranked (deps : α → List α) (nodes : List α) (rank : α → Nat) : Prop :=
  ∀ node ∈ nodes, ∀ dependency ∈ deps node, dependency ∈ nodes → rank dependency < rank node

/-- What visiting a node of a ranked graph achieves. -/
structure VisitSpec (nodes : List α) (before : TarjanState α) (node : α) (after : TarjanState α) :
    Prop where
  explored : ∃ fresh, node ∈ fresh ∧ Extends nodes before after fresh
  lowlink : after.lowlinks[node]? = some before.nextIndex

variable {rank : α → Nat}

/--
Exploring the neighbors of a node keeps its lowlink, because a neighbor on
the stack would have a larger rank.
-/
theorem visitNeighbors_spec {visitNode : α → TarjanState α → TarjanState α} {fuel : Nat}
    (visits : ∀ node state, node ∈ nodes → node ∉ state.indices → Consistent state →
        (∀ stacked ∈ state.stack, rank node < rank stacked) → unnumbered nodes state ≤ fuel →
        VisitSpec nodes state node (visitNode node state))
    {index : Nat} (neighbors : List α) (inside : ∀ neighbor ∈ neighbors, neighbor ∈ nodes)
    (lower : ∀ neighbor ∈ neighbors, rank neighbor < rank node) (state : TarjanState α)
    (consistent : Consistent state) (numbered : node ∈ state.indices)
    (aboveNode : ∀ stacked ∈ state.stack, rank node ≤ rank stacked)
    (lowlink : state.lowlinks[node]? = some index) (indexBound : index ≤ state.nextIndex)
    (bounded : unnumbered nodes state ≤ fuel) :
    ∃ fresh, Extends nodes state (neighbors.foldl (visitNeighbor visitNode node) state) fresh := by
  induction neighbors generalizing state with
  | nil => exact ⟨[], Extends.refl state⟩
  | cons neighbor rest ih =>
    have below := lower neighbor (by simp)
    have restInside : ∀ later ∈ rest, later ∈ nodes :=
      fun later member => inside later (by simp [member])
    have restLower : ∀ later ∈ rest, rank later < rank node :=
      fun later member => lower later (by simp [member])
    rw [List.foldl_cons]
    by_cases known : neighbor ∈ state.indices
    · have offStack : neighbor ∉ state.onStack := by
        intro stacked
        have above := aboveNode neighbor ((consistent.onStack neighbor).mp stacked)
        omega
      have unchanged : visitNeighbor visitNode node state neighbor = state := by
        simp [visitNeighbor, known, offStack]
      rw [unchanged]
      exact ih restInside restLower state consistent
        numbered aboveNode lowlink indexBound bounded
    · have spec := visits neighbor state (inside neighbor (by simp)) known consistent
          (fun stacked member => lt_of_lt_of_le below (aboveNode stacked member))
          bounded
      obtain ⟨found, -, explored⟩ := spec.explored
      have lowlinkAfter : (visitNode neighbor state).lowlinks[node]? = some index := by
        rw [explored.lowlinks node numbered, lowlink]
      have unchanged : visitNeighbor visitNode node state neighbor = visitNode neighbor state := by
        rw [visitNeighbor, if_pos known]
        apply TarjanState.lower_eq_self lowlinkAfter
        rw [Std.ExtTreeMap.getD_eq_getD_getElem?, spec.lowlink]
        exact indexBound
      rw [unchanged]
      obtain ⟨later, exploredLater⟩ := ih restInside restLower
          (visitNode neighbor state) (explored.consistent consistent)
          ((explored.numbered node).mpr (Or.inl numbered))
          (by rw [explored.stack]; exact aboveNode) lowlinkAfter
          (indexBound.trans explored.nextIndex) (explored.unnumbered_le.trans bounded)
      exact ⟨found ++ later, explored.trans exploredLater⟩

/-- Popping a root from the top of the stack emits exactly that node. -/
theorem Extends.leave {explored : TarjanState α} (member : node ∈ nodes)
    (absent : node ∉ before.indices) (consistent : Consistent before)
    (neighbors : Extends nodes (before.enter node) explored fresh) :
    Extends nodes before (explored.leave node) (fresh ++ [node]) := by
  have nodeNumbered : node ∈ (before.enter node).indices := by simp [TarjanState.enter]
  have offStack : node ∉ before.onStack := by
    intro stacked
    exact absent (consistent.stackNumbered node ((consistent.onStack node).mp stacked))
  have isRoot : explored.lowlinks[node]? = explored.indices[node]? := by
    rw [neighbors.lowlinks node nodeNumbered, neighbors.indices node nodeNumbered]
    simp [TarjanState.enter]
  have stackShape : explored.stack = node :: before.stack := neighbors.stack
  have unchangedKey : ∀ other ∈ before.indices, other ≠ node := by
    intro other numbered same
    exact absent (same ▸ numbered)
  rw [TarjanState.leave, if_pos isRoot]
  exact {
    stack := by simp [TarjanState.popComponent, stackShape]
    onStack := by
      intro other
      simp only [TarjanState.popComponent, stackShape, ne_eq,
        not_true_eq_false, decide_false, Bool.false_eq_true,
        not_false_eq_true, List.takeWhile_cons_of_neg, List.nil_append,
        List.foldl_cons, List.foldl_nil, Std.ExtTreeSet.mem_erase,
        neighbors.onStack, TarjanState.enter, Std.ExtTreeSet.mem_insert, compare_eq_iff_eq]
      constructor
      · rintro ⟨different, isNode | older⟩
        · exact (different isNode).elim
        · exact older
      · intro older
        refine ⟨fun same => offStack (same ▸ older), Or.inr older⟩
    nextIndex := (Nat.le_succ before.nextIndex).trans neighbors.nextIndex
    components := by
      simp [TarjanState.popComponent, stackShape, neighbors.components, TarjanState.enter]
    numbered := by
      intro other
      have numbered := neighbors.numbered other
      simp only [TarjanState.enter, Std.ExtTreeMap.mem_insert, compare_eq_iff_eq] at numbered
      simp only [TarjanState.popComponent, numbered, List.mem_append, List.mem_singleton]
      rw [eq_comm (a := node) (b := other)]
      tauto
    freshNodup := by
      rw [List.nodup_append]
      refine ⟨neighbors.freshNodup, List.nodup_singleton node, ?_⟩
      intro other inFresh last isLast same
      rw [List.mem_singleton] at isLast
      subst last
      subst other
      exact neighbors.freshUnnumbered node inFresh nodeNumbered
    freshUnnumbered := by
      intro other otherMember
      rcases List.mem_append.mp otherMember with inFresh | isLast
      · intro numbered
        apply neighbors.freshUnnumbered other inFresh
        simp [TarjanState.enter, numbered]
      · rw [List.mem_singleton] at isLast
        rw [isLast]
        exact absent
    freshNodes := by
      intro other otherMember
      rcases List.mem_append.mp otherMember with inFresh | isLast
      · exact neighbors.freshNodes other inFresh
      · rw [List.mem_singleton] at isLast
        rw [isLast]
        exact member
    indices := by
      intro other numbered
      have different := unchangedKey other numbered
      have entered : other ∈ (before.enter node).indices := by simp [TarjanState.enter, numbered]
      change explored.indices[other]? = _
      rw [neighbors.indices other entered, TarjanState.enter]
      rw [OrderedMap.getElem?_insert_eq, if_neg different.symm]
    lowlinks := by
      intro other numbered
      have different := unchangedKey other numbered
      have entered : other ∈ (before.enter node).indices := by simp [TarjanState.enter, numbered]
      change explored.lowlinks[other]? = _
      rw [neighbors.lowlinks other entered, TarjanState.enter]
      rw [OrderedMap.getElem?_insert_eq, if_neg different.symm]
  }

variable {deps : α → List α} (ranked : Ranked deps nodes rank)
include ranked

theorem visit_spec (fuel : Nat) (node : α) (state : TarjanState α) (member : node ∈ nodes)
    (absent : node ∉ state.indices) (consistent : Consistent state)
    (above : ∀ stacked ∈ state.stack, rank node < rank stacked)
    (bounded : unnumbered nodes state ≤ fuel) :
    VisitSpec nodes state node (visit deps nodes fuel node state) := by
  induction fuel generalizing node state with
  | zero =>
    have positive := unnumbered_enter_lt member absent
    omega
  | succ fuel ih =>
    have entered := unnumbered_enter_lt member absent
    have nodeNumbered : node ∈ (state.enter node).indices := by simp [TarjanState.enter]
    have neighborFacts : ∀ neighbor ∈ (deps node).filter (· ∈ nodes),
          neighbor ∈ nodes ∧ rank neighbor < rank node := by
      intro neighbor neighborMember
      simp only [List.mem_filter, decide_eq_true_eq] at neighborMember
      exact ⟨neighborMember.2, ranked node member neighbor neighborMember.1 neighborMember.2⟩
    have lowlinkEntered : (state.enter node).lowlinks[node]? = some state.nextIndex := by
      simp [TarjanState.enter]
    obtain ⟨fresh, neighbors⟩ := visitNeighbors_spec ih
        ((deps node).filter (· ∈ nodes)) (fun neighbor neighborMember =>
          (neighborFacts neighbor neighborMember).1)
        (fun neighbor neighborMember => (neighborFacts neighbor neighborMember).2)
        (state.enter node) (consistent.enter node) nodeNumbered (by
          intro stacked stackedMember
          rcases List.mem_cons.mp stackedMember with isNode | older
          · rw [isNode]
          · exact le_of_lt (above stacked older))
        lowlinkEntered (Nat.le_succ state.nextIndex) (by omega)
    have left := neighbors.leave member absent consistent
    refine ⟨⟨fresh ++ [node], by simp, left⟩, ?_⟩
    have sameLowlinks : ∀ explored : TarjanState α,
          (explored.leave node).lowlinks = explored.lowlinks := by
      intro explored
      unfold TarjanState.leave
      split <;> rfl
    rw [visit, sameLowlinks, neighbors.lowlinks node nodeNumbered, lowlinkEntered]

/-- The outer loop numbers every node it is given. -/
theorem visitAll_spec (pending : List α) (inside : ∀ node ∈ pending, node ∈ nodes)
    (state : TarjanState α) (consistent : Consistent state) (idle : state.stack = []) : ∃ fresh,
      Extends nodes state (pending.foldl (fun current node =>
              if node ∉ current.indices then visit deps nodes nodes.length node current
              else current)
            state)
          fresh ∧
        ∀ node ∈ pending, node ∈ state.indices ∨ node ∈ fresh := by
  induction pending generalizing state with
  | nil => exact ⟨[], Extends.refl state, by simp⟩
  | cons node rest ih =>
    have restInside : ∀ later ∈ rest, later ∈ nodes :=
      fun later member => inside later (by simp [member])
    rw [List.foldl_cons]
    by_cases known : node ∈ state.indices
    · rw [if_neg (not_not.mpr known)]
      obtain ⟨fresh, explored, covered⟩ := ih restInside state consistent idle
      refine ⟨fresh, explored, ?_⟩
      intro later member
      rcases List.mem_cons.mp member with isNode | inRest
      · rw [isNode]
        exact Or.inl known
      · exact covered later inRest
    · rw [if_pos known]
      have bounded : unnumbered nodes state ≤ nodes.length :=
        (Finset.card_filter_le _ _).trans (List.toFinset_card_le nodes)
      have spec :=
        visit_spec ranked nodes.length node state (inside node (by simp)) known consistent
          (by rw [idle]; simp) bounded
      obtain ⟨found, nodeFound, explored⟩ := spec.explored
      obtain ⟨later, exploredLater, covered⟩ := ih restInside _
          (explored.consistent consistent) (by rw [explored.stack, idle])
      refine ⟨found ++ later, explored.trans exploredLater, ?_⟩
      intro other member
      rcases List.mem_cons.mp member with isNode | inRest
      · rw [isNode]
        exact Or.inr (by simp [nodeFound])
      · rcases covered other inRest with numbered | inLater
        · rcases (explored.numbered other).mp numbered with earlier | inFound
          · exact Or.inl earlier
          · exact Or.inr (by simp [inFound])
        · exact Or.inr (by simp [inLater])

theorem stronglyConnectedComponents_ranked (distinct : nodes.Nodup) :
    ∃ order : List α, order.Perm nodes ∧ stronglyConnectedComponents deps nodes =
          order.map fun node => [node] := by
  have consistent : Consistent (TarjanState.initial (α := α)) := by
    constructor <;> simp [TarjanState.initial]
  obtain ⟨fresh, explored, covered⟩ := visitAll_spec ranked nodes (fun _ member => member)
      TarjanState.initial consistent rfl
  refine ⟨fresh, ?_, ?_⟩
  · rw [List.perm_ext_iff_of_nodup explored.freshNodup distinct]
    intro node
    constructor
    · exact explored.freshNodes node
    · intro member
      rcases covered node member with impossible | found
      · simp [TarjanState.initial] at impossible
      · exact found
  · rw [stronglyConnectedComponents, explored.components]
    simp [TarjanState.initial]

end Acyclic

section OrderedComponents

variable {α : Type*} [LinearOrder α]

def componentOf (components : List (List α)) (node : α) : Option Nat :=
  components.findIdx? (node ∈ ·)

def componentPrerequisites (deps : α → List α) (components : List (List α)) (index : Nat) :
    Finset Nat :=
  (((components.getD index []).flatMap deps).filterMap
    (componentOf components)).toFinset.erase index

/-- The first member of a component. -/
def componentKey (components : List (List α)) (index : Nat) : WithBot α :=
  (components.getD index []).head?

/-- The components of the nodes, each after its prerequisites. -/
def orderedComponents (deps : α → List α) (nodes : List α) : List (List α) :=
  let components := stronglyConnectedComponents deps nodes
  (readyOrder (componentKey components) (List.range components.length)
    (componentPrerequisites deps components)).map
      fun index => components.getD index []

variable {order : List α}

theorem componentOf_singletons (distinct : order.Nodup) (node : α) (index : Nat) :
    componentOf (order.map fun node => [node]) node = some index ↔ order[index]? = some node := by
  unfold componentOf
  rw [List.findIdx?_eq_some_iff_getElem]
  constructor
  · rintro ⟨bound, found, -⟩
    rw [List.length_map] at bound
    simp only [List.getElem_map, List.mem_singleton, decide_eq_true_eq] at found
    rw [List.getElem?_eq_getElem bound, ← found]
  · intro found
    obtain ⟨bound, same⟩ := List.getElem?_eq_some_iff.mp found
    refine ⟨by simpa using bound, by simp [same], ?_⟩
    intro earlier before
    simp only [List.getElem_map, List.mem_singleton, decide_eq_true_eq]
    intro again
    have position := distinct.getElem_inj_iff.mp (same.trans again)
    omega

variable {deps : α → List α}

theorem mem_componentPrerequisites_singletons (distinct : order.Nodup) {index needed : Nat}
    {node : α} (found : order[index]? = some node) :
    needed ∈ componentPrerequisites deps (order.map fun node => [node]) index ↔ needed ≠ index ∧
        ∃ dependency ∈ deps node, order[needed]? = some dependency := by
  simp [componentPrerequisites, componentOf_singletons distinct, found]

variable {rank : α → Nat}

theorem readyOrder_singletons (ranked : Ranked deps order rank) (distinct : order.Nodup)
    (node : Nat → α) (nodeAt : ∀ index < order.length, order[index]? = some (node index)) :
    let positions :=
      readyOrder (componentKey (order.map fun node => [node])) (List.range order.length)
        (componentPrerequisites deps (order.map fun node => [node]))
    (∀ index ∈ positions, index < order.length) ∧
      LeastReady id (fun node needed => needed ∈ deps node)
        order.toFinset (positions.map node) := by
  have below : ∀ {index : Nat} {found : α}, order[index]? = some found → index < order.length :=
    fun found => (List.getElem?_eq_some_iff.mp found).1
  have member : ∀ index < order.length, node index ∈ order :=
    fun index bound => List.mem_of_getElem? (nodeAt index bound)
  -- Among the positions, a prerequisite is the position of a dependency.
  have prerequisites : ∀ index < order.length, ∀ needed < order.length,
        node needed ∈ deps (node index) ↔ needed ∈ componentPrerequisites deps
            (order.map fun node => [node]) index := by
    intro index bound needed neededBound
    rw [mem_componentPrerequisites_singletons distinct
      (nodeAt index bound), nodeAt needed neededBound]
    constructor
    · intro dependency
      refine ⟨?_, node needed, dependency, rfl⟩
      rintro rfl
      exact lt_irrefl _ (ranked _ (member needed bound) _ dependency (member needed bound))
    · rintro ⟨-, dependency, isDependency, same⟩
      rw [Option.some.inj same]
      exact isDependency
  have inside : ∀ index ∈ List.range order.length, componentPrerequisites deps
        (order.map fun node => [node]) index ⊆ (List.range order.length).toFinset := by
    intro index bound needed present
    obtain ⟨-, dependency, -, found⟩ := (mem_componentPrerequisites_singletons distinct
        (nodeAt index (List.mem_range.mp bound))).mp present
    simpa using below found
  have decreases : ∀ index ∈ List.range order.length, ∀ needed ∈ componentPrerequisites deps
          (order.map fun node => [node]) index, rank (node needed) < rank (node index) := by
    intro index listed needed present
    have bound := List.mem_range.mp listed
    have neededBound : needed < order.length := by simpa using inside index listed present
    exact ranked _ (member index bound) _
      ((prerequisites index bound needed neededBound).mpr present) (member needed neededBound)
  have injective : ∀ left < order.length, ∀ right < order.length,
      node left = node right → left = right := by
    intro left leftBound right rightBound same
    apply distinct.getElem_inj_iff.mp
    apply Option.some.inj
    rw [← List.getElem?_eq_getElem leftBound,
      ← List.getElem?_eq_getElem rightBound, nodeAt left leftBound, nodeAt right rightBound, same]
  have image : (Finset.range order.length).image node = order.toFinset := by
    ext element
    rw [Finset.mem_image, List.mem_toFinset, List.mem_iff_getElem?]
    constructor
    · rintro ⟨index, bound, rfl⟩
      exact ⟨index, nodeAt index (Finset.mem_range.mp bound)⟩
    · rintro ⟨index, found⟩
      refine ⟨index, Finset.mem_range.mpr (below found), ?_⟩
      exact Option.some.inj ((nodeAt index (below found)).symm.trans found)
  have keyAt : ∀ index < order.length, componentKey (order.map fun node => [node]) index =
          (node index : WithBot α) := by
    intro index bound
    simp only [componentKey, List.getD_eq_getElem?_getD, List.getElem?_map, nodeAt index bound]
    rfl
  have complete : (readyOrder (componentKey (order.map fun node => [node]))
        (List.range order.length) (componentPrerequisites deps
          (order.map fun node => [node]))).length = (List.range order.length).length :=
    length_readyOrder List.nodup_range inside decreases
  have drained := readyOrder_leastReady List.nodup_range inside complete
  rw [List.toFinset_range] at drained
  refine ⟨fun index listed => Finset.mem_range.mp (drained.mem_iff.mp listed), ?_⟩
  rw [← image]
  refine drained.map node ?_ ?_ ?_
  · intro left leftMember right rightMember
    exact injective left (by simpa using leftMember) right (by simpa using rightMember)
  · intro left leftMember right rightMember ordered
    rw [Finset.mem_range] at leftMember rightMember
    rw [Prod.Lex.toLex_le_toLex, keyAt left leftMember,
      keyAt right rightMember, WithBot.coe_lt_coe, WithBot.coe_inj] at ordered
    rcases ordered with lower | ⟨same, -⟩
    · exact lower.le
    · exact same.le
  · intro left leftMember right rightMember
    exact prerequisites left (Finset.mem_range.mp leftMember)
      right (Finset.mem_range.mp rightMember)

/--
When the dependencies decrease a rank, the ordered components are the
single nodes, in least-ready order.
-/
theorem orderedComponents_ranked {nodes : List α} (ranked : Ranked deps nodes rank)
    (distinct : nodes.Nodup) :
    ∃ listing : List α, LeastReady id (fun node needed => needed ∈ deps node)
          nodes.toFinset listing ∧ orderedComponents deps nodes =
          listing.map fun node => [node] := by
  obtain ⟨order, permutation, components⟩ := stronglyConnectedComponents_ranked ranked distinct
  have orderRanked : Ranked deps order rank := by
    intro node member dependency isDependency dependencyMember
    exact ranked node (permutation.mem_iff.mp member) dependency
      isDependency (permutation.mem_iff.mp dependencyMember)
  have sameNodes : order.toFinset = nodes.toFinset := List.toFinset_eq_of_perm _ _ permutation
  have orderDistinct : order.Nodup := permutation.nodup_iff.mpr distinct
  rw [← sameNodes]
  cases order with
  | nil =>
    refine ⟨[], .nil, ?_⟩
    simp [orderedComponents, components, readyOrder, drain]
  | cons first rest =>
    have nodeAt : ∀ index < (first :: rest).length, (first :: rest)[index]? =
            some ((first :: rest).getD index first) := by
      intro index bound
      rw [List.getD_eq_getElem _ _ bound, List.getElem?_eq_getElem bound]
    obtain ⟨bounded, order⟩ := readyOrder_singletons orderRanked orderDistinct _ nodeAt
    refine ⟨_, order, ?_⟩
    rw [orderedComponents, components, List.map_map, List.length_map]
    refine List.map_congr_left fun index listed => ?_
    simp only [Function.comp_apply, List.getD_eq_getElem?_getD,
      List.getElem?_map, List.getElem?_eq_getElem (bounded index listed),
      Option.map_some, Option.getD_some]

end OrderedComponents

end TypeBridge.Library.Components
