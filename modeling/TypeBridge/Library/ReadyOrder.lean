import TypeBridge.Library.OrderedMap

namespace TypeBridge.Library.ReadyOrder

/-!
# Least-ready orders

`LeastReady` describes the order in which a queue with tie-breaking keys
serves elements that wait for each other: it always takes the least element
none of whose prerequisites remains. `readyOrder` computes it with one
counter of open prerequisites for each node. It stops early exactly on a
prerequisite cycle, so a complete run is a least-ready order. `Countdown`
is the loop with a counter only for the nodes not taken yet, where a counter
may underflow; it computes the same order and never does.
-/

section LeastReady

/--
A listing of the remaining elements that repeatedly takes the least element
none of whose prerequisites remains.
-/
inductive LeastReady {β κ : Type*} [DecidableEq β] [LinearOrder κ] (key : β → κ)
    (prerequisite : β → β → Prop) : Finset β → List β → Prop where
  | nil : LeastReady key prerequisite ∅ []
  | cons {remaining : Finset β} {first : β} {later : List β} : first ∈ remaining →
      (∀ other ∈ remaining, ¬ prerequisite first other) →
      (∀ other ∈ remaining, (∀ needed ∈ remaining, ¬ prerequisite other needed) →
        key first ≤ key other) →
      LeastReady key prerequisite (remaining.erase first) later →
      LeastReady key prerequisite remaining (first :: later)

namespace LeastReady

variable {β γ κ μ : Type*} [DecidableEq β] [DecidableEq γ] [LinearOrder κ] [LinearOrder μ]
  {key : β → κ} {prerequisite : β → β → Prop}

variable {remaining : Finset β} {listing : List β} {element : β}

theorem mem_iff (order : LeastReady key prerequisite remaining listing) :
    element ∈ listing ↔ element ∈ remaining := by
  induction order with
  | nil => simp
  | @cons _ first _ member _ _ _ ih =>
    rw [List.mem_cons, ih, Finset.mem_erase]
    constructor
    · rintro (rfl | ⟨-, later⟩)
      · exact member
      · exact later
    · intro present
      by_cases isFirst : element = first
      · exact Or.inl isFirst
      · exact Or.inr ⟨isFirst, present⟩

theorem nodup (order : LeastReady key prerequisite remaining listing) : listing.Nodup := by
  induction order with
  | nil => exact List.nodup_nil
  | cons _ _ _ later ih =>
    rw [List.nodup_cons]
    refine ⟨?_, ih⟩
    rw [later.mem_iff]
    simp

theorem unique (injective : Function.Injective key) {left right : List β}
    (leftOrder : LeastReady key prerequisite remaining left)
    (rightOrder : LeastReady key prerequisite remaining right) : left = right := by
  induction leftOrder generalizing right with
  | nil =>
    cases rightOrder with
    | nil => rfl
    | cons member _ _ _ => simp at member
  | cons member ready least _ ih =>
    cases rightOrder with
    | nil => simp at member
    | cons otherMember otherReady otherLeast otherLater =>
      have same :=
        injective (le_antisymm (least _ otherMember otherReady) (otherLeast _ member ready))
      subst same
      rw [ih otherLater]

theorem mem_before {before after : List β} {needed : β}
    (order : LeastReady key prerequisite remaining (before ++ element :: after))
    (member : needed ∈ remaining) (needs : prerequisite element needed) : needed ∈ before := by
  induction before generalizing remaining with
  | nil =>
    cases order with
    | cons _ ready _ _ => exact (ready needed member needs).elim
  | cons first rest ih =>
    cases order with
    | cons _ _ _ later =>
      by_cases isFirst : needed = first
      · simp [isFirst]
      · exact List.mem_cons_of_mem _ (ih later (Finset.mem_erase.mpr ⟨isFirst, member⟩))

theorem pairwise (order : LeastReady key prerequisite remaining listing) :
    listing.Pairwise fun earlier later => ¬ prerequisite earlier later := by
  induction order with
  | nil => exact .nil
  | cons _ ready _ rest ih =>
    refine .cons (fun other member => ready other ?_) ih
    exact Finset.mem_of_mem_erase (rest.mem_iff.mp member)

/--
Elements below all others, and closed under prerequisites, are listed
before the others.
-/
theorem block {lower : β → Prop} {rank : β → Nat}
    (order : LeastReady key prerequisite remaining listing)
    (ranked : ∀ element ∈ remaining, ∀ needed ∈ remaining,
        prerequisite element needed → rank needed < rank element)
    (closed : ∀ element ∈ remaining, lower element →
        ∀ needed ∈ remaining, prerequisite element needed → lower needed)
    (below : ∀ left ∈ remaining, ∀ right ∈ remaining,
        lower left → ¬ lower right → key left < key right) :
    listing.Pairwise fun earlier later => lower later → lower earlier := by
  classical
  induction order with
  | nil => exact List.Pairwise.nil
  | @cons remaining first rest member ready least later ih =>
      refine List.Pairwise.cons ?_ (ih ?_ ?_ ?_)
      · intro other listed otherLower
        by_contra firstUpper
        have otherMember := Finset.mem_of_mem_erase (later.mem_iff.mp listed)
        -- A lower element of least rank is ready, and precedes the first.
        obtain ⟨ready, readyMember, lowest⟩ := Finset.exists_min_image (remaining.filter lower) rank
            ⟨other, Finset.mem_filter.mpr ⟨otherMember, otherLower⟩⟩
        obtain ⟨readyPresent, readyLower⟩ := Finset.mem_filter.mp readyMember
        have before : key first ≤ key ready := by
          apply least ready readyPresent
          intro needed neededMember needs
          have neededLower := closed ready readyPresent readyLower needed neededMember needs
          have lowerRank := ranked ready readyPresent needed neededMember needs
          have higherRank := lowest needed (Finset.mem_filter.mpr ⟨neededMember, neededLower⟩)
          omega
        exact absurd before (not_le.mpr (below ready readyPresent first member readyLower
            firstUpper))
      · intro element elementMember needed neededMember
        exact ranked element (Finset.mem_of_mem_erase elementMember)
          needed (Finset.mem_of_mem_erase neededMember)
      · intro element elementMember elementLower needed neededMember
        exact closed element (Finset.mem_of_mem_erase elementMember)
          elementLower needed (Finset.mem_of_mem_erase neededMember)
      · intro left leftMember right rightMember
        exact below left (Finset.mem_of_mem_erase leftMember)
          right (Finset.mem_of_mem_erase rightMember)

/-- A listing is carried along a map that respects keys and prerequisites. -/
theorem map {target : γ → μ} {targetPrerequisite : γ → γ → Prop} (rename : β → γ)
    (order : LeastReady key prerequisite remaining listing) (injective : Set.InjOn rename remaining)
    (sameOrder : ∀ left ∈ remaining, ∀ right ∈ remaining,
        key left ≤ key right → target (rename left) ≤ target (rename right))
    (samePrerequisite : ∀ left ∈ remaining, ∀ right ∈ remaining,
        targetPrerequisite (rename left) (rename right) ↔ prerequisite left right) :
    LeastReady target targetPrerequisite (remaining.image rename) (listing.map rename) := by
  induction order with
  | nil => simpa using LeastReady.nil
  | @cons remaining first later member ready least _ ih =>
    rw [List.map_cons]
    have erased : (remaining.erase first).image rename =
          (remaining.image rename).erase (rename first) := by
      ext element
      simp only [Finset.mem_image, Finset.mem_erase]
      constructor
      · rintro ⟨source, ⟨different, present⟩, rfl⟩
        refine ⟨?_, source, present, rfl⟩
        intro same
        exact different (injective present member same)
      · rintro ⟨different, source, present, rfl⟩
        refine ⟨source, ⟨?_, present⟩, rfl⟩
        intro same
        exact different (congrArg rename same)
    refine .cons (Finset.mem_image_of_mem rename member) ?_ ?_ ?_
    · intro other otherMember
      obtain ⟨source, present, rfl⟩ := Finset.mem_image.mp otherMember
      rw [samePrerequisite first member source present]
      exact ready source present
    · intro other otherMember otherReady
      obtain ⟨source, present, rfl⟩ := Finset.mem_image.mp otherMember
      apply sameOrder first member source present
      apply least source present
      intro needed neededPresent needs
      exact otherReady (rename needed) (Finset.mem_image_of_mem rename neededPresent)
        ((samePrerequisite source present needed neededPresent).mpr needs)
    · rw [← erased]
      apply ih
      · exact injective.mono (by simp)
      · intro left leftMember right rightMember
        exact sameOrder left (Finset.mem_of_mem_erase leftMember)
          right (Finset.mem_of_mem_erase rightMember)
      · intro left leftMember right rightMember
        exact samePrerequisite left (Finset.mem_of_mem_erase leftMember)
          right (Finset.mem_of_mem_erase rightMember)

end LeastReady

end LeastReady

section Kahn

/-- The remaining prerequisite counts and the ready nodes with their keys. -/
structure KahnState (ι κ : Type*) [LinearOrder ι] [LinearOrder κ] where
  remaining : ι → Nat
  ready : Std.ExtTreeSet (κ ×ₗ ι)

variable {ι κ : Type*} [LinearOrder ι] [LinearOrder κ]

/-- Count one prerequisite of a node as done, and make it ready at zero. -/
def release (key : ι → κ) (state : KahnState ι κ) (dependent : ι) : KahnState ι κ :=
  let left := state.remaining dependent - 1
  { remaining := Function.update state.remaining dependent left
    ready :=
      if left = 0 then state.ready.insert (toLex (key dependent, dependent))
      else state.ready }

/-- Repeatedly take the least ready node and release its dependents. -/
def drain (key : ι → κ) (dependents : ι → List ι) : Nat → KahnState ι κ → List ι
  | 0, _ => []
  | fuel + 1, state =>
      match state.ready.toList.head? with
      | none => []
      | some entry =>
          let node := (ofLex entry).2
          node :: drain key dependents fuel ((dependents node).foldl (release key)
                { state with ready := state.ready.erase entry })

/-- The initial counts and ready nodes for given prerequisites. -/
def KahnState.start (key : ι → κ) (nodes : List ι) (prerequisites : ι → Finset ι) :
    KahnState ι κ where
  remaining := fun node => (prerequisites node).card
  ready :=
    (nodes.filter (fun node => (prerequisites node).card = 0)).foldl
        (fun ready node => ready.insert (toLex (key node, node))) ∅

def dependentsOf (nodes : List ι) (prerequisites : ι → Finset ι) (node : ι) : List ι :=
  nodes.filter fun other => node ∈ prerequisites other

def readyOrder (key : ι → κ) (nodes : List ι) (prerequisites : ι → Finset ι) : List ι :=
  drain key (dependentsOf nodes prerequisites) nodes.length
    (KahnState.start key nodes prerequisites)

/-- Releasing dependents lowers their counts and readies those at zero. -/
theorem foldl_release (key : ι → κ) (dependents : List ι) (distinct : dependents.Nodup)
    (state : KahnState ι κ) : (∀ node, (dependents.foldl (release key) state).remaining node =
        if node ∈ dependents then state.remaining node - 1
        else state.remaining node) ∧
      ∀ entry, entry ∈ (dependents.foldl (release key) state).ready ↔ entry ∈ state.ready ∨
            ∃ node ∈ dependents, state.remaining node - 1 = 0 ∧ entry = toLex (key node, node) := by
  induction dependents generalizing state with
  | nil => simp
  | cons first rest ih =>
    obtain ⟨firstNotRest, restDistinct⟩ := List.nodup_cons.mp distinct
    obtain ⟨counts, entries⟩ := ih restDistinct (release key state first)
    have otherCount : ∀ node ∈ rest, (release key state first).remaining node =
            state.remaining node := by
      intro node member
      have different : node ≠ first := by
        rintro rfl
        exact firstNotRest member
      simp [release, Function.update_of_ne different]
    have firstReady : ∀ entry, entry ∈ (release key state first).ready ↔ entry ∈ state.ready ∨
              (state.remaining first - 1 = 0 ∧ entry = toLex (key first, first)) := by
      intro entry
      unfold release
      by_cases zero : state.remaining first - 1 = 0
      · simp only [zero, ↓reduceIte, Std.ExtTreeSet.mem_insert, compare_eq_iff_eq, true_and]
        rw [eq_comm, or_comm]
      · simp [zero]
    rw [List.foldl_cons]
    constructor
    · intro node
      rw [counts node]
      by_cases inRest : node ∈ rest
      · rw [if_pos inRest, otherCount node inRest]
        simp [inRest]
      · rw [if_neg inRest]
        by_cases isFirst : node = first
        · subst node
          simp [release]
        · simp [release, isFirst, inRest]
    · intro entry
      rw [entries entry, firstReady entry]
      constructor
      · rintro ((older | ⟨zero, isFirst⟩) | ⟨node, member, zero, same⟩)
        · exact Or.inl older
        · exact Or.inr ⟨first, by simp, zero, isFirst⟩
        · rw [otherCount node member] at zero
          exact Or.inr ⟨node, by simp [member], zero, same⟩
      · rintro (older | ⟨node, member, zero, same⟩)
        · exact Or.inl (Or.inl older)
        · rcases List.mem_cons.mp member with isFirst | inRest
          · subst node
            exact Or.inl (Or.inr ⟨zero, same⟩)
          · refine Or.inr ⟨node, inRest, ?_, same⟩
            rw [otherCount node inRest]
            exact zero

structure Draining (key : ι → κ) (nodes : List ι) (prerequisites : ι → Finset ι) (left : Finset ι)
    (state : KahnState ι κ) : Prop where
  bounded : ∀ node ∈ left, node ∈ nodes
  closed : ∀ node ∈ nodes, node ∉ left → ∀ needed ∈ prerequisites node, needed ∉ left
  counts : ∀ node ∈ nodes, state.remaining node = (prerequisites node ∩ left).card
  entries : ∀ entry, entry ∈ state.ready ↔ ∃ node ∈ left,
          (∀ needed ∈ prerequisites node, needed ∉ left) ∧ entry = toLex (key node, node)

variable {nodes : List ι} {prerequisites : ι → Finset ι}

/-- Initially every node is left. -/
theorem Draining.start (key : ι → κ) (inside : ∀ node ∈ nodes, prerequisites node ⊆ nodes.toFinset) :
    Draining key nodes prerequisites nodes.toFinset (KahnState.start key nodes prerequisites) where
  bounded := by
    intro node member
    exact List.mem_toFinset.mp member
  closed := by
    intro node below absent
    exact (absent (List.mem_toFinset.mpr below)).elim
  counts := by
    intro node listed
    rw [Finset.inter_eq_left.mpr (inside node listed)]
    rfl
  entries := by
    intro entry
    have insertAll : ∀ (pending : List ι) (ready : Std.ExtTreeSet (κ ×ₗ ι)), entry ∈ pending.foldl
                (fun ready node => ready.insert (toLex (key node, node))) ready ↔ entry ∈ ready ∨
              ∃ node ∈ pending, entry = toLex (key node, node) := by
      intro pending
      induction pending with
      | nil => simp
      | cons first rest ih =>
        intro ready
        rw [List.foldl_cons, ih, Std.ExtTreeSet.mem_insert, compare_eq_iff_eq]
        simp only [List.mem_cons, exists_eq_or_imp]
        rw [eq_comm (a := toLex (key first, first))]
        tauto
    rw [KahnState.start, insertAll]
    simp only [Std.ExtTreeSet.not_mem_empty, false_or, List.mem_filter,
      decide_eq_true_eq, Finset.card_eq_zero, List.mem_toFinset, and_assoc]
    constructor
    · rintro ⟨node, below, none, same⟩
      exact ⟨node, below, by simp [none], same⟩
    · rintro ⟨node, below, ready, same⟩
      refine ⟨node, below, ?_, same⟩
      rw [Finset.eq_empty_iff_forall_notMem]
      intro needed member
      exact ready needed member (List.mem_toFinset.mp (inside node below member))

theorem Draining.take {key : ι → κ} {left : Finset ι} {state : KahnState ι κ}
    (distinctNodes : nodes.Nodup) (draining : Draining key nodes prerequisites left state)
    {node : ι} (member : node ∈ left) (ready : ∀ needed ∈ prerequisites node, needed ∉ left) :
    Draining key nodes prerequisites (left.erase node)
      ((dependentsOf nodes prerequisites node).foldl (release key)
        { state with
          ready := state.ready.erase (toLex (key node, node)) }) := by
  have distinct : (dependentsOf nodes prerequisites node).Nodup := distinctNodes.filter _
  have memDependents : ∀ other, other ∈ dependentsOf nodes prerequisites node ↔
          other ∈ nodes ∧ node ∈ prerequisites other := by
    intro other
    simp [dependentsOf]
  obtain ⟨counts, entries⟩ := foldl_release key (dependentsOf nodes prerequisites node) distinct
      { state with ready := state.ready.erase (toLex (key node, node)) }
  -- A dependent of the taken node is still left, and is not that node.
  have dependentLeft : ∀ other ∈ nodes, node ∈ prerequisites other → other ∈ left.erase node := by
    intro other below needs
    rw [Finset.mem_erase]
    constructor
    · rintro rfl
      exact ready other needs member
    · by_contra absent
      exact draining.closed other below absent node needs member
  have countAfter : ∀ other ∈ nodes, node ∈ prerequisites other → state.remaining other - 1 =
          (prerequisites other ∩ left.erase node).card := by
    intro other below needs
    rw [draining.counts other below, Finset.inter_erase,
      Finset.card_erase_of_mem (Finset.mem_inter.mpr ⟨needs, member⟩)]
  exact {
    bounded := by
      intro other otherMember
      exact draining.bounded other (Finset.mem_of_mem_erase otherMember)
    closed := by
      intro other below absent needed neededMember stillLeft
      rw [Finset.mem_erase, not_and_or, not_not] at absent
      rcases absent with isNode | absent
      · subst other
        exact ready needed neededMember (Finset.mem_of_mem_erase stillLeft)
      · exact draining.closed other below absent needed neededMember
          (Finset.mem_of_mem_erase stillLeft)
    counts := by
      intro other below
      rw [counts other]
      by_cases needs : node ∈ prerequisites other
      · rw [if_pos ((memDependents other).mpr ⟨below, needs⟩)]
        exact countAfter other below needs
      · rw [if_neg (fun listed => needs ((memDependents other).mp listed).2)]
        rw [draining.counts other below, Finset.inter_erase, Finset.erase_eq_of_notMem]
        exact fun present => needs (Finset.mem_inter.mp present).1
    entries := by
      intro entry
      rw [entries entry, Std.ExtTreeSet.mem_erase, draining.entries entry]
      constructor
      · rintro (⟨different, other, otherLeft, otherReady, same⟩ | ⟨other, listed, zero, same⟩)
        · have otherNe : other ≠ node := by
            rintro rfl
            exact different (compare_eq_iff_eq.mpr same.symm)
          exact ⟨other, Finset.mem_erase.mpr ⟨otherNe, otherLeft⟩,
            fun needed neededMember stillLeft =>
              otherReady needed neededMember (Finset.mem_of_mem_erase stillLeft), same⟩
        · obtain ⟨below, needs⟩ := (memDependents other).mp listed
          refine ⟨other, dependentLeft other below needs, ?_, same⟩
          have none := (countAfter other below needs).symm.trans zero
          rw [Finset.card_eq_zero] at none
          intro needed neededMember stillLeft
          have inside := Finset.mem_inter.mpr ⟨neededMember, stillLeft⟩
          rw [none] at inside
          simp at inside
      · rintro ⟨other, otherLeft, otherReady, same⟩
        obtain ⟨otherNe, stillLeft⟩ := Finset.mem_erase.mp otherLeft
        have below := draining.bounded other stillLeft
        by_cases needs : node ∈ prerequisites other
        · refine Or.inr ⟨other, (memDependents other).mpr ⟨below, needs⟩, ?_, same⟩
          change state.remaining other - 1 = 0
          rw [countAfter other below needs, Finset.card_eq_zero, Finset.eq_empty_iff_forall_notMem]
          intro needed present
          obtain ⟨neededMember, neededLeft⟩ := Finset.mem_inter.mp present
          exact otherReady needed neededMember neededLeft
        · refine Or.inl ⟨?_, other, stillLeft, ?_, same⟩
          · intro equal
            rw [compare_eq_iff_eq, same] at equal
            exact otherNe (Prod.ext_iff.mp (toLex.injective equal)).2.symm
          · intro needed neededMember neededLeft
            apply otherReady needed neededMember
            rw [Finset.mem_erase]
            refine ⟨?_, neededLeft⟩
            rintro rfl
            exact needs neededMember
  }

theorem head_toList_least {β : Type*} [LinearOrder β] {members : Std.ExtTreeSet β} {least : β}
    (head : members.toList.head? = some least) :
    least ∈ members ∧ ∀ member ∈ members, least ≤ member := by
  have ordered := Std.ExtTreeSet.ordered_toList (t := members)
  cases listed : members.toList with
  | nil => simp [listed] at head
  | cons first rest =>
    rw [listed, List.head?_cons, Option.some.injEq] at head
    subst first
    refine ⟨?_, ?_⟩
    · rw [← Std.ExtTreeSet.mem_toList, listed]
      simp
    · intro member present
      rw [← Std.ExtTreeSet.mem_toList, listed, List.mem_cons] at present
      rcases present with rfl | later
      · exact le_rfl
      · rw [listed, List.pairwise_cons] at ordered
        exact le_of_lt (compare_lt_iff_lt.mp (ordered.1 member later))

theorem not_mem_of_head_none {β : Type*} [LinearOrder β] {members : Std.ExtTreeSet β}
    (head : members.toList.head? = none) (member : β) : member ∉ members := by
  rw [← Std.ExtTreeSet.mem_toList, List.head?_eq_none_iff.mp head]
  simp

section Run

variable {key : ι → κ} {nodes : List ι} {prerequisites : ι → Finset ι}
  {left : Finset ι} {state : KahnState ι κ}

theorem Draining.leastReady (distinctNodes : nodes.Nodup) (fuel : Nat)
    (draining : Draining key nodes prerequisites left state)
    (complete : (drain key (dependentsOf nodes prerequisites) fuel state).length = left.card) :
    LeastReady (fun node => (toLex (key node, node) : κ ×ₗ ι))
      (fun node needed => needed ∈ prerequisites node) left
      (drain key (dependentsOf nodes prerequisites) fuel state) := by
  induction fuel generalizing left state with
  | zero =>
    have empty : left = ∅ := Finset.card_eq_zero.mp complete.symm
    subst left
    exact .nil
  | succ fuel ih =>
    unfold drain at complete ⊢
    cases head : state.ready.toList.head? with
    | none =>
      simp only [head, List.length_nil] at complete
      have empty : left = ∅ := Finset.card_eq_zero.mp complete.symm
      subst left
      exact .nil
    | some entry =>
      simp only [head, List.length_cons] at complete
      obtain ⟨present, least⟩ := head_toList_least head
      obtain ⟨node, member, ready, rfl⟩ := (draining.entries entry).mp present
      refine .cons member (fun needed left needs => ready needed needs left) ?_ ?_
      · intro other otherMember otherReady
        apply least
        rw [draining.entries]
        exact ⟨other, otherMember, fun needed needs left => otherReady needed left needs, rfl⟩
      · apply ih (draining.take distinctNodes member ready)
        rw [Finset.card_erase_of_mem member]
        exact Nat.eq_sub_of_add_eq complete

variable {rank : ι → Nat}

/--
With fuel for every node left, a drain lists all of them when the
prerequisites decrease a rank.
-/
theorem Draining.length_drain (distinctNodes : nodes.Nodup)
    (ranked : ∀ node ∈ nodes, ∀ needed ∈ prerequisites node, rank needed < rank node) (fuel : Nat)
    (draining : Draining key nodes prerequisites left state) (enough : left.card ≤ fuel) :
    (drain key (dependentsOf nodes prerequisites) fuel state).length = left.card := by
  induction fuel generalizing left state with
  | zero => exact (Nat.le_zero.mp enough).symm
  | succ fuel ih =>
    unfold drain
    cases head : state.ready.toList.head? with
    | none =>
      -- Nothing is ready, so nothing of least rank is left.
      have noEntries := not_mem_of_head_none head
      symm
      rw [List.length_nil, Finset.card_eq_zero]
      by_contra nonempty
      obtain ⟨node, member, least⟩ := Finset.exists_min_image left rank
          (Finset.nonempty_iff_ne_empty.mpr nonempty)
      apply noEntries (toLex (key node, node))
      rw [draining.entries]
      refine ⟨node, member, ?_, rfl⟩
      intro needed neededMember neededLeft
      have lower := ranked node (draining.bounded node member) needed neededMember
      have higher := least needed neededLeft
      omega
    | some entry =>
      obtain ⟨present, -⟩ := head_toList_least head
      obtain ⟨node, member, ready, rfl⟩ := (draining.entries entry).mp present
      have positive := Finset.card_pos.mpr ⟨node, member⟩
      simp only [List.length_cons]
      rw [show (ofLex (toLex (key node, node))).2 = node from rfl,
        ih (draining.take distinctNodes member ready)
          (by rw [Finset.card_erase_of_mem member]; omega), Finset.card_erase_of_mem member]
      omega

theorem readyOrder_leastReady (distinctNodes : nodes.Nodup)
    (inside : ∀ node ∈ nodes, prerequisites node ⊆ nodes.toFinset)
    (complete : (readyOrder key nodes prerequisites).length = nodes.length) :
    LeastReady (fun node => (toLex (key node, node) : κ ×ₗ ι))
      (fun node needed => needed ∈ prerequisites node) nodes.toFinset
      (readyOrder key nodes prerequisites) := by
  apply (Draining.start key inside).leastReady distinctNodes
  rw [List.toFinset_card_of_nodup distinctNodes]
  exact complete

theorem length_readyOrder (distinctNodes : nodes.Nodup)
    (inside : ∀ node ∈ nodes, prerequisites node ⊆ nodes.toFinset)
    (ranked : ∀ node ∈ nodes, ∀ needed ∈ prerequisites node, rank needed < rank node) :
    (readyOrder key nodes prerequisites).length = nodes.length := by
  have cardinality := List.toFinset_card_of_nodup distinctNodes
  rw [readyOrder, (Draining.start key inside).length_drain distinctNodes
    ranked nodes.length (le_of_eq cardinality), cardinality]

end Run

/-! ## Counting down -/

/-- The counts of the nodes not taken yet, and the ready ones. -/
structure Countdown (ι κ : Type*) [LinearOrder ι] [LinearOrder κ] where
  counts : ι → Option Nat
  ready : Std.ExtTreeSet (κ ×ₗ ι)

/-- Lower the count of a node that is not taken yet; a zero count underflows. -/
def Countdown.lower (key : ι → κ) (state : Countdown ι κ) (dependent : ι) :
    Option (Countdown ι κ) :=
  match state.counts dependent with
  | none => some state
  | some 0 => none
  | some (left + 1) =>
      some {
        counts := Function.update state.counts dependent (some left)
        ready :=
          if left = 0 then state.ready.insert (toLex (key dependent, dependent))
          else state.ready
      }

/-- Take the least ready node, lower its dependents and forget it. -/
def Countdown.run (key : ι → κ) (dependents : ι → List ι) :
    Nat → Countdown ι κ → Option (List ι × Countdown ι κ)
  | 0, state => some ([], state)
  | fuel + 1, state =>
      match state.ready.toList.head? with
      | none => some ([], state)
      | some entry => do
          let node := (ofLex entry).2
          let lowered ← (dependents node).foldlM (Countdown.lower key)
              { state with ready := state.ready.erase entry }
          let (order, final) ←
            Countdown.run key dependents fuel
              { lowered with
                counts := Function.update lowered.counts node none }
          return (node :: order, final)

def Countdown.start (key : ι → κ) (nodes : List ι) (prerequisites : ι → Finset ι) :
    Countdown ι κ where
  counts := fun node => if node ∈ nodes then some (prerequisites node).card else none
  ready := (KahnState.start key nodes prerequisites).ready

/-- Lowering positive counts succeeds and readies those that reach zero. -/
theorem Countdown.exists_foldlM_lower (key : ι → κ) {dependents : List ι}
    (distinct : dependents.Nodup) (state : Countdown ι κ) (positive :
      ∀ node ∈ dependents, state.counts node ≠ some 0) :
    ∃ lowered,
      dependents.foldlM (Countdown.lower key) state = some lowered ∧ (∀ node, lowered.counts node =
            if node ∈ dependents then (state.counts node).map (· - 1)
            else state.counts node) ∧
        ∀ entry, entry ∈ lowered.ready ↔ entry ∈ state.ready ∨ ∃ node ∈ dependents,
                state.counts node = some 1 ∧ entry = toLex (key node, node) := by
  induction dependents generalizing state with
  | nil => exact ⟨state, rfl, by simp, by simp⟩
  | cons first rest ih =>
    obtain ⟨firstNotRest, restDistinct⟩ := List.nodup_cons.mp distinct
    -- One step lowers the first count and leaves the others.
    obtain ⟨middle, stepped, counts, entries⟩ : ∃ middle,
          Countdown.lower key state first = some middle ∧ (∀ node, middle.counts node =
                if node = first then (state.counts node).map (· - 1)
                else state.counts node) ∧
            ∀ entry, entry ∈ middle.ready ↔ entry ∈ state.ready ∨ (state.counts first = some 1 ∧
                    entry = toLex (key first, first)) := by
      unfold Countdown.lower
      cases found : state.counts first with
      | none =>
        refine ⟨state, rfl, ?_, by simp⟩
        intro node
        by_cases isFirst : node = first
        · subst isFirst
          simp [found]
        · simp [isFirst]
      | some count =>
        cases count with
        | zero => exact (positive first (by simp) found).elim
        | succ left =>
          refine ⟨_, rfl, ?_, ?_⟩
          · intro node
            by_cases isFirst : node = first
            · subst isFirst
              simp [found]
            · simp [isFirst]
          · intro entry
            by_cases last : left = 0
            · simp only [last, ↓reduceIte, Std.ExtTreeSet.mem_insert,
                compare_eq_iff_eq, Nat.zero_add, true_and]
              rw [eq_comm, or_comm]
            · simp [last]
    have restPositive : ∀ node ∈ rest, middle.counts node ≠ some 0 := by
      intro node member
      have different : node ≠ first := by
        intro same
        subst same
        exact firstNotRest member
      rw [counts node, if_neg different]
      exact positive node (by simp [member])
    obtain ⟨lowered, run, restCounts, restEntries⟩ := ih restDistinct middle restPositive
    refine ⟨lowered, ?_, ?_, ?_⟩
    · rw [List.foldlM_cons, stepped]
      exact run
    · intro node
      rw [restCounts node, counts node]
      by_cases isFirst : node = first
      · subst isFirst
        simp [firstNotRest]
      · simp [isFirst]
    · intro entry
      rw [restEntries entry, entries entry]
      constructor
      · intro reached
        rcases reached with (older | ⟨one, same⟩) | ⟨node, member, one, same⟩
        · exact Or.inl older
        · exact Or.inr ⟨first, by simp, one, same⟩
        · have different : node ≠ first := by
            intro equal
            subst equal
            exact firstNotRest member
          rw [counts node, if_neg different] at one
          exact Or.inr ⟨node, by simp [member], one, same⟩
      · intro reached
        rcases reached with older | ⟨node, member, one, same⟩
        · exact Or.inl (Or.inl older)
        · rcases List.mem_cons.mp member with isFirst | inRest
          · subst isFirst
            exact Or.inl (Or.inr ⟨one, same⟩)
          · have different : node ≠ first := by
              intro equal
              subst equal
              exact firstNotRest inRest
            refine Or.inr ⟨node, inRest, ?_, same⟩
            rw [counts node, if_neg different]
            exact one

section Counted

variable {key : ι → κ} {nodes : List ι} {prerequisites : ι → Finset ι}

structure Counted (left : Finset ι) (state : KahnState ι κ) (counted : Countdown ι κ) : Prop where
  counts : ∀ node, counted.counts node = if node ∈ left then some (state.remaining node) else none
  ready : counted.ready = state.ready

variable {left : Finset ι} {state : KahnState ι κ} {counted : Countdown ι κ}

/--
Taking the least ready node lowers no zero count.

The dependents may include nodes outside the drained ones: they have no
count and are skipped.
-/
theorem Counted.exists_take {dependents : List ι} {node : ι} (distinctNodes : nodes.Nodup)
    (distinct : dependents.Nodup)
    (exactly : ∀ other ∈ nodes, other ∈ dependents ↔ node ∈ prerequisites other)
    (draining : Draining key nodes prerequisites left state) (holds : Counted left state counted)
    (member : node ∈ left) (ready : ∀ needed ∈ prerequisites node, needed ∉ left) : ∃ lowered,
      dependents.foldlM (Countdown.lower key)
          { counted with
            ready := counted.ready.erase (toLex (key node, node)) } =
        some lowered ∧
      Counted (left.erase node) ((dependentsOf nodes prerequisites node).foldl (release key)
          { state with
            ready := state.ready.erase (toLex (key node, node)) })
        { lowered with
          counts := Function.update lowered.counts node none } := by
  -- A dependent that is left still counts the taken node.
  have positiveCount : ∀ other ∈ left, other ∈ dependents → 0 < state.remaining other := by
    intro other otherLeft listed
    have below := draining.bounded other otherLeft
    rw [draining.counts other below, Finset.card_pos]
    exact ⟨node, Finset.mem_inter.mpr ⟨(exactly other below).mp listed, member⟩⟩
  have positive : ∀ other ∈ dependents, counted.counts other ≠ some 0 := by
    intro other listed zero
    rw [holds.counts other] at zero
    by_cases otherLeft : other ∈ left
    · rw [if_pos otherLeft, Option.some.injEq] at zero
      have counted := positiveCount other otherLeft listed
      omega
    · rw [if_neg otherLeft] at zero
      cases zero
  obtain ⟨lowered, run, counts, entries⟩ := Countdown.exists_foldlM_lower key distinct
      { counted with
        ready := counted.ready.erase (toLex (key node, node)) }
      positive
  obtain ⟨released, releasedEntries⟩ := foldl_release key (dependentsOf nodes prerequisites node)
      (distinctNodes.filter _)
      { state with ready := state.ready.erase (toLex (key node, node)) }
  have memDependents : ∀ other ∈ nodes, other ∈ dependentsOf nodes prerequisites node ↔
          other ∈ dependents := by
    intro other below
    simp [dependentsOf, below, exactly other below]
  refine ⟨lowered, run, ⟨?_, ?_⟩⟩
  · intro other
    by_cases isNode : other = node
    · subst isNode
      simp
    · simp only [ne_eq, isNode, not_false_eq_true, Function.update_of_ne,
        Finset.mem_erase, true_and]
      rw [counts other, released other]
      dsimp only
      rw [holds.counts other]
      by_cases otherLeft : other ∈ left
      · have below := draining.bounded other otherLeft
        simp only [otherLeft, ↓reduceIte, memDependents other below]
        by_cases listed : other ∈ dependents
        · simp [listed]
        · simp [listed]
      · simp [otherLeft]
  · apply Std.ExtTreeSet.ext_mem
    intro entry
    rw [entries entry, releasedEntries entry]
    dsimp only
    rw [holds.ready]
    apply or_congr Iff.rfl
    constructor
    · intro reached
      obtain ⟨other, listed, one, same⟩ := reached
      rw [holds.counts other] at one
      by_cases otherLeft : other ∈ left
      · rw [if_pos otherLeft, Option.some.injEq] at one
        have below := draining.bounded other otherLeft
        exact ⟨other, (memDependents other below).mpr listed, by rw [one], same⟩
      · rw [if_neg otherLeft] at one
        cases one
    · intro reached
      obtain ⟨other, listed, zero, same⟩ := reached
      obtain ⟨below, needs⟩ := List.mem_filter.mp listed
      have needsNode : node ∈ prerequisites other := by simpa using needs
      have otherLeft : other ∈ left := by
        by_contra absent
        exact draining.closed other below absent node needsNode member
      have listedDependent := (memDependents other below).mp listed
      have atLeastOne := positiveCount other otherLeft listedDependent
      refine ⟨other, listedDependent, ?_, same⟩
      rw [holds.counts other, if_pos otherLeft, Option.some.injEq]
      omega

theorem Counted.counts_eq_none_iff (bounded : ∀ node ∈ left, node ∈ nodes)
    (holds : Counted left state counted) :
    (∀ node ∈ nodes, counted.counts node = none) ↔ 0 = left.card := by
  rw [eq_comm, Finset.card_eq_zero, Finset.eq_empty_iff_forall_notMem]
  constructor
  · intro settled node isLeft
    have gone := settled node (bounded node isLeft)
    rw [holds.counts node, if_pos isLeft] at gone
    cases gone
  · intro empty node _
    rw [holds.counts node, if_neg (empty node)]

variable {dependents : ι → List ι}

/--
A countdown never underflows, and takes the nodes a drain takes.

No count remains exactly when the drain takes every node left.
-/
theorem Counted.exists_run (distinctNodes : nodes.Nodup)
    (distinct : ∀ node, (dependents node).Nodup) (exactly : ∀ node ∈ nodes, ∀ other ∈ nodes,
        other ∈ dependents node ↔ node ∈ prerequisites other)
    (fuel : Nat) (draining : Draining key nodes prerequisites left state)
    (holds : Counted left state counted) : ∃ final, Countdown.run key dependents fuel counted = some
            (drain key (dependentsOf nodes prerequisites) fuel state, final) ∧
        ((∀ node ∈ nodes, final.counts node = none) ↔
          (drain key (dependentsOf nodes prerequisites) fuel state).length = left.card) := by
  induction fuel generalizing left state counted with
  | zero =>
    refine ⟨counted, rfl, ?_⟩
    exact holds.counts_eq_none_iff draining.bounded
  | succ fuel ih =>
    unfold Countdown.run drain
    rw [holds.ready]
    cases head : state.ready.toList.head? with
    | none =>
      refine ⟨counted, rfl, ?_⟩
      exact holds.counts_eq_none_iff draining.bounded
    | some entry =>
      obtain ⟨present, -⟩ := head_toList_least head
      obtain ⟨node, member, ready, rfl⟩ := (draining.entries entry).mp present
      obtain ⟨lowered, stepped, next⟩ := holds.exists_take distinctNodes (distinct node)
          (exactly node (draining.bounded node member)) draining member ready
      obtain ⟨final, run, emptied⟩ := ih (draining.take distinctNodes member ready) next
      have positive := Finset.card_pos.mpr ⟨node, member⟩
      refine ⟨final, ?_, ?_⟩
      · rw [holds.ready] at stepped
        simp only [ofLex_toLex, stepped, Option.bind_eq_bind,
          Option.bind_some, run, Option.pure_def]
      · rw [emptied, Finset.card_erase_of_mem member]
        simp only [List.length_cons, ofLex_toLex]
        omega

theorem exists_run_start (key : ι → κ) (distinctNodes : nodes.Nodup)
    (inside : ∀ node ∈ nodes, prerequisites node ⊆ nodes.toFinset)
    (distinct : ∀ node, (dependents node).Nodup) (exactly : ∀ node ∈ nodes, ∀ other ∈ nodes,
        other ∈ dependents node ↔ node ∈ prerequisites other) :
    ∃ final, Countdown.run key dependents nodes.length (Countdown.start key nodes prerequisites) =
          some (readyOrder key nodes prerequisites, final) ∧
        ((∀ node ∈ nodes, final.counts node = none) ↔ (readyOrder key nodes prerequisites).length =
            nodes.length) := by
  have holds : Counted nodes.toFinset (KahnState.start key nodes prerequisites)
        (Countdown.start key nodes prerequisites) := by
    refine ⟨?_, rfl⟩
    intro node
    simp [Countdown.start, KahnState.start]
  obtain ⟨final, run, emptied⟩ := holds.exists_run distinctNodes distinct exactly nodes.length
      (Draining.start key inside)
  refine ⟨final, run, ?_⟩
  rw [emptied, List.toFinset_card_of_nodup distinctNodes]
  rfl

end Counted

end Kahn

end TypeBridge.Library.ReadyOrder
