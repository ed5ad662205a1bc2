import Mathlib

namespace TypeBridge.Library.PathSearch

/-!
# Depth-first path search

`search` walks a directed multigraph depth first, marks every node it enters,
and returns the edges of the first path it finds. A node that was entered
and left without success stays marked, so later branches never enter it again.

The search is characterized without its marks: the path it returns takes, at
every node, the first edge from which the target can still be reached around
the nodes already on the path. It follows that dropping edges off that path
leaves the result unchanged, and that the result is independent of the fuel
once the fuel exceeds the number of nodes with outgoing edges.
-/

variable {α ε : Type*}

/-- Try the edges in order until one succeeds, threading the marks. -/
def firstSuccess (visit : List α → ε → Option (List ε) × List α) :
    List α → List ε → Option (List ε) × List α
  | visited, [] => (none, visited)
  | visited, edge :: rest =>
      match visit visited edge with
      | (some tail, marked) => (some (edge :: tail), marked)
      | (none, marked) => firstSuccess visit marked rest

def search [DecidableEq α] (edges : α → List ε) (head : ε → α) (target : α) :
    Nat → List α → α → Option (List ε) × List α
  | 0, visited, _ => (none, visited)
  | fuel + 1, visited, current =>
      if current = target then (some [], visited)
      else if current ∈ visited then (none, visited)
      else
        firstSuccess (fun marked edge => search edges head target fuel marked (head edge))
          (current :: visited)
          (edges current)

/-- The target can be reached from a node without entering an avoided node. -/
inductive Reach (edges : α → List ε) (head : ε → α) (target : α) (avoid : List α) : α → Prop where
  | here : Reach edges head target avoid target
  | step {current : α} {edge : ε} : current ∉ avoid → edge ∈ edges current →
      Reach edges head target avoid (head edge) →
      Reach edges head target avoid current

inductive FirstPath (edges : α → List ε) (head : ε → α) (target : α) :
    List α → α → List ε → Prop where
  | here {avoid : List α} : FirstPath edges head target avoid target []
  | step
      {avoid : List α}
      {current : α}
      {edge : ε}
      {before after path : List ε} : current ≠ target →
      current ∉ avoid →
      edges current = before ++ edge :: after →
      (∀ earlier ∈ before, ¬ Reach edges head target (current :: avoid) (head earlier)) →
      FirstPath edges head target (current :: avoid) (head edge) path →
      FirstPath edges head target avoid current (edge :: path)

section Reach

variable {edges : α → List ε} {head : ε → α} {target : α} {current : α}

theorem Reach.weaken {fewer more : List α} (subset : fewer ⊆ more)
    (reach : Reach edges head target more current) : Reach edges head target fewer current := by
  induction reach with
  | here => exact .here
  | step fresh member _ ih => exact .step (fun avoided => fresh (subset avoided)) member ih

variable {avoid : List α}

/--
A route either avoids a given node, or leaves that node for the last time
along one of its edges.
-/
theorem Reach.cut (cutNode : α) (reach : Reach edges head target avoid current) :
    Reach edges head target (cutNode :: avoid) current ∨ ∃ edge ∈ edges cutNode,
        Reach edges head target (cutNode :: avoid) (head edge) := by
  induction reach with
  | here => exact Or.inl .here
  | @step current edge fresh member _ ih =>
    rcases ih with around | through
    · by_cases same : current = cutNode
      · subst current
        exact Or.inr ⟨edge, member, around⟩
      · exact Or.inl (.step (by simp [same, fresh]) member around)
    · exact Or.inr through

theorem Reach.exists_edge (different : current ≠ target)
    (reach : Reach edges head target avoid current) :
    ∃ edge ∈ edges current, Reach edges head target (current :: avoid) (head edge) := by
  cases reach with
  | here => exact (different rfl).elim
  | @step _ edge _ member rest =>
    rcases rest.cut current with around | through
    · exact ⟨edge, member, around⟩
    · exact through

theorem Reach.not_of_mem_avoid (different : current ≠ target) (avoided : current ∈ avoid) :
    ¬ Reach edges head target avoid current := by
  intro reach
  cases reach with
  | here => exact different rfl
  | step fresh _ _ => exact fresh avoided

theorem Reach.not_of_not_cons {failed : α} (fresh : failed ∉ avoid)
    (failedBlocked : ¬ Reach edges head target avoid failed)
    (blocked : ¬ Reach edges head target (failed :: avoid) current) :
    ¬ Reach edges head target avoid current := by
  intro reach
  rcases reach.cut failed with around | ⟨edge, member, through⟩
  · exact blocked around
  · exact failedBlocked (.step fresh member (through.weaken (by simp)))

end Reach

section FirstPath

variable {edges : α → List ε} {head : ε → α} {target : α} {avoid : List α} {current : α}
  {path : List ε}

theorem FirstPath.reach (first : FirstPath edges head target avoid current path) :
    Reach edges head target avoid current := by
  induction first with
  | here => exact .here
  | @step avoid current edge before after path _ fresh shape _ _ ih =>
      exact .step fresh (by rw [shape]; simp) (ih.weaken (by simp))

theorem FirstPath.reach_of_edges {others : α → List ε}
    (first : FirstPath edges head target avoid current path)
    (contained : ∀ node, ∀ edge ∈ edges node, edge ∈ path → edge ∈ others node) :
    Reach others head target avoid current := by
  induction first with
  | here => exact .here
  | @step avoid current edge before after path _ fresh shape _ _ ih =>
      have taken : edge ∈ others current := contained current edge (by rw [shape]; simp) (by simp)
      refine .step fresh taken (Reach.weaken ?_ (ih ?_))
      · simp
      · intro node other member onPath
        exact contained node other member (by simp [onPath])

/-- At most one path takes the first promising edge at every node. -/
theorem FirstPath.unique {left right : List ε}
    (leftFirst : FirstPath edges head target avoid current left)
    (rightFirst : FirstPath edges head target avoid current right) : left = right := by
  induction leftFirst generalizing right with
  | here =>
    cases rightFirst with
    | here => rfl
    | step different _ _ _ _ => exact (different rfl).elim
  | @step avoid current edge before after path different _ shape blocked rest ih =>
      cases rightFirst with
      | here => exact (different rfl).elim
      | @step _ _ otherEdge otherBefore otherAfter otherPath _ _
          otherShape otherBlocked otherRest =>
          -- Neither choice can lie among the edges the other one skipped.
          have split : before ++ edge :: after = otherBefore ++ otherEdge :: otherAfter :=
            shape.symm.trans otherShape
          rcases List.append_eq_append_iff.mp split with
            ⟨middle, otherPrefix, suffix⟩ | ⟨middle, thisPrefix, suffix⟩
          · cases middle with
            | nil =>
              simp only [List.nil_append, List.cons.injEq] at suffix
              obtain ⟨rfl, -⟩ := suffix
              rw [ih otherRest]
            | cons skipped middle =>
              simp only [List.cons_append, List.cons.injEq] at suffix
              obtain ⟨rfl, -⟩ := suffix
              exact (otherBlocked edge (by rw [otherPrefix]; simp) rest.reach).elim
          · cases middle with
            | nil =>
              simp only [List.nil_append, List.cons.injEq] at suffix
              obtain ⟨rfl, -⟩ := suffix
              rw [ih otherRest]
            | cons skipped middle =>
              simp only [List.cons_append, List.cons.injEq] at suffix
              obtain ⟨rfl, -⟩ := suffix
              exact (blocked otherEdge (by rw [thisPrefix]; simp) otherRest.reach).elim

variable {keep : ε → Bool}

theorem Reach.of_filter
    (reach : Reach (fun node => (edges node).filter keep) head target avoid current) :
    Reach edges head target avoid current := by
  induction reach with
  | here => exact .here
  | step fresh member _ ih => exact .step fresh (List.mem_filter.mp member).1 ih

theorem FirstPath.filter (first : FirstPath edges head target avoid current path)
    (kept : ∀ edge ∈ path, keep edge = true) :
    FirstPath (fun node => (edges node).filter keep) head target avoid current path := by
  induction first with
  | here => exact .here
  | @step avoid current edge before after path different fresh shape
      blocked _ ih =>
      have edgeKept : keep edge = true := kept edge (by simp)
      have filtered : (edges current).filter keep =
            before.filter keep ++ edge :: after.filter keep := by simp [shape, edgeKept]
      refine .step different fresh filtered ?_ ?_
      · intro earlier member reach
        exact blocked earlier (List.mem_filter.mp member).1 reach.of_filter
      · exact ih (fun later member => kept later (by simp [member]))

theorem FirstPath.mem_edges (first : FirstPath edges head target avoid current path) {edge : ε}
    (member : edge ∈ path) : ∃ node, edge ∈ edges node := by
  induction first with
  | here => simp at member
  | @step avoid current taken before after path _ _ shape _ _ ih =>
      rcases List.mem_cons.mp member with isTaken | later
      · subst edge
        exact ⟨current, by rw [shape]; simp⟩
      · exact ih later

end FirstPath

section Search

variable [DecidableEq α] {edges : α → List ε} {head : ε → α} {target : α}

/-- Every marked node is on the current stack or cannot reach the target. -/
def Marked (edges : α → List ε) (head : ε → α) (target : α) (stack visited : List α) : Prop :=
  stack ⊆ visited ∧ ∀ node ∈ visited, node ∈ stack ∨ ¬ Reach edges head target stack node

structure SearchSpec (edges : α → List ε) (head : ε → α) (target : α) (stack visited : List α)
    (current : α) (result : Option (List ε) × List α) : Prop where
  found : ∀ path, result.1 = some path → FirstPath edges head target stack current path
  failed : result.1 = none → ¬ Reach edges head target stack current ∧ visited ⊆ result.2 ∧
        Marked edges head target stack result.2

/-- The number of unmarked nodes that have outgoing edges. -/
def unmarked (sources : Finset α) (visited : List α) : Nat := (sources.filter (· ∉ visited)).card

variable {sources : Finset α}

theorem unmarked_mono {fewer more : List α} (subset : fewer ⊆ more) :
    unmarked sources more ≤ unmarked sources fewer := by
  apply Finset.card_le_card
  intro node member
  simp only [Finset.mem_filter] at member ⊢
  exact ⟨member.1, fun marked => member.2 (subset marked)⟩

theorem unmarked_cons_lt {visited : List α} {node : α} (member : node ∈ sources)
    (fresh : node ∉ visited) : unmarked sources (node :: visited) < unmarked sources visited := by
  apply Finset.card_lt_card
  rw [Finset.ssubset_iff_of_subset]
  · exact ⟨node, by simp [member, fresh], by simp⟩
  · intro other otherMember
    simp only [Finset.mem_filter, List.mem_cons, not_or] at otherMember ⊢
    exact ⟨otherMember.1, otherMember.2.2⟩

/--
Trying edges in order, when every single attempt meets its specification,
either finds the first promising edge or refutes all of them.
-/
theorem firstSuccess_spec {visit : List α → ε → Option (List ε) × List α} {stack : List α}
    {bound : Nat} (attempt : ∀ visited edge, Marked edges head target stack visited →
        unmarked sources visited < bound → SearchSpec edges head target stack visited (head edge)
          (visit visited edge))
    (candidates : List ε) (visited : List α) (marked : Marked edges head target stack visited)
    (bounded : unmarked sources visited < bound) :
    (∀ path, (firstSuccess visit visited candidates).1 = some path → ∃ before edge after rest,
        candidates = before ++ edge :: after ∧ path = edge :: rest ∧ (∀ earlier ∈ before,
            ¬ Reach edges head target stack (head earlier)) ∧
          FirstPath edges head target stack (head edge) rest) ∧
      ((firstSuccess visit visited candidates).1 = none → (∀ edge ∈ candidates,
          ¬ Reach edges head target stack (head edge)) ∧
          visited ⊆ (firstSuccess visit visited candidates).2 ∧ Marked edges head target stack
            (firstSuccess visit visited candidates).2) := by
  induction candidates generalizing visited with
  | nil => simp [firstSuccess, marked]
  | cons edge rest ih =>
    have spec := attempt visited edge marked bounded
    simp only [firstSuccess]
    rcases outcome : visit visited edge with ⟨found, after⟩
    rw [outcome] at spec
    cases found with
    | some tail =>
      refine ⟨?_, by simp⟩
      intro path same
      simp only [Option.some.injEq] at same
      exact ⟨[], edge, rest, tail, rfl, same.symm, by simp, spec.found tail rfl⟩
    | none =>
      obtain ⟨edgeBlocked, grows, markedAfter⟩ := spec.failed rfl
      obtain ⟨later, blockedLater⟩ := ih after markedAfter
          (lt_of_le_of_lt (unmarked_mono grows) bounded)
      constructor
      · intro path same
        obtain ⟨before, taken, remaining, tail, shape, pathShape, blocked, first⟩ := later path same
        refine ⟨edge :: before, taken, remaining, tail, by rw [shape]; rfl, pathShape, ?_, first⟩
        intro earlier member
        rcases List.mem_cons.mp member with isEdge | inBefore
        · rw [isEdge]
          exact edgeBlocked
        · exact blocked earlier inBefore
      · intro same
        obtain ⟨blocked, growsLater, markedLater⟩ := blockedLater same
        refine ⟨?_, List.Subset.trans grows growsLater, markedLater⟩
        intro candidate member
        rcases List.mem_cons.mp member with isEdge | inRest
        · rw [isEdge]
          exact edgeBlocked
        · exact blocked candidate inRest

/--
With fuel for every unmarked node that has edges, a search returns the first
path around its stack, or refutes every route and keeps its marks justified.
-/
theorem search_spec (covers : ∀ node, edges node ≠ [] → node ∈ sources) (fuel : Nat)
    (stack visited : List α) (current : α) (marked : Marked edges head target stack visited)
    (bounded : unmarked sources visited < fuel) : SearchSpec edges head target stack visited current
      (search edges head target fuel visited current) := by
  induction fuel generalizing stack visited current with
  | zero => exact (Nat.not_lt_zero _ bounded).elim
  | succ fuel ih =>
    unfold search
    by_cases isTarget : current = target
    · subst current
      rw [if_pos rfl]
      exact {
        found := by
          intro path same
          simp only [Option.some.injEq] at same
          subst path
          exact .here
        failed := by simp
      }
    rw [if_neg isTarget]
    by_cases seen : current ∈ visited
    · rw [if_pos seen]
      exact {
        found := by simp
        failed := by
          intro _
          refine ⟨?_, List.Subset.refl visited, marked⟩
          rcases marked.2 current seen with onStack | blocked
          · exact Reach.not_of_mem_avoid isTarget onStack
          · exact blocked
      }
    rw [if_neg seen]
    have fresh : current ∉ stack := fun onStack => seen (marked.1 onStack)
    have markedInside : Marked edges head target (current :: stack) (current :: visited) := by
      refine ⟨List.cons_subset_cons current marked.1, ?_⟩
      intro node member
      rcases List.mem_cons.mp member with isCurrent | older
      · exact Or.inl (by simp [isCurrent])
      · rcases marked.2 node older with onStack | blocked
        · exact Or.inl (by simp [onStack])
        · exact Or.inr fun reach => blocked (reach.weaken (by simp))
    -- A node without edges needs no fuel for its (empty) loop.
    by_cases noEdges : edges current = []
    · rw [noEdges]
      exact {
        found := by simp [firstSuccess]
        failed := by
          intro _
          have blocked : ¬ Reach edges head target stack current := by
            intro reach
            obtain ⟨edge, member, _⟩ := reach.exists_edge isTarget
            rw [noEdges] at member
            simp at member
          refine ⟨blocked, by simp [firstSuccess], fun node member => by
              simp [firstSuccess, marked.1 member], ?_⟩
          intro node member
          simp only [firstSuccess, List.mem_cons] at member
          rcases member with isCurrent | older
          · rw [isCurrent]
            exact Or.inr blocked
          · exact marked.2 node older
      }
    have boundedInside : unmarked sources (current :: visited) < fuel :=
      lt_of_lt_of_le (unmarked_cons_lt (covers current noEdges) seen) (Nat.le_of_lt_succ bounded)
    obtain ⟨foundEdge, refuted⟩ := firstSuccess_spec (fun visited edge markedThen boundedThen =>
          ih (current :: stack) visited (head edge) markedThen boundedThen)
        (edges current) (current :: visited) markedInside boundedInside
    exact {
      found := by
        intro path same
        obtain ⟨before, edge, after, rest, shape, pathShape, blocked, first⟩ := foundEdge path same
        rw [pathShape]
        exact .step isTarget fresh shape blocked first
      failed := by
        intro same
        obtain ⟨blocked, grows, markedAfter⟩ := refuted same
        have currentBlocked : ¬ Reach edges head target stack current := by
          intro reach
          obtain ⟨edge, member, onward⟩ := reach.exists_edge isTarget
          exact blocked edge member onward
        refine ⟨currentBlocked, fun node member =>
          grows (by simp [member]), fun node member => markedAfter.1 (by simp [member]), ?_⟩
        intro node member
        rcases markedAfter.2 node member with onStack | nodeBlocked
        · rcases List.mem_cons.mp onStack with isCurrent | older
          · rw [isCurrent]
            exact Or.inr currentBlocked
          · exact Or.inl older
        · exact Or.inr (Reach.not_of_not_cons fresh currentBlocked nodeBlocked)
    }

variable {fuel : Nat}

theorem search_spec_fresh (covers : ∀ node, edges node ≠ [] → node ∈ sources)
    (enough : sources.card < fuel) (current : α) :
    SearchSpec edges head target [] [] current (search edges head target fuel [] current) :=
  search_spec covers fuel [] [] current ⟨List.Subset.refl [], by simp⟩
    (by simpa [unmarked] using enough)

/-- Search from a node with nothing marked. -/
def findPath (edges : α → List ε) (head : ε → α) (target : α) (fuel : Nat) (current : α) :
    Option (List ε) :=
  (search edges head target fuel [] current).1

variable {current : α}

theorem findPath_eq_some_iff (covers : ∀ node, edges node ≠ [] → node ∈ sources)
    (enough : sources.card < fuel) {path : List ε} :
    findPath edges head target fuel current = some path ↔
      FirstPath edges head target [] current path := by
  have spec : SearchSpec edges head target [] [] current _ :=
    search_spec_fresh covers enough current
  constructor
  · intro found
    exact spec.found path found
  · intro first
    cases result : findPath edges head target fuel current with
    | none => exact ((spec.failed result).1 first.reach).elim
    | some other => rw [(spec.found other result).unique first]

theorem findPath_eq_none_iff (covers : ∀ node, edges node ≠ [] → node ∈ sources)
    (enough : sources.card < fuel) :
    findPath edges head target fuel current = none ↔ ¬ Reach edges head target [] current := by
  have spec : SearchSpec edges head target [] [] current _ :=
    search_spec_fresh covers enough current
  constructor
  · intro missing
    exact (spec.failed missing).1
  · intro blocked
    cases result : findPath edges head target fuel current with
    | none => rfl
    | some path => exact (blocked (spec.found path result).reach).elim

end Search

end TypeBridge.Library.PathSearch
