import Mathlib

namespace TypeBridge.Library.Worklist

/-!
# Worklist closures

`closure` collects everything reachable from a list of pending elements: it
takes one element at a time, skips those seen before, and otherwise adds its
successors to the list. An element without known successors stops it.

The number of rounds is bounded by the pending elements and the successors of
the elements not seen yet, so with that much fuel the result is closed under
successors and holds nothing unreachable.
-/

variable {α ε : Type} [DecidableEq α]

/-- Collect the pending elements and everything reachable from them. -/
def closure (successors : α → Except ε (List α)) : Nat → List α → Finset α → Except ε (Finset α)
  | 0, _, seen => .ok seen
  | _ + 1, [], seen => .ok seen
  | fuel + 1, element :: pending, seen =>
      match successors element with
      | .error failure => .error failure
      | .ok next =>
          if element ∈ seen then closure successors fuel pending seen
          else closure successors fuel (next ++ pending) (insert element seen)

section Spec

variable {successors : α → Except ε (List α)} {step : α → List α}

/-- What a closure that ran to its end satisfies. -/
structure ClosureSpec (step : α → List α) (pending : List α) (seen result : Finset α) : Prop where
  seenKept : seen ⊆ result
  pendingTaken : ∀ element ∈ pending, element ∈ result
  closed : ∀ element ∈ result, element ∉ seen → ∀ next ∈ step element, next ∈ result
  reachable : ∀ element ∈ result, element ∉ seen → ∃ start ∈ pending,
        Relation.ReflTransGen (fun left right => right ∈ step left)
          start element

/-- The rounds a closure may still take. -/
def rounds (step : α → List α) (elements : Finset α) (pending : List α) (seen : Finset α) : Nat :=
  pending.length + ∑ element ∈ elements \ seen, (step element).length

variable {elements : Finset α}

theorem rounds_insert (step : α → List α) {seen : Finset α} {element : α} (pending : List α)
    (known : element ∈ elements) (fresh : element ∉ seen) :
    rounds step elements (step element ++ pending) (insert element seen) + 1 =
      rounds step elements (element :: pending) seen := by
  have member : element ∈ elements \ seen := Finset.mem_sdiff.mpr ⟨known, fresh⟩
  have erased : elements \ insert element seen = (elements \ seen).erase element := by
    ext other
    simp only [Finset.mem_sdiff, Finset.mem_insert, Finset.mem_erase]
    tauto
  have total := Finset.add_sum_erase (elements \ seen) (fun other => (step other).length) member
  simp only [rounds, erased, List.length_append, List.length_cons]
  omega

variable (total : ∀ element ∈ elements, successors element = .ok (step element))
include total

/--
With enough fuel a closure over known elements ends with the elements
reachable from the pending ones.
-/
theorem closure_spec (inside : ∀ element ∈ elements, ∀ next ∈ step element, next ∈ elements)
    (fuel : Nat) (pending : List α) (seen : Finset α)
    (known : ∀ element ∈ pending, element ∈ elements)
    (enough : rounds step elements pending seen < fuel) :
    ∃ result, closure successors fuel pending seen = .ok result ∧
        ClosureSpec step pending seen result := by
  induction fuel generalizing pending seen with
  | zero => omega
  | succ fuel ih =>
    cases pending with
    | nil =>
      refine ⟨seen, rfl, ?_⟩
      exact {
        seenKept := Finset.Subset.refl seen
        pendingTaken := by simp
        closed := fun _ member fresh => (fresh member).elim
        reachable := fun _ member fresh => (fresh member).elim
      }
    | cons element pending =>
      have elementKnown := known element (by simp)
      have pendingKnown : ∀ other ∈ pending, other ∈ elements :=
        fun other member => known other (by simp [member])
      simp only [closure, total element elementKnown]
      by_cases old : element ∈ seen
      · rw [if_pos old]
        have shorter : rounds step elements pending seen < fuel := by
          simp only [rounds, List.length_cons] at enough ⊢
          omega
        obtain ⟨result, run, spec⟩ := ih pending seen pendingKnown shorter
        refine ⟨result, run, { spec with
          pendingTaken := ?_
          reachable := ?_ }⟩
        · intro other member
          rcases List.mem_cons.mp member with isElement | later
          · rw [isElement]
            exact spec.seenKept old
          · exact spec.pendingTaken other later
        · intro other member fresh
          obtain ⟨start, startMember, path⟩ := spec.reachable other member fresh
          exact ⟨start, by simp [startMember], path⟩
      · rw [if_neg old]
        have used := rounds_insert step pending elementKnown old
        have nextKnown : ∀ other ∈ step element ++ pending, other ∈ elements := by
          intro other member
          rcases List.mem_append.mp member with next | later
          · exact inside element elementKnown other next
          · exact pendingKnown other later
        obtain ⟨result, run, spec⟩ := ih (step element ++ pending)
            (insert element seen) nextKnown (by omega)
        have elementTaken : element ∈ result := spec.seenKept (Finset.mem_insert_self element seen)
        refine ⟨result, run, ?_⟩
        exact {
          seenKept := (Finset.subset_insert element seen).trans
            spec.seenKept
          pendingTaken := by
            intro other member
            rcases List.mem_cons.mp member with isElement | later
            · rw [isElement]
              exact elementTaken
            · exact spec.pendingTaken other (by simp [later])
          closed := by
            intro other member fresh next isNext
            by_cases isElement : other = element
            · subst other
              exact spec.pendingTaken next (by simp [isNext])
            · exact spec.closed other member (by simp [isElement, fresh]) next isNext
          reachable := by
            intro other member fresh
            by_cases isElement : other = element
            · subst other
              exact ⟨element, by simp, .refl⟩
            · obtain ⟨start, startMember, path⟩ :=
                spec.reachable other member (by simp [isElement, fresh])
              rcases List.mem_append.mp startMember with next | later
              · exact ⟨element, by simp, .head next path⟩
              · exact ⟨start, by simp [later], path⟩
        }

theorem known_of_closure
    (unknown : ∀ element ∉ elements, ∃ failure, successors element = .error failure) (fuel : Nat)
    (pending : List α) (seen : Finset α) (enough : rounds step elements pending seen < fuel)
    {result : Finset α} (run : closure successors fuel pending seen = .ok result) :
    ∀ element ∈ pending, element ∈ elements := by
  induction fuel generalizing pending seen with
  | zero => omega
  | succ fuel ih =>
    cases pending with
    | nil => simp
    | cons element pending =>
      by_cases elementKnown : element ∈ elements
      · simp only [closure, total element elementKnown] at run
        have pendingKnown : ∀ other ∈ pending, other ∈ elements := by
          by_cases old : element ∈ seen
          · rw [if_pos old] at run
            apply ih pending seen _ run
            simp only [rounds, List.length_cons] at enough ⊢
            omega
          · rw [if_neg old] at run
            have used := rounds_insert step pending elementKnown old
            intro other member
            exact ih _ _ (by omega) run other (by simp [member])
        intro other member
        rcases List.mem_cons.mp member with isElement | later
        · rw [isElement]
          exact elementKnown
        · exact pendingKnown other later
      · obtain ⟨failure, failed⟩ := unknown element elementKnown
        simp [closure, failed] at run

end Spec

end TypeBridge.Library.Worklist
