import TypeBridge.Schema.RoundTrip

namespace TypeBridge.Schema

open Library Library.ReadyOrder

/-!
# The inverse and the planner

The inverse of a delta reverses its operations; the delta back is planned
anew. Both define and undefine the same facts in the same order, because
removals are planned as reversed definitions. Redefinitions are planned
prerequisites first in both directions, so the two lists agree exactly when
the planner's order of the redefined facts towards the target is the reverse
of its order towards the source.
-/

/--
The redefined facts have a listing that is the planner's order towards the
target, and whose reverse is its order towards the source.
-/
def ReversedOrder (source target : Inventory) : Prop :=
  ∃ listing, LeastReady id (DependsOn target) (redefinedIds source target).toFinset
        listing ∧
      LeastReady id (DependsOn source) (redefinedIds target source).toFinset
        listing.reverse

theorem eq_of_stored {facts : Inventory} {left right : List SchemaFact}
    (leftStored : ∀ fact ∈ left, facts[fact.id]? = some fact)
    (rightStored : ∀ fact ∈ right, facts[fact.id]? = some fact)
    (sameIds : left.map SchemaFact.id = right.map SchemaFact.id) : left = right := by
  induction left generalizing right with
  | nil =>
    cases right with
    | nil => rfl
    | cons first rest => cases sameIds
  | cons first rest ih =>
    cases right with
    | nil => cases sameIds
    | cons other others =>
      rw [List.map_cons, List.map_cons, List.cons.injEq] at sameIds
      have stored := leftStored first (by simp)
      rw [sameIds.1, rightStored other (by simp)] at stored
      rw [Option.some.inj stored, ih (fun fact member => leftStored fact (by simp [member]))
        (fun fact member => rightStored fact (by simp [member])) sameIds.2]

variable {source target : Inventory}

theorem eq_of_replaced {left right : List Replacement}
    (leftExpected : ∀ change ∈ left, source[change.expected.id]? = some change.expected)
    (leftReplacement : ∀ change ∈ left, target[change.expected.id]? = some change.replacement)
    (rightExpected : ∀ change ∈ right, source[change.expected.id]? = some change.expected)
    (rightReplacement : ∀ change ∈ right, target[change.expected.id]? = some change.replacement)
    (sameIds : left.map (·.expected.id) = right.map (·.expected.id)) : left = right := by
  induction left generalizing right with
  | nil =>
    cases right with
    | nil => rfl
    | cons first rest => cases sameIds
  | cons first rest ih =>
    cases right with
    | nil => cases sameIds
    | cons other others =>
      rw [List.map_cons, List.map_cons, List.cons.injEq] at sameIds
      have expected := leftExpected first (by simp)
      have replacement := leftReplacement first (by simp)
      rw [sameIds.1, rightExpected other (by simp)] at expected
      rw [sameIds.1, rightReplacement other (by simp)] at replacement
      have same : first = other := by
        cases first
        cases other
        simp only [Option.some.injEq] at expected replacement
        subst expected replacement
        rfl
      rw [same, ih (fun change member => leftExpected change (by simp [member]))
        (fun change member => leftReplacement change (by simp [member]))
        (fun change member => rightExpected change (by simp [member])) (fun change member =>
          rightReplacement change (by simp [member]))
        sameIds.2]

theorem Transition.operations_eq (left right : Transition source target)
    (sameOrder : left.replacedIds = right.replacedIds) : left.operations = right.operations := by
  have defined : left.defined = right.defined := eq_of_stored left.definedStored right.definedStored
      (left.definedOrder.unique Function.injective_id right.definedOrder)
  have removed : left.removed = right.removed := by
    apply eq_of_stored left.removedStored right.removedStored
    apply List.reverse_injective
    exact left.removedOrder.unique Function.injective_id right.removedOrder
  have replaced : left.replaced = right.replaced :=
    eq_of_replaced left.expectedStored left.replacementStored
      right.expectedStored right.replacementStored sameOrder
  rw [Transition.operations, Transition.operations, defined, removed, replaced]

def replacedBy (operations : List SchemaOperation) : List SchemaFactId :=
  operations.filterMap fun
    | .redefine change => some change.expected.id
    | _ => none

theorem Transition.replacedBy_operations (transition : Transition source target) :
    replacedBy transition.operations = transition.replacedIds := by
  simp only [replacedBy, Transition.operations, List.filterMap_append,
    List.filterMap_map, Transition.replacedIds]
  have defined : ∀ facts : List SchemaFact,
        facts.filterMap (fun _ => (none : Option SchemaFactId)) = [] := by simp
  simp [defined, List.filterMap_eq_map']

section Diffed

variable {Bytes Digest : Type} {codec : Codec Bytes Digest} [DecidableEq Digest]
  {source target : DeclaredSchema codec} {context : ManagedDeltaContext}
  {delta reverse : SchemaDelta Digest} {transition : Transition source.facts target.facts}
  {backward : Transition target.facts source.facts}

theorem Diffed.inverse_operations_eq_iff (known : Diffed source target context delta transition)
    (knownBack : Diffed target source context reverse backward) :
    transition.inverse.operations = reverse.operations ↔
      ReversedOrder source.facts target.facts := by
  have inverseIds : transition.inverse.replacedIds = transition.replacedIds.reverse :=
    transition.swapped_ids
  constructor
  · intro same
    have ids : backward.replacedIds = transition.replacedIds.reverse := by
      rw [← inverseIds, ← backward.replacedBy_operations,
        knownBack.planned, ← same, Transition.replacedBy_operations]
    refine ⟨transition.replacedIds, known.replacedOrder, ?_⟩
    rw [← ids]
    exact knownBack.replacedOrder
  · intro reversed
    obtain ⟨listing, forwardOrder, backwardOrder⟩ := reversed
    have forwardIds : transition.replacedIds = listing :=
      known.replacedOrder.unique Function.injective_id forwardOrder
    have backwardIds : backward.replacedIds = listing.reverse :=
      knownBack.replacedOrder.unique Function.injective_id backwardOrder
    rw [← knownBack.planned]
    apply Transition.operations_eq
    rw [inverseIds, forwardIds, backwardIds]

/-- At most one redefinition keeps its place. -/
theorem Diffed.reversedOrder_of_length_le_one
    (known : Diffed source target context delta transition)
    (knownBack : Diffed target source context reverse backward)
    (single : (redefinedIds source.facts target.facts).length ≤ 1) :
    ReversedOrder source.facts target.facts := by
  have listed : ∀ id, id ∈ backward.replacedIds ↔ id ∈ transition.replacedIds := by
    intro id
    rw [backward.mem_replacedIds, transition.mem_replacedIds]
    constructor <;> exact fun changed => ⟨changed.2.1, changed.1, changed.2.2.symm⟩
  have permutation : backward.replacedIds.Perm transition.replacedIds :=
    (List.perm_ext_iff_of_nodup backward.replacedDistinct transition.replacedDistinct).mpr listed
  have short : transition.replacedIds.length ≤ 1 := by
    have distinctIds : (redefinedIds source.facts target.facts).Nodup :=
      (Std.ExtTreeMap.nodup_keys).filter _
    have same : transition.replacedIds.Perm (redefinedIds source.facts target.facts) :=
      (List.perm_ext_iff_of_nodup transition.replacedDistinct
        distinctIds).mpr transition.replacedExact
    rw [same.length_eq]
    exact single
  refine ⟨transition.replacedIds, known.replacedOrder, ?_⟩
  have reversed : transition.replacedIds.reverse = backward.replacedIds := by
    match shape : transition.replacedIds, short with
    | [], _ =>
      rw [shape] at permutation
      rw [List.perm_nil.mp permutation]
      rfl
    | [only], _ =>
      rw [shape] at permutation
      rw [List.perm_singleton.mp permutation]
      rfl
  rw [reversed]
  exact knownBack.replacedOrder

end Diffed

end TypeBridge.Schema
