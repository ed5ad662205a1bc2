import TypeBridge.Schema.Replay

namespace TypeBridge.Schema

open Library Library.Components Library.ReadyOrder
open Library.Checked hiding get

/-!
# The planner's operations form a transition

A resolved schema has well-founded dependencies, so every component the
planner orders is a single fact. Its operation list is then a `Transition`:
definitions and removals in least-ready order, and replacements in the
least-ready order of the target.
-/

/-! ## Well-founded dependencies -/

def baseRank (roleRank : RoleId → Nat) : SchemaFactId → Nat
  | .type _ => 0
  | .struct _ => 0
  | .sub _ => 1
  | .value _ => 1
  | .owns _ => 2
  | .relates id => 2 + roleRank id.role
  | .plays id => 3 + roleRank id.role
  | .annotated _ => 0
  | .function _ => 1

def factRank (roleRank : RoleId → Nat) : SchemaFactId → Nat
  | .annotated id => baseRank roleRank (subjectFactId id.subject) + 1
  | id => baseRank roleRank id

variable {facts : Inventory}

theorem founded_of_role_rank (keyed : Inventory.Keyed facts) {roleRank : RoleId → Nat}
    (ranked : ∀ (fact : RelatesFact) (parent : RoleId), .relates fact ∈ facts.values →
        fact.specializes = some parent → roleRank parent < roleRank fact.id.role) :
    Founded facts := by
  refine ⟨factRank roleRank, ?_⟩
  rintro id needed ⟨fact, prerequisites, stored, computed, member⟩
  have named := keyed id fact stored
  subst id
  have requires := (mem_of_dependenciesFor computed).mp member
  cases requires with
  | direct listed =>
    cases fact with
    | annotated fact =>
      simp only [directDependencies, List.mem_singleton] at listed
      subst needed
      cases subject : fact.id.subject <;> simp [factRank, SchemaFact.id, subject, subjectFactId]
    | relates fact =>
      cases specialization : fact.specializes with
      | none =>
        simp only [directDependencies, specialization, Option.map_none, Option.toList_none,
          List.mem_singleton] at listed
        subst needed
        simp [factRank, baseRank, SchemaFact.id]
      | some parent =>
        have lower := ranked fact parent (Inventory.mem_values.mpr ⟨_, stored⟩) specialization
        simp only [directDependencies, specialization,
          Option.map_some, Option.toList_some, List.mem_cons, List.not_mem_nil, or_false] at listed
        rcases listed with rfl | rfl
        · simp [factRank, baseRank, SchemaFact.id]
        · simpa [factRank, baseRank, SchemaFact.id, relatesId] using lower
    | _ =>
      simp only [directDependencies, List.mem_cons, List.not_mem_nil, or_false] at listed
      all_goals
        rcases listed with rfl | rfl | rfl <;>
          simp [factRank, baseRank, SchemaFact.id, relatesId]
  | path _ _ _ =>
    simp [factRank, baseRank, SchemaFact.id]
    omega
  | @reference _ label _ _ only =>
    have declares : needed.declaresLabel label = true := by
      have candidate : needed ∈ labelCandidates facts label := by
        rw [only]
        simp
      exact ((mem_labelCandidates keyed).mp candidate).2
    cases needed <;> simp_all [SchemaFactId.declaresLabel, factRank, baseRank, SchemaFact.id]

/-! ## Planned lists -/

theorem newDefine_single (fact : SchemaFact) :
    SchemaOperation.newDefine [fact] = .ok (.define (.single fact)) := by
  unfold SchemaOperation.newDefine
  simp [maxCanonicalCollectionLen, DefinedFacts.single]

variable {target : Inventory}

theorem exists_storedFacts {facts : Inventory} (keyed : Inventory.Keyed facts)
    (listing : List SchemaFactId) (stored : ∀ id ∈ listing, id ∈ facts) :
    ∃ listed : List SchemaFact, listed.map SchemaFact.id = listing ∧
        ∀ fact ∈ listed, facts[fact.id]? = some fact := by
  induction listing with
  | nil => exact ⟨[], rfl, by simp⟩
  | cons id rest ih =>
    obtain ⟨listed, ids, found⟩ := ih fun other member => stored other (by simp [member])
    obtain ⟨fact, isFact⟩ := Inventory.mem_iff_exists.mp (stored id (by simp))
    obtain rfl := keyed id fact isFact
    refine ⟨fact :: listed, by simp [ids], List.forall_mem_cons.mpr ⟨isFact, found⟩⟩

theorem mapM_newDefine (keyed : Inventory.Keyed target) (listing : List SchemaFactId)
    (stored : ∀ id ∈ listing, id ∈ target) :
    ∃ defined : List SchemaFact, defined.map SchemaFact.id = listing ∧
        (∀ fact ∈ defined, target[fact.id]? = some fact) ∧ (listing.map fun id => [id]).mapM
            (fun component => SchemaOperation.newDefine (component.filterMap (target[·]?))) =
          .ok (defined.map fun fact => .define (.single fact)) := by
  obtain ⟨defined, rfl, found⟩ := exists_storedFacts keyed listing stored
  refine ⟨defined, rfl, found, ?_⟩
  rw [mapM_eq_ok, List.map_map, List.forall₂_map_left_iff, List.forall₂_map_right_iff,
    List.forall₂_same]
  intro fact member
  simp only [Function.comp_apply, List.filterMap_cons, found fact member, List.filterMap_nil,
    newDefine_single]

variable {source : Inventory}

theorem mapM_newRedefine (sourceKeyed : Inventory.Keyed source)
    (targetKeyed : Inventory.Keyed target) (listing : List SchemaFactId)
    (changed : ∀ id ∈ listing, id ∈ source ∧ id ∈ target ∧ source[id]? ≠ target[id]?) :
    ∃ replaced : List Replacement, replaced.map (·.expected.id) = listing ∧ (∀ change ∈ replaced,
          source[change.expected.id]? = some change.expected ∧
            target[change.expected.id]? = some change.replacement) ∧ (listing.filterMap fun id =>
          (source[id]?).bind fun expected => (target[id]?).map fun replacement =>
              (expected, replacement)).mapM
            (fun pair => SchemaOperation.newRedefine pair.1 pair.2) =
          .ok (replaced.map .redefine) := by
  induction listing with
  | nil => exact ⟨[], rfl, by simp, rfl⟩
  | cons id rest ih =>
    obtain ⟨replaced, ids, facts, run⟩ := ih fun other member => changed other (by simp [member])
    obtain ⟨inSource, inTarget, different⟩ := changed id (by simp)
    obtain ⟨expected, expectedFound⟩ := Inventory.mem_iff_exists.mp inSource
    obtain ⟨replacement, replacementFound⟩ := Inventory.mem_iff_exists.mp inTarget
    have expectedNamed := sourceKeyed id expected expectedFound
    have sameIdentity : expected.id = replacement.id := expectedNamed.trans
        (targetKeyed id replacement replacementFound).symm
    have unequal : expected ≠ replacement := by
      rintro rfl
      exact different (expectedFound.trans replacementFound.symm)
    refine ⟨⟨expected, replacement, sameIdentity, unequal⟩ :: replaced,
      by simp [expectedNamed, ids], ?_, ?_⟩
    · intro change member
      rcases List.mem_cons.mp member with rfl | later
      · simp only [expectedNamed]
        exact ⟨expectedFound, replacementFound⟩
      · exact facts change later
    · rw [List.filterMap_cons]
      simp only [expectedFound, replacementFound, Option.bind_some, Option.map_some]
      rw [List.mapM_cons, run]
      simp only [SchemaOperation.newRedefine, sameIdentity, unequal, ↓reduceDIte]
      rfl

theorem filterMap_undefine (keyed : Inventory.Keyed source) (listing : List SchemaFactId)
    (stored : ∀ id ∈ listing, id ∈ source) :
    ∃ removed : List SchemaFact, removed.map SchemaFact.id = listing ∧
        (∀ fact ∈ removed, source[fact.id]? = some fact) ∧
        (listing.filterMap fun id => (source[id]?).map .undefine) =
          removed.map SchemaOperation.undefine := by
  obtain ⟨removed, rfl, found⟩ := exists_storedFacts keyed listing stored
  refine ⟨removed, rfl, found, ?_⟩
  rw [List.filterMap_map, ← List.filterMap_eq_map]
  refine List.filterMap_congr fun fact member => ?_
  simp [found fact member]

variable {graph : FactDependencyGraph}

theorem orderedComponents_founded (keyed : Inventory.Keyed facts) (founded : Founded facts)
    (built : FactDependencyGraph.fromFacts facts.values = .ok graph) (nodes : List SchemaFactId)
    (distinct : nodes.Nodup) :
    ∃ listing : List SchemaFactId, LeastReady id (DependsOn facts) nodes.toFinset listing ∧
        orderedComponents graph.prerequisites nodes = listing.map fun id => [id] := by
  obtain ⟨rank, ranked⟩ := founded
  have same : (fun node needed => needed ∈ graph.prerequisites node) = DependsOn facts := by
    funext node needed
    exact propext (FactDependencyGraph.mem_prerequisites_iff keyed built)
  have graphRanked : Ranked graph.prerequisites nodes rank := by
    intro node _ dependency member _
    exact ranked node dependency ((FactDependencyGraph.mem_prerequisites_iff keyed built).mp member)
  obtain ⟨listing, order, components⟩ := orderedComponents_ranked graphRanked distinct
  rw [same] at order
  refine ⟨listing, ?_, components⟩
  -- The two equality tests of identities agree.
  convert order

/-- Plans without function changes compare equal functions. -/
theorem sameFunctions_of_unchanged (sourceKeyed : Inventory.Keyed source)
    (targetKeyed : Inventory.Keyed target) (unchanged : ¬ changesFunction source target = true) :
    SameFunctions source target := by
  have plain : ∀ id, id ∈ addedIds source target ∨ id ∈ removedIds source target ∨
        id ∈ redefinedIds source target →
        ((source[id]?).or target[id]?).any SchemaFact.isFunction = false := by
    intro id listed
    by_contra function
    apply unchanged
    rw [changesFunction, List.any_eq_true]
    refine ⟨id, ?_, by simpa using function⟩
    simpa [or_assoc] using listed
  intro function
  rw [sourceKeyed.mem_values, targetKeyed.mem_values]
  have same : source[(SchemaFact.function function).id]? = some (.function function) ∨
      target[(SchemaFact.function function).id]? = some (.function function) →
      source[(SchemaFact.function function).id]? = target[(SchemaFact.function function).id]? := by
    intro stored
    by_contra different
    have listed : (SchemaFact.function function).id ∈ addedIds source target ∨
          (SchemaFact.function function).id ∈ removedIds source target ∨
          (SchemaFact.function function).id ∈
            redefinedIds source target := by
      rw [mem_addedIds, mem_removedIds, mem_redefinedIds]
      by_cases inSource : (SchemaFact.function function).id ∈ source <;>
        by_cases inTarget : (SchemaFact.function function).id ∈ target
      · exact Or.inr (Or.inr ⟨inSource, inTarget, different⟩)
      · exact Or.inr (Or.inl ⟨inSource, inTarget⟩)
      · exact Or.inl ⟨inTarget, inSource⟩
      · rw [Std.ExtTreeMap.getElem?_eq_none inSource,
          Std.ExtTreeMap.getElem?_eq_none inTarget] at different
        exact (different rfl).elim
    have notFunction := plain _ listed
    cases found : source[(SchemaFact.function function).id]? with
    | none =>
      rw [found] at stored notFunction
      have inTarget := stored.resolve_left (by simp)
      rw [inTarget] at notFunction
      simp [SchemaFact.isFunction] at notFunction
    | some fact =>
      rw [found] at notFunction
      have named := sourceKeyed _ fact found
      cases fact <;> simp_all [SchemaFact.id, SchemaFact.isFunction]
  constructor
  · intro stored
    rw [← same (Or.inl stored)]
    exact stored
  · intro stored
    rw [same (Or.inr stored)]
    exact stored

theorem Inventory.nodup_keys (facts : Inventory) : facts.keys.Nodup := by
  rw [← Std.ExtTreeMap.map_fst_toList_eq_keys]
  exact OrderedMap.nodup_keys facts

theorem planDefinitions_spec (source : Inventory) (keyed : Inventory.Keyed target)
    (founded : Founded target) (built : FactDependencyGraph.fromFacts target.values = .ok graph) :
    ∃ defined : List SchemaFact, (∀ fact ∈ defined, target[fact.id]? = some fact) ∧
        LeastReady id (DependsOn target) (addedIds source target).toFinset
          (defined.map SchemaFact.id) ∧ planDefinitions graph source target =
          .ok (defined.map fun fact => .define (.single fact)) := by
  obtain ⟨listing, order, components⟩ :=
    orderedComponents_founded keyed founded built (addedIds source target)
      (target.nodup_keys.filter _)
  obtain ⟨defined, ids, stored, run⟩ := mapM_newDefine keyed listing (by
      intro id member
      have listed := order.mem_iff.mp member
      rw [List.mem_toFinset, mem_addedIds] at listed
      exact listed.1)
  refine ⟨defined, stored, ids ▸ order, ?_⟩
  rw [planDefinitions, components]
  exact run

theorem planReplacements_spec (sourceKeyed : Inventory.Keyed source)
    (targetKeyed : Inventory.Keyed target) (founded : Founded target)
    (built : FactDependencyGraph.fromFacts target.values = .ok graph) :
    ∃ replaced : List Replacement, (∀ change ∈ replaced,
        source[change.expected.id]? = some change.expected ∧
          target[change.expected.id]? = some change.replacement) ∧
        LeastReady id (DependsOn target) (redefinedIds source target).toFinset
          (replaced.map (·.expected.id)) ∧ planReplacements graph source target =
          .ok (replaced.map .redefine) := by
  obtain ⟨listing, order, components⟩ := orderedComponents_founded targetKeyed founded built
      (redefinedIds source target) (source.nodup_keys.filter _)
  obtain ⟨replaced, ids, stored, run⟩ := mapM_newRedefine sourceKeyed targetKeyed listing (by
      intro id member
      have listed := order.mem_iff.mp member
      rw [List.mem_toFinset, mem_redefinedIds] at listed
      exact listed)
  refine ⟨replaced, stored, ids ▸ order, ?_⟩
  have flattened : (listing.map fun id => [id]).flatten = listing := by
    rw [← List.flatMap_def]
    simp
  rw [planReplacements, components, flattened]
  exact run

theorem planRemovals_spec (target : Inventory) (keyed : Inventory.Keyed source)
    (founded : Founded source) (built : FactDependencyGraph.fromFacts source.values = .ok graph) :
    ∃ removed : List SchemaFact, (∀ fact ∈ removed, source[fact.id]? = some fact) ∧
        LeastReady id (DependsOn source) (removedIds source target).toFinset
          (removed.map SchemaFact.id).reverse ∧
        planRemovals graph source target = removed.map .undefine := by
  obtain ⟨listing, order, components⟩ :=
    orderedComponents_founded keyed founded built (removedIds source target)
      (source.nodup_keys.filter _)
  obtain ⟨removed, ids, stored, run⟩ := filterMap_undefine keyed listing.reverse (by
      intro id member
      have listed := order.mem_iff.mp (List.mem_reverse.mp member)
      rw [List.mem_toFinset, mem_removedIds] at listed
      exact listed.1)
  refine ⟨removed, stored, ?_, ?_⟩
  · rw [ids, List.reverse_reverse]
    exact order
  · have reversed : (listing.map fun id => [id]).reverse.flatMap List.reverse =
          listing.reverse := by
      rw [← List.map_reverse, List.flatMap_map]
      simp
    rw [planRemovals, components, reversed]
    exact run

/--
The planner's operations form a transition whose replacements are in the
least-ready order of the target.
-/
theorem exists_transition_of_plan {operations : List SchemaOperation}
    (sourceKeyed : Inventory.Keyed source) (targetKeyed : Inventory.Keyed target)
    (sourceFounded : Founded source) (targetFounded : Founded target)
    (planned : planSchemaOperations source target = .ok operations) :
    Comparable source target ∧ ∃ transition : Transition source target,
        transition.operations = operations ∧ LeastReady id (DependsOn target)
            (redefinedIds source target).toFinset transition.replacedIds := by
  obtain ⟨sourceGraph, sourceBuilt, planned⟩ := bind_eq_ok.mp planned
  obtain ⟨targetGraph, targetBuilt, planned⟩ := bind_eq_ok.mp planned
  obtain ⟨⟨⟩, sourceComplete, planned⟩ := bind_eq_ok.mp planned
  obtain ⟨⟨⟩, targetComplete, planned⟩ := bind_eq_ok.mp planned
  obtain ⟨unchanged, planned⟩ := unless_eq_ok.mp planned
  obtain ⟨defined, definedStored, definedOrder, definitions⟩ :=
    planDefinitions_spec source targetKeyed targetFounded targetBuilt
  obtain ⟨replaced, replacedStored, replacedOrder, replacements⟩ :=
    planReplacements_spec sourceKeyed targetKeyed targetFounded targetBuilt
  obtain ⟨removed, removedStored, removedOrder, removals⟩ :=
    planRemovals_spec target sourceKeyed sourceFounded sourceBuilt
  rw [definitions, replacements, removals] at planned
  refine ⟨?_, {
    defined := defined
    replaced := replaced
    removed := removed
    definedStored := definedStored
    definedOrder := definedOrder
    expectedStored := fun change member => (replacedStored change member).1
    replacementStored := fun change member => (replacedStored change member).2
    replacedDistinct := replacedOrder.nodup
    replacedExact := fun _ => replacedOrder.mem_iff.trans List.mem_toFinset
    removedStored := removedStored
    removedOrder := removedOrder
  }, ?_, replacedOrder⟩
  · exact {
      sourceKeyed := sourceKeyed
      targetKeyed := targetKeyed
      sourcePlannable :=
        (FactDependencyGraph.exists_fromFacts_iff sourceKeyed).mp ⟨sourceGraph, sourceBuilt⟩
      targetPlannable :=
        (FactDependencyGraph.exists_fromFacts_iff targetKeyed).mp ⟨targetGraph, targetBuilt⟩
      sourceComplete :=
        (FactDependencyGraph.validateComplete_eq_ok_iff sourceKeyed sourceBuilt).mp sourceComplete
      targetComplete :=
        (FactDependencyGraph.validateComplete_eq_ok_iff targetKeyed targetBuilt).mp targetComplete
      functions := sameFunctions_of_unchanged sourceKeyed targetKeyed unchanged
    }
  · exact pure_eq_ok.mp planned

variable {Bytes Digest : Type} {codec : Codec Bytes Digest} {declared : DeclaredSchema codec}

theorem founded_of_resolved {profileId : SemanticProfileId} {available : CapabilitySet}
    {resolved : ResolvedSchema Digest}
    (accepted : resolveSchemaWithCapabilities declared profileId available = .ok resolved) :
    Founded declared.facts := by
  obtain ⟨-, -, accepted⟩ := bind_eq_ok.mp accepted
  obtain ⟨profile, -, accepted⟩ := bind_eq_ok.mp accepted
  obtain ⟨-, -, accepted⟩ := bind_eq_ok.mp accepted
  obtain ⟨types, typesResolved, -⟩ := bind_eq_ok.mp accepted
  obtain ⟨rank, ranked⟩ := exists_specialization_rank declared.keyed declared.checked typesResolved
  exact founded_of_role_rank declared.keyed ranked

theorem founded_of_managedSchemaState {context : ManagedDeltaContext}
    {state : ManagedSchemaState Digest} (managed : managedSchemaState declared context = .ok state) :
    Founded declared.facts := by
  obtain ⟨-, -, managed⟩ := bind_eq_ok.mp managed
  obtain ⟨resolved, resolution, -⟩ := bind_eq_ok.mp managed
  exact founded_of_resolved (mapError_eq_ok.mp resolution)

end TypeBridge.Schema
