import TypeBridge.Library.PathSearch
import TypeBridge.Schema.Resolve

namespace TypeBridge.Schema

open Library Library.Components Library.PathSearch
open Library.Checked hiding get

/-!
# Fact dependencies

The planner orders schema operations by a dependency graph over facts, and
replay rebuilds the same graph from every intermediate inventory. Most
dependencies are read off a fact alone; a specializing role also depends on
the subtype edges of the path that `findSubPath` selects, and a function on
the only declaration of each label it refers to, so both depend on the whole
inventory.

`DependsOn`, `Plannable` and `Complete` state what the graph of an inventory
says, and the lemmas at the end of the module read the executable graph in
those terms.
-/

/-- The subtype edges of one type in identity order. -/
def subByChild (facts : Inventory) (child : TypeId) : List SubFactId := directParents facts child

/-- The first subtype path between two types, in edge order. -/
def findSubPath (facts : Inventory) (current target : TypeId) : Option (List SubFactId) :=
  findPath (subByChild facts) SubFactId.supertype target ((directSubtypes facts).length + 1) current

/-- The types and structs declared under one label, in identity order. -/
def labelCandidates (facts : Inventory) (label : Label) : List SchemaFactId :=
  facts.values.filterMap fun
    | .type fact => if fact.id.label = label then some (.type fact.id) else none
    | .struct fact => if fact.id.label = label then some (.struct fact.id) else none
    | _ => none

def functionReference (facts : Inventory) (label : Label) : Except Diagnostic SchemaFactId :=
  match labelCandidates facts label with
  | [] => .error ⟨"schema_delta_missing_function_reference"⟩
  | [candidate] => .ok candidate
  | _ => .error ⟨"schema_delta_ambiguous_function_reference"⟩

def dependenciesFor (facts : Inventory) : SchemaFact → Except Diagnostic (List SchemaFactId)
  | .type _ => .ok []
  | .struct _ => .ok []
  | .sub id => .ok [.type id.subtype, .type id.supertype]
  | .value fact => .ok [.type (attributeTypeId fact.id.attributeId)]
  | .owns fact =>
      .ok [.type fact.id.owner, .type (attributeTypeId fact.id.attributeId),
        .value ⟨fact.id.attributeId⟩]
  | .relates fact =>
      match fact.specializes with
      | none => .ok [.type fact.id.relation]
      | some parent =>
          match findSubPath facts fact.id.relation (declaringRelationType parent) with
          | none => .error ⟨"schema_delta_missing_specialization_path"⟩
          | some path =>
              .ok (.type fact.id.relation :: .relates (relatesId parent) :: path.map .sub)
  | .plays id => .ok [.type id.player, .relates (relatesId id.role)]
  | .annotated fact => .ok [subjectFactId fact.id.subject]
  | .function fact => fact.schemaReferences.mapM (functionReference facts)

structure FactDependencyGraph where
  dependencies : Std.ExtTreeMap SchemaFactId (Std.ExtTreeSet SchemaFactId)

namespace FactDependencyGraph

/-- Index one more fact unless its identity is taken. -/
def collectFact (inventory : Inventory) (fact : SchemaFact) : Except Diagnostic Inventory :=
  if fact.id ∈ inventory then .error ⟨"schema_delta_duplicate_fact"⟩
  else .ok (inventory.insert fact.id fact)

/-- Index facts by identity, rejecting duplicates. -/
def collectInventory (facts : List SchemaFact) : Except Diagnostic Inventory :=
  facts.foldlM collectFact ∅

def ofInventory (inventory : Inventory) :
    Except Diagnostic FactDependencyGraph := do
  let dependencies ←
    OrderedMap.insertAll SchemaFact.id (fun fact => do
        let prerequisites ← dependenciesFor inventory fact
        return (.ofList prerequisites : Std.ExtTreeSet SchemaFactId))
      inventory.values ∅
  return ⟨dependencies⟩

def fromFacts (facts : List SchemaFact) :
    Except Diagnostic FactDependencyGraph := do
  let inventory ← collectInventory facts
  ofInventory inventory

def prerequisites (graph : FactDependencyGraph) (id : SchemaFactId) : List SchemaFactId :=
  (graph.dependencies[id]?.map (·.toList)).getD []

/-- The facts that depend on one identity, in identity order. -/
def dependents (graph : FactDependencyGraph) (id : SchemaFactId) : List SchemaFactId :=
  graph.dependencies.keys.filter fun dependent => id ∈ graph.prerequisites dependent

/-- Reject a prerequisite outside the inventory. -/
def validateComplete (graph : FactDependencyGraph) : Except Diagnostic Unit :=
  if graph.dependencies.keys.all fun id =>
      (graph.prerequisites id).all (graph.dependencies.contains ·) then
    .ok ()
  else .error ⟨"schema_delta_missing_dependency"⟩

end FactDependencyGraph

/-- A stored fact whose prerequisites are known has this prerequisite. -/
def DependsOn (facts : Inventory) (id needed : SchemaFactId) : Prop :=
  ∃ fact prerequisites,
    facts[id]? = some fact ∧ dependenciesFor facts fact = .ok prerequisites ∧ needed ∈ prerequisites

/-- The prerequisites of every stored fact are known. -/
def Plannable (facts : Inventory) : Prop :=
  ∀ fact ∈ facts.values, ∃ prerequisites, dependenciesFor facts fact = .ok prerequisites

/-- Every prerequisite is stored. -/
def Complete (facts : Inventory) : Prop := ∀ id needed, DependsOn facts id needed → needed ∈ facts

variable {facts : Inventory} {id needed : SchemaFactId}

theorem DependsOn.mem (depends : DependsOn facts id needed) : id ∈ facts := by
  obtain ⟨fact, _, found, -⟩ := depends
  rw [← Std.ExtTreeMap.isSome_getElem?_iff_mem, found]
  rfl

namespace FactDependencyGraph

theorem foldlM_collect (values : List SchemaFact) (distinct : (values.map SchemaFact.id).Nodup)
    (start : Inventory) (fresh : ∀ fact ∈ values, fact.id ∉ start) :
    ∃ inventory : Inventory, values.foldlM collectFact start = .ok inventory ∧
        ∀ (id : SchemaFactId) (fact : SchemaFact), inventory[id]? = some fact ↔
            start[id]? = some fact ∨ fact ∈ values ∧ fact.id = id := by
  induction values generalizing start with
  | nil => exact ⟨start, rfl, by simp⟩
  | cons first rest ih =>
    rw [List.map_cons, List.nodup_cons] at distinct
    have firstFresh := fresh first (by simp)
    obtain ⟨inventory, run, lookup⟩ :=
      ih distinct.2 (start.insert first.id first) (by
          intro fact member stored
          rw [Std.ExtTreeMap.mem_insert, compare_eq_iff_eq] at stored
          rcases stored with same | earlier
          · exact distinct.1 (List.mem_map.mpr ⟨fact, member, same.symm⟩)
          · exact fresh fact (by simp [member]) earlier)
    refine ⟨inventory, ?_, ?_⟩
    · rw [foldlM_cons_eq_ok]
      exact ⟨_, by rw [collectFact, if_neg firstFresh], run⟩
    · intro id fact
      rw [lookup, OrderedMap.getElem?_insert_eq]
      by_cases same : first.id = id
      · have absent : start[id]? = none := by
          rw [← same]
          exact Std.ExtTreeMap.getElem?_eq_none firstFresh
        rw [if_pos same, absent]
        simp only [Option.some.injEq, List.mem_cons, reduceCtorEq, false_or]
        constructor
        · rintro (rfl | ⟨member, named⟩)
          · exact ⟨Or.inl rfl, same⟩
          · exact ⟨Or.inr member, named⟩
        · rintro ⟨rfl | member, named⟩
          · exact Or.inl rfl
          · exact Or.inr ⟨member, named⟩
      · rw [if_neg same]
        simp only [List.mem_cons]
        constructor
        · rintro (earlier | ⟨member, named⟩)
          · exact Or.inl earlier
          · exact Or.inr ⟨Or.inr member, named⟩
        · rintro (earlier | ⟨rfl | member, named⟩)
          · exact Or.inl earlier
          · exact (same named).elim
          · exact Or.inr ⟨member, named⟩

variable {facts : Inventory} (keyed : Inventory.Keyed facts)
include keyed

theorem collectInventory_values : collectInventory facts.values = .ok facts := by
  obtain ⟨inventory, run, lookup⟩ := foldlM_collect facts.values keyed.nodup_ids ∅ (by simp)
  unfold collectInventory
  rw [run, Except.ok.injEq]
  apply Std.ExtTreeMap.ext_getElem?
  intro id
  apply Option.ext
  intro fact
  rw [lookup, keyed.mem_values]
  constructor
  · rintro (impossible | ⟨stored, rfl⟩)
    · simp at impossible
    · exact stored
  · intro stored
    have named := keyed id fact stored
    exact Or.inr ⟨named ▸ stored, named⟩

theorem fromFacts_values : fromFacts facts.values = ofInventory facts := by
  unfold fromFacts
  rw [collectInventory_values keyed]
  rfl

theorem exists_fromFacts_iff : (∃ graph, fromFacts facts.values = .ok graph) ↔ Plannable facts := by
  rw [fromFacts_values keyed]
  constructor
  · rintro ⟨graph, built⟩ fact member
    obtain ⟨dependencies, run, -⟩ := bind_eq_ok.mp built
    obtain ⟨stored, -⟩ := OrderedMap.insertAll_spec keyed.nodup_ids run
    obtain ⟨_, computed, -⟩ := stored fact member
    obtain ⟨prerequisites, known, -⟩ := bind_eq_ok.mp computed
    exact ⟨prerequisites, known⟩
  · intro plannable
    obtain ⟨dependencies, run⟩ := OrderedMap.exists_insertAll SchemaFact.id (fun fact => do
          let prerequisites ← dependenciesFor facts fact
          return (.ofList prerequisites : Std.ExtTreeSet SchemaFactId))
        facts.values (by
          intro fact member
          obtain ⟨prerequisites, known⟩ := plannable fact member
          exact ⟨.ofList prerequisites, by rw [known]; rfl⟩)
        ∅
    exact ⟨⟨dependencies⟩, bind_eq_ok.mpr ⟨dependencies, run, rfl⟩⟩

omit keyed

variable {graph : FactDependencyGraph} {id : SchemaFactId}

include keyed

variable (built : fromFacts facts.values = .ok graph)
include built

theorem mem_dependencies_iff : id ∈ graph.dependencies ↔ id ∈ facts := by
  rw [fromFacts_values keyed] at built
  obtain ⟨dependencies, run, result⟩ := bind_eq_ok.mp built
  rw [pure_eq_ok] at result
  subst graph
  obtain ⟨stored, others⟩ := OrderedMap.insertAll_spec keyed.nodup_ids run
  rw [← Std.ExtTreeMap.isSome_getElem?_iff_mem, ← Std.ExtTreeMap.isSome_getElem?_iff_mem]
  cases lookup : facts[id]? with
  | none =>
    have absent : id ∉ facts.values.map SchemaFact.id := by
      intro listed
      obtain ⟨fact, member, rfl⟩ := List.mem_map.mp listed
      rw [keyed.mem_values.mp member] at lookup
      cases lookup
    rw [others id absent]
    simp
  | some fact =>
    have named := keyed id fact lookup
    obtain ⟨value, -, found⟩ := stored fact (keyed.mem_values.mpr (named ▸ lookup))
    rw [named] at found
    simp [found]

theorem mem_prerequisites_iff {needed : SchemaFactId} :
    needed ∈ graph.prerequisites id ↔ DependsOn facts id needed := by
  have nodes : id ∈ graph.dependencies ↔ id ∈ facts := mem_dependencies_iff keyed built
  rw [fromFacts_values keyed] at built
  obtain ⟨dependencies, run, result⟩ := bind_eq_ok.mp built
  rw [pure_eq_ok] at result
  subst graph
  obtain ⟨stored, -⟩ := OrderedMap.insertAll_spec keyed.nodup_ids run
  cases lookup : facts[id]? with
  | none =>
    have absent : dependencies[id]? = none := by
      apply Std.ExtTreeMap.getElem?_eq_none
      rw [nodes]
      intro member
      rw [← Std.ExtTreeMap.isSome_getElem?_iff_mem, lookup] at member
      simp at member
    constructor
    · intro member
      simp [prerequisites, absent] at member
    · rintro ⟨fact, _, found, -⟩
      rw [lookup] at found
      cases found
  | some fact =>
    have named := keyed id fact lookup
    obtain ⟨value, computed, found⟩ := stored fact (keyed.mem_values.mpr (named ▸ lookup))
    obtain ⟨listed, known, result⟩ := bind_eq_ok.mp computed
    rw [pure_eq_ok] at result
    subst value
    rw [named] at found
    have membership : needed ∈ prerequisites ⟨dependencies⟩ id ↔ needed ∈ listed := by
      simp [prerequisites, found]
    rw [membership]
    constructor
    · intro member
      exact ⟨fact, listed, lookup, known, member⟩
    · rintro ⟨other, otherListed, otherFound, otherKnown, member⟩
      rw [lookup, Option.some.injEq] at otherFound
      subst other
      rw [known, Except.ok.injEq] at otherKnown
      subst otherListed
      exact member

theorem validateComplete_eq_ok_iff : graph.validateComplete = .ok () ↔ Complete facts := by
  unfold validateComplete
  rw [require_eq_ok]
  simp only [List.all_eq_true, Std.ExtTreeMap.mem_keys,
    Std.ExtTreeMap.contains_iff_mem, mem_dependencies_iff keyed built,
    mem_prerequisites_iff keyed built, and_true]
  constructor
  · intro inside id needed depends
    exact inside id depends.mem needed depends
  · intro complete id _ needed depends
    exact complete id needed depends

theorem mem_dependents_iff {dependent : SchemaFactId} :
    dependent ∈ graph.dependents id ↔ DependsOn facts dependent id := by
  simp only [dependents, List.mem_filter, Std.ExtTreeMap.mem_keys,
    mem_dependencies_iff keyed built, decide_eq_true_eq,
    mem_prerequisites_iff keyed built, and_iff_right_iff_imp]
  exact DependsOn.mem

theorem dependents_eq_nil_iff :
    graph.dependents id = [] ↔ ∀ dependent, ¬ DependsOn facts dependent id := by
  rw [List.eq_nil_iff_forall_not_mem]
  simp only [mem_dependents_iff keyed built]

end FactDependencyGraph

/-! ## Subtype paths -/

variable {edge : SubFactId} (keyed : Inventory.Keyed facts)
include keyed

theorem Inventory.Keyed.sub_mem_values : .sub edge ∈ facts.values ↔ .sub edge ∈ facts := by
  rw [keyed.mem_values, ← Std.ExtTreeMap.isSome_getElem?_iff_mem, Option.isSome_iff_exists]
  constructor
  · intro stored
    exact ⟨_, stored⟩
  · rintro ⟨fact, stored⟩
    have named := keyed _ fact stored
    cases fact with
    | sub other =>
      simp only [SchemaFact.id, SchemaFactId.sub.injEq] at named
      exact named ▸ stored
    | _ => simp [SchemaFact.id] at named

theorem mem_subByChild {child : TypeId} :
    edge ∈ subByChild facts child ↔ .sub edge ∈ facts ∧ edge.subtype = child := by
  rw [← keyed.sub_mem_values]
  exact mem_directParents

theorem Inventory.Keyed.sorted_values :
    facts.values.Pairwise fun left right => left.id < right.id := by
  have sorted := OrderedMap.sorted_keys facts
  rw [← keyed.values_ids, List.pairwise_map] at sorted
  exact sorted

theorem sorted_subByChild (child : TypeId) : (subByChild facts child).Pairwise fun left right =>
      SchemaFactId.sub left < SchemaFactId.sub right := by
  unfold subByChild directParents
  rw [List.pairwise_filterMap]
  refine keyed.sorted_values.imp ?_
  intro left right ordered first selectedFirst second selectedSecond
  cases left <;> cases right <;> simp at selectedFirst selectedSecond
  obtain ⟨-, rfl⟩ := selectedFirst
  obtain ⟨-, rfl⟩ := selectedSecond
  exact ordered

omit keyed

variable {fewer more : Inventory}

theorem subByChild_eq_filter (fewerKeyed : Inventory.Keyed fewer) (moreKeyed : Inventory.Keyed more)
    (contained : ∀ edge : SubFactId, .sub edge ∈ fewer → .sub edge ∈ more) (child : TypeId) :
    subByChild fewer child = (subByChild more child).filter
        fun edge => decide (SchemaFactId.sub edge ∈ fewer) := by
  have injective : Function.Injective SchemaFactId.sub := by
    intro left right same
    exact SchemaFactId.sub.inj same
  apply List.map_injective_iff.mpr injective
  apply List.Pairwise.eq_of_mem_iff (r := (· < ·))
  · rw [List.pairwise_map]
    exact sorted_subByChild fewerKeyed child
  · rw [List.pairwise_map]
    exact (sorted_subByChild moreKeyed child).filter _
  · intro id
    simp only [List.mem_map, List.mem_filter, mem_subByChild fewerKeyed,
      mem_subByChild moreKeyed, decide_eq_true_eq]
    constructor
    · rintro ⟨edge, ⟨stored, same⟩, rfl⟩
      exact ⟨edge, ⟨⟨contained edge stored, same⟩, stored⟩, rfl⟩
    · rintro ⟨edge, ⟨⟨-, same⟩, stored⟩, rfl⟩
      exact ⟨edge, ⟨stored, same⟩, rfl⟩

theorem subByChild_covers (facts : Inventory) (child : TypeId)
    (edges : subByChild facts child ≠ []) : child ∈ (directSubtypes facts).toFinset := by
  obtain ⟨edge, member⟩ := List.exists_mem_of_ne_nil _ edges
  simp only [subByChild, directParents, List.mem_filterMap] at member
  obtain ⟨stored, listed, selected⟩ := member
  rw [List.mem_toFinset, directSubtypes, List.mem_dedup, List.mem_filterMap]
  refine ⟨stored, listed, ?_⟩
  cases stored with
  | sub other =>
    simp only [Option.ite_none_right_eq_some, Option.some.injEq] at selected
    simp [selected.1]
  | _ => simp at selected

theorem directSubtypes_card_lt (facts : Inventory) :
    (directSubtypes facts).toFinset.card < (directSubtypes facts).length + 1 :=
  Nat.lt_succ_of_le (List.toFinset_card_le _)

variable {current target : TypeId} {path : List SubFactId}

theorem findSubPath_eq_some_iff : findSubPath facts current target = some path ↔
      FirstPath (subByChild facts) SubFactId.supertype target [] current path :=
  findPath_eq_some_iff (subByChild_covers facts) (directSubtypes_card_lt facts)

theorem findSubPath_eq_none_iff : findSubPath facts current target = none ↔
      ¬ Reach (subByChild facts) SubFactId.supertype target [] current :=
  findPath_eq_none_iff (subByChild_covers facts) (directSubtypes_card_lt facts)

theorem findSubPath_mem (keyed : Inventory.Keyed facts)
    (found : findSubPath facts current target = some path) (member : edge ∈ path) :
    .sub edge ∈ facts := by
  obtain ⟨node, edgeMember⟩ := (findSubPath_eq_some_iff.mp found).mem_edges member
  exact ((mem_subByChild keyed).mp edgeMember).1

theorem exists_findSubPath {others : Inventory} (keyed : Inventory.Keyed facts)
    (othersKeyed : Inventory.Keyed others) (found : findSubPath facts current target = some path)
    (kept : ∀ edge ∈ path, .sub edge ∈ others) :
    ∃ other, findSubPath others current target = some other := by
  have reach : Reach (subByChild others) SubFactId.supertype target [] current := by
    apply (findSubPath_eq_some_iff.mp found).reach_of_edges
    intro node edge member onPath
    rw [mem_subByChild keyed] at member
    exact (mem_subByChild othersKeyed).mpr ⟨kept edge onPath, member.2⟩
  cases result : findSubPath others current target with
  | none => exact (findSubPath_eq_none_iff.mp result reach).elim
  | some other => exact ⟨other, rfl⟩

theorem findSubPath_of_fewer (fewerKeyed : Inventory.Keyed fewer) (moreKeyed : Inventory.Keyed more)
    (contained : ∀ edge : SubFactId, .sub edge ∈ fewer → .sub edge ∈ more)
    (found : findSubPath more current target = some path) (kept : ∀ edge ∈ path, .sub edge ∈ fewer) :
    findSubPath fewer current target = some path := by
  rw [findSubPath_eq_some_iff] at found ⊢
  have filtered : subByChild fewer = fun child => (subByChild more child).filter
          fun edge => decide (SchemaFactId.sub edge ∈ fewer) :=
    funext (subByChild_eq_filter fewerKeyed moreKeyed contained)
  rw [filtered]
  apply found.filter
  intro edge member
  exact decide_eq_true (kept edge member)

variable {left right : Inventory}

theorem findSubPath_congr (leftKeyed : Inventory.Keyed left) (rightKeyed : Inventory.Keyed right)
    (same : ∀ edge : SubFactId, .sub edge ∈ left ↔ .sub edge ∈ right) (current target : TypeId) :
    findSubPath left current target = findSubPath right current target := by
  apply Option.ext
  intro path
  constructor
  · intro found
    exact findSubPath_of_fewer rightKeyed leftKeyed (fun edge => (same edge).mpr) found
      (fun edge member => (same edge).mp (findSubPath_mem leftKeyed found member))
  · intro found
    exact findSubPath_of_fewer leftKeyed rightKeyed (fun edge => (same edge).mp) found
      (fun edge member => (same edge).mpr (findSubPath_mem rightKeyed found member))

/-! ## Function references -/

def SchemaFactId.declaresLabel (label : Label) : SchemaFactId → Bool
  | .type id => id.label = label
  | .struct id => id.label = label
  | _ => false

variable {label : Label}

theorem mem_labelCandidates (keyed : Inventory.Keyed facts) :
    id ∈ labelCandidates facts label ↔ id ∈ facts ∧ id.declaresLabel label = true := by
  simp only [labelCandidates, List.mem_filterMap]
  constructor
  · rintro ⟨stored, member, selected⟩
    have found := keyed.mem_values.mp member
    have isStored : stored.id ∈ facts := by
      rw [← Std.ExtTreeMap.isSome_getElem?_iff_mem, found]
      rfl
    cases stored with
    | type fact | struct fact =>
      simp only [Option.ite_none_right_eq_some, Option.some.injEq] at selected
      obtain ⟨same, rfl⟩ := selected
      exact ⟨isStored, by simpa [SchemaFactId.declaresLabel] using same⟩
    | _ => simp at selected
  · rintro ⟨isStored, declares⟩
    rw [← Std.ExtTreeMap.isSome_getElem?_iff_mem] at isStored
    obtain ⟨fact, found⟩ := Option.isSome_iff_exists.mp isStored
    have named := keyed id fact found
    refine ⟨fact, keyed.mem_values.mpr (named ▸ found), ?_⟩
    subst id
    cases fact <;> simp_all [SchemaFact.id, SchemaFactId.declaresLabel]

theorem sorted_labelCandidates (keyed : Inventory.Keyed facts) (label : Label) :
    (labelCandidates facts label).Pairwise (· < ·) := by
  unfold labelCandidates
  rw [List.pairwise_filterMap]
  refine keyed.sorted_values.imp ?_
  intro left right ordered first selectedFirst second selectedSecond
  cases left <;> cases right <;> simp at selectedFirst selectedSecond
  all_goals
    obtain ⟨-, rfl⟩ := selectedFirst
    obtain ⟨-, rfl⟩ := selectedSecond
    exact ordered

theorem labelCandidates_congr (leftKeyed : Inventory.Keyed left)
    (rightKeyed : Inventory.Keyed right)
    (same : ∀ id : SchemaFactId, id.declaresLabel label = true → (id ∈ left ↔ id ∈ right)) :
    labelCandidates left label = labelCandidates right label := by
  apply (sorted_labelCandidates leftKeyed label).eq_of_mem_iff
    (sorted_labelCandidates rightKeyed label)
  intro id
  rw [mem_labelCandidates leftKeyed, mem_labelCandidates rightKeyed]
  constructor
  · rintro ⟨stored, declares⟩
    exact ⟨(same id declares).mp stored, declares⟩
  · rintro ⟨stored, declares⟩
    exact ⟨(same id declares).mpr stored, declares⟩

/-! ## What a fact requires -/

/-- The prerequisites read off a fact alone. -/
def directDependencies : SchemaFact → List SchemaFactId
  | .type _ => []
  | .struct _ => []
  | .sub id => [.type id.subtype, .type id.supertype]
  | .value fact => [.type (attributeTypeId fact.id.attributeId)]
  | .owns fact =>
      [.type fact.id.owner, .type (attributeTypeId fact.id.attributeId),
        .value ⟨fact.id.attributeId⟩]
  | .relates fact =>
      .type fact.id.relation ::
        (fact.specializes.map fun parent => SchemaFactId.relates (relatesId parent)).toList
  | .plays id => [.type id.player, .relates (relatesId id.role)]
  | .annotated fact => [subjectFactId fact.id.subject]
  | .function _ => []

inductive Requires (facts : Inventory) : SchemaFact → SchemaFactId → Prop where
  | direct {fact : SchemaFact} {needed : SchemaFactId} : needed ∈ directDependencies fact →
      Requires facts fact needed
  | path
      {fact : RelatesFact}
      {parent : RoleId}
      {path : List SubFactId}
      {edge : SubFactId} : fact.specializes = some parent →
      findSubPath facts fact.id.relation (declaringRelationType parent) = some path →
      edge ∈ path →
      Requires facts (.relates fact) (.sub edge)
  | reference
      {fact : FunctionFact}
      {label : Label}
      {candidate : SchemaFactId} : label ∈ fact.schemaReferences →
      labelCandidates facts label = [candidate] →
      Requires facts (.function fact) candidate

structure Determined (facts : Inventory) (fact : SchemaFact) : Prop where
  path : ∀ (relates : RelatesFact) (parent : RoleId), fact = .relates relates →
      relates.specializes = some parent →
      ∃ path, findSubPath facts relates.id.relation (declaringRelationType parent) = some path
  reference : ∀ (function : FunctionFact) (label : Label), fact = .function function →
      label ∈ function.schemaReferences →
      ∃ candidate, labelCandidates facts label = [candidate]

theorem functionReference_eq_ok_iff {candidate : SchemaFactId} :
    functionReference facts label = .ok candidate ↔ labelCandidates facts label = [candidate] := by
  unfold functionReference
  split <;> simp_all

variable {fact : SchemaFact}

theorem exists_dependenciesFor_iff :
    (∃ prerequisites, dependenciesFor facts fact = .ok prerequisites) ↔ Determined facts fact := by
  constructor
  · rintro ⟨prerequisites, computed⟩
    constructor
    · rintro relates parent rfl specialization
      cases found : findSubPath facts relates.id.relation (declaringRelationType parent) with
      | none => simp [dependenciesFor, specialization, found] at computed
      | some path => exact ⟨path, rfl⟩
    · rintro function label rfl referenced
      obtain ⟨candidate, reference⟩ := exists_mapM_eq_ok_iff.mp ⟨prerequisites, computed⟩
          label referenced
      exact ⟨candidate, functionReference_eq_ok_iff.mp reference⟩
  · intro determined
    cases fact with
    | relates relates =>
      cases specialization : relates.specializes with
      | none => simp [dependenciesFor, specialization]
      | some parent =>
        obtain ⟨path, found⟩ := determined.path relates parent rfl specialization
        simp [dependenciesFor, specialization, found]
    | function function =>
      apply exists_mapM_eq_ok_iff.mpr
      intro label referenced
      obtain ⟨candidate, only⟩ := determined.reference function label rfl referenced
      exact ⟨candidate, functionReference_eq_ok_iff.mpr only⟩
    | _ => exact ⟨_, rfl⟩

theorem mem_of_dependenciesFor {prerequisites : List SchemaFactId}
    (computed : dependenciesFor facts fact = .ok prerequisites) :
    needed ∈ prerequisites ↔ Requires facts fact needed := by
  cases fact with
  | relates relates =>
    cases specialization : relates.specializes with
    | none =>
      simp only [dependenciesFor, specialization, Except.ok.injEq] at computed
      subst prerequisites
      constructor
      · intro member
        exact .direct (by simpa [directDependencies, specialization] using member)
      · intro requires
        cases requires with
        | direct member => simpa [directDependencies, specialization] using member
        | path other _ _ =>
          rw [specialization] at other
          cases other
    | some parent =>
      cases found : findSubPath facts relates.id.relation (declaringRelationType parent) with
      | none => simp [dependenciesFor, specialization, found] at computed
      | some path =>
        simp only [dependenciesFor, specialization, found, Except.ok.injEq] at computed
        subst prerequisites
        simp only [List.mem_cons, List.mem_map]
        constructor
        · rintro (isRelation | isParent | ⟨edge, onPath, rfl⟩)
          · exact .direct (by simp [directDependencies, isRelation])
          · exact .direct (by simp [directDependencies, specialization, isParent])
          · exact .path specialization found onPath
        · intro requires
          cases requires with
          | direct member =>
            simp only [directDependencies, specialization,
              Option.map_some, Option.toList_some, List.mem_cons,
              List.not_mem_nil, or_false] at member
            rcases member with isRelation | isParent
            · exact Or.inl isRelation
            · exact Or.inr (Or.inl isParent)
          | path otherSpecialization otherFound onPath =>
            rw [specialization, Option.some.injEq] at otherSpecialization
            subst otherSpecialization
            rw [found, Option.some.injEq] at otherFound
            subst otherFound
            exact Or.inr (Or.inr ⟨_, onPath, rfl⟩)
  | function function =>
    rw [mem_of_mapM_eq_ok computed]
    simp only [functionReference_eq_ok_iff]
    constructor
    · rintro ⟨label, referenced, only⟩
      exact .reference referenced only
    · intro requires
      cases requires with
      | direct member => simp [directDependencies] at member
      | reference referenced only => exact ⟨_, referenced, only⟩
  | _ =>
    simp only [dependenciesFor, Except.ok.injEq] at computed
    subst prerequisites
    constructor
    · intro member
      exact .direct member
    · rintro ⟨member⟩
      exact member

theorem plannable_iff : Plannable facts ↔ ∀ fact ∈ facts.values, Determined facts fact := by
  simp only [Plannable, exists_dependenciesFor_iff]

theorem Plannable.dependsOn_iff (plannable : Plannable facts) :
    DependsOn facts id needed ↔ ∃ fact, facts[id]? = some fact ∧ Requires facts fact needed := by
  constructor
  · rintro ⟨fact, prerequisites, stored, computed, member⟩
    exact ⟨fact, stored, (mem_of_dependenciesFor computed).mp member⟩
  · rintro ⟨fact, stored, requires⟩
    obtain ⟨prerequisites, computed⟩ := plannable fact (Inventory.mem_values.mpr ⟨id, stored⟩)
    exact ⟨fact, prerequisites, stored, computed, (mem_of_dependenciesFor computed).mpr requires⟩

end TypeBridge.Schema
