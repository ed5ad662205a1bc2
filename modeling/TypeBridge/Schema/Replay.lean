import TypeBridge.Schema.Delta

namespace TypeBridge.Schema

open Library Library.Components Library.ReadyOrder
open Library.Checked hiding get

/-!
# What replay accepts

Replay visits inventories that mix source and target facts. This module shows
when it accepts a plan-shaped list of operations: one definition for each
added fact in dependency order, one replacement for each changed fact, and one
removal for each removed fact in reverse dependency order.

Such a list is accepted exactly when two things agree between the two
schemas. `SameReferences` says that each function reference has the same
declaration in both, and `SamePaths` that each specializing role of the target
selects the same subtype path among the edges of both schemas as among its
own.
-/

/-- Function references have the same candidates in both inventories. -/
def SameReferences (source target : Inventory) : Prop :=
  ∀ (function : FunctionFact) (label : Label), .function function ∈ source.values →
    label ∈ function.schemaReferences →
    labelCandidates source label = labelCandidates target label

/--
Every specializing role of the target selects the same subtype path among
the edges of both inventories as among the edges of the target.
-/
def SamePaths (source target : Inventory) : Prop :=
  ∀ (fact : RelatesFact) (parent : RoleId), .relates fact ∈ target.values →
    fact.specializes = some parent →
    findSubPath (source ∪ target) fact.id.relation
        (declaringRelationType parent) =
      findSubPath target fact.id.relation (declaringRelationType parent)

def SameFunctions (source target : Inventory) : Prop :=
  ∀ function : FunctionFact, .function function ∈ source.values ↔ .function function ∈ target.values

/-! ## Mixtures -/

/--
A mixture of two inventories: it keeps what they have in common, and each of
its facts comes from one of them together with all that inventory requires of
the fact.
-/
structure Mixture (source target facts : Inventory) : Prop where
  common : ∀ id : SchemaFactId, id ∈ source → id ∈ target → id ∈ facts
  origin : ∀ (id : SchemaFactId) (fact : SchemaFact), facts[id]? = some fact →
      (source[id]? = some fact ∧ ∀ needed, Requires source fact needed → needed ∈ facts) ∨
      (target[id]? = some fact ∧ ∀ needed, Requires target fact needed → needed ∈ facts)

/-- What two plannable, complete inventories with equal functions share. -/
structure Comparable (source target : Inventory) : Prop where
  sourceKeyed : Inventory.Keyed source
  targetKeyed : Inventory.Keyed target
  sourcePlannable : Plannable source
  targetPlannable : Plannable target
  sourceComplete : Complete source
  targetComplete : Complete target
  functions : SameFunctions source target

variable {facts : Inventory}

theorem Inventory.mem_iff_exists {id : SchemaFactId} :
    id ∈ facts ↔ ∃ fact, facts[id]? = some fact := by
  rw [← Std.ExtTreeMap.isSome_getElem?_iff_mem, Option.isSome_iff_exists]

variable {needed : SchemaFactId} {fact : SchemaFact}

theorem Complete.mem_of_requires (plannable : Plannable facts) (complete : Complete facts)
    {id : SchemaFactId} (stored : facts[id]? = some fact) (requires : Requires facts fact needed) :
    needed ∈ facts :=
  complete id needed (plannable.dependsOn_iff.mpr ⟨fact, stored, requires⟩)

namespace Comparable

variable {source target : Inventory}

theorem symm (comparable : Comparable source target) : Comparable target source where
  sourceKeyed := comparable.targetKeyed
  targetKeyed := comparable.sourceKeyed
  sourcePlannable := comparable.targetPlannable
  targetPlannable := comparable.sourcePlannable
  sourceComplete := comparable.targetComplete
  targetComplete := comparable.sourceComplete
  functions := fun function => (comparable.functions function).symm

theorem union_keyed (comparable : Comparable source target) :
    Inventory.Keyed (source ∪ target) := by
  intro id fact member
  rw [Std.ExtTreeMap.getElem?_union, Option.or_eq_some_iff] at member
  rcases member with inTarget | ⟨-, inSource⟩
  · exact comparable.targetKeyed id fact inTarget
  · exact comparable.sourceKeyed id fact inSource

end Comparable

variable {source target : Inventory}

theorem SameReferences.symm (functions : SameFunctions source target)
    (same : SameReferences source target) : SameReferences target source := by
  intro function label stored referenced
  exact (same function label ((functions function).mpr stored) referenced).symm

namespace Mixture

variable {source target facts : Inventory}

theorem keyed (comparable : Comparable source target) (mixture : Mixture source target facts) :
    Inventory.Keyed facts := by
  intro id fact stored
  rcases mixture.origin id fact stored with ⟨found, -⟩ | ⟨found, -⟩
  · exact comparable.sourceKeyed id fact found
  · exact comparable.targetKeyed id fact found

theorem labelCandidates_eq (comparable : Comparable source target)
    (mixture : Mixture source target facts) {label : Label}
    (same : labelCandidates source label = labelCandidates target label) :
    labelCandidates facts label = labelCandidates source label := by
  apply labelCandidates_congr (mixture.keyed comparable) comparable.sourceKeyed
  intro id declares
  have sourceTarget : id ∈ source ↔ id ∈ target := by
    have candidates : id ∈ labelCandidates source label ↔ id ∈ labelCandidates target label := by
      rw [same]
    rw [mem_labelCandidates comparable.sourceKeyed,
      mem_labelCandidates comparable.targetKeyed] at candidates
    simpa [declares] using candidates
  constructor
  · intro member
    obtain ⟨fact, stored⟩ := Inventory.mem_iff_exists.mp member
    rcases mixture.origin id fact stored with ⟨found, -⟩ | ⟨found, -⟩
    · exact Inventory.mem_iff_exists.mpr ⟨fact, found⟩
    · exact sourceTarget.mpr (Inventory.mem_iff_exists.mpr ⟨fact, found⟩)
  · intro member
    exact mixture.common id member (sourceTarget.mp member)

theorem determined_path {origin : Inventory} (originKeyed : Inventory.Keyed origin)
    (factsKeyed : Inventory.Keyed facts) {relates : RelatesFact} {parent : RoleId}
    (determined : Determined origin (.relates relates))
    (specialization : relates.specializes = some parent)
    (kept : ∀ needed, Requires origin (.relates relates) needed → needed ∈ facts) :
    ∃ path, findSubPath facts relates.id.relation (declaringRelationType parent) = some path := by
  obtain ⟨path, found⟩ := determined.path relates parent rfl specialization
  apply exists_findSubPath originKeyed factsKeyed found
  intro edge member
  exact kept (.sub edge) (.path specialization found member)

theorem plannable (comparable : Comparable source target)
    (references : SameReferences source target) (mixture : Mixture source target facts) :
    Plannable facts := by
  have factsKeyed := mixture.keyed comparable
  have sourceDetermined := plannable_iff.mp comparable.sourcePlannable
  have targetDetermined := plannable_iff.mp comparable.targetPlannable
  rw [plannable_iff]
  intro fact member
  have stored := factsKeyed.mem_values.mp member
  constructor
  · rintro relates parent rfl specialization
    rcases mixture.origin _ _ stored with ⟨found, kept⟩ | ⟨found, kept⟩
    · exact determined_path comparable.sourceKeyed factsKeyed
        (sourceDetermined _ (Inventory.mem_values.mpr ⟨_, found⟩)) specialization kept
    · exact determined_path comparable.targetKeyed factsKeyed
        (targetDetermined _ (Inventory.mem_values.mpr ⟨_, found⟩)) specialization kept
  · rintro function label rfl referenced
    have inSource : .function function ∈ source.values := by
      rcases mixture.origin _ _ stored with ⟨found, -⟩ | ⟨found, -⟩
      · exact Inventory.mem_values.mpr ⟨_, found⟩
      · exact (comparable.functions function).mpr (Inventory.mem_values.mpr ⟨_, found⟩)
    rw [mixture.labelCandidates_eq comparable (references function label inSource referenced)]
    exact (sourceDetermined _ inSource).reference function label rfl referenced

theorem complete (comparable : Comparable source target) (references : SameReferences source target)
    (mixture : Mixture source target facts) : Complete facts := by
  have factsKeyed := mixture.keyed comparable
  intro id needed depends
  obtain ⟨fact, stored, requires⟩ :=
    (mixture.plannable comparable references).dependsOn_iff.mp depends
  cases requires with
  | direct member =>
    rcases mixture.origin id fact stored with ⟨-, kept⟩ | ⟨-, kept⟩
    · exact kept needed (.direct member)
    · exact kept needed (.direct member)
  | path _ found onPath => exact findSubPath_mem factsKeyed found onPath
  | @reference _ label _ _ only =>
    have candidate : needed ∈ labelCandidates facts label := by
      rw [only]
      simp
    exact ((mem_labelCandidates factsKeyed).mp candidate).1

end Mixture

/-! ## Admitted operations -/

inductive Admits : Inventory → SchemaOperation → Inventory → Prop where
  | define {facts : Inventory} {fact : SchemaFact} : fact.isFunction = false → fact.id ∉ facts →
      Plannable (facts.insert fact.id fact) →
      Complete (facts.insert fact.id fact) →
      Admits facts (.define (.single fact)) (facts.insert fact.id fact)
  | redefine {facts : Inventory} {change : Replacement} : change.expected.isFunction = false →
      change.replacement.isFunction = false →
      facts[change.expected.id]? = some change.expected →
      Plannable (facts.insert change.expected.id change.replacement) →
      Complete (facts.insert change.expected.id change.replacement) →
      Admits facts (.redefine change) (facts.insert change.expected.id change.replacement)
  | undefine {facts : Inventory} {fact : SchemaFact} : fact.isFunction = false →
      facts[fact.id]? = some fact →
      Plannable facts →
      (∀ dependent, ¬ DependsOn facts dependent fact.id) →
      Admits facts (.undefine fact) (facts.erase fact.id)

inductive AdmitsAll : Inventory → List SchemaOperation → Inventory → Prop where
  | nil {facts : Inventory} : AdmitsAll facts [] facts
  | cons
      {facts middle result : Inventory}
      {operation : SchemaOperation}
      {operations : List SchemaOperation} : Admits facts operation middle →
      AdmitsAll middle operations result →
      AdmitsAll facts (operation :: operations) result

variable {result : Inventory} {left right : List SchemaOperation}

theorem AdmitsAll.append {middle : Inventory} (first : AdmitsAll facts left middle)
    (second : AdmitsAll middle right result) : AdmitsAll facts (left ++ right) result := by
  induction first with
  | nil => exact second
  | cons admitted _ ih => exact .cons admitted (ih second)

theorem AdmitsAll.split (run : AdmitsAll facts (left ++ right) result) :
    ∃ middle, AdmitsAll facts left middle ∧ AdmitsAll middle right result := by
  induction left generalizing facts with
  | nil => exact ⟨facts, .nil, run⟩
  | cons operation operations ih =>
    cases run with
    | cons admitted rest =>
      obtain ⟨middle, first, second⟩ := ih rest
      exact ⟨middle, .cons admitted first, second⟩

theorem Inventory.Keyed.insert (keyed : Inventory.Keyed facts) (added : SchemaFact) :
    Inventory.Keyed (facts.insert added.id added) := by
  intro id fact stored
  rw [OrderedMap.getElem?_insert_eq] at stored
  by_cases same : added.id = id
  · rw [if_pos same, Option.some.injEq] at stored
    exact stored ▸ same
  · rw [if_neg same] at stored
    exact keyed id fact stored

theorem Inventory.Keyed.replace (keyed : Inventory.Keyed facts) (change : Replacement) :
    Inventory.Keyed (facts.insert change.expected.id change.replacement) := by
  rw [change.sameIdentity]
  exact keyed.insert change.replacement

theorem Inventory.Keyed.erase (keyed : Inventory.Keyed facts) (removed : SchemaFactId) :
    Inventory.Keyed (facts.erase removed) := by
  intro id fact stored
  rw [OrderedMap.getElem?_erase_eq] at stored
  by_cases same : removed = id
  · simp [same] at stored
  · rw [if_neg same] at stored
    exact keyed id fact stored

variable {operation : SchemaOperation}

theorem Admits.keyed (admitted : Admits facts operation result) (keyed : Inventory.Keyed facts) :
    Inventory.Keyed result := by
  cases admitted with
  | define => exact keyed.insert _
  | redefine => exact keyed.replace _
  | undefine => exact keyed.erase _

theorem validateInventory_eq_ok_iff (keyed : Inventory.Keyed facts) :
    validateInventory facts = .ok () ↔ Plannable facts ∧ Complete facts := by
  unfold validateInventory
  rw [bind_eq_ok]
  constructor
  · rintro ⟨graph, built, complete⟩
    exact ⟨(FactDependencyGraph.exists_fromFacts_iff keyed).mp ⟨graph, built⟩,
      (FactDependencyGraph.validateComplete_eq_ok_iff keyed built).mp complete⟩
  · rintro ⟨plannable, complete⟩
    obtain ⟨graph, built⟩ := (FactDependencyGraph.exists_fromFacts_iff keyed).mpr plannable
    exact ⟨graph, built, (FactDependencyGraph.validateComplete_eq_ok_iff keyed built).mpr complete⟩

variable {state : ReplayedFacts}

theorem undefine_eq_ok_iff {next : ReplayedFacts} (keyed : Inventory.Keyed state.facts) :
    state.undefine fact = .ok next ↔ state.facts[fact.id]? = some fact ∧ Plannable state.facts ∧
        (∀ dependent, ¬ DependsOn state.facts dependent fact.id) ∧
        next = ⟨state.facts.erase fact.id, state.spans.erase fact.id⟩ := by
  unfold ReplayedFacts.undefine
  rw [unless_eq_ok, not_ne_iff, bind_eq_ok, ← FactDependencyGraph.exists_fromFacts_iff keyed]
  have survivors : ∀ graph, FactDependencyGraph.fromFacts state.facts.values = .ok graph →
        (¬ (graph.dependents fact.id).any (· ∈ state.facts) = true ↔
          ∀ dependent, ¬ DependsOn state.facts dependent fact.id) := by
    intro graph built
    rw [← FactDependencyGraph.dependents_eq_nil_iff keyed built]
    constructor
    · intro none
      rw [List.eq_nil_iff_forall_not_mem]
      intro dependent member
      apply none
      rw [List.any_eq_true]
      refine ⟨dependent, member, decide_eq_true ?_⟩
      exact ((FactDependencyGraph.mem_dependents_iff keyed built).mp member).mem
    · intro empty
      simp [empty]
  constructor
  · rintro ⟨stored, graph, built, run⟩
    rw [unless_eq_ok, pure_eq_ok] at run
    exact ⟨stored, ⟨graph, built⟩, (survivors graph built).mp run.1, run.2.symm⟩
  · rintro ⟨stored, ⟨graph, built⟩, independent, rfl⟩
    refine ⟨stored, graph, built, ?_⟩
    rw [unless_eq_ok, pure_eq_ok]
    exact ⟨(survivors graph built).mpr independent, rfl⟩

variable {index : Nat}

theorem redefine_eq_ok_iff {next : ReplayedFacts} {change : Replacement} :
    state.redefine index change = .ok next ↔
      state.facts[change.expected.id]? = some change.expected ∧ validateInventory
          (state.facts.insert change.expected.id change.replacement) = .ok () ∧
        ∃ span, syntheticSpan index 0 = .ok span ∧
          next = ⟨state.facts.insert change.expected.id change.replacement,
            state.spans.insert change.expected.id span⟩ := by
  unfold ReplayedFacts.redefine
  rw [unless_eq_ok, not_ne_iff]
  simp only [bind_eq_ok, pure_eq_ok]
  constructor
  · rintro ⟨stored, span, known, ⟨⟩, valid, rfl⟩
    exact ⟨stored, valid, span, known, rfl⟩
  · rintro ⟨stored, valid, span, known, rfl⟩
    exact ⟨stored, span, known, (), valid, rfl⟩

theorem define_single_eq_ok_iff {next : ReplayedFacts} :
    state.define index (.single fact) = .ok next ↔ fact.id ∉ state.facts ∧
        validateInventory (state.facts.insert fact.id fact) = .ok () ∧
        ∃ span, syntheticSpan index 0 = .ok span ∧ next = ⟨state.facts.insert fact.id fact,
            state.spans.insert fact.id span⟩ := by
  unfold ReplayedFacts.define
  rw [unless_eq_ok]
  simp only [DefinedFacts.single, List.any_cons, List.any_nil,
    Bool.or_false, decide_eq_true_eq, List.zipIdx_cons, List.zipIdx_nil,
    List.foldlM_cons, List.foldlM_nil, ReplayedFacts.store, bind_eq_ok, pure_eq_ok]
  constructor
  · rintro ⟨fresh, _, ⟨_, ⟨span, known, rfl⟩, rfl⟩, ⟨⟩, valid, rfl⟩
    exact ⟨fresh, valid, span, known, rfl⟩
  · rintro ⟨fresh, valid, span, known, rfl⟩
    exact ⟨fresh, _, ⟨_, ⟨span, known, rfl⟩, rfl⟩, (), valid, rfl⟩

def SchemaOperation.IsSingle : SchemaOperation → Prop
  | .define group => ∃ fact, group = .single fact
  | _ => True

/-- Every stored fact has a span and every span a fact. -/
def ReplayedFacts.Sourced (state : ReplayedFacts) : Prop :=
  ∀ id : SchemaFactId, id ∈ state.facts ↔ id ∈ state.spans

theorem exists_syntheticSpan (early : index < maxCanonicalCollectionLen) :
    ∃ span, syntheticSpan index 0 = .ok span := by
  have fits : index * 1000 + 0 + 1 < 2 ^ 32 := by
    unfold maxCanonicalCollectionLen at early
    calc
      index * 1000 + 0 + 1 ≤ 65536 * 1000 := by omega
      _ < 2 ^ 32 := by norm_num
  unfold syntheticSpan
  rw [if_pos fits]
  exact ⟨_, rfl⟩

theorem rejectOpaqueFunction_eq_ok_iff : rejectOpaqueFunction operation = .ok () ↔
      ∀ fact ∈ operation.facts, fact.isFunction = false := by
  unfold rejectOpaqueFunction
  split <;> simp_all

theorem exists_step_iff (keyed : Inventory.Keyed state.facts) (single : operation.IsSingle)
    (early : index < maxCanonicalCollectionLen) :
    (∃ next, state.step (operation, index) = .ok next ∧ next.facts = result) ↔
      Admits state.facts operation result := by
  obtain ⟨span, known⟩ := exists_syntheticSpan early
  unfold ReplayedFacts.step
  simp only [bind_eq_ok]
  constructor
  · rintro ⟨next, ⟨⟨⟩, plain, run⟩, rfl⟩
    rw [rejectOpaqueFunction_eq_ok_iff] at plain
    cases operation with
    | define group =>
      obtain ⟨fact, rfl⟩ := single
      obtain ⟨fresh, valid, _, -, rfl⟩ := define_single_eq_ok_iff.mp run
      have admitted := (validateInventory_eq_ok_iff (keyed.insert fact)).mp valid
      exact .define (plain fact (by simp [SchemaOperation.facts,
        DefinedFacts.single])) fresh admitted.1 admitted.2
    | redefine change =>
      obtain ⟨stored, valid, _, -, rfl⟩ := redefine_eq_ok_iff.mp run
      have admitted := (validateInventory_eq_ok_iff (keyed.replace change)).mp valid
      exact .redefine (plain _ (by simp [SchemaOperation.facts]))
        (plain _ (by simp [SchemaOperation.facts])) stored admitted.1 admitted.2
    | undefine fact =>
      obtain ⟨stored, plannable, independent, rfl⟩ := (undefine_eq_ok_iff keyed).mp run
      exact .undefine (plain fact (by simp [SchemaOperation.facts])) stored plannable independent
  · intro admitted
    cases admitted with
    | @define fact notFunction fresh plannable complete =>
      refine ⟨⟨_, state.spans.insert fact.id span⟩, ⟨(), ?_, ?_⟩, rfl⟩
      · rw [rejectOpaqueFunction_eq_ok_iff]
        simpa [SchemaOperation.facts, DefinedFacts.single] using notFunction
      · exact define_single_eq_ok_iff.mpr ⟨fresh,
          (validateInventory_eq_ok_iff (keyed.insert fact)).mpr
            ⟨plannable, complete⟩, span, known, rfl⟩
    | @redefine change expectedPlain replacementPlain stored plannable complete =>
        refine ⟨⟨_, state.spans.insert change.expected.id span⟩, ⟨(), ?_, ?_⟩, rfl⟩
        · rw [rejectOpaqueFunction_eq_ok_iff]
          simp [SchemaOperation.facts, expectedPlain, replacementPlain]
        · exact redefine_eq_ok_iff.mpr ⟨stored,
            (validateInventory_eq_ok_iff (keyed.replace change)).mpr
              ⟨plannable, complete⟩, span, known, rfl⟩
    | @undefine fact notFunction stored plannable independent =>
      refine ⟨⟨_, state.spans.erase fact.id⟩, ⟨(), ?_, ?_⟩, rfl⟩
      · rw [rejectOpaqueFunction_eq_ok_iff]
        simpa [SchemaOperation.facts] using notFunction
      · exact (undefine_eq_ok_iff keyed).mpr ⟨stored, plannable, independent, rfl⟩

theorem step_sourced {next : ReplayedFacts} (keyed : Inventory.Keyed state.facts)
    (sourced : state.Sourced) (single : operation.IsSingle)
    (run : state.step (operation, index) = .ok next) : next.Sourced := by
  obtain ⟨-, -, run⟩ := bind_eq_ok.mp run
  intro id
  cases operation with
  | define group =>
    obtain ⟨fact, rfl⟩ := single
    obtain ⟨-, -, span, -, rfl⟩ := define_single_eq_ok_iff.mp run
    simp [Std.ExtTreeMap.mem_insert, sourced id]
  | redefine change =>
    obtain ⟨-, -, span, -, rfl⟩ := redefine_eq_ok_iff.mp run
    simp [Std.ExtTreeMap.mem_insert, sourced id]
  | undefine fact =>
    obtain ⟨-, -, -, rfl⟩ := (undefine_eq_ok_iff keyed).mp run
    simp [Std.ExtTreeMap.mem_erase, sourced id]

section

variable (operations : List SchemaOperation)

theorem foldlM_step_admits (single : ∀ operation ∈ operations, operation.IsSingle)
    (early : index + operations.length ≤ maxCanonicalCollectionLen) {next : ReplayedFacts}
    (keyed : Inventory.Keyed state.facts) (sourced : state.Sourced)
    (run : (operations.zipIdx index).foldlM ReplayedFacts.step state = .ok next) :
    AdmitsAll state.facts operations next.facts ∧ next.Sourced := by
  induction operations generalizing index state with
  | nil =>
    rw [List.zipIdx_nil, List.foldlM_nil, pure_eq_ok] at run
    subst next
    exact ⟨.nil, sourced⟩
  | cons operation rest ih =>
    rw [List.length_cons] at early
    rw [List.zipIdx_cons] at run
    obtain ⟨middle, step, restRun⟩ := foldlM_cons_eq_ok.mp run
    have firstSingle := single operation (by simp)
    have admitted := (exists_step_iff keyed firstSingle (by omega)).mp ⟨middle, step, rfl⟩
    obtain ⟨restAdmitted, nextSourced⟩ := ih
        (fun other member => single other (by simp [member])) (by omega) (admitted.keyed keyed)
        (step_sourced keyed sourced firstSingle step) restRun
    exact ⟨.cons admitted restAdmitted, nextSourced⟩

theorem exists_foldlM_step (single : ∀ operation ∈ operations, operation.IsSingle)
    (early : index + operations.length ≤ maxCanonicalCollectionLen)
    (keyed : Inventory.Keyed state.facts) (admitted : AdmitsAll state.facts operations result) :
    ∃ next, (operations.zipIdx index).foldlM ReplayedFacts.step state =
      .ok next ∧ next.facts = result := by
  induction operations generalizing index state with
  | nil =>
    cases admitted with
    | nil => exact ⟨state, rfl, rfl⟩
  | cons operation rest ih =>
    rw [List.length_cons] at early
    rw [List.zipIdx_cons]
    cases admitted with
    | cons first later =>
      have small : index < maxCanonicalCollectionLen := by omega
      obtain ⟨middle, step, rfl⟩ :=
        (exists_step_iff keyed (single operation (by simp)) small).mpr first
      have restEarly : index + 1 + rest.length ≤ maxCanonicalCollectionLen := by omega
      obtain ⟨next, run, same⟩ := ih (fun other member => single other (by simp [member]))
          restEarly (first.keyed keyed) later
      exact ⟨next, foldlM_cons_eq_ok.mpr ⟨middle, step, run⟩, same⟩

end

/-! ## Transitions -/

/-- The dependencies of the inventory decrease a rank. -/
def Founded (facts : Inventory) : Prop :=
  ∃ rank : SchemaFactId → Nat, ∀ id needed, DependsOn facts id needed → rank needed < rank id

/--
The facts of a plan-shaped list of operations between two inventories.

Added facts are defined in least-ready order of the target, changed facts are
replaced in any order, and removed facts are undefined in the reverse of the
least-ready order of the source.
-/
structure Transition (source target : Inventory) where
  defined : List SchemaFact
  replaced : List Replacement
  removed : List SchemaFact
  definedStored : ∀ fact ∈ defined, target[fact.id]? = some fact
  definedOrder : LeastReady id (DependsOn target) (addedIds source target).toFinset
      (defined.map SchemaFact.id)
  expectedStored : ∀ change ∈ replaced, source[change.expected.id]? = some change.expected
  replacementStored : ∀ change ∈ replaced, target[change.expected.id]? = some change.replacement
  replacedDistinct : (replaced.map (·.expected.id)).Nodup
  replacedExact : ∀ id, id ∈ replaced.map (·.expected.id) ↔ id ∈ redefinedIds source target
  removedStored : ∀ fact ∈ removed, source[fact.id]? = some fact
  removedOrder : LeastReady id (DependsOn source) (removedIds source target).toFinset
      (removed.map SchemaFact.id).reverse

theorem mem_addedIds {id : SchemaFactId} :
    id ∈ addedIds source target ↔ id ∈ target ∧ id ∉ source := by
  simp [addedIds, Std.ExtTreeMap.mem_keys]

theorem mem_removedIds {id : SchemaFactId} :
    id ∈ removedIds source target ↔ id ∈ source ∧ id ∉ target := by
  simp [removedIds, Std.ExtTreeMap.mem_keys]

theorem mem_redefinedIds {id : SchemaFactId} :
    id ∈ redefinedIds source target ↔ id ∈ source ∧ id ∈ target ∧ source[id]? ≠ target[id]? := by
  simp [redefinedIds, Std.ExtTreeMap.mem_keys]

namespace Transition

variable {source target : Inventory}

def operations (transition : Transition source target) : List SchemaOperation :=
  transition.defined.map (fun fact => .define (.single fact)) ++
    transition.replaced.map .redefine ++
    transition.removed.map .undefine

/-- The defined identities in order. -/
def definedIds (transition : Transition source target) : List SchemaFactId :=
  transition.defined.map SchemaFact.id

/-- The replaced identities in order. -/
def replacedIds (transition : Transition source target) : List SchemaFactId :=
  transition.replaced.map (·.expected.id)

/-- The undefined identities in order. -/
def undefinedIds (transition : Transition source target) : List SchemaFactId :=
  transition.removed.map SchemaFact.id

variable (transition : Transition source target)

theorem mem_definedIds {id : SchemaFactId} :
    id ∈ transition.definedIds ↔ id ∈ target ∧ id ∉ source := by
  exact (transition.definedOrder.mem_iff.trans List.mem_toFinset).trans mem_addedIds

theorem mem_replacedIds {id : SchemaFactId} :
    id ∈ transition.replacedIds ↔ id ∈ source ∧ id ∈ target ∧ source[id]? ≠ target[id]? := by
  rw [← mem_redefinedIds]
  exact transition.replacedExact id

theorem mem_undefinedIds {id : SchemaFactId} :
    id ∈ transition.undefinedIds ↔ id ∈ source ∧ id ∉ target := by
  rw [← List.mem_reverse]
  exact (transition.removedOrder.mem_iff.trans List.mem_toFinset).trans mem_removedIds

theorem nodup_definedIds : transition.definedIds.Nodup := transition.definedOrder.nodup

theorem nodup_undefinedIds : transition.undefinedIds.Nodup :=
  List.nodup_reverse.mp transition.removedOrder.nodup

theorem swapped_ids : (transition.replaced.reverse.map Replacement.swap).map (·.expected.id) =
      transition.replacedIds.reverse := by
  rw [replacedIds, ← List.map_reverse, List.map_map]
  apply List.map_congr_left
  intro change _
  exact change.sameIdentity.symm

/-- The operations read backwards, each inverted, form a transition back. -/
def inverse (transition : Transition source target) : Transition target source where
  defined := transition.removed.reverse
  replaced := transition.replaced.reverse.map Replacement.swap
  removed := transition.defined.reverse
  definedStored := by
    intro fact member
    exact transition.removedStored fact (List.mem_reverse.mp member)
  definedOrder := by
    rw [List.map_reverse]
    exact transition.removedOrder
  expectedStored := by
    intro change member
    obtain ⟨original, listed, rfl⟩ := List.mem_map.mp member
    rw [List.mem_reverse] at listed
    have stored := transition.replacementStored original listed
    rw [original.sameIdentity] at stored
    exact stored
  replacementStored := by
    intro change member
    obtain ⟨original, listed, rfl⟩ := List.mem_map.mp member
    rw [List.mem_reverse] at listed
    have stored := transition.expectedStored original listed
    rw [original.sameIdentity] at stored
    exact stored
  replacedDistinct := by
    rw [transition.swapped_ids]
    exact List.nodup_reverse.mpr transition.replacedDistinct
  replacedExact := by
    intro id
    rw [transition.swapped_ids, List.mem_reverse, transition.mem_replacedIds, mem_redefinedIds]
    constructor
    · rintro ⟨inSource, inTarget, different⟩
      exact ⟨inTarget, inSource, different.symm⟩
    · rintro ⟨inTarget, inSource, different⟩
      exact ⟨inSource, inTarget, different.symm⟩
  removedStored := by
    intro fact member
    exact transition.definedStored fact (List.mem_reverse.mp member)
  removedOrder := by
    rw [List.map_reverse, List.reverse_reverse]
    exact transition.definedOrder

end Transition

/-! ## Intermediate inventories -/

def Progress (source target : Inventory) (processed : List SchemaFactId) (facts : Inventory) :
    Prop :=
  ∀ id : SchemaFactId, facts[id]? = if id ∈ processed then target[id]? else source[id]?

namespace Progress

variable {source target facts : Inventory} {processed : List SchemaFactId}

theorem start : Progress source target [] source := by
  intro id
  simp

variable (progress : Progress source target processed facts)
include progress

theorem mem_of_mem {id : SchemaFactId} (done : id ∈ processed) (stored : id ∈ target) :
    id ∈ facts := by
  rw [Inventory.mem_iff_exists] at stored ⊢
  rw [progress id, if_pos done]
  exact stored

theorem mem_of_not_mem {id : SchemaFactId} (pending : id ∉ processed) (stored : id ∈ source) :
    id ∈ facts := by
  rw [Inventory.mem_iff_exists] at stored ⊢
  rw [progress id, if_neg pending]
  exact stored

theorem mem_of_both {id : SchemaFactId} (inSource : id ∈ source) (inTarget : id ∈ target) :
    id ∈ facts := by
  by_cases done : id ∈ processed
  · exact progress.mem_of_mem done inTarget
  · exact progress.mem_of_not_mem done inSource

theorem insert {id : SchemaFactId} {fact : SchemaFact} (stored : target[id]? = some fact) :
    Progress source target (processed ++ [id]) (facts.insert id fact) := by
  intro query
  rw [OrderedMap.getElem?_insert_eq]
  by_cases same : id = query
  · subst query
    simp [stored]
  · rw [if_neg same, progress query]
    simp [List.mem_append, Ne.symm same]

theorem erase {id : SchemaFactId} (absent : id ∉ target) :
    Progress source target (processed ++ [id]) (facts.erase id) := by
  intro query
  rw [OrderedMap.getElem?_erase_eq]
  by_cases same : id = query
  · subst query
    simp [Std.ExtTreeMap.getElem?_eq_none absent]
  · rw [if_neg same, progress query]
    simp [List.mem_append, Ne.symm same]

theorem eq_target (all : ∀ id, source[id]? ≠ target[id]? → id ∈ processed) : facts = target := by
  apply Std.ExtTreeMap.ext_getElem?
  intro id
  rw [progress id]
  by_cases done : id ∈ processed
  · rw [if_pos done]
  · rw [if_neg done]
    by_contra different
    exact done (all id different)

end Progress

namespace Transition

variable {source target facts : Inventory} (transition : Transition source target)
  {before after : List SchemaFactId}

theorem mixture_defining (comparable : Comparable source target)
    (split : transition.definedIds = before ++ after)
    (progress : Progress source target before facts) : Mixture source target facts where
  common := fun id inSource inTarget => progress.mem_of_both inSource inTarget
  origin := by
    intro id fact stored
    rw [progress id] at stored
    by_cases done : id ∈ before
    · rw [if_pos done] at stored
      refine Or.inr ⟨stored, ?_⟩
      intro needed requires
      have inTarget :=
        comparable.targetComplete.mem_of_requires comparable.targetPlannable stored requires
      by_cases inSource : needed ∈ source
      · exact progress.mem_of_both inSource inTarget
      · -- An added prerequisite is defined before the fact.
        apply progress.mem_of_mem _ inTarget
        obtain ⟨earlier, later, shape⟩ := List.append_of_mem done
        have listed : transition.defined.map SchemaFact.id = earlier ++ id :: (later ++ after) := by
          rw [← List.cons_append, ← List.append_assoc, ← shape]
          exact split
        have order := transition.definedOrder
        rw [listed] at order
        rw [shape]
        apply List.mem_append_left
        apply order.mem_before
        · rw [List.mem_toFinset]
          exact mem_addedIds.mpr ⟨inTarget, inSource⟩
        · exact comparable.targetPlannable.dependsOn_iff.mpr ⟨fact, stored, requires⟩
    · rw [if_neg done] at stored
      refine Or.inl ⟨stored, ?_⟩
      intro needed requires
      have inSource :=
        comparable.sourceComplete.mem_of_requires comparable.sourcePlannable stored requires
      apply progress.mem_of_not_mem _ inSource
      intro neededDone
      have added : needed ∈ transition.definedIds := by
        rw [split]
        exact List.mem_append_left _ neededDone
      exact (transition.mem_definedIds.mp added).2 inSource

theorem mixture_replacing (comparable : Comparable source target)
    (split : transition.replacedIds = before ++ after)
    (progress : Progress source target (transition.definedIds ++ before) facts) :
    Mixture source target facts where
  common := fun id inSource inTarget => progress.mem_of_both inSource inTarget
  origin := by
    have everything : ∀ needed, needed ∈ source ∨ needed ∈ target → needed ∈ facts := by
      intro needed inEither
      by_cases inSource : needed ∈ source
      · by_cases inTarget : needed ∈ target
        · exact progress.mem_of_both inSource inTarget
        · apply progress.mem_of_not_mem _ inSource
          rw [List.mem_append, not_or]
          constructor
          · intro added
            exact inTarget (transition.mem_definedIds.mp added).1
          · intro replaced
            have listed : needed ∈ transition.replacedIds := by
              rw [split]
              exact List.mem_append_left _ replaced
            exact inTarget (transition.mem_replacedIds.mp listed).2.1
      · have inTarget := inEither.resolve_left inSource
        exact progress.mem_of_mem (List.mem_append_left _
            (transition.mem_definedIds.mpr ⟨inTarget, inSource⟩)) inTarget
    intro id fact stored
    rw [progress id] at stored
    split at stored
    · refine Or.inr ⟨stored, fun needed requires => ?_⟩
      exact everything needed (Or.inr (comparable.targetComplete.mem_of_requires
          comparable.targetPlannable stored requires))
    · refine Or.inl ⟨stored, fun needed requires => ?_⟩
      exact everything needed (Or.inl (comparable.sourceComplete.mem_of_requires
          comparable.sourcePlannable stored requires))

end Transition

theorem Transition.undefined_later (transition : Transition source target)
    {earlier later : List SchemaFactId} {id : SchemaFactId}
    (shape : transition.undefinedIds = earlier ++ id :: later)
    (removed : needed ∈ removedIds source target) (depends : DependsOn source id needed) :
    needed ∈ later := by
  have order := transition.removedOrder
  have reversed : (transition.removed.map SchemaFact.id).reverse =
        later.reverse ++ id :: earlier.reverse := by
    change transition.undefinedIds.reverse = _
    rw [shape]
    simp
  rw [reversed] at order
  exact List.mem_reverse.mp (order.mem_before (List.mem_toFinset.mpr removed) depends)

/--
Some of the removed facts have been undefined, after every definition and
replacement.
-/
structure Removing {source target : Inventory} (transition : Transition source target)
    (before after : List SchemaFactId) (facts : Inventory) : Prop where
  split : transition.undefinedIds = before ++ after
  progress : Progress source target
      (transition.definedIds ++ transition.replacedIds ++ before) facts

namespace Removing

variable {source target facts : Inventory} {transition : Transition source target}
  {before after : List SchemaFactId}

variable (removing : Removing transition before after facts)
include removing

theorem target_stored {id : SchemaFactId} (inTarget : id ∈ target) : facts[id]? = target[id]? := by
  rw [removing.progress id]
  split
  · rfl
  · next pending =>
      simp only [List.mem_append, not_or] at pending
      by_contra different
      have inSource : id ∈ source := by
        by_contra notSource
        exact pending.1.1 (transition.mem_definedIds.mpr ⟨inTarget, notSource⟩)
      exact pending.1.2 (transition.mem_replacedIds.mpr ⟨inSource, inTarget, different⟩)

theorem pending_stored {id : SchemaFactId} (pending : id ∈ after) :
    facts[id]? = source[id]? ∧ id ∉ target := by
  have listed : id ∈ transition.undefinedIds := by
    rw [removing.split]
    exact List.mem_append_right _ pending
  obtain ⟨-, notTarget⟩ := transition.mem_undefinedIds.mp listed
  refine ⟨?_, notTarget⟩
  have distinct := transition.nodup_undefinedIds
  rw [removing.split] at distinct
  rw [removing.progress id, if_neg]
  simp only [List.mem_append, not_or]
  refine ⟨⟨?_, ?_⟩, ?_⟩
  · intro added
    exact notTarget (transition.mem_definedIds.mp added).1
  · intro replaced
    exact notTarget (transition.mem_replacedIds.mp replaced).2.1
  · intro undefined
    exact (List.disjoint_of_nodup_append distinct) undefined pending

theorem cases {id : SchemaFactId} {fact : SchemaFact} (stored : facts[id]? = some fact) :
    target[id]? = some fact ∨ source[id]? = some fact ∧ id ∈ after := by
  by_cases inTarget : id ∈ target
  · exact Or.inl (removing.target_stored inTarget ▸ stored)
  · have absent : target[id]? = none := Std.ExtTreeMap.getElem?_eq_none inTarget
    rw [removing.progress id] at stored
    split at stored
    · rw [absent] at stored
      cases stored
    · next pending =>
        refine Or.inr ⟨stored, ?_⟩
        have inSource : id ∈ source := Inventory.mem_iff_exists.mpr ⟨fact, stored⟩
        have listed := transition.mem_undefinedIds.mpr ⟨inSource, inTarget⟩
        rw [removing.split, List.mem_append] at listed
        rcases listed with undefined | waits
        · exact (pending (List.mem_append_right _ undefined)).elim
        · exact waits

theorem depends_stored (comparable : Comparable source target) {id needed : SchemaFactId}
    (waits : id ∈ after) (depends : DependsOn source id needed) : needed ∈ facts := by
  have inSource := comparable.sourceComplete id needed depends
  by_cases inTarget : needed ∈ target
  · exact removing.progress.mem_of_both inSource inTarget
  · obtain ⟨earlier, later, shape⟩ := List.append_of_mem waits
    have listing : transition.undefinedIds = (before ++ earlier) ++ id :: later := by
      rw [removing.split, shape, List.append_assoc]
    have undefinedLater :=
      transition.undefined_later listing (mem_removedIds.mpr ⟨inSource, inTarget⟩) depends
    have pending : needed ∈ after := by
      rw [shape]
      simp [undefinedLater]
    rw [Inventory.mem_iff_exists] at inSource ⊢
    rw [(removing.pending_stored pending).1]
    exact inSource

theorem mixture (comparable : Comparable source target) : Mixture source target facts where
  common := fun _ inSource inTarget => removing.progress.mem_of_both inSource inTarget
  origin := by
    intro id fact stored
    rcases removing.cases stored with inTarget | ⟨inSource, waits⟩
    · refine Or.inr ⟨inTarget, fun needed requires => ?_⟩
      have stays :=
        comparable.targetComplete.mem_of_requires comparable.targetPlannable inTarget requires
      rw [Inventory.mem_iff_exists, removing.target_stored stays, ← Inventory.mem_iff_exists]
      exact stays
    · refine Or.inl ⟨inSource, fun needed requires => ?_⟩
      exact removing.depends_stored comparable waits (comparable.sourcePlannable.dependsOn_iff.mpr
          ⟨fact, inSource, requires⟩)

omit removing

theorem next {removed : SchemaFactId}
    (removing : Removing transition before (removed :: after) facts) :
    Removing transition (before ++ [removed]) after (facts.erase removed) where
  split := by
    rw [removing.split]
    simp
  progress := by
    rw [← List.append_assoc]
    exact removing.progress.erase (removing.pending_stored (by simp)).2

end Removing

/-- The identity of a type or of a subtype edge. -/
def SchemaFactId.IsTypeOrSub (id : SchemaFactId) : Prop := id.position ≤ 1

theorem DependsOn.isTypeOrSub (keyed : Inventory.Keyed facts) {id : SchemaFactId}
    (depends : DependsOn facts id needed) (low : id.IsTypeOrSub) : needed.IsTypeOrSub := by
  obtain ⟨fact, prerequisites, stored, computed, member⟩ := depends
  have named := keyed id fact stored
  subst id
  cases fact with
  | type fact =>
    simp only [dependenciesFor, Except.ok.injEq] at computed
    subst prerequisites
    simp at member
  | sub edge =>
    simp only [dependenciesFor, Except.ok.injEq] at computed
    subst prerequisites
    simp only [List.mem_cons, List.not_mem_nil, or_false] at member
    rcases member with rfl | rfl <;> simp [SchemaFactId.IsTypeOrSub, SchemaFactId.position]
  | _ => simp [SchemaFactId.IsTypeOrSub, SchemaFactId.position, SchemaFact.id] at low

theorem Transition.undefined_blocks (transition : Transition source target)
    (keyed : Inventory.Keyed source) (founded : Founded source) :
    transition.undefinedIds.Pairwise fun earlier later =>
      earlier.IsTypeOrSub → later.IsTypeOrSub := by
  obtain ⟨rank, ranked⟩ := founded
  have blocks :=
    transition.removedOrder.block (fun id _ needed _ depends => ranked id needed depends)
      (fun id _ low needed _ depends => depends.isTypeOrSub keyed low)
      (fun left _ right _ low high =>
        SchemaFactId.lt_of_position_lt (Nat.lt_of_le_of_lt low (Nat.lt_of_not_le high)))
  rwa [List.pairwise_reverse] at blocks

namespace Removing

variable {source target facts : Inventory} {transition : Transition source target}
  {before after : List SchemaFactId}

theorem findSubPath_eq (removing : Removing transition before after facts)
    (comparable : Comparable source target) (paths : SamePaths source target)
    {relates : RelatesFact} {parent : RoleId} (stored : .relates relates ∈ target.values)
    (specialization : relates.specializes = some parent) :
    findSubPath facts relates.id.relation (declaringRelationType parent) =
      findSubPath target relates.id.relation (declaringRelationType parent) := by
  obtain ⟨path, found⟩ := (plannable_iff.mp comparable.targetPlannable _ stored).path relates
      parent rfl specialization
  rw [found]
  apply findSubPath_of_fewer ((removing.mixture comparable).keyed comparable) comparable.union_keyed
  · intro edge member
    rw [Std.ExtTreeMap.mem_union_iff]
    obtain ⟨fact, lookup⟩ := Inventory.mem_iff_exists.mp member
    rcases removing.cases lookup with inTarget | ⟨inSource, -⟩
    · exact Or.inr (Inventory.mem_iff_exists.mpr ⟨fact, inTarget⟩)
    · exact Or.inl (Inventory.mem_iff_exists.mpr ⟨fact, inSource⟩)
  · rw [paths relates parent stored specialization]
    exact found
  · intro edge onPath
    have inTarget := findSubPath_mem comparable.targetKeyed found onPath
    rw [Inventory.mem_iff_exists, removing.target_stored inTarget, ← Inventory.mem_iff_exists]
    exact inTarget

variable {fact : SchemaFact}

theorem target_requires (removing : Removing transition before after facts)
    (comparable : Comparable source target) (references : SameReferences source target)
    (paths : SamePaths source target) {id needed : SchemaFactId} (stored : target[id]? = some fact)
    (requires : Requires facts fact needed) : needed ∈ target := by
  have member : fact ∈ target.values := Inventory.mem_values.mpr ⟨id, stored⟩
  apply comparable.targetComplete.mem_of_requires comparable.targetPlannable stored
  cases requires with
  | direct listed => exact .direct listed
  | path specialization found onPath =>
    rw [removing.findSubPath_eq comparable paths member specialization] at found
    exact .path specialization found onPath
  | @reference function label _ referenced only =>
    have inSource := (comparable.functions function).mpr member
    have same := references function label inSource referenced
    rw [(removing.mixture comparable).labelCandidates_eq comparable same, same] at only
    exact .reference referenced only

variable {removed : SchemaFactId}

theorem pending_requires (removing : Removing transition before (removed :: after) facts)
    (comparable : Comparable source target) (founded : Founded source) {id : SchemaFactId}
    (stored : source[id]? = some fact) (waits : id ∈ removed :: after) :
    ¬ Requires facts fact removed := by
  have distinct := transition.nodup_undefinedIds
  have isRemoved : removed ∈ removedIds source target := by
    have listed : removed ∈ transition.undefinedIds := by
      rw [removing.split]
      simp
    exact mem_removedIds.mpr (transition.mem_undefinedIds.mp listed)
  intro requires
  cases requires with
  | direct listed =>
    -- The source has the same direct dependency, which orders the two.
    have depends : DependsOn source id removed := comparable.sourcePlannable.dependsOn_iff.mpr
        ⟨fact, stored, .direct listed⟩
    obtain ⟨earlier, later, shape⟩ := List.append_of_mem waits
    have listing : transition.undefinedIds = (before ++ earlier) ++ id :: later := by
      rw [removing.split, shape, List.append_assoc]
    have undefinedLater := transition.undefined_later listing isRemoved depends
    rw [removing.split, List.nodup_append] at distinct
    cases earlier with
    | nil =>
      rw [List.nil_append, List.cons.injEq] at shape
      exact (List.nodup_cons.mp distinct.2.1).1 (shape.2 ▸ undefinedLater)
    | cons first rest =>
      rw [List.cons_append, List.cons.injEq] at shape
      apply (List.nodup_cons.mp distinct.2.1).1
      rw [shape.2]
      simp [undefinedLater]
  | path _ _ _ =>
    -- Roles are undefined before any subtype edge.
    have blocks := transition.undefined_blocks comparable.sourceKeyed founded
    rw [removing.split, List.pairwise_append, List.pairwise_cons] at blocks
    have named := comparable.sourceKeyed id _ stored
    subst id
    rcases List.mem_cons.mp waits with same | later
    · cases same
    · have low := blocks.2.1.1 _ later (by simp [SchemaFactId.IsTypeOrSub, SchemaFactId.position])
      simp [SchemaFactId.IsTypeOrSub, SchemaFactId.position, SchemaFact.id] at low
  | @reference function _ _ _ _ =>
    have inTarget := (comparable.functions function).mp (Inventory.mem_values.mpr ⟨id, stored⟩)
    have named := comparable.sourceKeyed id _ stored
    rw [comparable.targetKeyed.mem_values, named] at inTarget
    exact (removing.pending_stored waits).2 (Inventory.mem_iff_exists.mpr ⟨_, inTarget⟩)

theorem independent (removing : Removing transition before (removed :: after) facts)
    (comparable : Comparable source target) (references : SameReferences source target)
    (paths : SamePaths source target) (founded : Founded source) (dependent : SchemaFactId) :
    ¬ DependsOn facts dependent removed := by
  have plannable := (removing.mixture comparable).plannable comparable references
  rw [plannable.dependsOn_iff]
  rintro ⟨fact, stored, requires⟩
  rcases removing.cases stored with inTarget | ⟨inSource, waits⟩
  · exact (removing.pending_stored (by simp)).2
      (removing.target_requires comparable references paths inTarget requires)
  · exact removing.pending_requires comparable founded inSource waits requires

end Removing

/-! ## Accepted transitions -/

namespace Transition

variable {source target facts : Inventory} (transition : Transition source target)
  (comparable : Comparable source target)
include comparable

variable {fact : SchemaFact}

theorem defined_plain (member : fact ∈ transition.defined) : fact.isFunction = false := by
  cases fact with
  | function function =>
    have stored := transition.definedStored _ member
    have inSource := (comparable.functions function).mpr (Inventory.mem_values.mpr ⟨_, stored⟩)
    have listed := transition.mem_definedIds.mp (List.mem_map_of_mem member)
    rw [comparable.sourceKeyed.mem_values] at inSource
    exact (listed.2 (Inventory.mem_iff_exists.mpr ⟨_, inSource⟩)).elim
  | _ => rfl

theorem removed_plain (member : fact ∈ transition.removed) : fact.isFunction = false :=
  transition.inverse.defined_plain comparable.symm (List.mem_reverse.mpr member)

variable {change : Replacement}

theorem expected_plain (member : change ∈ transition.replaced) :
    change.expected.isFunction = false := by
  have expected := transition.expectedStored change member
  have replacement := transition.replacementStored change member
  cases shape : change.expected with
  | function function =>
    rw [shape] at expected replacement
    have inTarget := (comparable.functions function).mp (Inventory.mem_values.mpr ⟨_, expected⟩)
    rw [comparable.targetKeyed.mem_values, replacement, Option.some.injEq] at inTarget
    exact (change.changed (shape.trans inTarget.symm)).elim
  | _ => rfl

theorem replacement_plain (member : change ∈ transition.replaced) :
    change.replacement.isFunction = false :=
  transition.inverse.expected_plain comparable.symm
    (List.mem_map.mpr ⟨change, List.mem_reverse.mpr member, rfl⟩)

theorem admits_definitions (references : SameReferences source target) (done rest : List SchemaFact)
    (split : transition.defined = done ++ rest)
    (progress : Progress source target (done.map SchemaFact.id) facts) :
    ∃ defined, AdmitsAll facts (rest.map fun fact => .define (.single fact)) defined ∧
        Progress source target transition.definedIds defined := by
  induction rest generalizing done facts with
  | nil =>
    refine ⟨facts, .nil, ?_⟩
    rw [definedIds, split, List.append_nil]
    exact progress
  | cons fact rest ih =>
    have member : fact ∈ transition.defined := by
      rw [split]
      simp
    have stored := transition.definedStored fact member
    have next := progress.insert stored
    have idsSplit : transition.definedIds = (done.map SchemaFact.id ++ [fact.id]) ++
            rest.map SchemaFact.id := by
      rw [definedIds, split]
      simp
    have mixture := transition.mixture_defining comparable idsSplit next
    have fresh : fact.id ∉ facts := by
      intro present
      rw [Inventory.mem_iff_exists, progress fact.id, if_neg, ← Inventory.mem_iff_exists] at present
      · exact (transition.mem_definedIds.mp (List.mem_map_of_mem member)).2 present
      · have distinct := transition.nodup_definedIds
        rw [idsSplit, List.append_assoc, List.nodup_append] at distinct
        intro again
        exact distinct.2.2 _ again _ (by simp) rfl
    obtain ⟨defined, run, finished⟩ := ih (done ++ [fact]) (by simp [split]) (by simpa using next)
    exact ⟨defined, .cons (.define (transition.defined_plain comparable member) fresh
        (mixture.plannable comparable references)
        (mixture.complete comparable references)) run, finished⟩

theorem admits_replacements (references : SameReferences source target)
    (done rest : List Replacement) (split : transition.replaced = done ++ rest)
    (progress : Progress source target (transition.definedIds ++ done.map (·.expected.id)) facts) :
    ∃ replaced, AdmitsAll facts (rest.map .redefine) replaced ∧ Progress source target
          (transition.definedIds ++ transition.replacedIds) replaced := by
  induction rest generalizing done facts with
  | nil =>
    refine ⟨facts, .nil, ?_⟩
    rw [replacedIds, split, List.append_nil]
    exact progress
  | cons change rest ih =>
    have member : change ∈ transition.replaced := by
      rw [split]
      simp
    have next := progress.insert (transition.replacementStored change member)
    rw [List.append_assoc] at next
    have idsSplit : transition.replacedIds = (done.map (·.expected.id) ++ [change.expected.id]) ++
            rest.map (·.expected.id) := by
      rw [replacedIds, split]
      simp
    have mixture := transition.mixture_replacing comparable idsSplit next
    have listed : change.expected.id ∈ transition.replacedIds :=
      List.mem_map.mpr ⟨change, member, rfl⟩
    have expected : facts[change.expected.id]? = some change.expected := by
      rw [progress, if_neg]
      · exact transition.expectedStored change member
      · have distinct := transition.replacedDistinct
        change transition.replacedIds.Nodup at distinct
        rw [idsSplit, List.append_assoc, List.nodup_append] at distinct
        rw [List.mem_append, not_or]
        constructor
        · intro added
          exact (transition.mem_definedIds.mp added).2 (transition.mem_replacedIds.mp listed).1
        · intro again
          exact distinct.2.2 _ again _ (by simp) rfl
    obtain ⟨replaced, run, finished⟩ := ih (done ++ [change]) (by simp [split])
        (by simpa using next)
    exact ⟨replaced, .cons (.redefine (transition.expected_plain comparable member)
        (transition.replacement_plain comparable member) expected
        (mixture.plannable comparable references)
        (mixture.complete comparable references)) run, finished⟩

omit comparable

theorem all_changes {id : SchemaFactId} (different : source[id]? ≠ target[id]?) :
    id ∈ transition.definedIds ++ transition.replacedIds ++ transition.undefinedIds := by
  simp only [List.mem_append, transition.mem_definedIds,
    transition.mem_replacedIds, transition.mem_undefinedIds]
  by_cases inSource : id ∈ source <;> by_cases inTarget : id ∈ target
  · exact Or.inl (Or.inr ⟨inSource, inTarget, different⟩)
  · exact Or.inr ⟨inSource, inTarget⟩
  · exact Or.inl (Or.inl ⟨inTarget, inSource⟩)
  · rw [Std.ExtTreeMap.getElem?_eq_none inSource,
      Std.ExtTreeMap.getElem?_eq_none inTarget] at different
    exact (different rfl).elim

theorem eq_target_of_removing {done : List SchemaFactId}
    (removing : Removing transition done [] facts) : facts = target := by
  apply removing.progress.eq_target
  intro id different
  have split := removing.split
  rw [List.append_nil] at split
  rw [← split]
  exact transition.all_changes different

theorem admits_removals (comparable : Comparable source target)
    (references : SameReferences source target) (paths : SamePaths source target)
    (founded : Founded source) (done : List SchemaFactId) (rest : List SchemaFact)
    (restRemoved : ∀ fact ∈ rest, fact ∈ transition.removed)
    (removing : Removing transition done (rest.map SchemaFact.id) facts) :
    AdmitsAll facts (rest.map .undefine) target := by
  induction rest generalizing done facts with
  | nil =>
    have reached := transition.eq_target_of_removing removing
    rw [reached]
    exact .nil
  | cons fact rest ih =>
    have member := restRemoved fact (by simp)
    have stored : facts[fact.id]? = some fact := by
      rw [(removing.pending_stored (by simp)).1]
      exact transition.removedStored fact member
    refine .cons (.undefine (transition.removed_plain comparable member)
      stored ((removing.mixture comparable).plannable comparable references)
      (removing.independent comparable references paths founded)) ?_
    exact ih _ (fun other listed => restRemoved other (by simp [listed]))
      removing.next

theorem admitsAll (comparable : Comparable source target)
    (references : SameReferences source target) (paths : SamePaths source target)
    (founded : Founded source) : AdmitsAll source transition.operations target := by
  obtain ⟨defined, definitions, definedProgress⟩ :=
    transition.admits_definitions comparable references [] _ rfl Progress.start
  obtain ⟨replaced, replacements, replacedProgress⟩ :=
    transition.admits_replacements comparable references [] _ rfl (by simpa using definedProgress)
  refine (definitions.append replacements).append ?_
  exact transition.admits_removals comparable references paths founded [] _
    (fun _ listed => listed) ⟨rfl, by simpa using replacedProgress⟩

end Transition

/-! ## What an accepted run says -/

namespace Transition

variable {source target facts result : Inventory} (transition : Transition source target)

theorem of_definitions (done rest : List SchemaFact) (split : transition.defined = done ++ rest)
    (progress : Progress source target (done.map SchemaFact.id) facts) (plannable : Plannable facts)
    (run : AdmitsAll facts (rest.map fun fact => .define (.single fact)) result) :
    Plannable result ∧ Progress source target transition.definedIds result := by
  induction rest generalizing done facts with
  | nil =>
    cases run with
    | nil =>
      refine ⟨plannable, ?_⟩
      rw [definedIds, split, List.append_nil]
      exact progress
  | cons fact rest ih =>
    have member : fact ∈ transition.defined := by
      rw [split]
      simp
    cases run with
    | cons admitted later =>
      cases admitted with
      | define _ _ nextPlannable _ =>
        refine ih (done ++ [fact]) (by simp [split]) ?_ nextPlannable later
        simpa using progress.insert (transition.definedStored fact member)

theorem of_replacements (done rest : List Replacement) (split : transition.replaced = done ++ rest)
    (progress : Progress source target (transition.definedIds ++ done.map (·.expected.id)) facts)
    (run : AdmitsAll facts (rest.map .redefine) result) :
    Progress source target (transition.definedIds ++ transition.replacedIds) result := by
  induction rest generalizing done facts with
  | nil =>
    cases run with
    | nil =>
      rw [replacedIds, split, List.append_nil]
      exact progress
  | cons change rest ih =>
    have member : change ∈ transition.replaced := by
      rw [split]
      simp
    cases run with
    | cons admitted later =>
      cases admitted with
      | redefine _ _ _ _ _ =>
        refine ih (done ++ [change]) (by simp [split]) ?_ later
        simpa using progress.insert (transition.replacementStored change member)

variable (comparable : Comparable source target)
include comparable

/--
Admitted removals reach the target without ever removing an edge of a path
that a role of the target selects.
-/
theorem of_removals (done : List SchemaFactId) (rest : List SchemaFact)
    (removing : Removing transition done (rest.map SchemaFact.id) facts)
    (run : AdmitsAll facts (rest.map .undefine) result) :
    result = target ∧ ∀ (relates : RelatesFact) (parent : RoleId),
        .relates relates ∈ target.values → relates.specializes = some parent →
        findSubPath facts relates.id.relation (declaringRelationType parent) =
          findSubPath target relates.id.relation (declaringRelationType parent) := by
  induction rest generalizing done facts with
  | nil =>
    have reached := transition.eq_target_of_removing removing
    cases run with
    | nil =>
      refine ⟨reached, ?_⟩
      intro relates parent _ _
      rw [reached]
  | cons fact rest ih =>
    cases run with
    | cons admitted later =>
      cases admitted with
      | undefine _ _ plannable independent =>
        obtain ⟨reached, selected⟩ := ih _ removing.next later
        refine ⟨reached, ?_⟩
        intro relates parent stored specialization
        rw [← selected relates parent stored specialization]
        have factsKeyed := (removing.mixture comparable).keyed comparable
        have erasedKeyed := factsKeyed.erase fact.id
        -- The role is stored throughout, so its path is not cut.
        have inFacts : facts[(SchemaFact.relates relates).id]? = some (.relates relates) := by
          have inTarget := comparable.targetKeyed.mem_values.mp stored
          rw [removing.target_stored (Inventory.mem_iff_exists.mpr ⟨_, inTarget⟩)]
          exact inTarget
        obtain ⟨path, found⟩ := (plannable_iff.mp plannable _
            (Inventory.mem_values.mpr ⟨_, inFacts⟩)).path relates parent rfl specialization
        rw [found, eq_comm]
        apply findSubPath_of_fewer erasedKeyed factsKeyed _ found
        · intro edge onPath
          rw [Std.ExtTreeMap.mem_erase]
          refine ⟨?_, findSubPath_mem factsKeyed found onPath⟩
          rw [Ne, compare_eq_iff_eq]
          intro same
          apply independent (SchemaFact.relates relates).id
          rw [same]
          exact plannable.dependsOn_iff.mpr ⟨_, inFacts, .path specialization found onPath⟩
        · intro edge member
          exact Std.ExtTreeMap.mem_of_mem_erase member

theorem findSubPath_before_removals
    (progress : Progress source target (transition.definedIds ++ transition.replacedIds) facts)
    (current goal : TypeId) :
    findSubPath (source ∪ target) current goal = findSubPath facts current goal := by
  have removing : Removing transition [] transition.undefinedIds facts :=
    ⟨rfl, by simpa using progress⟩
  have factsKeyed := (removing.mixture comparable).keyed comparable
  have unionKeyed := comparable.union_keyed
  apply findSubPath_congr unionKeyed factsKeyed
  intro edge
  rw [Std.ExtTreeMap.mem_union_iff]
  constructor
  · rintro (inSource | inTarget)
    · by_cases inTarget : .sub edge ∈ target
      · exact progress.mem_of_both inSource inTarget
      · have waits := transition.mem_undefinedIds.mpr ⟨inSource, inTarget⟩
        rw [Inventory.mem_iff_exists, (removing.pending_stored waits).1, ← Inventory.mem_iff_exists]
        exact inSource
    · rw [Inventory.mem_iff_exists, removing.target_stored inTarget, ← Inventory.mem_iff_exists]
      exact inTarget
  · intro member
    obtain ⟨fact, lookup⟩ := Inventory.mem_iff_exists.mp member
    rcases removing.cases lookup with inTarget | ⟨inSource, -⟩
    · exact Or.inr (Inventory.mem_iff_exists.mpr ⟨fact, inTarget⟩)
    · exact Or.inl (Inventory.mem_iff_exists.mpr ⟨fact, inSource⟩)

/-- A plannable inventory with every added fact has no ambiguous label. -/
theorem sameReferences_of_plannable (progress : Progress source target transition.definedIds facts)
    (plannable : Plannable facts) : SameReferences source target := by
  intro function label stored referenced
  have mixture := transition.mixture_defining comparable (List.append_nil _).symm progress
  have factsKeyed := mixture.keyed comparable
  have everywhere : ∀ id, id ∈ source ∨ id ∈ target → id ∈ facts := by
    intro id inEither
    by_cases inSource : id ∈ source
    · apply progress.mem_of_not_mem _ inSource
      intro added
      exact (transition.mem_definedIds.mp added).2 inSource
    · have inTarget := inEither.resolve_left inSource
      exact progress.mem_of_mem (transition.mem_definedIds.mpr ⟨inTarget, inSource⟩) inTarget
  have inFacts : .function function ∈ facts.values := by
    have inSource := comparable.sourceKeyed.mem_values.mp stored
    rw [factsKeyed.mem_values, progress, if_neg]
    · exact inSource
    · intro added
      exact (transition.mem_definedIds.mp added).2 (Inventory.mem_iff_exists.mpr ⟨_, inSource⟩)
  obtain ⟨candidate, only⟩ := (plannable_iff.mp plannable _ inFacts).reference function label rfl
      referenced
  obtain ⟨sourceCandidate, sourceOnly⟩ :=
    (plannable_iff.mp comparable.sourcePlannable _ stored).reference function label rfl referenced
  obtain ⟨targetCandidate, targetOnly⟩ := (plannable_iff.mp comparable.targetPlannable _
      ((comparable.functions function).mp stored)).reference function label rfl referenced
  have isCandidate : ∀ id, id ∈ source ∨ id ∈ target → id.declaresLabel label = true →
        id = candidate := by
    intro id inEither declares
    have member := (mem_labelCandidates factsKeyed).mpr ⟨everywhere id inEither, declares⟩
    rw [only, List.mem_singleton] at member
    exact member
  have sourceMember :=
    (mem_labelCandidates comparable.sourceKeyed).mp
      (sourceOnly ▸ List.mem_singleton_self sourceCandidate)
  have targetMember :=
    (mem_labelCandidates comparable.targetKeyed).mp
      (targetOnly ▸ List.mem_singleton_self targetCandidate)
  rw [sourceOnly, targetOnly, isCandidate _ (Or.inl sourceMember.1) sourceMember.2,
    isCandidate _ (Or.inr targetMember.1) targetMember.2]

theorem of_admitsAll (run : AdmitsAll source transition.operations result) :
    result = target ∧ SameReferences source target ∧ SamePaths source target := by
  obtain ⟨replaced, firstRun, removals⟩ := run.split
  obtain ⟨defined, definitions, replacements⟩ := firstRun.split
  obtain ⟨plannable, definedProgress⟩ := transition.of_definitions [] _ rfl Progress.start
      comparable.sourcePlannable definitions
  have replacedProgress :=
    transition.of_replacements [] _ rfl (by simpa using definedProgress) replacements
  obtain ⟨reached, selected⟩ := transition.of_removals comparable [] _
      ⟨rfl, by simpa using replacedProgress⟩ removals
  refine ⟨reached, transition.sameReferences_of_plannable comparable definedProgress plannable, ?_⟩
  intro relates parent stored specialization
  rw [transition.findSubPath_before_removals comparable replacedProgress]
  exact selected relates parent stored specialization

end Transition

end TypeBridge.Schema
