import TypeBridge.Schema.RoleSuccession

namespace TypeBridge.Schema

open Library Library.PathSearch
open Library.Checked hiding get

/-!
# Which resolved schemas can be planned

Three pieces of code decide whether a schema is usable: the reference checks
of declaration, resolution, and the dependency graph of the planner. They
agree on subtype paths of specialized roles. They differ on two points: the
graph wants a value domain declared on every owned attribute itself, and one
declaration only for every label a function refers to.
-/

/-! ## Paths of specialized roles -/

variable {facts : Inventory}

theorem reach_of_inheritsFrom (keyed : Inventory.Keyed facts) {current target : TypeId}
    (inherits : InheritsFrom facts current target) :
    Reach (subByChild facts) SubFactId.supertype target [] current := by
  induction inherits using Relation.ReflTransGen.head_induction_on with
  | refl => exact .here
  | head edge _ ih =>
    obtain ⟨stored, isStored, isSubtype, isSupertype⟩ := edge
    rw [← isSupertype] at ih
    refine .step (by simp) ?_ ih
    exact (mem_subByChild keyed).mpr ⟨keyed.sub_mem_values.mp isStored, isSubtype⟩

theorem Resolution.inheritsFrom_specialized {profile : SemanticProfile}
    {parents : Std.ExtTreeMap TypeId TypeId} {types : TypeMap} (keyed : Inventory.Keyed facts)
    (valid : validateFacts facts = []) (resolution : Resolution facts profile parents types)
    {fact : RelatesFact} {parent : RoleId} (stored : .relates fact ∈ facts.values)
    (specializes : fact.specializes = some parent) :
    InheritsFrom facts fact.id.relation (declaringRelationType parent) := by
  have declared : fact.id.relation ∈ directTypes facts := by
    have references := referencesDeclared_of_checked valid stored
    simp only [referencesDeclared, Bool.and_eq_true] at references
    exact mem_directTypes.mpr (keyed.exists_type references.1)
  obtain ⟨resolved, isResolved⟩ := resolution.exists_resolved fact.id.relation declared
  have traced := resolution.rolesTraced keyed fact.id.relation resolved
    isResolved
  have succeeded := (traced.succeeded parent).mpr ⟨fact, stored, specializes, .refl⟩
  obtain ⟨other, otherStored, isParent, inherits⟩ := traced.known parent (.inr succeeded)
  have isDeclaring : other.id.relation = declaringRelationType parent := by
    have named := other.id.eq_relatesId
    rw [isParent] at named
    exact congrArg RelatesFactId.relation named
  rw [← isDeclaring]
  exact inherits

/-! ## What the dependency graph asks for -/

/--
What the dependency graph needs beyond declaration and resolution: a value
domain on every owned attribute itself, and one declaration only of every
label a function refers to.
-/
structure DependenciesDeclared (facts : Inventory) : Prop where
  ownedValues : ∀ fact : OwnsFact, .owns fact ∈ facts.values → .value ⟨fact.id.attributeId⟩ ∈ facts
  references : ∀ fact : FunctionFact, .function fact ∈ facts.values →
      ∀ label ∈ fact.schemaReferences, ∃! id, id ∈ facts ∧ id.declaresLabel label = true

theorem exists_labelCandidates_iff (keyed : Inventory.Keyed facts) {label : Label} :
    (∃ candidate, labelCandidates facts label = [candidate]) ↔
      ∃! id, id ∈ facts ∧ id.declaresLabel label = true := by
  constructor
  · intro single
    obtain ⟨candidate, only⟩ := single
    refine ⟨candidate, ?_, ?_⟩
    · apply (mem_labelCandidates keyed).mp
      rw [only]
      exact List.mem_singleton_self candidate
    · intro other declares
      have listed := (mem_labelCandidates keyed).mpr declares
      rw [only] at listed
      exact List.mem_singleton.mp listed
  · intro unique
    obtain ⟨candidate, declares, others⟩ := unique
    refine ⟨candidate, ?_⟩
    have distinct : (labelCandidates facts label).Nodup :=
      (sorted_labelCandidates keyed label).imp fun ordered => ne_of_lt ordered
    rw [← List.perm_singleton]
    refine (List.perm_ext_iff_of_nodup distinct (by simp)).mpr ?_
    intro id
    rw [mem_labelCandidates keyed, List.mem_singleton]
    constructor
    · exact others id
    · intro same
      subst same
      exact declares

section Accepted

variable {Bytes Digest : Type} {codec : Codec Bytes Digest} {declared : DeclaredSchema codec}
  {profileId : SemanticProfileId} {available : CapabilitySet} {resolved : ResolvedSchema Digest}

theorem plannable_iff_of_resolved
    (accepted : resolveSchemaWithCapabilities declared profileId available = .ok resolved) :
    Plannable declared.facts ↔ ∀ fact : FunctionFact, .function fact ∈ declared.facts.values →
        ∀ label ∈ fact.schemaReferences,
          ∃! id, id ∈ declared.facts ∧ id.declaresLabel label = true := by
  obtain ⟨profile, parents, types, -, resolution, -⟩ := exists_resolution accepted
  rw [plannable_iff]
  constructor
  · intro determined fact stored label referenced
    exact (exists_labelCandidates_iff declared.keyed).mp
      ((determined _ stored).reference fact label rfl referenced)
  · intro unambiguous fact stored
    constructor
    · intro relates parent isRelates specializes
      subst isRelates
      have inherits :=
        resolution.inheritsFrom_specialized declared.keyed declared.checked stored specializes
      cases found : findSubPath declared.facts relates.id.relation
          (declaringRelationType parent) with
      | none =>
        exact (findSubPath_eq_none_iff.mp found
          (reach_of_inheritsFrom declared.keyed inherits)).elim
      | some path => exact ⟨path, rfl⟩
    · intro function label isFunction referenced
      subst isFunction
      exact (exists_labelCandidates_iff declared.keyed).mpr
        (unambiguous function stored label referenced)

variable {facts : Inventory}

/-- Direct prerequisites are declared, save value domains of ownerships. -/
theorem mem_of_directDependencies (valid : validateFacts facts = [])
    (ownedValues : ∀ fact : OwnsFact, .owns fact ∈ facts.values →
        .value ⟨fact.id.attributeId⟩ ∈ facts)
    {fact : SchemaFact} (stored : fact ∈ facts.values) {needed : SchemaFactId}
    (listed : needed ∈ directDependencies fact) : needed ∈ facts := by
  have references := referencesDeclared_of_checked valid stored
  cases fact with
  | type fact | struct fact | function fact => simp [directDependencies] at listed
  | sub id | plays id =>
    simp only [referencesDeclared, Bool.and_eq_true, Std.ExtTreeMap.contains_iff_mem] at references
    simp only [directDependencies, List.mem_cons, List.not_mem_nil, or_false] at listed
    rcases listed with rfl | rfl
    · exact references.1
    · exact references.2
  | value fact | annotated fact =>
    simp only [referencesDeclared, Std.ExtTreeMap.contains_iff_mem] at references
    simp only [directDependencies, List.mem_singleton] at listed
    subst listed
    exact references
  | owns fact =>
    simp only [referencesDeclared, Bool.and_eq_true, Std.ExtTreeMap.contains_iff_mem] at references
    simp only [directDependencies, List.mem_cons, List.not_mem_nil, or_false] at listed
    rcases listed with rfl | rfl | rfl
    · exact references.1
    · exact references.2
    · exact ownedValues fact stored
  | relates fact =>
    simp only [referencesDeclared, Bool.and_eq_true, Std.ExtTreeMap.contains_iff_mem] at references
    cases specialization : fact.specializes with
    | none =>
      simp only [directDependencies, specialization, Option.map_none,
        Option.toList_none, List.mem_singleton] at listed
      subst listed
      exact references.1
    | some parent =>
      simp only [specialization, Option.all_some, Std.ExtTreeMap.contains_iff_mem] at references
      simp only [directDependencies, specialization, Option.map_some,
        Option.toList_some, List.mem_cons, List.not_mem_nil, or_false] at listed
      rcases listed with rfl | rfl
      · exact references.1
      · exact references.2

theorem complete_iff_of_plannable (plannable : Plannable declared.facts) :
    Complete declared.facts ↔ ∀ fact : OwnsFact, .owns fact ∈ declared.facts.values →
        .value ⟨fact.id.attributeId⟩ ∈ declared.facts := by
  constructor
  · intro complete fact stored
    apply complete (SchemaFact.owns fact).id
    refine plannable.dependsOn_iff.mpr ⟨.owns fact, declared.keyed.mem_values.mp stored, .direct ?_⟩
    simp [directDependencies]
  · intro ownedValues id needed depends
    obtain ⟨fact, stored, requires⟩ := plannable.dependsOn_iff.mp depends
    have listed : fact ∈ declared.facts.values := Inventory.mem_values.mpr ⟨id, stored⟩
    cases requires with
    | direct isDirect =>
      exact mem_of_directDependencies declared.checked ownedValues listed isDirect
    | path _ found onPath => exact findSubPath_mem declared.keyed found onPath
    | @reference _ label _ _ only =>
      have candidate : needed ∈ labelCandidates declared.facts label := by
        rw [only]
        exact List.mem_singleton_self needed
      exact ((mem_labelCandidates declared.keyed).mp candidate).1

def GraphAccepts (facts : Inventory) : Prop :=
  ∃ graph, FactDependencyGraph.fromFacts facts.values = .ok graph ∧ graph.validateComplete = .ok ()

theorem graphAccepts_iff (keyed : Inventory.Keyed facts) :
    GraphAccepts facts ↔ Plannable facts ∧ Complete facts := by
  constructor
  · intro accepts
    obtain ⟨graph, built, complete⟩ := accepts
    exact ⟨(FactDependencyGraph.exists_fromFacts_iff keyed).mp ⟨graph, built⟩,
      (FactDependencyGraph.validateComplete_eq_ok_iff keyed built).mp complete⟩
  · intro accepted
    obtain ⟨graph, built⟩ := (FactDependencyGraph.exists_fromFacts_iff keyed).mpr accepted.1
    exact ⟨graph, built, (FactDependencyGraph.validateComplete_eq_ok_iff keyed built).mpr
        accepted.2⟩

theorem graphAccepts_iff_of_resolved
    (accepted : resolveSchemaWithCapabilities declared profileId available = .ok resolved) :
    GraphAccepts declared.facts ↔ DependenciesDeclared declared.facts := by
  rw [graphAccepts_iff declared.keyed]
  constructor
  · intro accepts
    exact ⟨(complete_iff_of_plannable accepts.1).mp accepts.2,
      (plannable_iff_of_resolved accepted).mp accepts.1⟩
  · intro dependencies
    have plannable := (plannable_iff_of_resolved accepted).mpr dependencies.references
    exact ⟨plannable, (complete_iff_of_plannable plannable).mpr dependencies.ownedValues⟩

end Accepted

theorem exists_planSchemaOperations_iff {source target : Inventory}
    (sourceKeyed : Inventory.Keyed source) (targetKeyed : Inventory.Keyed target)
    (targetFounded : Founded target) :
    (∃ operations, planSchemaOperations source target = .ok operations) ↔
      GraphAccepts source ∧ GraphAccepts target ∧ changesFunction source target = false := by
  constructor
  · intro planned
    obtain ⟨operations, planned⟩ := planned
    obtain ⟨sourceGraph, sourceBuilt, planned⟩ := bind_eq_ok.mp planned
    obtain ⟨targetGraph, targetBuilt, planned⟩ := bind_eq_ok.mp planned
    obtain ⟨_, sourceComplete, planned⟩ := bind_eq_ok.mp planned
    obtain ⟨_, targetComplete, planned⟩ := bind_eq_ok.mp planned
    obtain ⟨unchanged, -⟩ := unless_eq_ok.mp planned
    exact ⟨⟨sourceGraph, sourceBuilt, sourceComplete⟩,
      ⟨targetGraph, targetBuilt, targetComplete⟩, by simpa using unchanged⟩
  · intro accepts
    obtain ⟨⟨sourceGraph, sourceBuilt, sourceComplete⟩,
      ⟨targetGraph, targetBuilt, targetComplete⟩, unchanged⟩ := accepts
    obtain ⟨defined, -, -, definitions⟩ :=
      planDefinitions_spec source targetKeyed targetFounded targetBuilt
    obtain ⟨replaced, -, -, replacements⟩ :=
      planReplacements_spec sourceKeyed targetKeyed targetFounded targetBuilt
    refine ⟨_, bind_eq_ok.mpr ⟨sourceGraph, sourceBuilt,
      bind_eq_ok.mpr ⟨targetGraph, targetBuilt, bind_eq_ok.mpr ⟨(), sourceComplete,
          bind_eq_ok.mpr ⟨(), targetComplete, unless_eq_ok.mpr ⟨by simp [unchanged],
              bind_eq_ok.mpr ⟨_, definitions, bind_eq_ok.mpr ⟨_, replacements, rfl⟩⟩⟩⟩⟩⟩⟩⟩

section Planned

variable {Bytes Digest : Type} {codec : Codec Bytes Digest}

/--
The dependency graph accepts a resolved schema exactly if owned attributes
declare their value domain themselves and function references are unambiguous.
Two resolved schemas are planned exactly if the graph accepts both and no
function changes.
-/
theorem resolved_plannable_iff {source : DeclaredSchema codec} {profileId : SemanticProfileId}
    {available : CapabilitySet} {resolved : ResolvedSchema Digest}
    (accepted : resolveSchemaWithCapabilities source profileId available = .ok resolved) :
    (GraphAccepts source.facts ↔ DependenciesDeclared source.facts) ∧
      ∀ (target : DeclaredSchema codec) targetProfileId targetAvailable targetResolved,
        resolveSchemaWithCapabilities target targetProfileId targetAvailable = .ok targetResolved →
          ((∃ operations, planSchemaOperations source.facts target.facts = .ok operations) ↔
            DependenciesDeclared source.facts ∧ DependenciesDeclared target.facts ∧
              changesFunction source.facts target.facts = false) := by
  refine ⟨graphAccepts_iff_of_resolved accepted, ?_⟩
  intro target targetProfileId targetAvailable targetResolved targetAccepted
  rw [exists_planSchemaOperations_iff source.keyed target.keyed
      (founded_of_resolved targetAccepted), graphAccepts_iff_of_resolved accepted,
    graphAccepts_iff_of_resolved targetAccepted]

end Planned

/-! ## An inherited value domain -/

/-- Abstract `a` with a value domain, `b sub a` and an entity `p`. -/
def inheritedValueFacts : List SchemaFact :=
  attributeFacts .string ++ [.annotated
        ⟨⟨.type ⟨.attribute, ⟨"a"⟩⟩, .abstract⟩, .presence, by decide, by decide⟩,
      attributeB, attributeBSubA, entityP]

/-- An entity that owns an attribute. -/
def ownershipFact (attributeName : String) : SchemaFact :=
  .owns ⟨.ofLabels "p" attributeName, .unordered⟩

/-- The entity owns `b`, whose value domain is inherited. -/
def inheritingOwner : DeclaredSchema plainCodec :=
  Checked.get (declarePlain (inheritedValueFacts ++ [ownershipFact "b"])) (by decide +kernel)

/-- The entity owns `a`, which declares its value domain. -/
def declaringOwner : DeclaredSchema plainCodec :=
  Checked.get (declarePlain (inheritedValueFacts ++ [ownershipFact "a"])) (by decide +kernel)

/-- An owned attribute that inherits its value domain cannot be planned. -/
theorem inheritingOwner_not_planned : (∃ resolved, resolvePlain inheritingOwner = .ok resolved) ∧
      (∃ graph, FactDependencyGraph.fromFacts inheritingOwner.facts.values = .ok graph ∧
          graph.validateComplete = .error ⟨"schema_delta_missing_dependency"⟩) ∧
      planSchemaOperations stringAttribute.facts inheritingOwner.facts =
        .error ⟨"schema_delta_missing_dependency"⟩ := by
  refine ⟨⟨_, eq_ok_get _ (by decide +kernel)⟩,
    ⟨_, eq_ok_get _ (by decide +kernel), ?_⟩, ?_⟩
  · rw [← Checked.failure?_eq_some]
    decide +kernel
  · rw [← Checked.failure?_eq_some]
    decide +kernel

def ownershipsValued (facts : Inventory) : Bool :=
  facts.values.all fun
    | .owns fact => facts.contains (.value ⟨fact.id.attributeId⟩)
    | .function _ => false
    | _ => true

theorem dependenciesDeclared_of_valued (valued : ownershipsValued facts = true) :
    DependenciesDeclared facts := by
  constructor
  · intro fact stored
    have isValued := List.all_eq_true.mp valued _ stored
    simpa using isValued
  · intro fact stored
    have isValued := List.all_eq_true.mp valued _ stored
    cases isValued

/-- An owned attribute that declares its value domain is planned. -/
theorem declaringOwner_planned : GraphAccepts declaringOwner.facts ∧ ∃ operations,
        planSchemaOperations stringAttribute.facts declaringOwner.facts = .ok operations := by
  have accepted :=
    eq_ok_get (resolvePlain declaringOwner) (by decide +kernel)
  have sourceAccepted :=
    eq_ok_get (resolvePlain stringAttribute) (by decide +kernel)
  have valued : DependenciesDeclared declaringOwner.facts :=
    dependenciesDeclared_of_valued (by decide +kernel)
  have sourceValued : DependenciesDeclared stringAttribute.facts :=
    dependenciesDeclared_of_valued (by decide +kernel)
  refine ⟨(resolved_plannable_iff accepted).1.mpr valued, ?_⟩
  exact ((resolved_plannable_iff sourceAccepted).2 declaringOwner _ _ _
    accepted).mpr ⟨sourceValued, valued, by decide +kernel⟩

end TypeBridge.Schema
