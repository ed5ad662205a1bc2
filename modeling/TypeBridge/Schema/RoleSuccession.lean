import TypeBridge.Library.Succession
import TypeBridge.Schema.ResolveSpec
import TypeBridge.Schema.RoundTrip

namespace TypeBridge.Schema

open Library
open Library.Checked hiding get

/-!
# Which roles resolution keeps

The effective roles of a relation are a roster: each one stands for the roles
it replaced. Adding the direct roles of a relation is a run of newcomers, and
what the roster library says about such runs decides which roles survive.

A direct role is lost when a sibling specializes the same role, and an inherited
one when a role below it specializes what it had replaced already. Both are
excluded exactly if every role is specialized at most once along each chain of
subtypes, and never by its own relation.
-/

/-! ## Roles as a roster -/

def roster (relates : RelatesMap) : Roster RoleId :=
  fun role => relates[role]?.map (·.replacedRoles)

variable {relates : RelatesMap} {role : RoleId}

theorem member_roster : (roster relates).Member role ↔ role ∈ relates := by
  unfold Roster.Member roster
  rw [Ne, Option.map_eq_none_iff, ← Ne, Option.ne_none_iff_isSome,
    Std.ExtTreeMap.isSome_getElem?_iff_mem]

theorem standsFor_roster {replaced : RoleId} :
    (roster relates).StandsFor role replaced ↔ ∃ entry, relates[role]? = some entry ∧
        replaced ∈ entry.replacedRoles := by
  unfold Roster.StandsFor roster
  constructor
  · intro stands
    obtain ⟨history, held, recorded⟩ := stands
    obtain ⟨entry, stored, isHistory⟩ := Option.map_eq_some_iff.mp held
    subst isHistory
    exact ⟨entry, stored, recorded⟩
  · intro replaces
    obtain ⟨entry, stored, recorded⟩ := replaces
    exact ⟨entry.replacedRoles, by rw [stored]; rfl, recorded⟩

theorem roster_insert (relates : RelatesMap) (role : RoleId) (entry : EffectiveRelates) :
    roster (relates.insert role entry) =
      Function.update (roster relates) role (some entry.replacedRoles) := by
  funext query
  unfold roster
  rw [OrderedMap.getElem?_insert_eq]
  by_cases same : role = query
  · subst same
    simp
  · rw [if_neg same, Function.update_of_ne (Ne.symm same)]

theorem roster_erase (relates : RelatesMap) (role : RoleId) :
    roster (relates.erase role) = Function.update (roster relates) role none := by
  funext query
  unfold roster
  rw [OrderedMap.getElem?_erase_eq]
  by_cases same : role = query
  · subst same
    simp
  · rw [if_neg same, Function.update_of_ne (Ne.symm same)]

variable {facts : Inventory} {profile : SemanticProfile} {id : TypeId} {extended : RelatesMap}
  {fact : RelatesFact}

theorem addRelates_step (added : addRelates facts profile id relates fact = .ok extended) :
    (roster relates).Step fact.id.role fact.specializes (roster extended) := by
  obtain ⟨⟨remaining, replacedRoles⟩, replaced, result⟩ := bind_eq_ok.mp added
  rw [pure_eq_ok] at result
  subst result
  rw [roster_insert]
  unfold replaceSpecialized at replaced
  cases specialization : fact.specializes with
  | none =>
    simp only [specialization, Except.ok.injEq, Prod.mk.injEq] at replaced
    obtain ⟨isRemaining, isReplaced⟩ := replaced
    subst isRemaining isReplaced
    exact .join
  | some specialized =>
    simp only [specialization] at replaced
    cases located : replacedRole relates specialized with
    | none => simp [located] at replaced
    | some found =>
      obtain ⟨role, entry⟩ := found
      simp only [located, require_eq_ok, Except.ok.injEq, Prod.mk.injEq] at replaced
      obtain ⟨-, isRemaining, isReplaced⟩ := replaced
      subst isRemaining isReplaced
      rw [roster_erase]
      have stored :=
        Std.ExtTreeMap.mem_toList_iff_getElem?_eq_some.mp (List.mem_of_find?_eq_some located)
      have answers := List.find?_some located
      simp only [Bool.or_eq_true, decide_eq_true_eq] at answers
      refine .replace ?_ answers
      unfold roster
      rw [stored]
      rfl

/-- The direct roles of a relation, each with the role it specializes. -/
def roleMoves (facts : Inventory) (id : TypeId) : List (RoleId × Option RoleId) :=
  (directRelates facts id).map fun fact => (fact.id.role, fact.specializes)

theorem foldlM_addRelates_run (declared : List RelatesFact)
    (added : declared.foldlM (addRelates facts profile id) relates = .ok extended) :
    (roster relates).Run (declared.map fun fact => (fact.id.role, fact.specializes))
      (roster extended) := by
  induction declared generalizing relates with
  | nil =>
    cases added
    exact .nil _
  | cons first rest ih =>
    obtain ⟨middle, firstAdded, restAdded⟩ := foldlM_cons_eq_ok.mp added
    exact .cons (addRelates_step firstAdded) (ih restAdded)

/-! ## Inherited roles -/

/-- Every effective role is stored under its own identity. -/
def RolesKeyed (relates : RelatesMap) : Prop :=
  ∀ (role : RoleId) (entry : EffectiveRelates), relates[role]? = some entry → entry.id.role = role

theorem getElem?_addRelates (added : addRelates facts profile id relates fact = .ok extended)
    {entry : EffectiveRelates} (stored : extended[role]? = some entry) :
    (role = fact.id.role ∧ entry.id.role = role ∧
      entry.annotations = annotationsFor facts (.relates fact.id) ∧ entry.cardinality =
        cardinality (annotationsFor facts (.relates fact.id)) profile .relates) ∨
      relates[role]? = some entry := by
  obtain ⟨⟨remaining, replacedRoles⟩, replaced, result⟩ := bind_eq_ok.mp added
  rw [pure_eq_ok] at result
  subst result
  rw [OrderedMap.getElem?_insert_eq] at stored
  by_cases same : fact.id.role = role
  · rw [if_pos same, Option.some.injEq] at stored
    subst stored
    exact .inl ⟨same.symm, same, rfl, rfl⟩
  · rw [if_neg same] at stored
    right
    unfold replaceSpecialized at replaced
    cases specialization : fact.specializes with
    | none =>
      simp only [specialization, Except.ok.injEq, Prod.mk.injEq] at replaced
      rw [replaced.1]
      exact stored
    | some specialized =>
      simp only [specialization] at replaced
      cases located : replacedRole relates specialized with
      | none => simp [located] at replaced
      | some found =>
        simp only [located, require_eq_ok, Except.ok.injEq, Prod.mk.injEq] at replaced
        rw [← replaced.2.1, OrderedMap.getElem?_erase_eq] at stored
        by_cases leaves : found.1 = role
        · simp [leaves] at stored
        · rwa [if_neg leaves] at stored

theorem RolesKeyed.addRelates (keyed : RolesKeyed relates)
    (added : addRelates facts profile id relates fact = .ok extended) : RolesKeyed extended := by
  intro role entry stored
  rcases getElem?_addRelates added stored with isNew | older
  · exact isNew.2.1
  · exact keyed role entry older

variable {parent : ResolvedType} (keyed : RolesKeyed parent.relates)
include keyed

theorem getElem?_inheritedRelates (child : TypeId) (role : RoleId) :
    (inheritedRelates parent child)[role]? =
      parent.relates[role]?.map (inheritRelates parent.id child) := by
  have run : OrderedMap.insertAll (fun entry : EffectiveRelates => entry.id.role) (fun entry =>
            (.ok (inheritRelates parent.id child entry) : Except Diagnostic EffectiveRelates))
          (parent.relates.toList.map Prod.snd) ∅ = .ok (inheritedRelates parent child) :=
    List.foldlM_pure
  rcases OrderedMap.getElem?_insertAll_values keyed run role with absent | present
  · rw [absent.1, absent.2]
    rfl
  · obtain ⟨entry, changed, stored, isChanged, result⟩ := present
    cases isChanged
    rw [result, stored]
    rfl

theorem roster_inheritedRelates (child : TypeId) :
    roster (inheritedRelates parent child) = roster parent.relates := by
  funext role
  unfold roster
  rw [getElem?_inheritedRelates keyed child role, Option.map_map]
  rfl

theorem RolesKeyed.inherited (child : TypeId) : RolesKeyed (inheritedRelates parent child) := by
  intro role entry stored
  rw [getElem?_inheritedRelates keyed child role] at stored
  obtain ⟨inherited, isInherited, isEntry⟩ := Option.map_eq_some_iff.mp stored
  subst isEntry
  exact keyed role inherited isInherited

omit keyed

theorem relates_of_resolveType {parents : Std.ExtTreeMap TypeId TypeId} {types : TypeMap}
    {resolved : ResolvedType} (run : resolveType facts profile parents types id = .ok resolved) :
    (directRelates facts id).foldlM (addRelates facts profile id)
        (match parents[id]?.bind (types[·]?) with
          | none => ∅
          | some parent => inheritedRelates parent id) =
      .ok resolved.relates := by
  obtain ⟨inherited, start, run⟩ := bind_eq_ok.mp run
  obtain ⟨directSub, -, run⟩ := bind_eq_ok.mp run
  obtain ⟨owns, -, run⟩ := bind_eq_ok.mp run
  obtain ⟨relates, added, run⟩ := bind_eq_ok.mp run
  rw [pure_eq_ok] at run
  subst run
  rw [← added]
  unfold inheritedType at start
  cases located : parents[id]?.bind (types[·]?) with
  | none =>
    simp only [located, Except.ok.injEq] at start
    subst start
    rfl
  | some parent =>
    simp only [located] at start
    obtain ⟨owns, -, start⟩ := bind_eq_ok.mp start
    obtain ⟨plays, -, start⟩ := bind_eq_ok.mp start
    rw [pure_eq_ok] at start
    subst start
    rfl

/-! ## The rosters of a resolution -/

def startRoster (parents : Std.ExtTreeMap TypeId TypeId) (types : TypeMap) (id : TypeId) :
    Roster RoleId :=
  match parents[id]?.bind (types[·]?) with
  | none => fun _ => none
  | some parent => roster parent.relates

structure RolesTraced (facts : Inventory) (id : TypeId) (resolved : ResolvedType) : Prop where
  keyed : RolesKeyed resolved.relates
  consistent : (roster resolved.relates).Consistent
  known : ∀ role, (roster resolved.relates).Known role → ∃ fact : RelatesFact,
        .relates fact ∈ facts.values ∧ fact.id.role = role ∧ InheritsFrom facts id fact.id.relation
  succeeded : ∀ role, (roster resolved.relates).Succeeded role ↔ ∃ fact : RelatesFact,
        .relates fact ∈ facts.values ∧ fact.specializes = some role ∧
          InheritsFrom facts id fact.id.relation

/-- What is known about the roles of a type's parent. -/
def ParentTraced (facts : Inventory) (parents : Std.ExtTreeMap TypeId TypeId) (types : TypeMap)
    (id : TypeId) : Prop :=
  ∀ supertype parent, parents[id]? = some supertype →
    types[supertype]? = some parent → RolesTraced facts supertype parent

theorem relates_eq_of_role (keyed : Inventory.Keyed facts) {other : RelatesFact}
    (stored : .relates fact ∈ facts.values) (otherStored : .relates other ∈ facts.values)
    (sameRole : fact.id.role = other.id.role) : fact = other := by
  have sameId : fact.id = other.id := by rw [fact.id.eq_relatesId, other.id.eq_relatesId, sameRole]
  have found := keyed.mem_values.mp stored
  have otherFound := keyed.mem_values.mp otherStored
  simp only [SchemaFact.id] at found otherFound
  rw [sameId, otherFound] at found
  simpa using found.symm

theorem nodup_directRelates (keyed : Inventory.Keyed facts) (id : TypeId) :
    ((directRelates facts id).map (·.id.role)).Nodup := by
  refine (selects_relates id).nodup keyed ?_
  intro first second _ _ same
  simp only [SchemaFact.id]
  rw [first.id.eq_relatesId, second.id.eq_relatesId, same]

theorem mem_roleMoves {move : RoleId × Option RoleId} :
    move ∈ roleMoves facts id ↔ ∃ fact : RelatesFact,
        .relates fact ∈ facts.values ∧ fact.id.relation = id ∧
          move = (fact.id.role, fact.specializes) := by
  unfold roleMoves
  rw [List.mem_map]
  constructor
  · intro listed
    obtain ⟨fact, member, isMove⟩ := listed
    obtain ⟨stored, isRelation⟩ := mem_directRelates.mp member
    exact ⟨fact, stored, isRelation, isMove.symm⟩
  · intro declared
    obtain ⟨fact, stored, isRelation, isMove⟩ := declared
    exact ⟨fact, mem_directRelates.mpr ⟨stored, isRelation⟩, isMove.symm⟩

section Resolved

variable {facts : Inventory} {profile : SemanticProfile} {parents : Std.ExtTreeMap TypeId TypeId}
  {types : TypeMap} {id : TypeId} {resolved : ResolvedType}

theorem fresh_roleMoves (keyed : Inventory.Keyed facts)
    (resolution : Resolution facts profile parents types)
    (parentTraced : ParentTraced facts parents types id) :
    Roster.Fresh (startRoster parents types id) (roleMoves facts id) := by
  refine ⟨?_, ?_⟩
  · unfold roleMoves
    rw [List.map_map]
    exact nodup_directRelates keyed id
  · intro move member known
    obtain ⟨fact, stored, isRelation, isMove⟩ := mem_roleMoves.mp member
    subst isMove
    unfold startRoster at known
    cases located : parents[id]?.bind (types[·]?) with
    | none =>
      simp only [located] at known
      rcases known with isMember | succeeded
      · exact isMember rfl
      · obtain ⟨_, _, held, -⟩ := succeeded
        cases held
    | some parent =>
      simp only [located] at known
      obtain ⟨supertype, isParent, parentStored⟩ := Option.bind_eq_some_iff.mp located
      obtain ⟨other, otherStored, sameRole, inherits⟩ :=
        (parentTraced supertype parent isParent parentStored).known _ known
      have same := relates_eq_of_role keyed otherStored stored sameRole
      subst same
      rw [isRelation] at inherits
      exact resolution.not_inheritsFrom_child isParent inherits

theorem run_roleMoves (resolution : Resolution facts profile parents types)
    (stored : types[id]? = some resolved) (parentTraced : ParentTraced facts parents types id) :
    (startRoster parents types id).Run (roleMoves facts id) (roster resolved.relates) := by
  have run :=
    foldlM_addRelates_run _ (relates_of_resolveType (resolution.resolved id resolved stored))
  unfold startRoster
  cases located : parents[id]?.bind (types[·]?) with
  | none =>
    simp only [located] at run
    have empty : roster (∅ : RelatesMap) = fun _ => none := by
      funext role
      simp [roster]
    rw [empty] at run
    exact run
  | some parent =>
    simp only [located] at run
    obtain ⟨supertype, isParent, parentStored⟩ := Option.bind_eq_some_iff.mp located
    rw [roster_inheritedRelates (parentTraced supertype parent isParent parentStored).keyed] at run
    exact run

theorem consistent_startRoster (parentTraced : ParentTraced facts parents types id) :
    (startRoster parents types id).Consistent := by
  unfold startRoster
  cases located : parents[id]?.bind (types[·]?) with
  | none => exact Roster.consistent_empty
  | some parent =>
    obtain ⟨supertype, isParent, parentStored⟩ := Option.bind_eq_some_iff.mp located
    exact (parentTraced supertype parent isParent parentStored).consistent

theorem startRoster_eq {supertype : TypeId} {parent : ResolvedType}
    (isParent : parents[id]? = some supertype) (parentStored : types[supertype]? = some parent) :
    startRoster parents types id = roster parent.relates := by
  unfold startRoster
  rw [isParent, Option.bind_some, parentStored]

theorem exists_parent_of_known {role : RoleId} (known : (startRoster parents types id).Known role) :
    ∃ supertype parent, parents[id]? = some supertype ∧ types[supertype]? = some parent ∧
        startRoster parents types id = roster parent.relates := by
  cases located : parents[id]?.bind (types[·]?) with
  | none =>
    unfold startRoster at known
    simp only [located] at known
    rcases known with isMember | succeeded
    · exact (isMember rfl).elim
    · obtain ⟨_, _, held, -⟩ := succeeded
      cases held
  | some parent =>
    obtain ⟨supertype, isParent, parentStored⟩ := Option.bind_eq_some_iff.mp located
    exact ⟨supertype, parent, isParent, parentStored, startRoster_eq isParent parentStored⟩

theorem keyed_relates (resolution : Resolution facts profile parents types)
    (stored : types[id]? = some resolved) (parentTraced : ParentTraced facts parents types id) :
    RolesKeyed resolved.relates := by
  refine foldlM_invariant (fun _ relates => RolesKeyed relates) ?_ ?_
    (relates_of_resolveType (resolution.resolved id resolved stored))
  · cases located : parents[id]?.bind (types[·]?) with
    | none =>
      intro role entry isStored
      simp at isStored
    | some parent =>
      obtain ⟨supertype, isParent, parentStored⟩ := Option.bind_eq_some_iff.mp located
      exact (parentTraced supertype parent isParent parentStored).keyed.inherited id
  · intro done fact relates extended isKeyed added
    exact isKeyed.addRelates added

theorem Resolution.rolesTraced (keyed : Inventory.Keyed facts)
    (resolution : Resolution facts profile parents types) :
    ∀ id resolved, types[id]? = some resolved → RolesTraced facts id resolved := by
  apply resolution.induction
  intro id resolved stored ih
  have parentTraced : ParentTraced facts parents types id := ih
  have run := run_roleMoves resolution stored parentTraced
  have fresh := fresh_roleMoves keyed resolution parentTraced
  refine ⟨keyed_relates resolution stored parentTraced,
    run.consistent fresh (consistent_startRoster parentTraced), ?_, ?_⟩
  · intro role known
    rcases run.known_of fresh known with isNew | older
    · obtain ⟨move, member, isRole⟩ := List.mem_map.mp isNew
      obtain ⟨fact, factStored, isRelation, isMove⟩ := mem_roleMoves.mp member
      subst isMove
      exact ⟨fact, factStored, isRole, by rw [isRelation]; exact .refl⟩
    · obtain ⟨supertype, parent, isParent, parentStored, isStart⟩ := exists_parent_of_known older
      rw [isStart] at older
      obtain ⟨fact, factStored, isRole, inherits⟩ :=
        (parentTraced supertype parent isParent parentStored).known role older
      exact ⟨fact, factStored, isRole,
        resolution.inheritsFrom_iff.mpr (.inr ⟨supertype, isParent, inherits⟩)⟩
  · intro role
    constructor
    · intro succeeded
      rcases run.named_of_succeeded fresh succeeded with older | isNamed
      · obtain ⟨supertype, parent, isParent, parentStored, isStart⟩ :=
          exists_parent_of_known (.inr older)
        rw [isStart] at older
        obtain ⟨fact, factStored, specializes, inherits⟩ :=
          ((parentTraced supertype parent isParent parentStored).succeeded role).mp older
        exact ⟨fact, factStored, specializes, resolution.inheritsFrom_iff.mpr
            (.inr ⟨supertype, isParent, inherits⟩)⟩
      · obtain ⟨newcomer, member⟩ := isNamed
        obtain ⟨fact, factStored, isRelation, isMove⟩ := mem_roleMoves.mp member
        refine ⟨fact, factStored, ?_, by rw [isRelation]; exact .refl⟩
        exact (congrArg Prod.snd isMove).symm
    · intro specialized
      obtain ⟨fact, factStored, specializes, inherits⟩ := specialized
      rcases resolution.inheritsFrom_iff.mp inherits with isSelf | further
      · have isMove : (fact.id.role, some role) ∈ roleMoves facts id := by
          refine mem_roleMoves.mpr ⟨fact, factStored, isSelf.symm, ?_⟩
          rw [specializes]
        exact run.succeeded_of_named fresh isMove
      · obtain ⟨supertype, isParent, inherits⟩ := further
        obtain ⟨parent, parentStored⟩ := resolution.exists_parent isParent
        apply run.succeeded fresh
        rw [startRoster_eq isParent parentStored]
        exact ((parentTraced supertype parent isParent parentStored).succeeded role).mpr
            ⟨fact, factStored, specializes, inherits⟩

theorem Resolution.keeps_iff_tidy (keyed : Inventory.Keyed facts)
    (resolution : Resolution facts profile parents types) (stored : types[id]? = some resolved) :
    Roster.Keeps (startRoster parents types id) (roleMoves facts id) (roster resolved.relates) ↔
      Roster.Tidy (startRoster parents types id) (roleMoves facts id) := by
  have parentTraced : ParentTraced facts parents types id := fun supertype parent _ parentStored =>
      resolution.rolesTraced keyed supertype parent parentStored
  exact (run_roleMoves resolution stored parentTraced).keeps_iff_tidy
    (fresh_roleMoves keyed resolution parentTraced) (consistent_startRoster parentTraced)

/-! ## Declarations that lose no role -/

/--
No role is specialized by its own relation, and none is specialized twice along
one chain of subtypes.
-/
def SpecializesOnce (facts : Inventory) : Prop :=
  ∀ fact : RelatesFact, .relates fact ∈ facts.values → ∀ role, fact.specializes = some role →
      role.declaringRelation ≠ fact.id.relation.label ∧
        ∀ other : RelatesFact, .relates other ∈ facts.values →
          InheritsFrom facts fact.id.relation other.id.relation →
          other.specializes = some role → other = fact

theorem relation_eq_of_declaringRelation {fact other : RelatesFact}
    (same : other.id.role.declaringRelation = fact.id.relation.label) :
    other.id.relation = fact.id.relation := by
  apply TypeId.ext
  · rw [other.id.relationKind, fact.id.relationKind]
  · rw [other.id.declaredHere]
    exact same

theorem Resolution.specializesOnce_of_tidy (keyed : Inventory.Keyed facts)
    (checked : validateFacts facts = []) (resolution : Resolution facts profile parents types)
    (tidy : ∀ id resolved, types[id]? = some resolved →
        Roster.Tidy (startRoster parents types id) (roleMoves facts id)) :
    SpecializesOnce facts := by
  intro fact stored role specializes
  have isDeclared : fact.id.relation ∈ directTypes facts := by
    have references := referencesDeclared_of_checked checked stored
    simp only [referencesDeclared, Bool.and_eq_true] at references
    exact mem_directTypes.mpr (keyed.exists_type references.1)
  obtain ⟨resolved, isResolved⟩ := resolution.exists_resolved fact.id.relation isDeclared
  have isTidy := tidy fact.id.relation resolved isResolved
  have isMove : (fact.id.role, some role) ∈ roleMoves facts fact.id.relation :=
    mem_roleMoves.mpr ⟨fact, stored, rfl, by rw [specializes]⟩
  have isMember := isTidy.members _ isMove role rfl
  obtain ⟨supertype, parent, isParent, parentStored, isStart⟩ :=
    exists_parent_of_known (.inl isMember)
  rw [isStart] at isMember
  have traced := resolution.rolesTraced keyed supertype parent parentStored
  refine ⟨?_, ?_⟩
  · intro ownRelation
    obtain ⟨declaring, declaringStored, isRole, inherits⟩ := traced.known role (.inl isMember)
    subst isRole
    rw [relation_eq_of_declaringRelation ownRelation] at inherits
    exact resolution.not_inheritsFrom_child isParent inherits
  · intro other otherStored inherits otherSpecializes
    rcases resolution.inheritsFrom_iff.mp inherits with isSelf | further
    · by_contra differ
      -- Two siblings that name one role are two moves with one name.
      have listed : fact ∈ directRelates facts fact.id.relation :=
        mem_directRelates.mpr ⟨stored, rfl⟩
      have otherListed : other ∈ directRelates facts fact.id.relation :=
        mem_directRelates.mpr ⟨otherStored, isSelf.symm⟩
      have once : (directRelates facts fact.id.relation).Pairwise fun earlier later =>
              ∀ name, earlier.specializes = some name → later.specializes ≠ some name :=
        List.pairwise_map.mp isTidy.once
      have symmetric : Std.Symm fun earlier later : RelatesFact =>
            ∀ name, earlier.specializes = some name → later.specializes ≠ some name :=
        ⟨fun _ _ apart name later earlier => apart name earlier later⟩
      exact once.forall listed otherListed (Ne.symm differ) role specializes otherSpecializes
    · obtain ⟨next, isNext, inherits⟩ := further
      rw [isParent, Option.some.injEq] at isNext
      subst isNext
      have succeeded := (traced.succeeded role).mpr ⟨other, otherStored, otherSpecializes, inherits⟩
      exact (traced.consistent.not_succeeded isMember succeeded).elim

theorem Resolution.tidy_of_specializesOnce (keyed : Inventory.Keyed facts)
    (resolution : Resolution facts profile parents types) (once : SpecializesOnce facts)
    (stored : types[id]? = some resolved) :
    Roster.Tidy (startRoster parents types id) (roleMoves facts id) := by
  have parentTraced : ParentTraced facts parents types id := fun supertype parent _ parentStored =>
      resolution.rolesTraced keyed supertype parent parentStored
  have run := run_roleMoves resolution stored parentTraced
  have fresh := fresh_roleMoves keyed resolution parentTraced
  refine ⟨?_, ?_⟩
  · intro move member role isNamed
    obtain ⟨fact, factStored, isRelation, isMove⟩ := mem_roleMoves.mp member
    subst isMove
    obtain ⟨otherRelation, alone⟩ := once fact factStored role isNamed
    have named : (fact.id.role, some role) ∈ roleMoves facts id := by
      rw [← isNamed]
      exact member
    rcases run.known_of_named fresh named with isNew | known
    · obtain ⟨sibling, siblingMember, isRole⟩ := List.mem_map.mp isNew
      obtain ⟨declaring, -, declaringRelation, isSibling⟩ := mem_roleMoves.mp siblingMember
      subst isSibling
      refine (otherRelation ?_).elim
      rw [isRelation, ← declaringRelation, declaring.id.declaredHere, ← isRole]
    · obtain ⟨supertype, parent, isParent, parentStored, isStart⟩ := exists_parent_of_known known
      rcases known with isMember | succeeded
      · exact isMember
      · rw [isStart] at succeeded
        obtain ⟨other, otherStored, otherSpecializes, inherits⟩ :=
          ((parentTraced supertype parent isParent parentStored).succeeded role).mp succeeded
        have same :=
          alone other otherStored (by
              rw [isRelation]
              exact resolution.inheritsFrom_iff.mpr (.inr ⟨supertype, isParent, inherits⟩))
            otherSpecializes
        subst same
        rw [isRelation] at inherits
        exact (resolution.not_inheritsFrom_child isParent inherits).elim
  · unfold roleMoves
    rw [List.pairwise_map]
    refine (nodup_directRelates keyed id).of_map.imp_of_mem ?_
    intro fact other member otherMember differ role specializes otherSpecializes
    obtain ⟨factStored, isRelation⟩ := mem_directRelates.mp member
    obtain ⟨otherStored, otherRelation⟩ := mem_directRelates.mp otherMember
    apply differ
    apply ((once fact factStored role specializes).2 other otherStored _ otherSpecializes).symm
    rw [isRelation, otherRelation]
    exact .refl

end Resolved

/-! ## Resolved schemas -/

section Schemas

variable {Bytes Digest : Type} {codec : Codec Bytes Digest}

def DirectRolesEffective (facts : Inventory) (types : TypeMap) : Prop :=
  ∀ fact : RelatesFact, .relates fact ∈ facts.values →
    ∃ resolved, types[fact.id.relation]? = some resolved ∧ fact.id.role ∈ resolved.relates

/--
Every role of a parent is effective on the child, or exactly one role of the
child has replaced it.
-/
def InheritedRolesAccounted (facts : Inventory) (types : TypeMap) : Prop :=
  ∀ edge, .sub edge ∈ facts.values →
    ∀ child parent : ResolvedType, types[edge.subtype]? = some child →
      types[edge.supertype]? = some parent →
      ∀ role : RoleId, role ∈ parent.relates → role ∈ child.relates ∨
          ∃! replacing : RoleId, ∃ entry : EffectiveRelates,
            child.relates[replacing]? = some entry ∧ role ∈ entry.replacedRoles

variable {facts : Inventory} {left right : TypeMap}

theorem SameButSubtypes.directRolesEffective (same : SameButSubtypes left right)
    (effective : DirectRolesEffective facts left) : DirectRolesEffective facts right := by
  intro fact stored
  obtain ⟨resolved, isResolved, member⟩ := effective fact stored
  obtain ⟨other, isOther, agrees⟩ := same.exists_resolved isResolved
  refine ⟨other, isOther, ?_⟩
  rw [agrees] at member
  exact member

theorem SameButSubtypes.inheritedRolesAccounted (same : SameButSubtypes left right)
    (accounted : InheritedRolesAccounted facts right) : InheritedRolesAccounted facts left := by
  intro edge stored child parent childStored parentStored role member
  obtain ⟨otherChild, isChild, childAgrees⟩ := same.exists_resolved childStored
  obtain ⟨otherParent, isParent, parentAgrees⟩ := same.exists_resolved parentStored
  rw [parentAgrees] at member
  rw [childAgrees]
  exact accounted edge stored otherChild otherParent isChild isParent role member

theorem Resolution.keeps_all_iff {profile : SemanticProfile}
    {parents : Std.ExtTreeMap TypeId TypeId} {types : TypeMap} (keyed : Inventory.Keyed facts)
    (checked : validateFacts facts = []) (resolution : Resolution facts profile parents types) :
    DirectRolesEffective facts types ∧ InheritedRolesAccounted facts types ↔
      ∀ id resolved, types[id]? = some resolved →
        Roster.Keeps (startRoster parents types id) (roleMoves facts id)
          (roster resolved.relates) := by
  constructor
  · intro kept id resolved stored
    obtain ⟨direct, inherited⟩ := kept
    refine ⟨?_, ?_⟩
    · intro move member
      obtain ⟨fact, factStored, isRelation, isMove⟩ := mem_roleMoves.mp member
      subst isMove
      obtain ⟨other, isOther, effective⟩ := direct fact factStored
      rw [isRelation, stored, Option.some.injEq] at isOther
      subst isOther
      exact member_roster.mpr effective
    · intro role isMember
      obtain ⟨supertype, parent, isParent, parentStored, isStart⟩ :=
        exists_parent_of_known (.inl isMember)
      rw [isStart] at isMember
      obtain ⟨edge, edgeStored, isSubtype, isSupertype⟩ :=
        (resolution.parent id supertype).mp isParent
      subst isSubtype isSupertype
      simp only [member_roster, standsFor_roster]
      exact inherited edge edgeStored resolved parent stored parentStored role
        (member_roster.mp isMember)
  · intro keeps
    refine ⟨?_, ?_⟩
    · intro fact stored
      have references := referencesDeclared_of_checked checked stored
      simp only [referencesDeclared, Bool.and_eq_true] at references
      obtain ⟨resolved, isResolved⟩ := resolution.exists_resolved fact.id.relation
          (mem_directTypes.mpr (keyed.exists_type references.1))
      refine ⟨resolved, isResolved, member_roster.mp ?_⟩
      exact (keeps fact.id.relation resolved isResolved).newcomers (fact.id.role, fact.specializes)
        (mem_roleMoves.mpr ⟨fact, stored, rfl, rfl⟩)
    · intro edge stored child parent childStored parentStored role member
      have isParent := (resolution.parent edge.subtype edge.supertype).mpr ⟨edge, stored, rfl, rfl⟩
      have accounted :=
        (keeps edge.subtype child childStored).members role (by
            rw [startRoster_eq isParent parentStored]
            exact member_roster.mpr member)
      simpa only [member_roster, standsFor_roster] using accounted

/--
Role resolution loses no role exactly if every role is specialized once.

In an accepted schema every declared role is effective on its relation, and
every role of a parent is effective on the child or replaced by exactly one of
its roles, if and only if no role is specialized by its own relation or twice
along one chain of subtypes.
-/
theorem roles_kept_iff (declared : DeclaredSchema codec) (profileId : SemanticProfileId)
    (available : CapabilitySet) (resolved : ResolvedSchema Digest)
    (accepted : resolveSchemaWithCapabilities declared profileId available = .ok resolved) :
    DirectRolesEffective declared.facts resolved.types ∧
        InheritedRolesAccounted declared.facts resolved.types ↔ SpecializesOnce declared.facts := by
  obtain ⟨profile, parents, types, -, resolution, same, back⟩ := exists_resolution accepted
  have sameRoles : DirectRolesEffective declared.facts resolved.types ∧
          InheritedRolesAccounted declared.facts resolved.types ↔
        DirectRolesEffective declared.facts types ∧
          InheritedRolesAccounted declared.facts types := by
    constructor
    · intro kept
      exact ⟨same.directRolesEffective kept.1, back.inheritedRolesAccounted kept.2⟩
    · intro kept
      exact ⟨back.directRolesEffective kept.1, same.inheritedRolesAccounted kept.2⟩
  rw [sameRoles, resolution.keeps_all_iff declared.keyed declared.checked]
  constructor
  · intro keeps
    apply resolution.specializesOnce_of_tidy declared.keyed declared.checked
    intro id resolvedType stored
    exact (resolution.keeps_iff_tidy declared.keyed stored).mp (keeps id resolvedType stored)
  · intro once id resolvedType stored
    exact (resolution.keeps_iff_tidy declared.keyed stored).mpr
      (resolution.tidy_of_specializesOnce declared.keyed once stored)

end Schemas

/-! ## Lost roles -/

/-- Relations `p`, `q` and `r` with `r sub q`, `q sub p` and the role `p:a`. -/
def stackedRoleFacts : List SchemaFact :=
  relationTypes ++ [.relates ⟨.ofLabels "p" "a", none, .unordered, by decide⟩] ++ stackedEdges

/-- The role `p:a`. -/
def baseRole : RoleId := ⟨⟨"p"⟩, ⟨"a"⟩⟩

/-- `q:b as p:a`. -/
def firstSpecialization : RelatesFact := ⟨.ofLabels "q" "b", some baseRole, .unordered, by decide⟩

/-- `q:c as p:a`. -/
def siblingSpecialization : RelatesFact := ⟨.ofLabels "q" "c", some baseRole, .unordered, by decide⟩

/-- `r:d as p:a`. -/
def lowerSpecialization : RelatesFact := ⟨.ofLabels "r" "d", some baseRole, .unordered, by decide⟩

/-- The stacked relations with some roles that specialize `p:a`. -/
def declareSpecializations (specializations : List RelatesFact) :
    Except (List Diagnostic) (DeclaredSchema plainCodec) :=
  declarePlain (stackedRoleFacts ++ specializations.map SchemaFact.relates)

def resolvePlain (declared : DeclaredSchema plainCodec) :
    Except Diagnostic (ResolvedSchema PlainBytes) :=
  resolveSchemaWithCapabilities declared (plainContext ∅).semanticProfile ∅

/-- `p:a` is specialized once, on `q`. -/
def singleSchema : DeclaredSchema plainCodec :=
  Checked.get (declareSpecializations [firstSpecialization]) (by decide +kernel)

/-- `p:a` is specialized twice on `q`. -/
def siblingSchema : DeclaredSchema plainCodec :=
  Checked.get
    (declareSpecializations [firstSpecialization, siblingSpecialization]) (by decide +kernel)

/-- `p:a` is specialized on `q`, and on `r` below it. -/
def stackedSchema : DeclaredSchema plainCodec :=
  Checked.get
    (declareSpecializations [firstSpecialization, lowerSpecialization]) (by decide +kernel)

def siblingResolved : ResolvedSchema PlainBytes :=
  Checked.get (resolvePlain siblingSchema) (by decide +kernel)

def stackedResolved : ResolvedSchema PlainBytes :=
  Checked.get (resolvePlain stackedSchema) (by decide +kernel)

/--
Two accepted schemas that lose a role.

The sibling `q:c` drives out `q:b`, which is declared on the same relation.
And `r:d` drives out the inherited `q:b`, which no role of `r` has replaced.
-/
theorem specialized_roles_lost : (resolvePlain siblingSchema = .ok siblingResolved ∧
      ¬ DirectRolesEffective siblingSchema.facts siblingResolved.types) ∧
      resolvePlain stackedSchema = .ok stackedResolved ∧
        ¬ InheritedRolesAccounted stackedSchema.facts stackedResolved.types := by
  refine ⟨⟨eq_ok_get _ _, ?_⟩, eq_ok_get _ _, ?_⟩
  · intro effective
    have declared : .relates firstSpecialization ∈ siblingSchema.facts.values := by decide +kernel
    have lost : (siblingResolved.types[firstSpecialization.id.relation]?.map
          (·.relates.contains firstSpecialization.id.role)) = some false := by decide +kernel
    obtain ⟨resolved, isResolved, member⟩ := effective _ declared
    rw [isResolved, Option.map_some, Std.ExtTreeMap.contains_iff_mem.mpr member] at lost
    cases lost
  · intro accounted
    let edge : SubFactId := ⟨⟨.relation, ⟨"r"⟩⟩, ⟨.relation, ⟨"q"⟩⟩, by decide, rfl, by decide⟩
    have declared : .sub edge ∈ stackedSchema.facts.values := by decide +kernel
    have inherited : (stackedResolved.types[edge.supertype]?.map
          (·.relates.contains firstSpecialization.id.role)) = some true := by decide +kernel
    have lost : (stackedResolved.types[edge.subtype]?.map fun child =>
          child.relates.toList.any fun entry =>
            entry.1 = firstSpecialization.id.role ||
              firstSpecialization.id.role ∈ entry.2.replacedRoles) =
          some false := by
      decide +kernel
    obtain ⟨parent, isParent, effective⟩ := Option.map_eq_some_iff.mp inherited
    obtain ⟨child, isChild, absent⟩ := Option.map_eq_some_iff.mp lost
    have unmatched : ∀ (role : RoleId) (entry : EffectiveRelates),
          child.relates[role]? = some entry → role ≠ firstSpecialization.id.role ∧
              firstSpecialization.id.role ∉ entry.replacedRoles := by
      intro role entry stored
      have listed := Std.ExtTreeMap.mem_toList_iff_getElem?_eq_some.mpr stored
      simpa using List.any_eq_false.mp absent (role, entry) listed
    rcases accounted edge declared child parent isChild isParent _
      (Std.ExtTreeMap.contains_iff_mem.mp effective) with stays | replaced
    · obtain ⟨entry, stored⟩ := Option.isSome_iff_exists.mp
          (Std.ExtTreeMap.isSome_getElem?_iff_mem.mpr stays)
      exact (unmatched _ entry stored).1 rfl
    · obtain ⟨role, entry, stored, recorded⟩ := replaced.exists
      exact (unmatched role entry stored).2 recorded

def isFirstOrPlain : SchemaFact → Bool
  | .relates fact => fact.specializes = none || fact = firstSpecialization
  | _ => true

/-- A schema with one specialization keeps its roles. -/
theorem singleSchema_roles_kept :
    ∃ resolved, resolvePlain singleSchema = .ok resolved ∧ SpecializesOnce singleSchema.facts ∧
        DirectRolesEffective singleSchema.facts resolved.types ∧
        InheritedRolesAccounted singleSchema.facts resolved.types := by
  have accepted : resolvePlain singleSchema =
        .ok (Checked.get (resolvePlain singleSchema) (by decide +kernel)) := eq_ok_get _ _
  have onlyFirst : ∀ fact : RelatesFact, .relates fact ∈ singleSchema.facts.values →
        ∀ role, fact.specializes = some role → fact = firstSpecialization := by
    have listed : singleSchema.facts.values.all isFirstOrPlain = true := by decide +kernel
    intro fact stored role specializes
    have checked := List.all_eq_true.mp listed _ stored
    simpa [isFirstOrPlain, specializes] using checked
  have once : SpecializesOnce singleSchema.facts := by
    intro fact stored role specializes
    have isFirst := onlyFirst fact stored role specializes
    subst isFirst
    refine ⟨?_, ?_⟩
    · cases specializes
      decide
    · intro other otherStored _ otherSpecializes
      exact onlyFirst other otherStored role otherSpecializes
  exact ⟨_, accepted, once, (roles_kept_iff singleSchema (plainContext ∅).semanticProfile ∅ _
      accepted).mpr once⟩

end TypeBridge.Schema
