import TypeBridge.Schema.Resolve

namespace TypeBridge.Schema

open Library
open Library.Checked hiding get

/-!
# What a resolved schema is

Types are resolved one after another, ancestors first. Once all of them are
resolved, each one is what resolving it over the final types gives: the order
has disappeared. `Resolution` states this together with the parents, and
`Resolution.induction` is the induction from parents to children that every
property of resolved types goes through.
-/

/-! ## Parents -/

variable {facts : Inventory} {subtype : TypeId}

theorem mem_directSubtypes :
    subtype ∈ directSubtypes facts ↔ ∃ edge, edge ∈ directParents facts subtype := by
  simp only [directSubtypes, List.mem_dedup, List.mem_filterMap, mem_directParents]
  constructor
  · intro selected
    obtain ⟨stored, member, selected⟩ := selected
    cases stored with
    | sub edge => exact ⟨edge, member, by simpa using selected⟩
    | _ => simp at selected
  · intro hasEdge
    obtain ⟨edge, stored, same⟩ := hasEdge
    exact ⟨.sub edge, stored, by simp [same]⟩

def ParentsOf (facts : Inventory) (checked : List TypeId) (parents : Std.ExtTreeMap TypeId TypeId) :
    Prop :=
  ∀ subtype supertype, parents[subtype]? = some supertype ↔ subtype ∈ checked ∧
        ∃ edge ∈ directParents facts subtype, edge.supertype = supertype

/-- Checking one more subtype adds its parent. -/
theorem ParentsOf.extend {checked : List TypeId} {first : TypeId}
    {start extended : Std.ExtTreeMap TypeId TypeId} (known : ParentsOf facts checked start)
    (stepped : (match directParents facts first with
        | [] => .ok start
        | [edge] =>
          if first.kind = edge.supertype.kind then .ok (start.insert first edge.supertype)
          else .error ⟨"invalid_type_parent_kind"⟩
        | _ => .error ⟨"multiple_type_parents"⟩ :
          Except Diagnostic (Std.ExtTreeMap TypeId TypeId)) =
        .ok extended) :
    ParentsOf facts (checked ++ [first]) extended := by
  intro subtype supertype
  cases edges : directParents facts first with
  | nil =>
    simp only [edges, Except.ok.injEq] at stepped
    subst stepped
    rw [known subtype supertype]
    constructor
    · intro found
      exact ⟨by simp [found.1], found.2⟩
    · intro found
      obtain ⟨isChecked, edge, isEdge, same⟩ := found
      refine ⟨?_, edge, isEdge, same⟩
      rcases List.mem_append.mp isChecked with older | isFirst
      · exact older
      · rw [List.mem_singleton.mp isFirst, edges] at isEdge
        cases isEdge
  | cons edge others =>
    cases others with
    | cons second others => simp [edges] at stepped
    | nil =>
      simp only [edges, require_eq_ok, Except.ok.injEq] at stepped
      obtain ⟨-, isExtended⟩ := stepped
      subst isExtended
      rw [OrderedMap.getElem?_insert_eq]
      by_cases same : first = subtype
      · subst same
        simp [edges]
      · rw [if_neg same, known subtype supertype]
        simp [Ne.symm same]

variable {parents : Std.ExtTreeMap TypeId TypeId}

theorem parents_of_validateParents (validated : validateParents facts = .ok parents) :
    ∀ subtype supertype, parents[subtype]? = some supertype ↔ ∃ edge,
          .sub edge ∈ facts.values ∧ edge.subtype = subtype ∧ edge.supertype = supertype := by
  have all : ParentsOf facts (directSubtypes facts) parents := by
    refine foldlM_invariant (ParentsOf facts) ?_ ?_ validated
    · intro subtype supertype
      simp
    · intro checked first start middle known stepped
      exact known.extend stepped
  intro subtype supertype
  rw [all subtype supertype, mem_directSubtypes]
  simp only [mem_directParents]
  constructor
  · intro found
    obtain ⟨-, edge, ⟨stored, isSubtype⟩, isSupertype⟩ := found
    exact ⟨edge, stored, isSubtype, isSupertype⟩
  · intro found
    obtain ⟨edge, stored, isSubtype, isSupertype⟩ := found
    exact ⟨⟨edge, stored, isSubtype⟩, edge, ⟨stored, isSubtype⟩, isSupertype⟩

/-! ## Ancestors -/

variable {fuel : Nat} {id : TypeId}

theorem ancestorChain_stable {visited : List TypeId}
    (acyclic : hasInheritanceCycle parents fuel visited id = false) :
    ancestorChain parents (fuel + 1) id = ancestorChain parents fuel id := by
  induction fuel generalizing visited id with
  | zero => cases acyclic
  | succ fuel ih =>
    unfold hasInheritanceCycle at acyclic
    cases parent : parents[id]? with
    | none => simp [ancestorChain, parent]
    | some supertype =>
      simp only [parent] at acyclic
      by_cases seen : id ∈ visited
      · simp [seen] at acyclic
      · rw [if_neg seen] at acyclic
        have stable := ih acyclic
        rw [ancestorChain, ancestorChain]
        simp only [parent, stable]

theorem ancestors_parent_lt {supertype : TypeId}
    (acyclic : hasInheritanceCycle parents (parents.size + 1) [] id = false)
    (parent : parents[id]? = some supertype) :
    (ancestors parents supertype).length < (ancestors parents id).length := by
  unfold hasInheritanceCycle at acyclic
  simp only [parent, List.not_mem_nil, ↓reduceIte] at acyclic
  have stable := ancestorChain_stable acyclic
  unfold ancestors
  rw [stable]
  conv_rhs => rw [ancestorChain]
  simp [parent]

theorem ancestorChain_of_length_le (short : (ancestorChain parents (fuel + 1) id).length ≤ fuel) :
    ancestorChain parents (fuel + 1) id = ancestorChain parents fuel id := by
  induction fuel generalizing id with
  | zero => exact List.length_eq_zero_iff.mp (Nat.le_zero.mp short)
  | succ fuel ih =>
    cases parent : parents[id]? with
    | none => simp only [ancestorChain, parent]
    | some supertype =>
      rw [ancestorChain] at short
      simp only [parent, List.length_cons, Nat.add_le_add_iff_right] at short
      rw [ancestorChain, ancestorChain]
      simp only [parent, ih short]

theorem length_ancestorChain_le (parents : Std.ExtTreeMap TypeId TypeId) (fuel : Nat)
    (id : TypeId) : (ancestorChain parents fuel id).length ≤ fuel := by
  induction fuel generalizing id with
  | zero => exact le_refl 0
  | succ fuel ih =>
    rw [ancestorChain]
    cases parents[id]? with
    | none => exact Nat.zero_le _
    | some supertype => exact Nat.succ_le_succ (ih supertype)

/-! ## Types -/

variable {profile : SemanticProfile} {types : TypeMap}

theorem resolveType_congr {other : TypeMap}
    (same : parents[id]?.bind (types[·]?) = parents[id]?.bind (other[·]?)) :
    resolveType facts profile parents types id = resolveType facts profile parents other id := by
  have sameStart : inheritedType profile parents types id =
        inheritedType profile parents other id := by
    unfold inheritedType
    rw [same]
  unfold resolveType
  rw [sameStart]

theorem sorted_resolutionOrder (types : List TypeId) (parents : Std.ExtTreeMap TypeId TypeId) :
    (resolutionOrder types parents).Pairwise fun earlier later =>
      (ancestors parents earlier).length ≤ (ancestors parents later).length := by
  let key : TypeId → Nat ×ₗ TypeId := fun id => toLex ((ancestors parents id).length, id)
  have total : Std.Total fun left right => key left ≤ key right :=
    ⟨fun left right => le_total (key left) (key right)⟩
  have trans : IsTrans TypeId fun left right => key left ≤ key right :=
    ⟨fun _ _ _ first second => le_trans first second⟩
  have sorted : (types.insertionSort fun left right => key left ≤ key right).Pairwise
        fun left right => key left ≤ key right := List.pairwise_insertionSort _ types
  refine sorted.imp ?_
  intro earlier later ordered
  rcases Prod.Lex.toLex_le_toLex.mp ordered with fewer | same
  · exact fewer.le
  · exact same.1.le

theorem resolveTypes_fixpoint {order : List TypeId} {resolvedTypes : TypeMap} (nodup : order.Nodup)
    (irreflexive : ∀ id ∈ order, parents[id]? ≠ some id)
    (parentsFirst : order.Pairwise fun earlier later => parents[earlier]? ≠ some later)
    (run : resolveTypes facts profile parents order types = .ok resolvedTypes) :
    (∀ id ∉ order, resolvedTypes[id]? = types[id]?) ∧ ∀ id ∈ order, ∃ resolved,
        resolvedTypes[id]? = some resolved ∧ resolveType facts profile parents resolvedTypes id =
            .ok resolved := by
  induction order generalizing types with
  | nil =>
    cases run
    simp
  | cons first rest ih =>
    obtain ⟨extended, step, restRun⟩ := foldlM_cons_eq_ok.mp run
    obtain ⟨resolved, resolvedRun, inserted⟩ := bind_eq_ok.mp step
    rw [pure_eq_ok] at inserted
    subst inserted
    obtain ⟨notRest, restNodup⟩ := List.nodup_cons.mp nodup
    obtain ⟨firstParent, restFirst⟩ := List.pairwise_cons.mp parentsFirst
    obtain ⟨frame, fixed⟩ := ih restNodup
        (fun id member => irreflexive id (by simp [member])) restFirst restRun
    have stored : resolvedTypes[first]? = some resolved := by
      rw [frame first notRest, OrderedMap.getElem?_insert_eq, if_pos rfl]
    refine ⟨?_, ?_⟩
    · intro id absent
      obtain ⟨notFirst, notLater⟩ := not_or.mp (fun member => absent (List.mem_cons.mpr member))
      rw [frame id notLater, OrderedMap.getElem?_insert_eq, if_neg (Ne.symm notFirst)]
    · intro id member
      rcases List.mem_cons.mp member with isFirst | later
      · subst isFirst
        refine ⟨resolved, stored, ?_⟩
        rw [← resolvedRun]
        apply resolveType_congr
        -- The parent is neither this type nor a later one.
        cases parent : parents[id]? with
        | none => rfl
        | some supertype =>
          have notSelf : id ≠ supertype := by
            intro same
            exact irreflexive id (by simp) (by rw [parent, same])
          have notLater : supertype ∉ rest := by
            intro later
            exact firstParent supertype later parent
          simp only [Option.bind_some]
          rw [frame supertype notLater, OrderedMap.getElem?_insert_eq, if_neg notSelf]
      · exact fixed id later

/-- Every declared type, resolved over the others. -/
structure Resolution (facts : Inventory) (profile : SemanticProfile)
    (parents : Std.ExtTreeMap TypeId TypeId) (types : TypeMap) : Prop where
  parent : ∀ subtype supertype, parents[subtype]? = some supertype ↔ ∃ edge,
          .sub edge ∈ facts.values ∧ edge.subtype = subtype ∧ edge.supertype = supertype
  edges : ∀ edge, .sub edge ∈ facts.values →
      edge.subtype ∈ directTypes facts ∧ edge.supertype ∈ directTypes facts
  ranked : ∀ id ∈ directTypes facts, ∀ supertype,
      parents[id]? = some supertype → (ancestors parents supertype).length <
          (ancestors parents id).length
  declared : ∀ id resolved, types[id]? = some resolved → id ∈ directTypes facts
  exists_resolved : ∀ id ∈ directTypes facts, ∃ resolved, types[id]? = some resolved
  resolved : ∀ id resolved, types[id]? = some resolved →
      resolveType facts profile parents types id = .ok resolved

theorem nodup_directTypes (keyed : Inventory.Keyed facts) : (directTypes facts).Nodup := by
  rw [← List.map_id (directTypes facts)]
  apply keyed.nodup_selected
  intro left right first second isFirst isSecond same
  cases left with
  | type leftFact =>
    cases right with
    | type rightFact =>
      cases isFirst
      cases isSecond
      exact congrArg SchemaFactId.type same
    | _ => cases isSecond
  | _ => cases isFirst

theorem resolution_of_resolveDeclaredTypes (keyed : Inventory.Keyed facts)
    (valid : validateFacts facts = [])
    (run : resolveDeclaredTypes facts profile = .ok (types, parents)) :
    Resolution facts profile parents types := by
  obtain ⟨found, validated, run⟩ := bind_eq_ok.mp run
  obtain ⟨_, checked, run⟩ := bind_eq_ok.mp run
  obtain ⟨resolvedTypes, resolvedRun, run⟩ := bind_eq_ok.mp run
  rw [pure_eq_ok, Prod.mk.injEq] at run
  obtain ⟨isTypes, isParents⟩ := run
  subst isTypes isParents
  have ranked : ∀ id ∈ directTypes facts, ∀ supertype, found[id]? = some supertype →
          (ancestors found supertype).length < (ancestors found id).length := by
    intro id member supertype parent
    apply ancestors_parent_lt _ parent
    unfold validateInheritanceCycles at checked
    by_contra cyclic
    rw [if_pos] at checked
    · cases checked
    · exact List.any_eq_true.mpr ⟨id, member, by simpa using cyclic⟩
  have listed : ∀ id, id ∈ resolutionOrder (directTypes facts) found ↔ id ∈ directTypes facts := by
    intro id
    exact List.mem_insertionSort _
  have nodup : (resolutionOrder (directTypes facts) found).Nodup :=
    (List.perm_insertionSort _ _).nodup_iff.mpr (nodup_directTypes keyed)
  have sorted := sorted_resolutionOrder (directTypes facts) found
  obtain ⟨frame, fixed⟩ := resolveTypes_fixpoint nodup (fun id member parent =>
        absurd (ranked id ((listed id).mp member) id parent) (lt_irrefl _))
      (by
        refine List.pairwise_iff_forall_sublist.mpr ?_
        intro earlier later sub parent
        have isEarlier : earlier ∈ directTypes facts := (listed earlier).mp (sub.subset (by simp))
        have least := List.pairwise_iff_forall_sublist.mp sorted sub
        exact absurd (ranked earlier isEarlier later parent) (Nat.not_lt.mpr least))
      resolvedRun
  refine ⟨parents_of_validateParents validated, ?_, ranked, ?_, ?_, ?_⟩
  · intro edge stored
    have references := referencesDeclared_of_checked valid stored
    simp only [referencesDeclared, Bool.and_eq_true] at references
    exact ⟨mem_directTypes.mpr (keyed.exists_type references.1),
      mem_directTypes.mpr (keyed.exists_type references.2)⟩
  · intro id resolved stored
    by_contra absent
    rw [frame id (fun member => absent ((listed id).mp member))] at stored
    simp at stored
  · intro id member
    obtain ⟨resolved, stored, -⟩ := fixed id ((listed id).mpr member)
    exact ⟨resolved, stored⟩
  · intro id resolved stored
    have member : id ∈ resolutionOrder (directTypes facts) found := by
      by_contra absent
      rw [frame id absent] at stored
      simp at stored
    obtain ⟨other, isOther, isResolved⟩ := fixed id member
    rw [stored, Option.some.injEq] at isOther
    rw [isOther]
    exact isResolved

theorem Resolution.induction (resolution : Resolution facts profile parents types)
    (property : TypeId → ResolvedType → Prop) (passes : ∀ id resolved, types[id]? = some resolved →
        (∀ supertype parent, parents[id]? = some supertype →
          types[supertype]? = some parent → property supertype parent) → property id resolved) :
    ∀ id resolved, types[id]? = some resolved → property id resolved := by
  -- The induction is on the number of ancestors.
  have bounded : ∀ bound id resolved, (ancestors parents id).length < bound →
        types[id]? = some resolved → property id resolved := by
    intro bound
    induction bound with
    | zero =>
      intro id resolved below
      exact absurd below (Nat.not_lt_zero _)
    | succ bound ih =>
      intro id resolved below stored
      apply passes id resolved stored
      intro supertype parent isParent parentStored
      have fewer := resolution.ranked id (resolution.declared id resolved stored) supertype isParent
      exact ih supertype parent (by omega) parentStored
  intro id resolved stored
  exact bounded _ id resolved (Nat.lt_succ_self _) stored

def InheritsFrom (facts : Inventory) : TypeId → TypeId → Prop :=
  Relation.ReflTransGen fun subtype supertype =>
    ∃ edge, .sub edge ∈ facts.values ∧ edge.subtype = subtype ∧ edge.supertype = supertype

namespace Resolution

variable {facts : Inventory} {profile : SemanticProfile} {parents : Std.ExtTreeMap TypeId TypeId}
  {types : TypeMap} {id other : TypeId}

theorem ancestors_le (resolution : Resolution facts profile parents types)
    (inherits : InheritsFrom facts id other) :
    (ancestors parents other).length ≤ (ancestors parents id).length := by
  induction inherits with
  | refl => exact le_refl _
  | @tail middle last _ edge ih =>
    have parent := (resolution.parent middle last).mpr edge
    obtain ⟨stored, isStored, isSubtype, -⟩ := edge
    have isDeclared : middle ∈ directTypes facts := isSubtype ▸ (resolution.edges stored isStored).1
    have fewer := resolution.ranked middle isDeclared last parent
    omega

variable {supertype : TypeId} (resolution : Resolution facts profile parents types)
include resolution

theorem not_inheritsFrom_child (parent : parents[id]? = some supertype) :
    ¬ InheritsFrom facts supertype id := by
  intro inherits
  obtain ⟨edge, stored, isSubtype, -⟩ := (resolution.parent id supertype).mp parent
  have isDeclared : id ∈ directTypes facts := isSubtype ▸ (resolution.edges edge stored).1
  have fewer := resolution.ranked id isDeclared supertype parent
  have atMost := resolution.ancestors_le inherits
  omega

theorem inheritsFrom_iff :
    InheritsFrom facts id other ↔ id = other ∨ ∃ supertype, parents[id]? = some supertype ∧
          InheritsFrom facts supertype other := by
  constructor
  · intro inherits
    rcases Relation.ReflTransGen.cases_head inherits with same | further
    · exact .inl same
    · obtain ⟨supertype, edge, rest⟩ := further
      exact .inr ⟨supertype, (resolution.parent id supertype).mpr edge, rest⟩
  · intro related
    rcases related with same | further
    · subst same
      exact .refl
    · obtain ⟨supertype, parent, rest⟩ := further
      exact .head ((resolution.parent id supertype).mp parent) rest

theorem exists_parent (parent : parents[id]? = some supertype) :
    ∃ resolved, types[supertype]? = some resolved := by
  obtain ⟨edge, stored, -, isSupertype⟩ := (resolution.parent id supertype).mp parent
  exact resolution.exists_resolved supertype (isSupertype ▸ (resolution.edges edge stored).2)

theorem ancestors_eq_cons (parent : parents[id]? = some supertype) :
    ancestors parents id = supertype :: ancestors parents supertype := by
  obtain ⟨edge, stored, isSubtype, -⟩ := (resolution.parent id supertype).mp parent
  have isDeclared : id ∈ directTypes facts := isSubtype ▸ (resolution.edges edge stored).1
  have fewer := resolution.ranked id isDeclared supertype parent
  have atMost := length_ancestorChain_le parents (parents.size + 1) id
  have uncut : ancestors parents supertype = ancestorChain parents parents.size supertype := by
    apply ancestorChain_of_length_le
    unfold ancestors at fewer
    omega
  rw [uncut, ancestors, ancestorChain]
  simp only [parent]

theorem mem_ancestors_iff :
    ∀ id resolved, types[id]? = some resolved → (other ∈ ancestors parents id ↔ Relation.TransGen
          (fun subtype supertype => ∃ edge, .sub edge ∈ facts.values ∧ edge.subtype = subtype ∧
                edge.supertype = supertype) id other) := by
  apply resolution.induction
  intro id resolved stored ih
  simp only [← resolution.parent] at ih ⊢
  rw [Relation.TransGen.head'_iff]
  cases parent : parents[id]? with
  | none => simp [ancestors, ancestorChain, parent]
  | some supertype =>
    obtain ⟨above, aboveStored⟩ := resolution.exists_parent parent
    rw [resolution.ancestors_eq_cons parent, List.mem_cons, ih supertype above parent aboveStored]
    simp only [Option.some.injEq, exists_eq_left']
    rw [Relation.reflTransGen_iff_eq_or_transGen]

end Resolution

/-! ## Resolved schemas -/

/-- Two type maps that differ in the listed subtypes only. -/
def SameButSubtypes (left right : TypeMap) : Prop :=
  ∀ id : TypeId,
    left[id]?.map (fun resolved => { resolved with subtypes := ∅ }) =
      right[id]?.map (fun resolved => { resolved with subtypes := ∅ })

variable {left right : TypeMap}

theorem SameButSubtypes.modifyEntry (same : SameButSubtypes left right) (subtype id : TypeId) :
    SameButSubtypes (modifyEntry (fun resolved : ResolvedType =>
          { resolved with subtypes := insert subtype resolved.subtypes })
        left id)
      right := by
  intro query
  unfold Schema.modifyEntry
  cases stored : left[id]? with
  | none => exact same query
  | some resolved =>
    simp only
    rw [OrderedMap.getElem?_insert_eq]
    by_cases isId : id = query
    · subst isId
      rw [if_pos rfl, ← same id, stored]
      rfl
    · rw [if_neg isId]
      exact same query

theorem sameButSubtypes_populateSubtypes (parents : Std.ExtTreeMap TypeId TypeId)
    (types : TypeMap) : SameButSubtypes (populateSubtypes parents types) types := by
  unfold populateSubtypes
  refine List.foldlRecOn (motive := fun current =>
    SameButSubtypes current types) _ _ (fun _ => rfl) ?_
  intro current same id _
  refine List.foldlRecOn (motive := fun current => SameButSubtypes current types) _ _ same ?_
  intro current same supertype _
  exact same.modifyEntry id supertype

def ListsSubtypes (types : TypeMap) (entered : TypeId → TypeId → Prop) (current : TypeMap) : Prop :=
  ∀ (id : TypeId) (resolved : ResolvedType), current[id]? = some resolved →
    ∃ start, types[id]? = some start ∧ ∀ subtype, subtype ∈ resolved.subtypes ↔
        subtype ∈ start.subtypes ∨ entered subtype id

variable {current : TypeMap} {entered : TypeId → TypeId → Prop}
  (lists : ListsSubtypes types entered current)
include lists

theorem ListsSubtypes.modifyEntry (subtype id : TypeId) : ListsSubtypes types
      (fun lower upper => entered lower upper ∨ lower = subtype ∧ upper = id)
      (modifyEntry (fun resolved : ResolvedType =>
          { resolved with subtypes := insert subtype resolved.subtypes })
        current id) := by
  intro query resolved found
  unfold Schema.modifyEntry at found
  cases stored : current[id]? with
  | none =>
    simp only [stored] at found
    obtain ⟨start, isStart, listed⟩ := lists query resolved found
    refine ⟨start, isStart, ?_⟩
    intro lower
    have different : query ≠ id := by
      intro same
      rw [same, stored] at found
      cases found
    simp only [listed, different, and_false, or_false]
  | some former =>
    simp only [stored] at found
    rw [OrderedMap.getElem?_insert_eq] at found
    by_cases same : id = query
    · rw [if_pos same, Option.some.injEq] at found
      subst same found
      obtain ⟨start, isStart, listed⟩ := lists id former stored
      refine ⟨start, isStart, ?_⟩
      intro lower
      simp only [Finset.mem_insert, listed, and_true]
      tauto
    · rw [if_neg same] at found
      obtain ⟨start, isStart, listed⟩ := lists query resolved found
      refine ⟨start, isStart, ?_⟩
      intro lower
      simp only [listed, Ne.symm same, and_false, or_false]

theorem ListsSubtypes.congr {other : TypeId → TypeId → Prop}
    (same : ∀ lower upper, entered lower upper ↔ other lower upper) :
    ListsSubtypes types other current := by
  have isOther : entered = other := by
    funext lower upper
    exact propext (same lower upper)
  exact isOther ▸ lists

theorem ListsSubtypes.chain (subtype : TypeId) (chain : List TypeId) : ListsSubtypes types
      (fun lower upper => entered lower upper ∨ lower = subtype ∧ upper ∈ chain)
      (chain.foldl (Schema.modifyEntry fun resolved : ResolvedType =>
          { resolved with subtypes := insert subtype resolved.subtypes })
        current) := by
  induction chain generalizing current entered with
  | nil => simpa using lists
  | cons first rest ih =>
    refine (ih (lists.modifyEntry subtype first)).congr ?_
    intro lower upper
    rw [List.mem_cons]
    tauto

theorem ListsSubtypes.enter (parents : Std.ExtTreeMap TypeId TypeId)
    (ids : List TypeId) : ListsSubtypes types
      (fun lower upper => entered lower upper ∨ lower ∈ ids ∧ upper ∈ ancestors parents lower)
      (ids.foldl (fun types id =>
          (ancestors parents id).foldl (Schema.modifyEntry fun resolved : ResolvedType =>
              { resolved with subtypes := insert id resolved.subtypes })
            types)
        current) := by
  induction ids generalizing current entered with
  | nil => simpa using lists
  | cons first rest ih =>
    have next := lists.chain first (ancestors parents first)
    refine (ih next).congr ?_
    intro lower upper
    rw [List.mem_cons]
    constructor
    · intro listed
      rcases listed with (old | ⟨isFirst, isAncestor⟩) | later
      · exact .inl old
      · exact .inr ⟨.inl isFirst, isFirst ▸ isAncestor⟩
      · exact .inr ⟨.inr later.1, later.2⟩
    · intro listed
      rcases listed with old | ⟨isFirst | later, isAncestor⟩
      · exact .inl (.inl old)
      · exact .inl (.inr ⟨isFirst, isFirst ▸ isAncestor⟩)
      · exact .inr ⟨later, isAncestor⟩

omit lists

theorem mem_subtypes_populateSubtypes {resolved : ResolvedType}
    (stored : (populateSubtypes parents types)[id]? = some resolved) :
    ∃ start, types[id]? = some start ∧ ∀ subtype, subtype ∈ resolved.subtypes ↔
        subtype ∈ start.subtypes ∨ subtype ∈ types ∧ id ∈ ancestors parents subtype := by
  have start : ListsSubtypes types (fun _ _ => False) types := by
    intro id resolved stored
    exact ⟨resolved, stored, by simp⟩
  obtain ⟨former, isFormer, listed⟩ := start.enter parents types.keys id resolved stored
  refine ⟨former, isFormer, ?_⟩
  intro subtype
  simp only [listed, false_or, Std.ExtTreeMap.mem_keys]

theorem SameButSubtypes.exists_resolved (same : SameButSubtypes left right)
    {resolved : ResolvedType} (stored : left[id]? = some resolved) :
    ∃ other, right[id]? = some other ∧ resolved = { other with subtypes := resolved.subtypes } := by
  have matched := same id
  rw [stored, Option.map_some] at matched
  obtain ⟨other, isOther, agrees⟩ := Option.map_eq_some_iff.mp matched.symm
  refine ⟨other, isOther, ?_⟩
  cases resolved
  cases other
  simp only [ResolvedType.mk.injEq] at agrees ⊢
  tauto

variable {Bytes Digest : Type} {codec : Codec Bytes Digest} {declared : DeclaredSchema codec}
  {profileId : SemanticProfileId} {available : CapabilitySet} {resolved : ResolvedSchema Digest}

variable (accepted : resolveSchemaWithCapabilities declared profileId available = .ok resolved)
include accepted

theorem exists_populated :
    ∃ profile parents types, SemanticProfile.resolve profileId = .ok profile ∧
        Resolution declared.facts profile parents types ∧
        resolved.types = populateSubtypes parents types := by
  obtain ⟨_, -, accepted⟩ := bind_eq_ok.mp accepted
  obtain ⟨profile, isProfile, accepted⟩ := bind_eq_ok.mp accepted
  obtain ⟨_, -, accepted⟩ := bind_eq_ok.mp accepted
  obtain ⟨⟨types, parents⟩, run, accepted⟩ := bind_eq_ok.mp accepted
  obtain ⟨_, -, accepted⟩ := bind_eq_ok.mp accepted
  obtain ⟨_, -, accepted⟩ := bind_eq_ok.mp accepted
  rw [pure_eq_ok] at accepted
  subst accepted
  exact ⟨profile, parents, types, isProfile,
    resolution_of_resolveDeclaredTypes declared.keyed declared.checked run, rfl⟩

theorem exists_resolution :
    ∃ profile parents types, SemanticProfile.resolve profileId = .ok profile ∧
        Resolution declared.facts profile parents types ∧ SameButSubtypes resolved.types types ∧
        SameButSubtypes types resolved.types := by
  obtain ⟨profile, parents, types, isProfile, resolution, populated⟩ := exists_populated accepted
  have same := sameButSubtypes_populateSubtypes parents types
  rw [populated]
  exact ⟨profile, parents, types, isProfile, resolution, same, fun id => (same id).symm⟩

end TypeBridge.Schema
