import TypeBridge.Library.Inheritance
import TypeBridge.Schema.RoleSuccession

namespace TypeBridge.Schema

open Library
open Library.Checked hiding get

/-!
# Effective interfaces as nearest declarations

An effective ownership, played role or value domain of a type is the one that
the type declares, or else the one of its nearest ancestor that declares it.
The module states this for every resolved type, in terms of declared facts
only; a related role is read off its declaration wherever it is effective.
-/

/-! ## Annotations -/

def directAnnotations (facts : Inventory) (subject : AnnotationSubjectId) : List AnnotationFact :=
  facts.values.filterMap fun
    | .annotated fact => if fact.id.subject = subject then some fact else none
    | _ => none

variable {facts : Inventory} {subject : AnnotationSubjectId}

theorem selects_annotated (subject : AnnotationSubjectId) :
    Selects (fun
      | .annotated fact => if fact.id.subject = subject then some fact else none
      | _ => none) .annotated (·.id.subject = subject) := by
  intro stored chosen
  cases stored <;> grind

theorem mem_directAnnotations {annotated : AnnotationFact} :
    annotated ∈ directAnnotations facts subject ↔ .annotated annotated ∈ facts.values ∧
        annotated.id.subject = subject :=
  (selects_annotated subject).mem_iff

theorem nodup_directAnnotations (keyed : Inventory.Keyed facts) (subject : AnnotationSubjectId) :
    ((directAnnotations facts subject).map (·.id.kind)).Nodup := by
  refine (selects_annotated subject).nodup keyed ?_
  intro first second isFirst isSecond same
  simp only [SchemaFact.id, SchemaFactId.annotated.injEq]
  exact AnnotationFactId.ext (isFirst.trans isSecond.symm) same

theorem annotationsFor_eq (facts : Inventory) (subject : AnnotationSubjectId) :
    annotationsFor facts subject = (directAnnotations facts subject).foldl
        (fun annotations fact => annotations.insert fact.id.kind fact.value) ∅ := by
  unfold annotationsFor directAnnotations
  rw [List.foldl_filterMap]
  congr 1
  funext annotations fact
  cases fact with
  | annotated annotated => by_cases same : annotated.id.subject = subject <;> simp [same]
  | _ => rfl

theorem getElem?_annotationsFor (keyed : Inventory.Keyed facts) {kind : AnnotationKindId}
    {value : SchemaAnnotationValue} :
    (annotationsFor facts subject)[kind]? = some value ↔ ∃ annotated : AnnotationFact,
        .annotated annotated ∈ facts.values ∧
          annotated.id = ⟨subject, kind⟩ ∧ annotated.value = value := by
  have run : OrderedMap.insertAll (fun fact : AnnotationFact => fact.id.kind)
          (fun fact => (.ok fact.value : Except Diagnostic _)) (directAnnotations facts subject) ∅ =
        .ok (annotationsFor facts subject) := by
    rw [annotationsFor_eq]
    exact List.foldlM_pure
  obtain ⟨stored, frame⟩ := OrderedMap.insertAll_spec (nodup_directAnnotations keyed subject) run
  constructor
  · intro found
    by_cases listed : kind ∈ (directAnnotations facts subject).map (·.id.kind)
    · obtain ⟨annotated, member, isKind⟩ := List.mem_map.mp listed
      obtain ⟨computed, isComputed, isStored⟩ := stored annotated member
      cases isComputed
      obtain ⟨isFact, isSubject⟩ := mem_directAnnotations.mp member
      refine ⟨annotated, isFact, AnnotationFactId.ext isSubject isKind, ?_⟩
      rw [isKind, found, Option.some.injEq] at isStored
      exact isStored.symm
    · rw [frame kind listed] at found
      simp at found
  · intro declared
    obtain ⟨annotated, isFact, isId, isValue⟩ := declared
    have member : annotated ∈ directAnnotations facts subject :=
      mem_directAnnotations.mpr ⟨isFact, by rw [isId]⟩
    obtain ⟨computed, isComputed, isStored⟩ := stored annotated member
    cases isComputed
    rw [isId, isValue] at isStored
    exact isStored

theorem Inventory.Keyed.exists_annotated (keyed : Inventory.Keyed facts) {id : AnnotationFactId}
    {fact : SchemaFact} (stored : facts[SchemaFactId.annotated id]? = some fact) :
    ∃ annotated : AnnotationFact, fact = .annotated annotated ∧ annotated.id = id := by
  have isId := keyed _ _ stored
  cases fact with
  | annotated annotated => exact ⟨annotated, rfl, by simpa [SchemaFact.id] using isId⟩
  | _ => cases isId

theorem annotationsFor_of_undeclared (keyed : Inventory.Keyed facts)
    (checked : validateFacts facts = []) (undeclared : subjectFactId subject ∉ facts)
    (kind : AnnotationKindId) : (annotationsFor facts subject)[kind]? = none := by
  cases found : (annotationsFor facts subject)[kind]? with
  | none => rfl
  | some value =>
    obtain ⟨annotated, stored, isId, -⟩ := (getElem?_annotationsFor keyed).mp found
    have references := referencesDeclared_of_checked checked stored
    simp only [referencesDeclared, isId, Std.ExtTreeMap.contains_iff_mem] at references
    exact (undeclared references).elim

/-! ## Inherited entries -/

variable {parent child : TypeId}

theorem of_inheritOwns {profile : SemanticProfile} {owns inherited : EffectiveOwns}
    (run : inheritOwns parent child profile owns = .ok inherited) :
    inherited.id.attributeId = owns.id.attributeId ∧ inherited.annotations = owns.annotations ∧
      inherited.isKey = owns.isKey ∧ inherited.isUnique = owns.isUnique ∧
      inherited.collectionMode = owns.collectionMode ∧ inherited.cardinality =
        profile.effectiveCardinality .owns
          (owns.annotations[AnnotationKindId.card]?.bind cardinalityValue) owns.isKey := by
  unfold inheritOwns OwnsFactId.new at run
  by_cases valid : child.kind = .entity ∨ child.kind = .relation
  · simp only [valid, ↓reduceDIte, Except.ok.injEq] at run
    subst run
    exact ⟨rfl, rfl, rfl, rfl, rfl, rfl⟩
  · simp [valid] at run

theorem of_inheritPlays {plays inherited : EffectivePlays}
    (run : inheritPlays parent child plays = .ok inherited) :
    inherited.id.role = plays.id.role ∧ inherited.annotations = plays.annotations ∧
      inherited.cardinality = plays.cardinality := by
  unfold inheritPlays PlaysFactId.new at run
  by_cases valid : child.kind = .entity ∨ child.kind = .relation
  · simp only [valid, ↓reduceDIte, Except.ok.injEq] at run
    subst run
    exact ⟨rfl, rfl, rfl⟩
  · simp [valid] at run

/-! ## One resolved type -/

section Steps

variable {facts : Inventory} {profile : SemanticProfile} {parents : Std.ExtTreeMap TypeId TypeId}
  {types : TypeMap} {id : TypeId} {resolved : ResolvedType}

theorem exists_start_of_resolveType
    (run : resolveType facts profile parents types id = .ok resolved) :
    ∃ start, inheritedType profile parents types id = .ok start ∧
        (directOwns facts id).foldlM (addOwns facts profile) start.owns = .ok resolved.owns ∧
        (directPlays facts id).foldl (addPlays facts profile) start.plays = resolved.plays ∧
        resolved.valueType = resolveValueType facts id start.valueType := by
  obtain ⟨start, isStart, run⟩ := bind_eq_ok.mp run
  obtain ⟨directSub, -, run⟩ := bind_eq_ok.mp run
  obtain ⟨owns, added, run⟩ := bind_eq_ok.mp run
  obtain ⟨relates, -, run⟩ := bind_eq_ok.mp run
  rw [pure_eq_ok] at run
  subst run
  exact ⟨start, isStart, added, rfl, rfl⟩

theorem of_inheritType {parent start : ResolvedType}
    (inherited : inheritType parent id profile = .ok start) :
    OrderedMap.insertAll (fun entry : EffectiveOwns => entry.id.attributeId)
          (inheritOwns parent.id id profile)
          (parent.owns.toList.map Prod.snd) ∅ =
        .ok start.owns ∧
      OrderedMap.insertAll (fun entry : EffectivePlays => entry.id.role) (inheritPlays parent.id id)
          (parent.plays.toList.map Prod.snd) ∅ =
        .ok start.plays ∧
      start.valueType = parent.valueType.map fun value =>
          { value with origin := value.origin.inherited parent.id } := by
  obtain ⟨owns, ownsRun, inherited⟩ := bind_eq_ok.mp inherited
  obtain ⟨plays, playsRun, inherited⟩ := bind_eq_ok.mp inherited
  rw [pure_eq_ok] at inherited
  subst inherited
  refine ⟨Checked.foldlM_imp ?_ ownsRun, Checked.foldlM_imp ?_ playsRun, rfl⟩
  · intro map entry next stepped
    obtain ⟨changed, isChanged, result⟩ := bind_eq_ok.mp stepped
    refine bind_eq_ok.mpr ⟨changed, isChanged, ?_⟩
    rw [← result, (of_inheritOwns isChanged).1]
  · intro map entry next stepped
    obtain ⟨changed, isChanged, result⟩ := bind_eq_ok.mp stepped
    refine bind_eq_ok.mpr ⟨changed, isChanged, ?_⟩
    rw [← result, (of_inheritPlays isChanged).1]

end Steps

/-! ## Ownerships -/

/-- The second type is the declared parent of the first. -/
def IsSupertype (facts : Inventory) (subtype supertype : TypeId) : Prop :=
  ∃ edge, .sub edge ∈ facts.values ∧ edge.subtype = subtype ∧ edge.supertype = supertype

def OwnsDeclared (facts : Inventory) (attributeId : AttributeId) (owner : TypeId)
    (annotations : Annotations) : Prop :=
  ∃ fact : OwnsFact,
    .owns fact ∈ facts.values ∧ fact.id.owner = owner ∧ fact.id.attributeId = attributeId ∧
      annotations = annotationsFor facts (.owns fact.id)

def OwnsDeclaredBy (facts : Inventory) (attributeId : AttributeId) (owner : TypeId)
    (fact : OwnsFact) : Prop :=
  .owns fact ∈ facts.values ∧ fact.id.owner = owner ∧ fact.id.attributeId = attributeId

def PlaysDeclared (facts : Inventory) (role : RoleId) (player : TypeId)
    (annotations : Annotations) : Prop :=
  ∃ id : PlaysFactId, .plays id ∈ facts.values ∧ id.player = player ∧ id.role = role ∧
      annotations = annotationsFor facts (.plays id)

def ValueDeclared (facts : Inventory) (attributeType : TypeId) (valueType : ValueTypeTag) : Prop :=
  ∃ fact : ValueFact,
    .value fact ∈ facts.values ∧ attributeTypeId fact.id.attributeId = attributeType ∧
      valueType = fact.valueType

/-- The ownership says what these annotations say. -/
structure ReadsOwns (profile : SemanticProfile) (attributeId : AttributeId) (entry : EffectiveOwns)
    (annotations : Annotations) : Prop where
  sameAttribute : entry.id.attributeId = attributeId
  sameAnnotations : entry.annotations = annotations
  sameCardinality : entry.cardinality = cardinality annotations profile .owns
  sameKey : entry.isKey = annotations.contains .key
  sameUnique : entry.isUnique = (annotations.contains .unique || annotations.contains .key)

/-- The ownership says what its declaration says. -/
structure ReadsOwnsFact (facts : Inventory) (profile : SemanticProfile) (attributeId : AttributeId)
    (entry : EffectiveOwns) (fact : OwnsFact) : Prop where
  annotated : ReadsOwns profile attributeId entry (annotationsFor facts (.owns fact.id))
  sameMode : entry.collectionMode = fact.collectionMode

structure ReadsPlays (profile : SemanticProfile) (role : RoleId) (entry : EffectivePlays)
    (annotations : Annotations) : Prop where
  sameRole : entry.id.role = role
  sameAnnotations : entry.annotations = annotations
  sameCardinality : entry.cardinality = cardinality annotations profile .plays

variable {owner : TypeId}

theorem selects_owns (owner : TypeId) :
    Selects (fun
      | .owns fact => if fact.id.owner = owner then some fact else none
      | _ => none) .owns (·.id.owner = owner) := by
  intro stored chosen
  cases stored <;> grind

theorem mem_directOwns {fact : OwnsFact} :
    fact ∈ directOwns facts owner ↔ .owns fact ∈ facts.values ∧ fact.id.owner = owner :=
  (selects_owns owner).mem_iff

variable {player : TypeId}

theorem selects_plays (player : TypeId) :
    Selects (fun
      | .plays id => if id.player = player then some id else none
      | _ => none) .plays (·.player = player) := by
  intro stored chosen
  cases stored <;> grind

theorem mem_directPlays {id : PlaysFactId} :
    id ∈ directPlays facts player ↔ .plays id ∈ facts.values ∧ id.player = player :=
  (selects_plays player).mem_iff

theorem nodup_directOwns (keyed : Inventory.Keyed facts) (owner : TypeId) :
    ((directOwns facts owner).map (·.id.attributeId)).Nodup := by
  refine (selects_owns owner).nodup keyed ?_
  intro first second isFirst isSecond same
  simp only [SchemaFact.id, SchemaFactId.owns.injEq]
  exact OwnsFactId.ext (isFirst.trans isSecond.symm) same

theorem nodup_directPlays (keyed : Inventory.Keyed facts) (player : TypeId) :
    ((directPlays facts player).map (·.role)).Nodup := by
  refine (selects_plays player).nodup keyed ?_
  intro first second isFirst isSecond same
  simp only [SchemaFact.id, SchemaFactId.plays.injEq]
  exact PlaysFactId.ext (isFirst.trans isSecond.symm) same

variable {attributeId : AttributeId} {annotations : Annotations}

theorem OwnsDeclared.mem_directTypes (declared : OwnsDeclared facts attributeId owner annotations)
    (keyed : Inventory.Keyed facts) (checked : validateFacts facts = []) :
    owner ∈ directTypes facts := by
  obtain ⟨fact, stored, isOwner, -, -⟩ := declared
  have references := referencesDeclared_of_checked checked stored
  simp only [referencesDeclared, Bool.and_eq_true] at references
  subst isOwner
  exact Schema.mem_directTypes.mpr (keyed.exists_type references.1)

variable {attributeType : TypeId} {valueType : ValueTypeTag}

theorem ValueDeclared.mem_directTypes (declared : ValueDeclared facts attributeType valueType)
    (keyed : Inventory.Keyed facts) (checked : validateFacts facts = []) :
    attributeType ∈ directTypes facts := by
  obtain ⟨fact, stored, isType, -⟩ := declared
  have references := referencesDeclared_of_checked checked stored
  simp only [referencesDeclared] at references
  subst isType
  exact Schema.mem_directTypes.mpr (keyed.exists_type references)

variable {other : Annotations}

theorem OwnsDeclared.unique (declared : OwnsDeclared facts attributeId owner annotations)
    (otherDeclared : OwnsDeclared facts attributeId owner other) : other = annotations := by
  obtain ⟨fact, -, isOwner, isAttribute, isAnnotations⟩ := declared
  obtain ⟨otherFact, -, otherOwner, otherAttribute, otherAnnotations⟩ := otherDeclared
  have sameId : otherFact.id = fact.id := OwnsFactId.ext (otherOwner.trans isOwner.symm)
      (otherAttribute.trans isAttribute.symm)
  rw [isAnnotations, otherAnnotations, sameId]

theorem PlaysDeclared.unique {role : RoleId}
    (declared : PlaysDeclared facts role player annotations)
    (otherDeclared : PlaysDeclared facts role player other) : other = annotations := by
  obtain ⟨id, -, isPlayer, isRole, isAnnotations⟩ := declared
  obtain ⟨otherId, -, otherPlayer, otherRole, otherAnnotations⟩ := otherDeclared
  have sameId : otherId = id := PlaysFactId.ext (otherPlayer.trans isPlayer.symm)
      (otherRole.trans isRole.symm)
  rw [isAnnotations, otherAnnotations, sameId]

theorem ValueDeclared.unique (keyed : Inventory.Keyed facts) {other : ValueTypeTag}
    (declared : ValueDeclared facts attributeType valueType)
    (otherDeclared : ValueDeclared facts attributeType other) : other = valueType := by
  obtain ⟨fact, stored, isType, isValue⟩ := declared
  obtain ⟨otherFact, otherStored, otherType, otherValue⟩ := otherDeclared
  have sameId : otherFact.id = fact.id := by
    apply ValueFactId.ext
    apply AttributeId.ext
    exact congrArg TypeId.label (otherType.trans isType.symm)
  have found := keyed.mem_values.mp stored
  have otherFound := keyed.mem_values.mp otherStored
  simp only [SchemaFact.id] at found otherFound
  rw [sameId, found, Option.some.injEq, SchemaFact.value.injEq] at otherFound
  rw [isValue, otherValue, otherFound]

section Resolved

variable {facts : Inventory} {profile : SemanticProfile} {parents : Std.ExtTreeMap TypeId TypeId}
  {types : TypeMap} {id : TypeId} {resolved : ResolvedType}

/-- The ownership that a direct declaration stores. -/
def declaredOwns (facts : Inventory) (profile : SemanticProfile) (fact : OwnsFact) :
    EffectiveOwns :=
  let annotations := annotationsFor facts (.owns fact.id)
  {
    id := fact.id
    origin := .direct (.owns fact.id)
    collectionMode := fact.collectionMode
    annotations := annotations
    cardinality := cardinality annotations profile .owns
    isKey := annotations.contains .key
    isUnique := annotations.contains .unique || annotations.contains .key
  }

theorem of_addOwns {owns extended : Std.ExtTreeMap AttributeId EffectiveOwns} {fact : OwnsFact}
    (added : addOwns facts profile owns fact = .ok extended) :
    extended = owns.insert fact.id.attributeId (declaredOwns facts profile fact) := by
  unfold addOwns at added
  cases stored : owns[fact.id.attributeId]? with
  | none =>
    simp only [stored, Except.ok.injEq] at added
    exact added.symm
  | some inherited =>
    simp only [stored, require_eq_ok, Except.ok.injEq] at added
    exact added.2.symm

theorem Resolution.inheritedType_cases (resolution : Resolution facts profile parents types)
    {start : ResolvedType} (inherited : inheritedType profile parents types id = .ok start) :
    ((∀ supertype, ¬ IsSupertype facts id supertype) ∧ start = emptyResolvedType id) ∨
      ∃ supertype parent, parents[id]? = some supertype ∧ types[supertype]? = some parent ∧
          (∀ other, IsSupertype facts id other ↔ other = supertype) ∧
          inheritType parent id profile = .ok start := by
  have isEdge : ∀ supertype, IsSupertype facts id supertype ↔ parents[id]? = some supertype :=
    fun supertype => (resolution.parent id supertype).symm
  unfold inheritedType at inherited
  cases isParent : parents[id]? with
  | none =>
    simp only [isParent, Option.bind_none, Except.ok.injEq] at inherited
    refine .inl ⟨?_, inherited.symm⟩
    intro supertype edge
    rw [isEdge, isParent] at edge
    cases edge
  | some supertype =>
    obtain ⟨parent, parentStored⟩ := resolution.exists_parent isParent
    simp only [isParent, Option.bind_some, parentStored] at inherited
    refine .inr ⟨supertype, parent, rfl, parentStored, ?_, inherited⟩
    intro other
    rw [isEdge, isParent, Option.some.injEq]
    exact eq_comm

variable {β : Type} {declares : TypeId → β → Prop}

theorem nearest_iff_of_only {supertype : TypeId}
    (only : ∀ other, IsSupertype facts id other ↔ other = supertype) (value : β) :
    Nearest (IsSupertype facts) declares id value ↔ declares id value ∨
        (∀ other, ¬ declares id other) ∧ Nearest (IsSupertype facts) declares supertype value := by
  rw [Nearest.iff_declares_or]
  simp only [only, exists_eq_left]

theorem nearest_iff_of_none (none : ∀ supertype, ¬ IsSupertype facts id supertype) (value : β) :
    Nearest (IsSupertype facts) declares id value ↔ declares id value := by
  rw [Nearest.iff_declares_or]
  simp only [none, false_and, exists_false, and_false, or_false]

/--
Entries that a child rebuilds from its parent, and stores its declarations
over, are nearest declarations.
-/
theorem Resolution.tracks_nearest {K V W : Type} [LinearOrder K] {reads : K → V → W → Prop}
    {declares : K → TypeId → W → Prop} {entries : ResolvedType → Std.ExtTreeMap K V}
    (resolution : Resolution facts profile parents types)
    (empty : ∀ id, entries (emptyResolvedType id) = ∅)
    (inherits : ∀ parent id start value, inheritType parent id profile = .ok start →
          Tracks reads (entries parent) value → Tracks reads (entries start) value)
    (adds : ∀ id resolved, resolveType facts profile parents types id = .ok resolved →
          ∃ start, inheritedType profile parents types id = .ok start ∧
            ∀ value, Tracks reads (entries start) value →
              Tracks reads (entries resolved) fun query found => declares query id found ∨
                  (∀ other, ¬ declares query id other) ∧ value query found) :
    ∀ id resolved, types[id]? = some resolved → Tracks reads (entries resolved) fun query =>
        Nearest (IsSupertype facts) (declares query) id := by
  apply resolution.induction
  intro id resolved stored ih
  obtain ⟨start, isStart, extending⟩ := adds id resolved (resolution.resolved id resolved stored)
  rcases resolution.inheritedType_cases isStart with root | child
  · obtain ⟨isRoot, isEmpty⟩ := root
    have startTracked : Tracks reads (entries start) fun _ _ => False := by
      rw [isEmpty, empty]
      exact .empty fun _ _ impossible => impossible
    have tracked := extending _ startTracked
    simp only [and_false, or_false] at tracked
    refine tracked.congr fun query found => ?_
    exact (nearest_iff_of_none isRoot found).symm
  · obtain ⟨supertype, parent, isParent, parentStored, only, inherited⟩ := child
    have tracked :=
      extending _ (inherits parent id start _ inherited (ih supertype parent isParent parentStored))
    refine tracked.congr fun query found => ?_
    exact (nearest_iff_of_only only found).symm

theorem Resolution.mem_directTypes_of_nearest (resolution : Resolution facts profile parents types)
    (declared : ∀ id value, declares id value → id ∈ directTypes facts) {value : β}
    (nearest : Nearest (IsSupertype facts) declares id value) : id ∈ directTypes facts := by
  cases nearest with
  | here isDeclared => exact declared id value isDeclared
  | above undeclared isParent inherited =>
    obtain ⟨edge, stored, isSubtype, -⟩ := isParent
    exact isSubtype ▸ (resolution.edges edge stored).1

theorem Resolution.tracks_ownsFact (keyed : Inventory.Keyed facts)
    (resolution : Resolution facts profile parents types) :
    ∀ id resolved, types[id]? = some resolved →
      Tracks (ReadsOwnsFact facts profile) resolved.owns fun attributeId =>
        Nearest (IsSupertype facts) (OwnsDeclaredBy facts attributeId) id := by
  refine resolution.tracks_nearest (fun _ => rfl) ?_ ?_
  · intro parent id start value inherited tracked
    refine tracked.rebuilt (fun query entry found isRead =>
      isRead.annotated.sameAttribute) ?_ (of_inheritType inherited).1
    intro attributeId entry changed fact isRead isChanged
    obtain ⟨annotated, isMode⟩ := isRead
    obtain ⟨sameAttribute, sameAnnotations, sameKey, sameUnique, sameMode,
      newCardinality⟩ := of_inheritOwns isChanged
    refine ⟨⟨sameAttribute.trans annotated.sameAttribute,
      sameAnnotations.trans annotated.sameAnnotations, ?_,
      sameKey.trans annotated.sameKey, sameUnique.trans annotated.sameUnique⟩,
      sameMode.trans isMode⟩
    rw [newCardinality, annotated.sameAnnotations, annotated.sameKey]
    simp [cardinality]
  · intro id resolved run
    obtain ⟨start, isStart, ownsRun, -, -⟩ := exists_start_of_resolveType run
    refine ⟨start, isStart, ?_⟩
    intro value tracked
    have stored : OrderedMap.insertAll (fun fact : OwnsFact => fact.id.attributeId) (fun fact =>
              (.ok (declaredOwns facts profile fact) : Except Diagnostic EffectiveOwns))
            (directOwns facts id) start.owns = .ok resolved.owns := by
      refine Checked.foldlM_imp ?_ ownsRun
      intro owns fact extended added
      rw [of_addOwns added]
      rfl
    refine tracked.declare (nodup_directOwns keyed id) ?_ ?_ stored
    · intro fact member entry computed
      cases computed
      obtain ⟨isFact, isOwner⟩ := mem_directOwns.mp member
      exact ⟨fact, ⟨isFact, isOwner, rfl⟩, ⟨⟨rfl, rfl, rfl, rfl, rfl⟩, rfl⟩⟩
    · intro attributeId fact declared
      obtain ⟨isFact, isOwner, isAttribute⟩ := declared
      refine ⟨fact, mem_directOwns.mpr ⟨isFact, isOwner⟩, isAttribute, ?_⟩
      intro entry computed
      cases computed
      exact ⟨⟨isAttribute, rfl, rfl, rfl, rfl⟩, rfl⟩

theorem Resolution.tracks_owns (keyed : Inventory.Keyed facts)
    (resolution : Resolution facts profile parents types) :
    ∀ id resolved, types[id]? = some resolved →
      Tracks (ReadsOwns profile) resolved.owns fun attributeId =>
        Nearest (IsSupertype facts) (OwnsDeclared facts attributeId) id := by
  intro id resolved stored
  have tracked := resolution.tracks_ownsFact keyed id resolved stored
  refine (tracked.map (fun fact => annotationsFor facts (.owns fact.id))
    fun query entry fact isRead => isRead.annotated).congr ?_
  intro attributeId annotations
  rw [← Nearest.map_iff]
  have sameDeclarations : (fun owner annotations =>
        ∃ fact, OwnsDeclaredBy facts attributeId owner fact ∧
          annotationsFor facts (.owns fact.id) = annotations) =
        OwnsDeclared facts attributeId := by
    funext owner annotations
    simp only [OwnsDeclaredBy, OwnsDeclared, and_assoc, eq_comm]
  rw [sameDeclarations]

/-! ## Played roles -/

theorem Resolution.tracks_plays (keyed : Inventory.Keyed facts)
    (resolution : Resolution facts profile parents types) :
    ∀ id resolved, types[id]? = some resolved →
      Tracks (ReadsPlays profile) resolved.plays fun role =>
        Nearest (IsSupertype facts) (PlaysDeclared facts role) id := by
  refine resolution.tracks_nearest (fun _ => rfl) ?_ ?_
  · intro parent id start value inherited tracked
    refine tracked.rebuilt (fun query entry found isRead =>
      isRead.sameRole) ?_ (of_inheritType inherited).2.1
    intro role entry changed annotations isRead isChanged
    obtain ⟨sameRole, sameAnnotations, sameCardinality⟩ := of_inheritPlays isChanged
    exact ⟨sameRole.trans isRead.sameRole, sameAnnotations.trans isRead.sameAnnotations,
      sameCardinality.trans isRead.sameCardinality⟩
  · intro id resolved run
    obtain ⟨start, isStart, -, playsRun, -⟩ := exists_start_of_resolveType run
    refine ⟨start, isStart, ?_⟩
    intro value tracked
    have stored : OrderedMap.insertAll (fun id : PlaysFactId => id.role) (fun id =>
              (.ok {
                id := id
                origin := .direct (.plays id)
                annotations := annotationsFor facts (.plays id)
                cardinality := cardinality (annotationsFor facts (.plays id)) profile .plays
              } : Except Diagnostic EffectivePlays))
            (directPlays facts id) start.plays = .ok resolved.plays := by
      rw [← playsRun]
      exact List.foldlM_pure
    refine tracked.declare (nodup_directPlays keyed id) ?_ ?_ stored
    · intro factId member entry computed
      cases computed
      obtain ⟨isFact, isPlayer⟩ := mem_directPlays.mp member
      exact ⟨annotationsFor facts (.plays factId),
        ⟨factId, isFact, isPlayer, rfl, rfl⟩, ⟨rfl, rfl, rfl⟩⟩
    · intro role annotations declared
      obtain ⟨factId, isFact, isPlayer, isRole, isAnnotations⟩ := declared
      refine ⟨factId, mem_directPlays.mpr ⟨isFact, isPlayer⟩, isRole, ?_⟩
      intro entry computed
      cases computed
      subst isAnnotations
      exact ⟨isRole, rfl, rfl⟩

/-! ## Value domains -/

theorem directValue_eq_some (keyed : Inventory.Keyed facts) {attributeId : AttributeId}
    {fact : ValueFact} : directValue facts attributeId = some fact ↔
      .value fact ∈ facts.values ∧ fact.id.attributeId = attributeId := by
  have found : ∀ other, directValue facts attributeId = some other →
        .value other ∈ facts.values ∧ other.id.attributeId = attributeId := by
    intro other isOther
    obtain ⟨stored, member, selected⟩ := List.exists_of_findSome?_eq_some isOther
    cases stored with
    | value listed =>
      simp only [Option.ite_none_right_eq_some, Option.some.injEq] at selected
      obtain ⟨same, rfl⟩ := selected
      exact ⟨member, same⟩
    | _ => simp at selected
  constructor
  · exact found fact
  · intro stored
    obtain ⟨member, isAttribute⟩ := stored
    cases isFound : directValue facts attributeId with
    | none =>
      have absent := List.findSome?_eq_none_iff.mp isFound _ member
      simp [isAttribute] at absent
    | some other =>
      obtain ⟨otherMember, otherAttribute⟩ := found other isFound
      have sameId : other.id = fact.id := ValueFactId.ext (otherAttribute.trans isAttribute.symm)
      have isStored := keyed.mem_values.mp member
      have otherStored := keyed.mem_values.mp otherMember
      simp only [SchemaFact.id] at isStored otherStored
      rw [sameId, isStored] at otherStored
      simpa using otherStored.symm

variable {valueType : ValueTypeTag}

theorem valueDeclared_iff (keyed : Inventory.Keyed facts) :
    ValueDeclared facts id valueType ↔ id.kind = .attribute ∧
        ∃ fact, directValue facts ⟨id.label⟩ = some fact ∧ valueType = fact.valueType := by
  simp only [directValue_eq_some keyed]
  constructor
  · intro declared
    obtain ⟨fact, stored, isType, isValue⟩ := declared
    subst isType
    exact ⟨rfl, fact, ⟨stored, rfl⟩, isValue⟩
  · intro declared
    obtain ⟨isKind, fact, ⟨stored, isAttribute⟩, isValue⟩ := declared
    refine ⟨fact, stored, ?_, isValue⟩
    rw [isAttribute]
    exact TypeId.ext isKind.symm rfl

theorem resolveValueType_iff (keyed : Inventory.Keyed facts) {inherited : Option EffectiveValueType} :
    (resolveValueType facts id inherited).map (·.valueType) = some valueType ↔
      ValueDeclared facts id valueType ∨ (∀ other, ¬ ValueDeclared facts id other) ∧
          inherited.map (·.valueType) = some valueType := by
  simp only [valueDeclared_iff keyed]
  unfold resolveValueType
  by_cases isKind : id.kind = .attribute
  · cases isDirect : directValue facts ⟨id.label⟩ with
    | none => simp [isKind]
    | some fact => simp [isKind, eq_comm]
  · simp [isKind]

theorem Resolution.valueType_iff (keyed : Inventory.Keyed facts)
    (resolution : Resolution facts profile parents types) :
    ∀ id resolved, types[id]? = some resolved → ∀ valueType,
        resolved.valueType.map (·.valueType) = some valueType ↔
          Nearest (IsSupertype facts) (ValueDeclared facts) id valueType := by
  apply resolution.induction
  intro id resolved stored ih valueType
  obtain ⟨start, isStart, -, -, isValue⟩ :=
    exists_start_of_resolveType (resolution.resolved id resolved stored)
  rw [isValue, resolveValueType_iff keyed]
  rcases resolution.inheritedType_cases isStart with root | child
  · obtain ⟨isRoot, isEmpty⟩ := root
    subst isEmpty
    rw [nearest_iff_of_none isRoot]
    simp [emptyResolvedType]
  · obtain ⟨supertype, parent, isParent, parentStored, only, inherited⟩ := child
    rw [nearest_iff_of_only only, ← ih supertype parent isParent parentStored,
      (of_inheritType inherited).2.2, Option.map_map]
    rfl

/-! ## Related roles -/

theorem sorted_directRelates (keyed : Inventory.Keyed facts) (id : TypeId) :
    (directRelates facts id).Pairwise fun left right =>
      SchemaFactId.relates left.id < SchemaFactId.relates right.id := by
  unfold directRelates
  rw [List.pairwise_filterMap]
  refine keyed.sorted_values.imp ?_
  intro left right ordered first isFirst second isSecond
  obtain ⟨rfl, -⟩ := (selects_relates id _ _).mp isFirst
  obtain ⟨rfl, -⟩ := (selects_relates id _ _).mp isSecond
  exact ordered

theorem directRelates_eq_filter {smaller larger : Inventory}
    (smallerKeyed : Inventory.Keyed smaller) (largerKeyed : Inventory.Keyed larger)
    (selected : RelatesFact → Bool) (stored : ∀ fact, .relates fact ∈ smaller.values ↔
        .relates fact ∈ larger.values ∧ selected fact = true) (id : TypeId) :
    directRelates smaller id = (directRelates larger id).filter selected := by
  let precedes : RelatesFact → RelatesFact → Prop := fun left right =>
      SchemaFactId.relates left.id < SchemaFactId.relates right.id
  have irreflexive : Std.Irrefl precedes := ⟨fun _ => lt_irrefl _⟩
  have antisymmetric : Std.Antisymm precedes :=
    ⟨fun _ _ first second => absurd second (lt_asymm first)⟩
  refine List.Pairwise.eq_of_mem_iff (r := precedes) (sorted_directRelates smallerKeyed id)
    ((sorted_directRelates largerKeyed id).filter selected) ?_
  intro fact
  rw [List.mem_filter, mem_directRelates, mem_directRelates, stored]
  exact and_right_comm

/-- Related roles that are read off the declarations of their roles. -/
def RelatesRead (facts : Inventory) (profile : SemanticProfile) (relates : RelatesMap) : Prop :=
  ∀ (role : RoleId) (entry : EffectiveRelates), relates[role]? = some entry → ∃ fact : RelatesFact,
        .relates fact ∈ facts.values ∧ fact.id.role = role ∧
          entry.annotations = annotationsFor facts (.relates fact.id) ∧
          entry.cardinality = cardinality (annotationsFor facts (.relates fact.id)) profile
              .relates

theorem Resolution.relatesRead (keyed : Inventory.Keyed facts)
    (resolution : Resolution facts profile parents types) :
    ∀ (id : TypeId) (resolved : ResolvedType), types[id]? = some resolved →
      RelatesRead facts profile resolved.relates := by
  apply resolution.induction
  intro id resolved stored ih
  have run := relates_of_resolveType (resolution.resolved id resolved stored)
  refine foldlM_invariant (fun done relates =>
      (∀ fact ∈ done, .relates fact ∈ facts.values) → RelatesRead facts profile relates) ?_ ?_ run
    (fun fact member => (mem_directRelates.mp member).1)
  · intro _ role entry isStored
    cases located : parents[id]?.bind (types[·]?) with
    | none => simp [located] at isStored
    | some parent =>
      obtain ⟨supertype, isParent, parentStored⟩ := Option.bind_eq_some_iff.mp located
      simp only [located] at isStored
      rw [getElem?_inheritedRelates
        (resolution.rolesTraced keyed supertype parent parentStored).keyed] at isStored
      obtain ⟨inherited, isInherited, isEntry⟩ := Option.map_eq_some_iff.mp isStored
      subst isEntry
      exact ih supertype parent isParent parentStored role inherited isInherited
  · intro done fact relates extended read added listed role entry isStored
    rcases getElem?_addRelates added isStored with isNew | older
    · obtain ⟨isRole, -, isAnnotations, isCardinality⟩ := isNew
      exact ⟨fact, listed fact (by simp), isRole.symm, isAnnotations, isCardinality⟩
    · exact read (fun earlier member => listed earlier (by simp [member])) role entry older

end Resolved

end TypeBridge.Schema
