import TypeBridge.Library.Components
import TypeBridge.Schema.Declared

namespace TypeBridge.Schema

open Library Library.Components Library.ReadyOrder
open Library.Checked hiding get

/-!
# Schema resolution

`resolveSchemaWithCapabilities` derives effective types from direct facts.
Types are resolved ancestors first: a type starts from its resolved parent,
adds its direct ownerships, played roles and related roles, and a related role
that specializes another one removes the effective role it replaces.

Only direct facts enter the fingerprints; the resolved schema is rebuilt from
them. The second half of the module shows what acceptance says about role
specialization: every specialized role was resolved before the role that
specializes it, so specialization is well founded.
-/

/-- Interfaces with a default cardinality. -/
inductive InterfaceKind where
  | owns | relates | plays
  deriving DecidableEq, Repr

/-- The schema defaults a semantic profile fixes. -/
structure SemanticProfile where
  id : SemanticProfileId
  ownsCardinality : Cardinality
  relatesCardinality : Cardinality
  playsCardinality : Cardinality
  keyOwnsCardinality : Cardinality
  deriving DecidableEq, Repr

namespace SemanticProfile

/-- The defaults of a supported profile. -/
def resolve (id : SemanticProfileId) : Except Diagnostic SemanticProfile :=
  if id.text ∈
      ["typedb-3.11.5/v1", "typedb-3.12.1/v1", "typedb-3.13.6/v1"] then
    .ok {
      id := id
      ownsCardinality := ⟨0, some 1⟩
      relatesCardinality := ⟨0, some 1⟩
      playsCardinality := ⟨0, none⟩
      keyOwnsCardinality := ⟨1, some 1⟩
    }
  else .error ⟨"unsupported_semantic_profile"⟩

def defaultCardinality (profile : SemanticProfile) : InterfaceKind → Cardinality
  | .owns => profile.ownsCardinality
  | .relates => profile.relatesCardinality
  | .plays => profile.playsCardinality

def effectiveCardinality (profile : SemanticProfile) (kind : InterfaceKind)
    (explicit : Option Cardinality) (isKey : Bool) : Cardinality :=
  match kind, isKey, explicit with
  | .owns, true, _ => profile.keyOwnsCardinality
  | _, _, some cardinality => cardinality
  | kind, _, none => profile.defaultCardinality kind

end SemanticProfile

def SchemaFact.isOrderedCollection : SchemaFact → Bool
  | .owns fact => fact.collectionMode = .orderedList
  | .relates fact => fact.collectionMode = .orderedList
  | _ => false

/-- Ordered collections need one of the two later profiles. -/
def validateCollectionProfile (facts : Inventory) (profileId : SemanticProfileId) :
    Except Diagnostic Unit :=
  if profileId.text ∈ ["typedb-3.12.1/v1", "typedb-3.13.6/v1"] then .ok ()
  else if facts.values.any SchemaFact.isOrderedCollection then
    .error ⟨"ordered_collection_profile_unsupported"⟩
  else .ok ()

/-! ## The direct index -/

abbrev Annotations := Std.ExtTreeMap AnnotationKindId SchemaAnnotationValue

/-- The declared types in identity order. -/
def directTypes (facts : Inventory) : List TypeId :=
  facts.values.filterMap fun
    | .type fact => some fact.id
    | _ => none

/-- The subtype edges of one type in identity order. -/
def directParents (facts : Inventory) (subtype : TypeId) : List SubFactId :=
  facts.values.filterMap fun
    | .sub id => if id.subtype = subtype then some id else none
    | _ => none

/-- The types with a subtype edge in identity order. -/
def directSubtypes (facts : Inventory) : List TypeId :=
  (facts.values.filterMap fun
    | .sub id => some id.subtype
    | _ => none).dedup

def directValue (facts : Inventory) (attributeId : AttributeId) : Option ValueFact :=
  facts.values.findSome? fun
    | .value fact => if fact.id.attributeId = attributeId then some fact else none
    | _ => none

def directOwns (facts : Inventory) (owner : TypeId) : List OwnsFact :=
  facts.values.filterMap fun
    | .owns fact => if fact.id.owner = owner then some fact else none
    | _ => none

/-- The related roles of one type in identity order. -/
def directRelates (facts : Inventory) (relation : TypeId) : List RelatesFact :=
  facts.values.filterMap fun
    | .relates fact => if fact.id.relation = relation then some fact else none
    | _ => none

/-- The played roles of one type in identity order. -/
def directPlays (facts : Inventory) (player : TypeId) : List PlaysFactId :=
  facts.values.filterMap fun
    | .plays id => if id.player = player then some id else none
    | _ => none

def annotationsFor (facts : Inventory) (subject : AnnotationSubjectId) : Annotations :=
  facts.values.foldl (fun annotations fact =>
      match fact with
      | .annotated fact =>
          if fact.id.subject = subject then annotations.insert fact.id.kind fact.value
          else annotations
      | _ => annotations)
    ∅

def cardinalityValue : SchemaAnnotationValue → Option Cardinality
  | .cardinality value => some value
  | _ => none

def cardinality (annotations : Annotations) (profile : SemanticProfile) (kind : InterfaceKind) :
    Cardinality :=
  profile.effectiveCardinality kind (annotations[AnnotationKindId.card]?.bind cardinalityValue)
    (kind = .owns && annotations.contains .key)

/-! ## Inheritance -/

/-- The parent of each subtype; a type has at most one, of its own kind. -/
def validateParents (facts : Inventory) : Except Diagnostic (Std.ExtTreeMap TypeId TypeId) :=
  (directSubtypes facts).foldlM (fun parents subtype =>
      match directParents facts subtype with
      | [] => .ok parents
      | [edge] =>
          if subtype.kind = edge.supertype.kind then .ok (parents.insert subtype edge.supertype)
          else .error ⟨"invalid_type_parent_kind"⟩
      | _ => .error ⟨"multiple_type_parents"⟩)
    ∅

def hasInheritanceCycle (parents : Std.ExtTreeMap TypeId TypeId) : Nat → List TypeId → TypeId → Bool
  | 0, _, _ => true
  | fuel + 1, visited, current =>
      match parents[current]? with
      | none => false
      | some parent =>
          if current ∈ visited then true
          else hasInheritanceCycle parents fuel (current :: visited) parent

/-- Reject a type whose ancestors repeat. -/
def validateInheritanceCycles (types : List TypeId) (parents : Std.ExtTreeMap TypeId TypeId) :
    Except Diagnostic Unit :=
  if types.any (hasInheritanceCycle parents (parents.size + 1) []) then
    .error ⟨"schema_inheritance_cycle"⟩
  else .ok ()

def ancestorChain (parents : Std.ExtTreeMap TypeId TypeId) : Nat → TypeId → List TypeId
  | 0, _ => []
  | fuel + 1, current =>
      match parents[current]? with
      | none => []
      | some parent => parent :: ancestorChain parents fuel parent

def ancestors (parents : Std.ExtTreeMap TypeId TypeId) (id : TypeId) : List TypeId :=
  ancestorChain parents (parents.size + 1) id

/-- The types, shorter ancestor chains first. -/
def resolutionOrder (types : List TypeId) (parents : Std.ExtTreeMap TypeId TypeId) : List TypeId :=
  types.insertionSort fun left right =>
    (toLex ((ancestors parents left).length, left) : Nat ×ₗ TypeId) ≤
      toLex ((ancestors parents right).length, right)

/-! ## Effective entries -/

/-- The direct fact of an entry and the types it was inherited through. -/
structure ResolutionOrigin where
  declared : SchemaFactId
  inheritancePath : List TypeId
  deriving DecidableEq

/-- An entry declared on the resolved type itself. -/
def ResolutionOrigin.direct (declared : SchemaFactId) : ResolutionOrigin := ⟨declared, []⟩

def ResolutionOrigin.inherited (origin : ResolutionOrigin) (via : TypeId) : ResolutionOrigin :=
  { origin with inheritancePath := origin.inheritancePath ++ [via] }

structure EffectiveOwns where
  id : OwnsFactId
  origin : ResolutionOrigin
  collectionMode : CollectionMode
  annotations : Annotations
  cardinality : Cardinality
  isKey : Bool
  isUnique : Bool

structure EffectivePlays where
  id : PlaysFactId
  origin : ResolutionOrigin
  annotations : Annotations
  cardinality : Cardinality

structure EffectiveRelatesId where
  relation : TypeId
  role : RoleId
  deriving DecidableEq

structure EffectiveRelates where
  id : EffectiveRelatesId
  origin : ResolutionOrigin
  collectionMode : CollectionMode
  annotations : Annotations
  cardinality : Cardinality
  replacedRoles : Finset RoleId
  isAbstract : Bool

/-- Only a directly declared abstract role accepts no players. -/
def EffectiveRelates.acceptsPlayersAtEffectiveScope (relates : EffectiveRelates) : Bool :=
  !relates.isAbstract || !relates.origin.inheritancePath.isEmpty

structure EffectiveValueType where
  valueType : ValueTypeTag
  origin : ResolutionOrigin
  annotations : Annotations

/-- A direct subtype edge. -/
structure EffectiveSub where
  id : SubFactId
  origin : ResolutionOrigin
  annotations : Annotations

abbrev RelatesMap := Std.ExtTreeMap RoleId EffectiveRelates

structure ResolvedType where
  id : TypeId
  supertypes : List TypeId
  subtypes : Finset TypeId
  directSub : Option EffectiveSub
  annotations : Annotations
  valueType : Option EffectiveValueType
  owns : Std.ExtTreeMap AttributeId EffectiveOwns
  plays : Std.ExtTreeMap RoleId EffectivePlays
  relates : RelatesMap
  keyAttributes : Finset AttributeId
  uniqueAttributes : Finset AttributeId
  ownedAttributeOrder : List AttributeId
  isAbstract : Bool
  constructible : Bool

/-- A type without any entry. -/
def emptyResolvedType (id : TypeId) : ResolvedType where
  id := id
  supertypes := []
  subtypes := ∅
  directSub := none
  annotations := ∅
  valueType := none
  owns := ∅
  plays := ∅
  relates := ∅
  keyAttributes := ∅
  uniqueAttributes := ∅
  ownedAttributeOrder := []
  isAbstract := false
  constructible := true

def inheritOwns (parent child : TypeId) (profile : SemanticProfile) (owns : EffectiveOwns) :
    Except Diagnostic EffectiveOwns :=
  match OwnsFactId.new child owns.id.attributeId with
  | none => .error ⟨"invalid_owns_owner"⟩
  | some id =>
      .ok { owns with
        id := id
        origin := owns.origin.inherited parent
        cardinality :=
          profile.effectiveCardinality .owns
            (owns.annotations[AnnotationKindId.card]?.bind cardinalityValue)
            owns.isKey }

def inheritPlays (parent child : TypeId) (plays : EffectivePlays) :
    Except Diagnostic EffectivePlays :=
  match PlaysFactId.new child plays.id.role with
  | none => .error ⟨"invalid_plays_player"⟩
  | some id =>
      .ok { plays with
        id := id
        origin := plays.origin.inherited parent }

def inheritRelates (parent child : TypeId) (relates : EffectiveRelates) : EffectiveRelates :=
  { relates with
    id := ⟨child, relates.id.role⟩
    origin := relates.origin.inherited parent }

def inheritedRelates (parent : ResolvedType) (child : TypeId) : RelatesMap :=
  (parent.relates.toList.map Prod.snd).foldl
    (fun relates entry => relates.insert entry.id.role (inheritRelates parent.id child entry))
    ∅

/-- What a child starts from: independence, value domain and interfaces. -/
def inheritType (parent : ResolvedType) (child : TypeId) (profile : SemanticProfile) :
    Except Diagnostic ResolvedType := do
  let owns ← (parent.owns.toList.map Prod.snd).foldlM (fun owns entry => do
        let inherited ← inheritOwns parent.id child profile entry
        return owns.insert inherited.id.attributeId inherited)
      (∅ : Std.ExtTreeMap AttributeId EffectiveOwns)
  let plays ← (parent.plays.toList.map Prod.snd).foldlM (fun plays entry => do
        let inherited ← inheritPlays parent.id child entry
        return plays.insert inherited.id.role inherited)
      (∅ : Std.ExtTreeMap RoleId EffectivePlays)
  return { emptyResolvedType child with
    annotations := parent.annotations.filter fun kind _ => kind = .independent
    valueType :=
      parent.valueType.map fun value => { value with origin := value.origin.inherited parent.id }
    owns := owns
    plays := plays
    relates := inheritedRelates parent child }

/-- A direct ownership keeps the collection mode it inherits. -/
def addOwns (facts : Inventory) (profile : SemanticProfile)
    (owns : Std.ExtTreeMap AttributeId EffectiveOwns) (fact : OwnsFact) :
    Except Diagnostic (Std.ExtTreeMap AttributeId EffectiveOwns) :=
  let annotations := annotationsFor facts (.owns fact.id)
  let effective : EffectiveOwns := {
    id := fact.id
    origin := .direct (.owns fact.id)
    collectionMode := fact.collectionMode
    annotations := annotations
    cardinality := cardinality annotations profile .owns
    isKey := annotations.contains .key
    isUnique := annotations.contains .unique || annotations.contains .key
  }
  match owns[fact.id.attributeId]? with
  | some inherited =>
      if inherited.collectionMode = fact.collectionMode then
        .ok (owns.insert fact.id.attributeId effective)
      else .error ⟨"inherited_owns_collection_mode_conflict"⟩
  | none => .ok (owns.insert fact.id.attributeId effective)

def addPlays (facts : Inventory) (profile : SemanticProfile)
    (plays : Std.ExtTreeMap RoleId EffectivePlays) (id : PlaysFactId) :
    Std.ExtTreeMap RoleId EffectivePlays :=
  let annotations := annotationsFor facts (.plays id)
  plays.insert id.role {
    id := id
    origin := .direct (.plays id)
    annotations := annotations
    cardinality := cardinality annotations profile .plays
  }

/--
The effective role that a specialization replaces: the first one, in role
order, that is the specialized role or has replaced it.
-/
def replacedRole (relates : RelatesMap) (specialized : RoleId) :
    Option (RoleId × EffectiveRelates) :=
  relates.toList.find? fun entry => entry.1 = specialized || specialized ∈ entry.2.replacedRoles

def replaceSpecialized (relates : RelatesMap) (fact : RelatesFact) :
    Except Diagnostic (RelatesMap × Finset RoleId) :=
  match fact.specializes with
  | none => .ok (relates, ∅)
  | some specialized =>
      match replacedRole relates specialized with
      | none => .error ⟨"invalid_role_specialization"⟩
      | some (role, replaced) =>
          if replaced.collectionMode = fact.collectionMode then
            .ok (relates.erase role, insert specialized replaced.replacedRoles)
          else .error ⟨"specialized_role_collection_mode_conflict"⟩

/-- A direct related role. -/
def addRelates (facts : Inventory) (profile : SemanticProfile) (id : TypeId) (relates : RelatesMap)
    (fact : RelatesFact) :
    Except Diagnostic RelatesMap := do
  let (remaining, replacedRoles) ← replaceSpecialized relates fact
  let annotations := annotationsFor facts (.relates fact.id)
  return remaining.insert fact.id.role {
    id := ⟨id, fact.id.role⟩
    origin := .direct (.relates fact.id)
    collectionMode := fact.collectionMode
    annotations := annotations
    cardinality := cardinality annotations profile .relates
    replacedRoles := replacedRoles
    isAbstract := annotations.contains .abstract
  }

/-! ## Types -/

abbrev TypeMap := Std.ExtTreeMap TypeId ResolvedType

/-- What a type starts from before its direct facts are added. -/
def inheritedType (profile : SemanticProfile) (parents : Std.ExtTreeMap TypeId TypeId)
    (types : TypeMap) (id : TypeId) : Except Diagnostic ResolvedType :=
  match parents[id]?.bind (types[·]?) with
  | none => .ok (emptyResolvedType id)
  | some parent => inheritType parent id profile

def resolveDirectSub (facts : Inventory) (parents : Std.ExtTreeMap TypeId TypeId) (id : TypeId) :
    Except Diagnostic (Option EffectiveSub) :=
  match parents[id]? with
  | none => .ok none
  | some parent =>
      match SubFactId.new id parent with
      | none => .error ⟨"invalid_sub_fact"⟩
      | some subId =>
          .ok (some {
            id := subId
            origin := .direct (.sub subId)
            annotations := annotationsFor facts (.sub subId)
          })

def resolveValueType (facts : Inventory) (id : TypeId) (inherited : Option EffectiveValueType) :
    Option EffectiveValueType :=
  if id.kind = .attribute then
    match directValue facts ⟨id.label⟩ with
    | none => inherited
    | some fact =>
        some {
          valueType := fact.valueType
          origin := .direct (.value fact.id)
          annotations := annotationsFor facts (.value fact.id)
        }
  else inherited

/-- Independence is inherited; direct annotations are added to it. -/
def resolveAnnotations (facts : Inventory) (id : TypeId) (inherited : Annotations) : Annotations :=
  (annotationsFor facts (.type id)).toList.foldl
    (fun annotations entry => annotations.insert entry.1 entry.2)
    inherited

def ownedAttributes (owns : Std.ExtTreeMap AttributeId EffectiveOwns)
    (selected : EffectiveOwns → Bool) : Finset AttributeId :=
  (((owns.toList.map Prod.snd).filter selected).map (·.id.attributeId)).toFinset

def resolveType (facts : Inventory) (profile : SemanticProfile)
    (parents : Std.ExtTreeMap TypeId TypeId) (types : TypeMap) (id : TypeId) :
    Except Diagnostic ResolvedType := do
  let inherited ← inheritedType profile parents types id
  let directSub ← resolveDirectSub facts parents id
  let annotations := resolveAnnotations facts id inherited.annotations
  let isAbstract := annotations.contains .abstract
  let owns ← (directOwns facts id).foldlM (addOwns facts profile) inherited.owns
  let relates ← (directRelates facts id).foldlM (addRelates facts profile id)
      inherited.relates
  return {
    id := id
    supertypes := ancestors parents id
    subtypes := ∅
    directSub := directSub
    annotations := annotations
    valueType := resolveValueType facts id inherited.valueType
    owns := owns
    plays := (directPlays facts id).foldl (addPlays facts profile)
      inherited.plays
    relates := relates
    keyAttributes := ownedAttributes owns (·.isKey)
    uniqueAttributes := ownedAttributes owns (·.isUnique)
    ownedAttributeOrder := owns.keys
    isAbstract := isAbstract
    constructible :=
      !isAbstract && (relates.toList.map Prod.snd).all
          EffectiveRelates.acceptsPlayersAtEffectiveScope
  }

def resolveTypes (facts : Inventory) (profile : SemanticProfile)
    (parents : Std.ExtTreeMap TypeId TypeId) (order : List TypeId) (types : TypeMap) :
    Except Diagnostic TypeMap :=
  order.foldlM (fun types id => do
      let resolved ← resolveType facts profile parents types id
      return types.insert id resolved)
    types

/-- Replace the entry of a key that is present. -/
def modifyEntry {K V : Type} [LinearOrder K] (change : V → V) (entries : Std.ExtTreeMap K V)
    (id : K) : Std.ExtTreeMap K V :=
  match entries[id]? with
  | none => entries
  | some entry => entries.insert id (change entry)

def populateSubtypes (parents : Std.ExtTreeMap TypeId TypeId) (types : TypeMap) : TypeMap :=
  types.keys.foldl (fun types id =>
      (ancestors parents id).foldl
        (modifyEntry fun resolved => { resolved with subtypes := insert id resolved.subtypes })
        types)
    types

structure ResolvedRole where
  id : RoleId
  acceptedPlayers : Std.ExtTreeSet TypeId
  replacingRoles : Finset RoleId
  isAbstract : Bool

def resolveRoles (facts : Inventory) (types : TypeMap) : Std.ExtTreeMap RoleId ResolvedRole :=
  let resolvedTypes := types.toList.map Prod.snd
  let declared : Std.ExtTreeMap RoleId ResolvedRole :=
    facts.values.foldl (fun roles fact =>
        match fact with
        | .relates fact =>
            roles.insert fact.id.role {
              id := fact.id.role
              acceptedPlayers := ∅
              replacingRoles := ∅
              isAbstract := (annotationsFor facts (.relates fact.id)).contains .abstract
            }
        | _ => roles)
      ∅
  let replacing :=
    resolvedTypes.foldl (fun roles resolved =>
        (resolved.relates.toList.map Prod.snd).foldl (fun roles relates =>
            modifyEntry (fun role =>
                { role with
                  replacingRoles := role.replacingRoles ∪ relates.replacedRoles })
              roles relates.id.role)
          roles)
      declared
  (resolvedTypes.filter (·.constructible)).foldl (fun roles resolved =>
      (resolved.plays.toList.map Prod.snd).foldl (fun roles plays =>
          modifyEntry (fun role =>
              { role with
                acceptedPlayers := role.acceptedPlayers.insert resolved.id })
            roles plays.id.role)
        roles)
    replacing

structure ResolvedFunction where
  declaration : FunctionFact
  annotations : Annotations

/-- The declared functions, kept as they are. -/
def resolveFunctions (facts : Inventory) : Std.ExtTreeMap FunctionId ResolvedFunction :=
  facts.values.foldl (fun functions fact =>
      match fact with
      | .function fact =>
          functions.insert fact.id ⟨fact, annotationsFor facts (.function fact.id)⟩
      | _ => functions)
    ∅

def resolveStructs (facts : Inventory) : Std.ExtTreeMap StructId (List StructField) :=
  facts.values.foldl (fun structs fact =>
      match fact with
      | .struct fact => structs.insert fact.id fact.fields
      | _ => structs)
    ∅

def projectionDependencies (roles : Std.ExtTreeMap RoleId ResolvedRole) (resolved : ResolvedType) :
    Std.ExtTreeSet TypeId :=
  .ofList (resolved.supertypes.head?.toList ++ resolved.owns.keys.map attributeTypeId ++
      resolved.plays.keys.map declaringRelationType ++
      (resolved.relates.toList.map Prod.snd).flatMap fun relates =>
        (roles[relates.id.role]?.map (·.acceptedPlayers.toList)).getD [])

def firstMember (component : List TypeId) : WithBot TypeId := component.head?

structure SchemaDependencyGraph where
  edges : Std.ExtTreeMap TypeId (Std.ExtTreeSet TypeId)
  stronglyConnectedComponents : List (List TypeId)

/--
The projection dependency graph.

Every dependency is a declared type, so the components are taken over the
resolved types; they are listed by their first member.
-/
def dependencyGraph (types : TypeMap) (roles : Std.ExtTreeMap RoleId ResolvedRole) :
    SchemaDependencyGraph :=
  let edges := types.map fun _ resolved => projectionDependencies roles resolved
  let dependencies : TypeId → List TypeId := fun id => (edges[id]?.map (·.toList)).getD []
  {
    edges := edges
    stronglyConnectedComponents :=
      (stronglyConnectedComponents dependencies types.keys).insertionSort
        fun left right => firstMember left ≤ firstMember right
  }

structure ResolvedSchema (Digest : Type) where
  declaredIdentity : Digest
  semanticFingerprint : Digest
  types : TypeMap
  roles : Std.ExtTreeMap RoleId ResolvedRole
  functions : Std.ExtTreeMap FunctionId ResolvedFunction
  structs : Std.ExtTreeMap StructId (List StructField)
  dependencyGraph : SchemaDependencyGraph

variable {Bytes Digest : Type} {codec : Codec Bytes Digest}

def semanticSchemaFingerprint (declared : DeclaredSchema codec) (profileId : SemanticProfileId) :
    Except Diagnostic Digest := do
  let _ ← SemanticProfile.resolve profileId
  validateCollectionProfile declared.facts profileId
  let bytes ←
    codec.semanticBytes profileId declared.format
      declared.requiredCapabilities declared.facts
  return codec.digest bytes

/-- The effective types of a declared schema, ancestors first. -/
def resolveDeclaredTypes (facts : Inventory) (profile : SemanticProfile) :
    Except Diagnostic (TypeMap × Std.ExtTreeMap TypeId TypeId) := do
  let parents ← validateParents facts
  validateInheritanceCycles (directTypes facts) parents
  let types ←
    resolveTypes facts profile parents (resolutionOrder (directTypes facts) parents) ∅
  return (types, parents)

/-- Resolve direct facts with the available schema capabilities. -/
def resolveSchemaWithCapabilities (declared : DeclaredSchema codec) (profileId : SemanticProfileId)
    (available : CapabilitySet) :
    Except Diagnostic (ResolvedSchema Digest) := do
  ensureSupportedBy declared.requiredCapabilities available
  let profile ← SemanticProfile.resolve profileId
  validateCollectionProfile declared.facts profileId
  let (directlyResolved, parents) ← resolveDeclaredTypes declared.facts profile
  let types := populateSubtypes parents directlyResolved
  let roles := resolveRoles declared.facts types
  codec.descriptorIndex declared.facts
  let semanticFingerprint ← semanticSchemaFingerprint declared profileId
  return {
    declaredIdentity := declared.fingerprint
    semanticFingerprint := semanticFingerprint
    types := types
    roles := roles
    functions := resolveFunctions declared.facts
    structs := resolveStructs declared.facts
    dependencyGraph := dependencyGraph types roles
  }

/-! ## Specialized roles are resolved first -/

def RelatesKnown (roles : List RoleId) (relates : RelatesMap) : Prop :=
  ∀ (role : RoleId) (entry : EffectiveRelates),
    relates[role]? = some entry → role ∈ roles ∧ entry.id.role ∈ roles ∧
        ∀ replaced ∈ entry.replacedRoles, replaced ∈ roles

def TypesKnown (roles : List RoleId) (types : TypeMap) : Prop :=
  ∀ (id : TypeId) (resolved : ResolvedType),
    types[id]? = some resolved → RelatesKnown roles resolved.relates

def SpecializesEarlier : List RoleId → List RelatesFact → Prop
  | _, [] => True
  | roles, fact :: rest =>
      (∀ parent, fact.specializes = some parent → parent ∈ roles) ∧
        SpecializesEarlier (roles ++ [fact.id.role]) rest

variable {roles : List RoleId} {relates : RelatesMap} (known : RelatesKnown roles relates)
include known

theorem RelatesKnown.append (more : List RoleId) : RelatesKnown (roles ++ more) relates := by
  intro role entry stored
  obtain ⟨roleKnown, entryKnown, replacedKnown⟩ := known role entry stored
  exact ⟨List.mem_append_left more roleKnown, List.mem_append_left more entryKnown,
    fun replaced member => List.mem_append_left more (replacedKnown replaced member)⟩

theorem RelatesKnown.insert {role : RoleId} {entry : EffectiveRelates} (roleKnown : role ∈ roles)
    (entryKnown : entry.id.role ∈ roles)
    (replacedKnown : ∀ replaced ∈ entry.replacedRoles, replaced ∈ roles) :
    RelatesKnown roles (relates.insert role entry) := by
  intro query stored found
  rw [OrderedMap.getElem?_insert_eq] at found
  by_cases same : role = query
  · rw [if_pos same, Option.some.injEq] at found
    subst query stored
    exact ⟨roleKnown, entryKnown, replacedKnown⟩
  · rw [if_neg same] at found
    exact known query stored found

theorem RelatesKnown.erase (role : RoleId) : RelatesKnown roles (relates.erase role) := by
  intro query stored found
  rw [OrderedMap.getElem?_erase_eq] at found
  by_cases same : role = query
  · simp [same] at found
  · rw [if_neg same] at found
    exact known query stored found

omit known

theorem RelatesKnown.inherited {parent : ResolvedType} (known : RelatesKnown roles parent.relates)
    (child : TypeId) : RelatesKnown roles (inheritedRelates parent child) := by
  have entries : ∀ entry ∈ parent.relates.toList.map Prod.snd, entry.id.role ∈ roles ∧
          ∀ replaced ∈ entry.replacedRoles, replaced ∈ roles := by
    intro entry member
    obtain ⟨role, stored⟩ := OrderedMap.mem_values.mp member
    exact (known role entry stored).2
  have start : RelatesKnown roles (∅ : RelatesMap) := by
    intro role entry stored
    simp at stored
  unfold inheritedRelates
  generalize parent.relates.toList.map Prod.snd = listed at entries
  generalize (∅ : RelatesMap) = relates at start
  induction listed generalizing relates with
  | nil => exact start
  | cons first rest ih =>
    rw [List.foldl_cons]
    obtain ⟨roleKnown, replacedKnown⟩ := entries first (by simp)
    apply ih
    · intro entry member
      exact entries entry (by simp [member])
    · exact start.insert roleKnown roleKnown replacedKnown

variable {fact : RelatesFact}

theorem replaceSpecialized_known {remaining : RelatesMap} {replacedRoles : Finset RoleId}
    (known : RelatesKnown roles relates)
    (replaced : replaceSpecialized relates fact = .ok (remaining, replacedRoles)) :
    RelatesKnown roles remaining ∧ (∀ role ∈ replacedRoles, role ∈ roles) ∧
      ∀ parent, fact.specializes = some parent → parent ∈ roles := by
  unfold replaceSpecialized at replaced
  cases specialization : fact.specializes with
  | none =>
    simp only [specialization, Except.ok.injEq, Prod.mk.injEq] at replaced
    obtain ⟨rfl, rfl⟩ := replaced
    simpa using known
  | some specialized =>
    simp only [specialization] at replaced
    cases located : replacedRole relates specialized with
    | none => simp [located] at replaced
    | some found =>
      obtain ⟨role, entry⟩ := found
      simp only [located, require_eq_ok, Except.ok.injEq, Prod.mk.injEq] at replaced
      obtain ⟨-, rfl, rfl⟩ := replaced
      have stored :=
        Std.ExtTreeMap.mem_toList_iff_getElem?_eq_some.mp (List.mem_of_find?_eq_some located)
      have matched := List.find?_some located
      obtain ⟨roleKnown, -, replacedKnown⟩ := known role entry stored
      have specializedKnown : specialized ∈ roles := by
        simp only [Bool.or_eq_true, decide_eq_true_eq] at matched
        rcases matched with same | replacedBefore
        · exact same ▸ roleKnown
        · exact replacedKnown specialized replacedBefore
      refine ⟨known.erase role, ?_, ?_⟩
      · intro other member
        rcases Finset.mem_insert.mp member with rfl | before
        · exact specializedKnown
        · exact replacedKnown other before
      · rintro parent ⟨⟩
        exact specializedKnown

variable {facts : Inventory} {profile : SemanticProfile} {id : TypeId} {extended : RelatesMap}

theorem addRelates_known (known : RelatesKnown roles relates)
    (added : addRelates facts profile id relates fact = .ok extended) :
    RelatesKnown (roles ++ [fact.id.role]) extended ∧
      ∀ parent, fact.specializes = some parent → parent ∈ roles := by
  obtain ⟨⟨remaining, replacedRoles⟩, replaced, result⟩ := bind_eq_ok.mp added
  obtain ⟨remainingKnown, replacedKnown, specializedKnown⟩ :=
    replaceSpecialized_known known replaced
  rw [pure_eq_ok] at result
  subst extended
  refine ⟨?_, specializedKnown⟩
  apply (remainingKnown.append [fact.id.role]).insert
  · simp
  · simp
  · intro role member
    exact List.mem_append_left _ (replacedKnown role member)

theorem foldlM_addRelates_known (declared : List RelatesFact) (known : RelatesKnown roles relates)
    (added : declared.foldlM (addRelates facts profile id) relates = .ok extended) :
    SpecializesEarlier roles declared ∧
      RelatesKnown (roles ++ declared.map (·.id.role)) extended := by
  induction declared generalizing roles relates with
  | nil =>
    rw [List.foldlM_nil, pure_eq_ok] at added
    subst extended
    exact ⟨trivial, by simpa using known⟩
  | cons first rest ih =>
    obtain ⟨middle, firstAdded, restAdded⟩ := foldlM_cons_eq_ok.mp added
    obtain ⟨middleKnown, specializedKnown⟩ := addRelates_known known firstAdded
    obtain ⟨restEarlier, restKnown⟩ := ih middleKnown restAdded
    exact ⟨⟨specializedKnown, restEarlier⟩, by simpa using restKnown⟩

variable {parents : Std.ExtTreeMap TypeId TypeId} {types : TypeMap}

theorem inheritedType_known {inherited : ResolvedType} (known : TypesKnown roles types)
    (start : inheritedType profile parents types id = .ok inherited) :
    RelatesKnown roles inherited.relates := by
  unfold inheritedType at start
  cases located : parents[id]?.bind (types[·]?) with
  | none =>
    simp only [located, Except.ok.injEq] at start
    subst inherited
    intro role entry stored
    simp [emptyResolvedType] at stored
  | some parent =>
    simp only [located] at start
    obtain ⟨parentId, -, stored⟩ := Option.bind_eq_some_iff.mp located
    obtain ⟨owns, -, start⟩ := bind_eq_ok.mp start
    obtain ⟨plays, -, start⟩ := bind_eq_ok.mp start
    rw [pure_eq_ok] at start
    subst inherited
    exact (known parentId parent stored).inherited id

theorem resolveType_known {resolved : ResolvedType} (known : TypesKnown roles types)
    (run : resolveType facts profile parents types id = .ok resolved) :
    SpecializesEarlier roles (directRelates facts id) ∧
      RelatesKnown (roles ++ (directRelates facts id).map (·.id.role)) resolved.relates := by
  obtain ⟨inherited, start, run⟩ := bind_eq_ok.mp run
  obtain ⟨directSub, -, run⟩ := bind_eq_ok.mp run
  obtain ⟨owns, -, run⟩ := bind_eq_ok.mp run
  obtain ⟨relates, added, run⟩ := bind_eq_ok.mp run
  rw [pure_eq_ok] at run
  subst resolved
  exact foldlM_addRelates_known _ (inheritedType_known known start) added

theorem SpecializesEarlier.append {left right : List RelatesFact}
    (leftEarlier : SpecializesEarlier roles left)
    (rightEarlier : SpecializesEarlier (roles ++ left.map (·.id.role)) right) :
    SpecializesEarlier roles (left ++ right) := by
  induction left generalizing roles with
  | nil => simpa using rightEarlier
  | cons first rest ih =>
    refine ⟨leftEarlier.1, ?_⟩
    apply ih leftEarlier.2
    simpa using rightEarlier

theorem resolveTypes_specializesEarlier (order : List TypeId) {resolvedTypes : TypeMap}
    (known : TypesKnown roles types)
    (run : resolveTypes facts profile parents order types = .ok resolvedTypes) :
    SpecializesEarlier roles (order.flatMap (directRelates facts)) := by
  induction order generalizing types roles with
  | nil => trivial
  | cons id rest ih =>
    obtain ⟨extended, step, restRun⟩ := foldlM_cons_eq_ok.mp run
    obtain ⟨resolved, resolvedRun, inserted⟩ := bind_eq_ok.mp step
    rw [pure_eq_ok] at inserted
    subst extended
    obtain ⟨earlier, resolvedKnown⟩ := resolveType_known known resolvedRun
    rw [List.flatMap_cons]
    refine earlier.append (ih ?_ restRun)
    intro query stored found
    rw [OrderedMap.getElem?_insert_eq] at found
    by_cases same : id = query
    · rw [if_pos same, Option.some.injEq] at found
      subst stored
      exact resolvedKnown
    · rw [if_neg same] at found
      exact (known query stored found).append _

theorem SpecializesEarlier.idxOf_lt {declared : List RelatesFact}
    (earlier : SpecializesEarlier roles declared)
    (determined : ∀ left ∈ declared, ∀ right ∈ declared,
        left.id.role = right.id.role → left = right)
    (member : fact ∈ declared) (fresh : fact.id.role ∉ roles) {parent : RoleId}
    (specialization : fact.specializes = some parent) :
    (roles ++ declared.map (·.id.role)).idxOf parent <
      (roles ++ declared.map (·.id.role)).idxOf fact.id.role := by
  induction declared generalizing roles with
  | nil => simp at member
  | cons first rest ih =>
    by_cases sameRole : first.id.role = fact.id.role
    · have same : first = fact := determined first (by simp) fact member sameRole
      subst first
      have parentKnown := earlier.1 parent specialization
      rw [List.idxOf_append_of_mem parentKnown, List.idxOf_append_of_notMem fresh]
      exact (List.idxOf_lt_length_of_mem parentKnown).trans_le (Nat.le_add_right _ _)
    · have inRest : fact ∈ rest := by
        rcases List.mem_cons.mp member with rfl | later
        · exact (sameRole rfl).elim
        · exact later
      have result :=
        ih earlier.2 (fun left leftMember right rightMember =>
            determined left (List.mem_cons_of_mem _ leftMember)
              right (List.mem_cons_of_mem _ rightMember))
          inRest (by
            rw [List.mem_append, List.mem_singleton]
            rintro (known | isFirst)
            · exact fresh known
            · exact sameRole isFirst.symm)
      simpa using result

theorem RelatesFactId.eq_relatesId (id : RelatesFactId) : id = relatesId id.role := by
  apply RelatesFactId.ext
  · apply TypeId.ext
    · exact id.relationKind
    · exact id.declaredHere
  · rfl

theorem selects_relates (relation : TypeId) :
    Selects (fun
      | .relates fact => if fact.id.relation = relation then some fact else none
      | _ => none) .relates (·.id.relation = relation) := by
  intro stored chosen
  cases stored <;> grind

theorem mem_directRelates {relation : TypeId} : fact ∈ directRelates facts relation ↔
      .relates fact ∈ facts.values ∧ fact.id.relation = relation :=
  (selects_relates relation).mem_iff

theorem selects_sub (subtype : TypeId) :
    Selects (fun
      | .sub id => if id.subtype = subtype then some id else none
      | _ => none) .sub (·.subtype = subtype) := by
  intro stored chosen
  cases stored <;> grind

theorem mem_directParents {subtype : TypeId} {edge : SubFactId} :
    edge ∈ directParents facts subtype ↔ .sub edge ∈ facts.values ∧ edge.subtype = subtype :=
  (selects_sub subtype).mem_iff

theorem mem_directTypes :
    id ∈ directTypes facts ↔ ∃ fact : TypeFact, .type fact ∈ facts.values ∧ fact.id = id := by
  simp only [directTypes, List.mem_filterMap]
  constructor
  · rintro ⟨stored, member, selected⟩
    cases stored with
    | type fact => exact ⟨fact, member, by simpa using selected⟩
    | _ => simp at selected
  · rintro ⟨fact, member, same⟩
    exact ⟨.type fact, member, by simp [same]⟩

/--
Role specialization is well founded in a resolved inventory: resolving ranks
the roles, and every specialized role ranks below the role specializing it.
-/
theorem exists_specialization_rank {resolved : TypeMap × Std.ExtTreeMap TypeId TypeId}
    (keyed : Inventory.Keyed facts) (checked : validateFacts facts = [])
    (run : resolveDeclaredTypes facts profile = .ok resolved) :
    ∃ rank : RoleId → Nat, ∀ (fact : RelatesFact) (parent : RoleId), .relates fact ∈ facts.values →
        fact.specializes = some parent → rank parent < rank fact.id.role := by
  obtain ⟨parents, -, run⟩ := bind_eq_ok.mp run
  obtain ⟨-, -, run⟩ := bind_eq_ok.mp run
  obtain ⟨types, typesRun, -⟩ := bind_eq_ok.mp run
  have nothingKnown : TypesKnown [] (∅ : TypeMap) := by
    intro id resolved stored
    simp at stored
  have earlier := resolveTypes_specializesEarlier _ nothingKnown typesRun
  refine ⟨fun role =>
    (((resolutionOrder (directTypes facts) parents).flatMap
      (directRelates facts)).map (·.id.role)).idxOf role, ?_⟩
  intro fact parent stored specialization
  have relationDeclared : fact.id.relation ∈ directTypes facts := by
    have declared := referencesDeclared_of_checked checked stored
    simp only [referencesDeclared, Bool.and_eq_true] at declared
    exact mem_directTypes.mpr (keyed.exists_type declared.1)
  have listed : fact ∈ (resolutionOrder (directTypes facts) parents).flatMap
        (directRelates facts) := by
    refine List.mem_flatMap.mpr ⟨fact.id.relation, ?_, ?_⟩
    · exact (List.perm_insertionSort _ _).mem_iff.mpr relationDeclared
    · exact mem_directRelates.mpr ⟨stored, rfl⟩
  have determined : ∀ left ∈ (resolutionOrder (directTypes facts) parents).flatMap
          (directRelates facts), ∀ right ∈ (resolutionOrder (directTypes facts) parents).flatMap
          (directRelates facts), left.id.role = right.id.role → left = right := by
    intro left leftMember right rightMember sameRole
    obtain ⟨_, -, leftMember⟩ := List.mem_flatMap.mp leftMember
    obtain ⟨_, -, rightMember⟩ := List.mem_flatMap.mp rightMember
    have leftStored := keyed.mem_values.mp (mem_directRelates.mp leftMember).1
    have rightStored := keyed.mem_values.mp (mem_directRelates.mp rightMember).1
    have sameId : left.id = right.id := by
      rw [left.id.eq_relatesId, right.id.eq_relatesId, sameRole]
    simp only [SchemaFact.id] at leftStored rightStored
    rw [sameId, rightStored] at leftStored
    simpa using leftStored.symm
  simpa using earlier.idxOf_lt determined listed (by simp) specialization

end TypeBridge.Schema
