import TypeBridge.Schema.Effective

namespace TypeBridge.Schema

open Library
open Library.Checked hiding get

/-!
# Resolution is inheritance

The resolver copies the entries of a parent, computes them again for the
child and stores the child's declarations over them, shorter chains first.
The result does not depend on that: a type has an entry exactly if it or an
ancestor declares it, the entry is that of the nearest declaration, and
supertypes and subtypes are the two directions of one closure.
-/

variable {Bytes Digest : Type} {codec : Codec Bytes Digest} {facts : Inventory}
  {profile : SemanticProfile} {parents : Std.ExtTreeMap TypeId TypeId} {types : TypeMap}
  {id : TypeId} {resolved : ResolvedType}

theorem Resolution.supertypes_eq (resolution : Resolution facts profile parents types)
    (stored : types[id]? = some resolved) :
    resolved.supertypes = ancestors parents id ∧ resolved.subtypes = ∅ := by
  have run := resolution.resolved id resolved stored
  obtain ⟨_, -, run⟩ := bind_eq_ok.mp run
  obtain ⟨_, -, run⟩ := bind_eq_ok.mp run
  obtain ⟨_, -, run⟩ := bind_eq_ok.mp run
  obtain ⟨_, -, run⟩ := bind_eq_ok.mp run
  rw [pure_eq_ok] at run
  subst run
  exact ⟨rfl, rfl⟩

structure InheritsInterfaces (facts : Inventory) (profile : SemanticProfile) (id : TypeId)
    (resolved : ResolvedType) : Prop where
  ownsIff : ∀ attributeId, attributeId ∈ resolved.owns ↔
      ∃ declaring, Relation.ReflTransGen (IsSupertype facts) id declaring ∧
        ∃ fact, OwnsDeclaredBy facts attributeId declaring fact
  ownsNearest : ∀ (attributeId : AttributeId) (entry : EffectiveOwns),
      resolved.owns[attributeId]? = some entry → ∃ fact,
          Nearest (IsSupertype facts) (OwnsDeclaredBy facts attributeId) id
              fact ∧
            ReadsOwnsFact facts profile attributeId entry fact
  playsIff : ∀ role, role ∈ resolved.plays ↔
      ∃ declaring, Relation.ReflTransGen (IsSupertype facts) id declaring ∧
        ∃ annotations, PlaysDeclared facts role declaring annotations
  playsNearest : ∀ (role : RoleId) (entry : EffectivePlays),
      resolved.plays[role]? = some entry → ∃ annotations,
          Nearest (IsSupertype facts) (PlaysDeclared facts role) id
              annotations ∧
            ReadsPlays profile role entry annotations
  supertypesIff : ∀ other, other ∈ resolved.supertypes ↔
      Relation.TransGen (IsSupertype facts) id other
  subtypesIff : ∀ other, other ∈ resolved.subtypes ↔ Relation.TransGen (IsSupertype facts) other id

/-- Every type of an accepted schema inherits along the declared edges. -/
theorem inheritsInterfaces_of_populated (keyed : Inventory.Keyed facts)
    (resolution : Resolution facts profile parents types)
    (stored : (populateSubtypes parents types)[id]? = some resolved) :
    InheritsInterfaces facts profile id resolved := by
  obtain ⟨direct, isDirect, same⟩ :=
    (sameButSubtypes_populateSubtypes parents types).exists_resolved stored
  obtain ⟨start, isStart, listed⟩ := mem_subtypes_populateSubtypes stored
  rw [isDirect, Option.some.injEq] at isStart
  subst isStart
  obtain ⟨isChain, noneListed⟩ := resolution.supertypes_eq isDirect
  have owns := resolution.tracks_ownsFact keyed id direct isDirect
  have plays := resolution.tracks_plays keyed id direct isDirect
  rw [same]
  refine {
    ownsIff := ?_
    ownsNearest := owns.sound
    playsIff := ?_
    playsNearest := plays.sound
    supertypesIff := ?_
    subtypesIff := ?_
  }
  · intro attributeId
    exact (owns.mem_iff attributeId).trans Nearest.exists_iff
  · intro role
    exact (plays.mem_iff role).trans Nearest.exists_iff
  · intro other
    rw [isChain]
    exact resolution.mem_ancestors_iff id direct isDirect
  · intro other
    rw [listed, noneListed]
    simp only [Finset.notMem_empty, false_or]
    constructor
    · intro entered
      obtain ⟨member, isAncestor⟩ := entered
      obtain ⟨lower, isLower⟩ := Option.isSome_iff_exists.mp
          (Std.ExtTreeMap.isSome_getElem?_iff_mem.mpr member)
      exact (resolution.mem_ancestors_iff other lower isLower).mp isAncestor
    · intro below
      obtain ⟨middle, edge, -⟩ := Relation.TransGen.head'_iff.mp below
      obtain ⟨fact, isFact, isSubtype, -⟩ := edge
      obtain ⟨lower, isLower⟩ := resolution.exists_resolved other
          (isSubtype ▸ (resolution.edges fact isFact).1)
      refine ⟨?_, (resolution.mem_ancestors_iff other lower isLower).mpr below⟩
      rw [← Std.ExtTreeMap.isSome_getElem?_iff_mem, isLower]
      rfl

/--
The resolver computes inheritance: the resolved types are the declared ones,
each has exactly the ownerships and played roles that it or an ancestor
declares, read off the nearest declaration, and its supertypes and subtypes
are the closure of the declared edges in both directions.
-/
theorem resolution_is_inheritance {declared : DeclaredSchema codec} {profileId : SemanticProfileId}
    {available : CapabilitySet} {resolved : ResolvedSchema Digest}
    (accepted : resolveSchemaWithCapabilities declared profileId available = .ok resolved) :
    (∀ id, id ∈ resolved.types ↔ id ∈ directTypes declared.facts) ∧
      (∃ profile, SemanticProfile.resolve profileId = .ok profile ∧
        ∀ (id : TypeId) (type : ResolvedType), resolved.types[id]? = some type →
            InheritsInterfaces declared.facts profile id type) ∧
      ∀ (lower upper : TypeId) (lowerType upperType : ResolvedType),
        resolved.types[lower]? = some lowerType → resolved.types[upper]? = some upperType →
          (upper ∈ lowerType.supertypes ↔ lower ∈ upperType.subtypes) := by
  obtain ⟨profile, parents, types, isProfile, resolution, populated⟩ := exists_populated accepted
  have inherits : ∀ (id : TypeId) (type : ResolvedType), resolved.types[id]? = some type →
          InheritsInterfaces declared.facts profile id type := by
    intro id type stored
    rw [populated] at stored
    exact inheritsInterfaces_of_populated declared.keyed resolution stored
  refine ⟨?_, ⟨profile, isProfile, inherits⟩, ?_⟩
  · intro id
    rw [← Std.ExtTreeMap.isSome_getElem?_iff_mem, Option.isSome_iff_exists, populated]
    constructor
    · intro stored
      obtain ⟨type, stored⟩ := stored
      obtain ⟨direct, isDirect, -⟩ :=
        (sameButSubtypes_populateSubtypes parents types).exists_resolved stored
      exact resolution.declared id direct isDirect
    · intro member
      obtain ⟨direct, isDirect⟩ := resolution.exists_resolved id member
      have sameEntry := sameButSubtypes_populateSubtypes parents types id
      rw [isDirect] at sameEntry
      obtain ⟨type, stored, -⟩ := Option.map_eq_some_iff.mp sameEntry
      exact ⟨type, stored⟩
  · intro lower upper lowerType upperType lowerStored upperStored
    rw [(inherits lower lowerType lowerStored).supertypesIff,
      (inherits upper upperType upperStored).subtypesIff]

/-- Entities `p`, `q sub p` and `r sub q` with `p owns a`. -/
def stackedOwnersFacts : List SchemaFact :=
  attributeFacts .string ++ [entityP, .type ⟨⟨.entity, ⟨"q"⟩⟩, by decide, by decide⟩,
      .type ⟨⟨.entity, ⟨"r"⟩⟩, by decide, by decide⟩,
      .sub ⟨⟨.entity, ⟨"q"⟩⟩, ⟨.entity, ⟨"p"⟩⟩, by decide, rfl, by decide⟩,
      .sub ⟨⟨.entity, ⟨"r"⟩⟩, ⟨.entity, ⟨"q"⟩⟩, by decide, rfl, by decide⟩,
      .owns ⟨.ofLabels "p" "a", .unordered⟩]

def stackedOwners : DeclaredSchema plainCodec :=
  Checked.get (declarePlain stackedOwnersFacts) (by decide +kernel)

/-- The lowest of the stacked owners owns what the highest declares. -/
theorem stackedOwners_inherit :
    ∃ resolved type, resolveSchemaWithCapabilities stackedOwners ⟨"typedb-3.12.1/v1"⟩ ∅ =
          .ok resolved ∧ resolved.types[TypeId.mk .entity ⟨"r"⟩]? = some type ∧
        AttributeId.mk ⟨"a"⟩ ∈ type.owns ∧ TypeId.mk .entity ⟨"p"⟩ ∈ type.supertypes := by
  have accepted :=
    eq_ok_get (resolveSchemaWithCapabilities stackedOwners ⟨"typedb-3.12.1/v1"⟩ ∅)
      (by decide +kernel)
  obtain ⟨isType, ⟨profile, -, inherits⟩, -⟩ := resolution_is_inheritance accepted
  have stored :=
    (isType (TypeId.mk .entity ⟨"r"⟩)).mpr (by decide +kernel)
  obtain ⟨type, stored⟩ := Option.isSome_iff_exists.mp
      (Std.ExtTreeMap.isSome_getElem?_iff_mem.mpr stored)
  have first : IsSupertype stackedOwners.facts (TypeId.mk .entity ⟨"r"⟩)
        (TypeId.mk .entity ⟨"q"⟩) :=
    ⟨⟨⟨.entity, ⟨"r"⟩⟩, ⟨.entity, ⟨"q"⟩⟩, by decide, rfl, by decide⟩, by decide +kernel, rfl, rfl⟩
  have second : IsSupertype stackedOwners.facts (TypeId.mk .entity ⟨"q"⟩)
        (TypeId.mk .entity ⟨"p"⟩) :=
    ⟨⟨⟨.entity, ⟨"q"⟩⟩, ⟨.entity, ⟨"p"⟩⟩, by decide, rfl, by decide⟩, by decide +kernel, rfl, rfl⟩
  refine ⟨_, type, accepted, stored, ?_, ?_⟩
  · refine ((inherits _ type stored).ownsIff _).mpr
      ⟨TypeId.mk .entity ⟨"p"⟩, .head first (.single second), ?_⟩
    exact ⟨⟨⟨⟨.entity, ⟨"p"⟩⟩, ⟨⟨"a"⟩⟩, by decide⟩, .unordered⟩, by decide +kernel, rfl, rfl⟩
  · exact ((inherits _ type stored).supertypesIff _).mpr (.head first (.single second))

end TypeBridge.Schema
