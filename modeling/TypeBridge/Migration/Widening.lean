import TypeBridge.Migration.Additive

namespace TypeBridge.Migration

open Library Schema
open Library.Checked hiding get

/-!
# Widening of effective interfaces

`NeverNarrows` compares two resolved schemas: every type stays, with all of its
effective interfaces, their cardinalities contain the former ones, no constraint
on values is new and the value domains are kept.

After an additive change, played and related roles always widen. Ownerships
and value domains do exactly if each new declaration is at least as wide as the
nearest one above it, which it hides.
-/

/-! ## Widened types -/

def ConstraintsWithin (former later : Annotations) : Prop :=
  ∀ (kind : AnnotationKindId) (value : SchemaAnnotationValue),
    constrainsValueDomain kind = true → later[kind]? = some value → former[kind]? = some value

structure TypeWidens (former later : ResolvedType) : Prop where
  owns : ∀ (attributeId : AttributeId) (entry : EffectiveOwns),
      former.owns[attributeId]? = some entry → ∃ other, later.owns[attributeId]? = some other ∧
          intervalContains other.cardinality entry.cardinality = true ∧
          ConstraintsWithin entry.annotations other.annotations ∧
          (other.isKey = true → entry.isKey = true) ∧
          (other.isUnique = true → entry.isUnique = true)
  plays : ∀ (role : RoleId) (entry : EffectivePlays),
      former.plays[role]? = some entry → ∃ other, later.plays[role]? = some other ∧
          intervalContains other.cardinality entry.cardinality = true ∧
          ConstraintsWithin entry.annotations other.annotations
  relates : ∀ (role : RoleId) (entry : EffectiveRelates),
      former.relates[role]? = some entry → ∃ other, later.relates[role]? = some other ∧
          intervalContains other.cardinality entry.cardinality = true ∧
          ConstraintsWithin entry.annotations other.annotations
  valueType : ∀ value, former.valueType = some value → ∃ other, later.valueType = some other ∧
        other.valueType = value.valueType

/-- Every type stays, with interfaces that are at least as wide. -/
def NeverNarrows (before after : TypeMap) : Prop :=
  ∀ (id : TypeId) (former : ResolvedType), before[id]? = some former →
    ∃ later, after[id]? = some later ∧ TypeWidens former later

theorem NeverNarrows.congr {before after otherBefore otherAfter : TypeMap}
    (narrows : NeverNarrows before after) (sameBefore : SameButSubtypes otherBefore before)
    (sameAfter : SameButSubtypes after otherAfter) : NeverNarrows otherBefore otherAfter := by
  intro id former stored
  obtain ⟨matched, isMatched, formerSame⟩ := sameBefore.exists_resolved stored
  obtain ⟨later, isLater, widens⟩ := narrows id matched isMatched
  obtain ⟨other, isOther, laterSame⟩ := sameAfter.exists_resolved isLater
  refine ⟨other, isOther, ?_⟩
  rw [formerSame]
  rw [laterSame] at widens
  exact ⟨widens.owns, widens.plays, widens.relates, widens.valueType⟩

/--
Each new ownership admits what its owner inherited, and each new value domain
is the inherited one.
-/
structure HidesNothingWider (profile : SemanticProfile) (source target : Inventory) : Prop where
  owns : ∀ fact : OwnsFact, .owns fact ∈ target.values → .owns fact ∉ source.values → ∀ inherited,
        Nearest (IsSupertype source) (OwnsDeclared source fact.id.attributeId) fact.id.owner
            inherited →
          intervalContains (cardinality (annotationsFor target (.owns fact.id)) profile .owns)
            (cardinality inherited profile .owns) = true
  values : ∀ fact : ValueFact, .value fact ∈ target.values → .value fact ∉ source.values →
      ∀ inherited, Nearest (IsSupertype source) (ValueDeclared source)
            (attributeTypeId fact.id.attributeId) inherited →
          fact.valueType = inherited

/-! ## Cardinalities -/

structure StandardDefaults (profile : SemanticProfile) : Prop where
  owns : profile.ownsCardinality = ⟨0, some 1⟩
  relates : profile.relatesCardinality = ⟨0, some 1⟩
  plays : profile.playsCardinality = ⟨0, none⟩
  key : profile.keyOwnsCardinality = ⟨1, some 1⟩

theorem standardDefaults_of_resolve {profileId : SemanticProfileId} {profile : SemanticProfile}
    (supported : SemanticProfile.resolve profileId = .ok profile) : StandardDefaults profile := by
  unfold SemanticProfile.resolve at supported
  rw [require_eq_ok] at supported
  obtain ⟨-, isProfile⟩ := supported
  cases isProfile
  exact ⟨rfl, rfl, rfl, rfl⟩

theorem cardinality_eq (facts : Inventory) (subject : AnnotationSubjectId)
    (profile : SemanticProfile) (kind : InterfaceKind) :
    cardinality (annotationsFor facts subject) profile kind =
      if kind = .owns ∧ (annotationsFor facts subject).contains .key = true then
        profile.keyOwnsCardinality
      else (explicitCardinality facts subject).getD (profile.defaultCardinality kind) := by
  unfold cardinality explicitCardinality
  cases (annotationsFor facts subject)[AnnotationKindId.card]?.bind cardinalityValue <;>
    cases isKey : (annotationsFor facts subject).contains .key <;> cases kind <;>
        simp [SemanticProfile.effectiveCardinality]

theorem explicitCardinality_of_key {facts : Inventory} (keyed : Inventory.Keyed facts)
    (checked : validateFacts facts = []) {subject : AnnotationSubjectId}
    (isKey : (annotationsFor facts subject).contains .key = true) :
    explicitCardinality facts subject = none := by
  have listed : ∀ (kind : AnnotationKindId) (value : SchemaAnnotationValue),
        (annotationsFor facts subject)[kind]? = some value → subject ∈ annotatedSubjects facts ∧
            kind ∈ annotationKinds facts subject := by
    intro kind value found
    obtain ⟨annotated, stored, isId, -⟩ := (getElem?_annotationsFor keyed).mp found
    have isStored := keyed.mem_values.mp stored
    simp only [SchemaFact.id, isId] at isStored
    have member : SchemaFactId.annotated ⟨subject, kind⟩ ∈ facts.keys := by
      rw [Std.ExtTreeMap.mem_keys, Inventory.mem_iff_exists]
      exact ⟨_, isStored⟩
    constructor
    · unfold annotatedSubjects
      rw [List.mem_dedup]
      exact List.mem_filterMap.mpr ⟨_, member, rfl⟩
    · unfold annotationKinds
      exact List.mem_filterMap.mpr ⟨_, member, by simp⟩
  rw [Std.ExtTreeMap.contains_iff_mem, ← Std.ExtTreeMap.isSome_getElem?_iff_mem] at isKey
  obtain ⟨keyValue, isPresence⟩ := Option.isSome_iff_exists.mp isKey
  unfold explicitCardinality
  cases found : (annotationsFor facts subject)[AnnotationKindId.card]? with
  | none => rfl
  | some value =>
    simp only [validateFacts, List.append_eq_nil_iff] at checked
    have combined := checked.1.2
    unfold validateAnnotationCombinations at combined
    rw [List.flatMap_eq_nil_iff] at combined
    have subjectChecked := combined subject (listed _ _ isPresence).1
    simp only [List.append_eq_nil_iff] at subjectChecked
    have noConflict := subjectChecked.2
    simp [(listed _ _ isPresence).2, (listed _ _ found).2] at noConflict

section Change

variable {source target : Inventory} {profile : SemanticProfile}

theorem AdditiveChange.constraintsWithin (change : AdditiveChange source target)
    (sourceKeyed : Inventory.Keyed source) (targetKeyed : Inventory.Keyed target)
    (subject : AnnotationSubjectId) :
    ConstraintsWithin (annotationsFor source subject) (annotationsFor target subject) := by
  intro kind value constrains found
  obtain ⟨annotated, stored, isId, isValue⟩ := (getElem?_annotationsFor targetKeyed).mp found
  refine (getElem?_annotationsFor sourceKeyed).mpr ⟨annotated, ?_, isId, isValue⟩
  apply change.constraint_mem sourceKeyed targetKeyed stored
  rw [isId]
  exact constrains

theorem ConstraintsWithin.contains {former later : Annotations}
    (within : ConstraintsWithin former later) {kind : AnnotationKindId}
    (constrains : constrainsValueDomain kind = true) (isLater : later.contains kind = true) :
    former.contains kind = true := by
  rw [Std.ExtTreeMap.contains_iff_mem, ← Std.ExtTreeMap.isSome_getElem?_iff_mem] at isLater ⊢
  obtain ⟨value, found⟩ := Option.isSome_iff_exists.mp isLater
  rw [within kind value constrains found]
  rfl

theorem AdditiveChange.contains_declared (change : AdditiveChange source target)
    (sourceKeyed : Inventory.Keyed source) (targetKeyed : Inventory.Keyed target)
    (sourceChecked : validateFacts source = []) (defaults : StandardDefaults profile)
    {subject : AnnotationSubjectId} {kind : InterfaceKind}
    (isDefault : defaultCardinality subject = some (profile.defaultCardinality kind)) :
    intervalContains (cardinality (annotationsFor target subject) profile kind)
      (cardinality (annotationsFor source subject) profile kind) = true := by
  have within := change.constraintsWithin sourceKeyed targetKeyed subject
  have explicit := change.contains_cardinality sourceKeyed targetKeyed isDefault
  rw [cardinality_eq, cardinality_eq]
  by_cases laterKey : kind = .owns ∧ (annotationsFor target subject).contains .key = true
  · have formerKey := within.contains rfl laterKey.2
    rw [if_pos laterKey, if_pos ⟨laterKey.1, formerKey⟩]
    exact intervalContains_refl _
  · rw [if_neg laterKey]
    by_cases formerKey : kind = .owns ∧ (annotationsFor source subject).contains .key = true
    · -- The key is removed, and what is left contains the default.
      rw [if_pos formerKey]
      rw [explicitCardinality_of_key sourceKeyed sourceChecked formerKey.2] at explicit
      refine intervalContains_trans explicit ?_
      obtain ⟨isOwns, -⟩ := formerKey
      subst isOwns
      simp [SemanticProfile.defaultCardinality, defaults.owns, defaults.key, intervalContains]
    · rw [if_neg formerKey]
      exact explicit

end Change

/-! ## Two resolutions -/

structure InterfaceWidens (profile : SemanticProfile) (kind : InterfaceKind)
    (former later : Annotations) : Prop where
  contains : intervalContains (cardinality later profile kind)
      (cardinality former profile kind) = true
  within : ConstraintsWithin former later

structure Compared (profile : SemanticProfile) (source target : Inventory)
    (parents laterParents : Std.ExtTreeMap TypeId TypeId) (types laterTypes : TypeMap) : Prop where
  sourceKeyed : Inventory.Keyed source
  targetKeyed : Inventory.Keyed target
  sourceChecked : validateFacts source = []
  defaults : StandardDefaults profile
  change : AdditiveChange source target
  former : Resolution source profile parents types
  later : Resolution target profile laterParents laterTypes

namespace Compared

variable {profile : SemanticProfile} {source target : Inventory}
  {parents laterParents : Std.ExtTreeMap TypeId TypeId} {types laterTypes : TypeMap}

theorem isSupertype_eq
    (compared : Compared profile source target parents laterParents types laterTypes) :
    IsSupertype target = IsSupertype source := by
  funext subtype supertype
  apply propext
  unfold IsSupertype
  simp only [compared.change.sub_mem_iff compared.sourceKeyed compared.targetKeyed]

variable {id : TypeId}

theorem exists_later
    (compared : Compared profile source target parents laterParents types laterTypes)
    {resolved : ResolvedType} (stored : types[id]? = some resolved) :
    ∃ later, laterTypes[id]? = some later := by
  apply compared.later.exists_resolved
  obtain ⟨fact, isFact, isId⟩ := mem_directTypes.mp (compared.former.declared id resolved stored)
  exact mem_directTypes.mpr ⟨fact, compared.change.kept compared.sourceKeyed compared.targetKeyed
      isFact (by simp), isId⟩

variable {subject : AnnotationSubjectId}
  (compared : Compared profile source target parents laterParents types laterTypes)
include compared

theorem widens {kind : InterfaceKind}
    (isDefault : defaultCardinality subject = some (profile.defaultCardinality kind)) :
    InterfaceWidens profile kind (annotationsFor source subject)
      (annotationsFor target subject) where
  contains :=
    compared.change.contains_declared compared.sourceKeyed
      compared.targetKeyed compared.sourceChecked compared.defaults isDefault
  within := compared.change.constraintsWithin compared.sourceKeyed compared.targetKeyed subject

theorem constraintsWithin_of_new (isNew : subjectFactId subject ∉ source) (former : Annotations) :
    ConstraintsWithin former (annotationsFor target subject) := by
  intro kind value constrains found
  have old :=
    compared.change.constraintsWithin compared.sourceKeyed
      compared.targetKeyed subject kind value constrains found
  rw [annotationsFor_of_undeclared compared.sourceKeyed compared.sourceChecked isNew] at old
  cases old

theorem eq_of_same_id {old new : SchemaFact} (oldStored : old ∈ source.values)
    (stored : new ∈ target.values) (sameId : old.id = new.id)
    (plain : ∀ annotated, old ≠ .annotated annotated) : old = new := by
  have kept := compared.targetKeyed.mem_values.mp
    (compared.change.kept compared.sourceKeyed compared.targetKeyed oldStored plain)
  have isStored := compared.targetKeyed.mem_values.mp stored
  rw [sameId, isStored, Option.some.injEq] at kept
  exact kept.symm

omit compared

/-! ### Ownerships -/

include compared

theorem owns_new_iff {fact : OwnsFact} (stored : .owns fact ∈ target.values) :
    .owns fact ∉ source.values ↔ ∀ other,
        ¬ OwnsDeclared source fact.id.attributeId fact.id.owner other := by
  constructor
  · intro isNew other declared
    obtain ⟨old, oldStored, isOwner, isAttribute, -⟩ := declared
    have sameId : old.id = fact.id := OwnsFactId.ext isOwner isAttribute
    have same := compared.eq_of_same_id oldStored stored
      (by simp only [SchemaFact.id, sameId]) (by simp)
    exact isNew (same ▸ oldStored)
  · intro undeclared old
    exact undeclared _ ⟨fact, old, rfl, rfl, rfl⟩

theorem owns_undeclared {id : OwnsFactId}
    (undeclared : ∀ other, ¬ OwnsDeclared source id.attributeId id.owner other) :
    subjectFactId (.owns id) ∉ source := by
  intro declared
  obtain ⟨fact, stored⟩ := Inventory.mem_iff_exists.mp declared
  have isId := compared.sourceKeyed _ _ stored
  cases fact with
  | owns fact =>
    simp only [SchemaFact.id, subjectFactId, SchemaFactId.owns.injEq] at isId
    exact undeclared _ ⟨fact, Inventory.mem_values.mpr ⟨_, stored⟩, by rw [isId], by rw [isId], rfl⟩
  | _ => cases isId

/-- Nearest ownerships widen exactly if new ones hide nothing wider. -/
theorem owns_nearest_iff : (∀ attributeId owner former,
      Nearest (IsSupertype source) (OwnsDeclared source attributeId) owner former → ∃ later,
          Nearest (IsSupertype target) (OwnsDeclared target attributeId) owner later ∧
            InterfaceWidens profile .owns former later) ↔
      ∀ fact : OwnsFact, .owns fact ∈ target.values → .owns fact ∉ source.values → ∀ inherited,
          Nearest (IsSupertype source) (OwnsDeclared source fact.id.attributeId) fact.id.owner
              inherited → intervalContains
              (cardinality (annotationsFor target (.owns fact.id)) profile .owns)
              (cardinality inherited profile .owns) = true := by
  have isDefault : ∀ id, defaultCardinality (.owns id) =
        some (profile.defaultCardinality .owns) := by
    intro id
    simp [defaultCardinality, SemanticProfile.defaultCardinality, compared.defaults.owns]
  have kept : ∀ attributeId owner former, OwnsDeclared source attributeId owner former →
        ∃ later, OwnsDeclared target attributeId owner later ∧
          InterfaceWidens profile .owns former later := by
    intro attributeId owner former declared
    obtain ⟨fact, stored, isOwner, isAttribute, isAnnotations⟩ := declared
    subst isAnnotations
    exact ⟨annotationsFor target (.owns fact.id),
      ⟨fact, compared.change.kept compared.sourceKeyed compared.targetKeyed
        stored (by simp), isOwner, isAttribute, rfl⟩, compared.widens (isDefault fact.id)⟩
  have each :=
    fun attributeId =>
      Nearest.related_iff (IsSupertype source) (kept attributeId)
        fun owner former other => OwnsDeclared.unique
  rw [compared.isSupertype_eq]
  constructor
  · intro widen fact stored isNew inherited nearest
    refine ((each fact.id.attributeId).mp (widen fact.id.attributeId)
      fact.id.owner _ ⟨fact, stored, rfl, rfl, rfl⟩ ?_ inherited nearest).contains
    exact (compared.owns_new_iff stored).mp isNew
  · intro hides attributeId
    refine (each attributeId).mpr ?_
    intro owner later declared undeclared former nearest
    obtain ⟨fact, stored, isOwner, isAttribute, isAnnotations⟩ := declared
    subst isOwner isAttribute isAnnotations
    exact {
      contains := hides fact stored ((compared.owns_new_iff stored).mpr undeclared) former nearest
      within := compared.constraintsWithin_of_new (compared.owns_undeclared undeclared) former
    }

/-- Ownerships widen on every type exactly if new ones hide nothing wider. -/
theorem owns_iff : (∀ (id : TypeId) (former later : ResolvedType),
      types[id]? = some former → laterTypes[id]? = some later →
        ∀ (attributeId : AttributeId) (entry : EffectiveOwns),
          former.owns[attributeId]? = some entry → ∃ other, later.owns[attributeId]? = some other ∧
              intervalContains other.cardinality entry.cardinality = true ∧
              ConstraintsWithin entry.annotations other.annotations ∧
              (other.isKey = true → entry.isKey = true) ∧
              (other.isUnique = true → entry.isUnique = true)) ↔ ∀ attributeId owner former,
        Nearest (IsSupertype source) (OwnsDeclared source attributeId) owner former → ∃ later,
            Nearest (IsSupertype target) (OwnsDeclared target attributeId) owner later ∧
              InterfaceWidens profile .owns former later := by
  have formerTracked := compared.former.tracks_owns compared.sourceKeyed
  have laterTracked := compared.later.tracks_owns compared.targetKeyed
  constructor
  · intro widen attributeId owner annotations nearest
    have isDeclared :=
      compared.former.mem_directTypes_of_nearest (fun id value declared =>
          declared.mem_directTypes compared.sourceKeyed compared.sourceChecked) nearest
    obtain ⟨former, isFormer⟩ := compared.former.exists_resolved owner isDeclared
    obtain ⟨later, isLater⟩ := compared.exists_later isFormer
    obtain ⟨entry, stored, isRead⟩ :=
      (formerTracked owner former isFormer).complete attributeId annotations nearest
    obtain ⟨other, laterStored, contains, within, -, -⟩ :=
      widen owner former later isFormer isLater attributeId entry stored
    obtain ⟨found, isFound, laterRead⟩ :=
      (laterTracked owner later isLater).sound attributeId other laterStored
    refine ⟨found, isFound, ?_, ?_⟩
    · rw [← laterRead.sameCardinality, ← isRead.sameCardinality]
      exact contains
    · rw [← laterRead.sameAnnotations, ← isRead.sameAnnotations]
      exact within
  · intro widen id former later isFormer isLater attributeId entry stored
    obtain ⟨other, found, laterFound, laterStored, isRead, laterRead, widens⟩ :=
      (formerTracked id former isFormer).exists_related
        (laterTracked id later isLater) (widen attributeId id) stored
    refine ⟨other, laterStored, ?_, ?_, ?_, ?_⟩
    · rw [laterRead.sameCardinality, isRead.sameCardinality]
      exact widens.contains
    · rw [laterRead.sameAnnotations, isRead.sameAnnotations]
      exact widens.within
    · rw [laterRead.sameKey, isRead.sameKey]
      exact widens.within.contains rfl
    · rw [laterRead.sameUnique, isRead.sameUnique, Bool.or_eq_true, Bool.or_eq_true]
      exact Or.imp (widens.within.contains rfl) (widens.within.contains rfl)

omit compared

/-! ### Played roles -/

theorem intervalContains_unbounded (interval : Cardinality) :
    intervalContains ⟨0, none⟩ interval = true := by
  simp [intervalContains]

variable {former later : ResolvedType} {role : RoleId}

theorem plays_widen
    (compared : Compared profile source target parents laterParents types laterTypes)
    (isFormer : types[id]? = some former) (isLater : laterTypes[id]? = some later)
    {entry : EffectivePlays} (stored : former.plays[role]? = some entry) :
    ∃ other, later.plays[role]? = some other ∧
      intervalContains other.cardinality entry.cardinality = true ∧
      ConstraintsWithin entry.annotations other.annotations := by
  have isDefault : ∀ id, defaultCardinality (.plays id) =
        some (profile.defaultCardinality .plays) := by
    intro id
    simp [defaultCardinality, SemanticProfile.defaultCardinality, compared.defaults.plays]
  have kept : ∀ player former, PlaysDeclared source role player former →
        ∃ later, PlaysDeclared target role player later ∧
          InterfaceWidens profile .plays former later := by
    intro player former declared
    obtain ⟨playsId, isStored, isPlayer, isRole, isAnnotations⟩ := declared
    subst isAnnotations
    exact ⟨annotationsFor target (.plays playsId),
      ⟨playsId, compared.change.kept compared.sourceKeyed compared.targetKeyed
        isStored (by simp), isPlayer, isRole, rfl⟩, compared.widens (isDefault playsId)⟩
  -- A new declaration has the unbounded default.
  have hides : ∀ player later, PlaysDeclared target role player later →
        (∀ other, ¬ PlaysDeclared source role player other) → ∀ former,
          Nearest (IsSupertype source) (PlaysDeclared source role) player former →
            InterfaceWidens profile .plays former later := by
    intro player later declared undeclared former nearest
    obtain ⟨playsId, isStored, isPlayer, isRole, isAnnotations⟩ := declared
    subst isPlayer isRole isAnnotations
    have isNew : subjectFactId (.plays playsId) ∉ source := by
      intro contained
      obtain ⟨fact, isFact⟩ := Inventory.mem_iff_exists.mp contained
      have isId := compared.sourceKeyed _ _ isFact
      cases fact with
      | plays other =>
        simp only [SchemaFact.id, subjectFactId, SchemaFactId.plays.injEq] at isId
        subst isId
        exact undeclared _ ⟨other, Inventory.mem_values.mpr ⟨_, isFact⟩, rfl, rfl, rfl⟩
      | _ => cases isId
    refine ⟨?_, compared.constraintsWithin_of_new isNew former⟩
    have wide := (compared.widens (isDefault playsId)).contains
    rw [cardinality_eq source, if_neg (by simp), explicitCardinality,
      annotationsFor_of_undeclared compared.sourceKeyed compared.sourceChecked isNew] at wide
    simp only [Option.bind_none, Option.getD_none,
      SemanticProfile.defaultCardinality, compared.defaults.plays] at wide
    exact intervalContains_trans wide (intervalContains_unbounded _)
  have widen :=
    (Nearest.related_iff (IsSupertype source) kept
      fun player annotations other => PlaysDeclared.unique).mpr hides
  obtain ⟨other, found, laterFound, laterStored, isRead, laterRead, widens⟩ :=
    (compared.former.tracks_plays compared.sourceKeyed id former isFormer).exists_related
      (compared.later.tracks_plays compared.targetKeyed id later isLater) (by
        rw [compared.isSupertype_eq]
        exact widen id) stored
  refine ⟨other, laterStored, ?_, ?_⟩
  · rw [laterRead.sameCardinality, isRead.sameCardinality]
    exact widens.contains
  · rw [laterRead.sameAnnotations, isRead.sameAnnotations]
    exact widens.within

/-! ### Value domains -/

include compared

theorem value_new_iff {fact : ValueFact} (stored : .value fact ∈ target.values) :
    .value fact ∉ source.values ↔ ∀ other,
        ¬ ValueDeclared source (attributeTypeId fact.id.attributeId) other := by
  constructor
  · intro isNew other declared
    obtain ⟨old, oldStored, isType, -⟩ := declared
    have sameId : old.id = fact.id := by
      apply ValueFactId.ext
      apply AttributeId.ext
      exact congrArg TypeId.label isType
    have same := compared.eq_of_same_id oldStored stored
      (by simp only [SchemaFact.id, sameId]) (by simp)
    exact isNew (same ▸ oldStored)
  · intro undeclared old
    exact undeclared _ ⟨fact, old, rfl, rfl⟩

/-- Value domains are kept exactly if new ones hide no other. -/
theorem value_iff : (∀ (id : TypeId) (former later : ResolvedType),
      types[id]? = some former → laterTypes[id]? = some later →
        ∀ value, former.valueType = some value → ∃ other, later.valueType = some other ∧
            other.valueType = value.valueType) ↔ ∀ fact : ValueFact, .value fact ∈ target.values →
        .value fact ∉ source.values → ∀ inherited,
          Nearest (IsSupertype source) (ValueDeclared source)
              (attributeTypeId fact.id.attributeId) inherited → fact.valueType = inherited := by
  have formerValue := compared.former.valueType_iff compared.sourceKeyed
  have laterValue := compared.later.valueType_iff compared.targetKeyed
  have kept : ∀ id former, ValueDeclared source id former →
        ∃ later, ValueDeclared target id later ∧ later = former := by
    intro id former declared
    obtain ⟨fact, stored, isType, isValue⟩ := declared
    exact ⟨former, ⟨fact, compared.change.kept compared.sourceKeyed
      compared.targetKeyed stored (by simp), isType, isValue⟩, rfl⟩
  have related :=
    Nearest.related_iff (IsSupertype source) kept
      fun id value other => ValueDeclared.unique compared.targetKeyed
  constructor
  · intro keeps fact stored isNew inherited nearest
    refine related.mp ?_ _ fact.valueType ⟨fact, stored, rfl, rfl⟩
      ((compared.value_new_iff stored).mp isNew) inherited nearest
    intro id value isNearest
    have isDeclared :=
      compared.former.mem_directTypes_of_nearest (fun id value declared =>
          declared.mem_directTypes compared.sourceKeyed compared.sourceChecked) isNearest
    obtain ⟨former, isFormer⟩ := compared.former.exists_resolved id isDeclared
    obtain ⟨later, isLater⟩ := compared.exists_later isFormer
    obtain ⟨entry, isEntry, isValue⟩ := Option.map_eq_some_iff.mp
        ((formerValue id former isFormer value).mpr isNearest)
    obtain ⟨other, isOther, same⟩ := keeps id former later isFormer isLater entry isEntry
    refine ⟨value, ?_, rfl⟩
    rw [← compared.isSupertype_eq, ← laterValue id later isLater, isOther, ← isValue, ← same]
    rfl
  · intro hides id former later isFormer isLater value isValue
    have isNearest := (formerValue id former isFormer value.valueType).mp (by rw [isValue]; rfl)
    obtain ⟨found, isFound, same⟩ := related.mpr (by
          intro id later declared undeclared former nearest
          obtain ⟨fact, stored, isType, isDeclared⟩ := declared
          subst isType isDeclared
          exact hides fact stored ((compared.value_new_iff stored).mpr undeclared) former nearest)
        id value.valueType isNearest
    rw [← compared.isSupertype_eq, ← laterValue id later isLater] at isFound
    obtain ⟨other, isOther, isRead⟩ := Option.map_eq_some_iff.mp isFound
    exact ⟨other, isOther, isRead.trans same⟩

omit compared

/-! ### Related roles -/

def UndeclaredRole (facts : Inventory) (role : RoleId) : Prop :=
  SchemaFactId.relates (relatesId role) ∉ facts

instance (facts : Inventory) : DecidablePred (UndeclaredRole facts) :=
  fun _ => inferInstanceAs (Decidable (_ ∉ facts))

theorem undeclaredRole_iff {facts : Inventory} (keyed : Inventory.Keyed facts) :
    UndeclaredRole facts role ↔ ∀ fact : RelatesFact, .relates fact ∈ facts.values →
        fact.id.role ≠ role := by
  unfold UndeclaredRole
  constructor
  · intro undeclared fact stored isRole
    apply undeclared
    have isStored := keyed.mem_values.mp stored
    simp only [SchemaFact.id] at isStored
    rw [fact.id.eq_relatesId, isRole] at isStored
    exact Inventory.mem_iff_exists.mpr ⟨_, isStored⟩
  · intro other declared
    obtain ⟨fact, stored⟩ := Inventory.mem_iff_exists.mp declared
    have isId := keyed _ _ stored
    cases fact with
    | relates fact =>
      simp only [SchemaFact.id, SchemaFactId.relates.injEq] at isId
      refine other fact (Inventory.mem_values.mpr ⟨_, stored⟩) ?_
      rw [isId]
      rfl
    | _ => cases isId

include compared

theorem relates_mem_iff (fact : RelatesFact) :
    .relates fact ∈ source.values ↔ .relates fact ∈ target.values ∧
        ¬ UndeclaredRole source fact.id.role := by
  rw [undeclaredRole_iff compared.sourceKeyed]
  have kept : ∀ old : RelatesFact, .relates old ∈ source.values → .relates old ∈ target.values :=
    fun old stored =>
      compared.change.kept compared.sourceKeyed compared.targetKeyed stored (by simp)
  constructor
  · intro stored
    exact ⟨kept fact stored, fun other => other fact stored rfl⟩
  · intro found
    obtain ⟨stored, declared⟩ := found
    by_contra isNew
    apply declared
    intro old oldStored sameRole
    have same := relates_eq_of_role compared.targetKeyed (kept old oldStored) stored sameRole
    exact isNew (same ▸ oldStored)

theorem roleMoves_eq (id : TypeId) : roleMoves source id = (roleMoves target id).filter fun move =>
        ¬ UndeclaredRole source move.1 := by
  have old :=
    directRelates_eq_filter compared.sourceKeyed compared.targetKeyed
      (fun fact => ¬ UndeclaredRole source fact.id.role)
      (fun fact => by simpa using compared.relates_mem_iff fact) id
  unfold roleMoves
  rw [old, List.filter_map]
  rfl

theorem extends_roster : ∀ (id : TypeId) (former : ResolvedType), types[id]? = some former →
      ∀ later : ResolvedType, laterTypes[id]? = some later →
        Roster.Extends (UndeclaredRole source) (roster former.relates) (roster later.relates) := by
  apply compared.former.induction
  intro id former isFormer ih later isLater
  have formerTraced : ParentTraced source parents types id := fun supertype parent _ stored =>
      compared.former.rolesTraced compared.sourceKeyed supertype parent stored
  have laterTraced : ParentTraced target laterParents laterTypes id :=
    fun supertype parent _ stored =>
      compared.later.rolesTraced compared.targetKeyed supertype parent stored
  have sameParent : laterParents[id]? = parents[id]? := by
    apply Option.ext
    intro supertype
    rw [compared.later.parent, compared.former.parent]
    exact iff_of_eq (congrFun (congrFun compared.isSupertype_eq id) supertype)
  have started : Roster.Extends (UndeclaredRole source) (startRoster parents types id)
        (startRoster laterParents laterTypes id) := by
    cases isParent : parents[id]? with
    | none =>
      have empty : startRoster parents types id = fun _ => none := by simp [startRoster, isParent]
      have laterEmpty : startRoster laterParents laterTypes id = fun _ => none := by
        simp [startRoster, sameParent, isParent]
      rw [empty, laterEmpty]
      apply Roster.Extends.refl
      intro role _ known
      rcases known with isMember | succeeded
      · exact isMember rfl
      · obtain ⟨_, _, held, -⟩ := succeeded
        cases held
    | some supertype =>
      obtain ⟨parent, parentStored⟩ := compared.former.exists_parent isParent
      obtain ⟨laterParent, laterStored⟩ := compared.exists_later parentStored
      rw [startRoster_eq isParent parentStored,
        startRoster_eq (sameParent.trans isParent) laterStored]
      exact ih supertype parent isParent parentStored laterParent laterStored
  have formerRun := run_roleMoves compared.former isFormer formerTraced
  have fresh := fresh_roleMoves compared.sourceKeyed compared.former formerTraced
  rw [compared.roleMoves_eq id] at formerRun fresh
  refine started.run (consistent_startRoster formerTraced) ?_ fresh formerRun
    (run_roleMoves compared.later isLater laterTraced)
  intro move member undeclared
  obtain ⟨fact, stored, -, isMove⟩ := mem_roleMoves.mp member
  subst isMove
  apply compared.change.specializes_eq_none compared.sourceKeyed compared.targetKeyed stored
  intro old
  exact ((compared.relates_mem_iff fact).mp old).2 undeclared

theorem relates_widen (isFormer : types[id]? = some former) (isLater : laterTypes[id]? = some later)
    {entry : EffectiveRelates} (stored : former.relates[role]? = some entry) :
    ∃ other, later.relates[role]? = some other ∧
      intervalContains other.cardinality entry.cardinality = true ∧
      ConstraintsWithin entry.annotations other.annotations := by
  have stays :=
    (compared.extends_roster id former isFormer later isLater).eq_some
      (show roster former.relates role = some entry.replacedRoles by simp [roster, stored])
  obtain ⟨other, laterStored, -⟩ := Option.map_eq_some_iff.mp stays
  obtain ⟨fact, isFact, isRole, isAnnotations, isCardinality⟩ :=
    compared.former.relatesRead compared.sourceKeyed id former isFormer role entry stored
  obtain ⟨laterFact, isLaterFact, isLaterRole, laterAnnotations, laterCardinality⟩ :=
    compared.later.relatesRead compared.targetKeyed id later isLater role other laterStored
  have same : laterFact = fact := relates_eq_of_role compared.targetKeyed isLaterFact
      ((compared.relates_mem_iff fact).mp isFact).1 (isLaterRole.trans isRole.symm)
  subst same
  have widens : InterfaceWidens profile .relates (annotationsFor source (.relates laterFact.id))
        (annotationsFor target (.relates laterFact.id)) := by
    apply compared.widens
    simp [defaultCardinality, SemanticProfile.defaultCardinality, compared.defaults.relates]
  refine ⟨other, laterStored, ?_, ?_⟩
  · rw [laterCardinality, isCardinality]
    exact widens.contains
  · rw [laterAnnotations, isAnnotations]
    exact widens.within

theorem neverNarrows_iff :
    NeverNarrows types laterTypes ↔ HidesNothingWider profile source target := by
  constructor
  · intro narrows
    have eachType : ∀ (id : TypeId) (former later : ResolvedType),
          types[id]? = some former → laterTypes[id]? = some later → TypeWidens former later := by
      intro id former later isFormer isLater
      obtain ⟨other, isOther, widens⟩ := narrows id former isFormer
      rw [isLater, Option.some.injEq] at isOther
      exact isOther ▸ widens
    constructor
    · refine compared.owns_nearest_iff.mp (compared.owns_iff.mp ?_)
      intro id former later isFormer isLater
      exact (eachType id former later isFormer isLater).owns
    · refine compared.value_iff.mp ?_
      intro id former later isFormer isLater
      exact (eachType id former later isFormer isLater).valueType
  · intro hides id former isFormer
    obtain ⟨later, isLater⟩ := compared.exists_later isFormer
    refine ⟨later, isLater, ?_, ?_, ?_, ?_⟩
    · exact compared.owns_iff.mpr (compared.owns_nearest_iff.mpr hides.owns)
        id former later isFormer isLater
    · intro role entry stored
      exact compared.plays_widen isFormer isLater stored
    · intro role entry stored
      exact compared.relates_widen isFormer isLater stored
    · exact compared.value_iff.mpr hides.values id former later isFormer isLater

end Compared

/-! ## Resolved schemas -/

section Schemas

variable {Bytes Digest : Type} [DecidableEq Digest] {codec : Codec Bytes Digest}

/--
A delta whose operations are all at most additive never narrows a resolved
type exactly if its new ownerships and value domains hide nothing wider.
-/
theorem additive_never_narrows_iff {source target : DeclaredSchema codec}
    {context : ManagedDeltaContext} {delta : SchemaDelta Digest} {profileId : SemanticProfileId}
    {profile : SemanticProfile} {available : CapabilitySet} {before after : ResolvedSchema Digest}
    (supported : SemanticProfile.resolve profileId = .ok profile)
    (sourceResolved : resolveSchemaWithCapabilities source profileId available = .ok before)
    (targetResolved : resolveSchemaWithCapabilities target profileId available = .ok after)
    (diffed : diffManaged source target context = .ok delta)
    (additive : ∀ reason ∈ (classifyDeltaSafety delta).reasons,
        reason.classification.AtMostAdditive) :
    NeverNarrows before.types after.types ↔
      HidesNothingWider profile source.facts target.facts := by
  obtain ⟨found, parents, types, isFound, former, sameBefore, beforeSame⟩ :=
    exists_resolution sourceResolved
  obtain ⟨other, laterParents, laterTypes, isOther, later, sameAfter,
    afterSame⟩ := exists_resolution targetResolved
  rw [supported, Except.ok.injEq] at isFound isOther
  subst isFound isOther
  have compared : Compared profile source.facts target.facts parents laterParents types
        laterTypes := {
    sourceKeyed := source.keyed
    targetKeyed := target.keyed
    sourceChecked := source.checked
    defaults := standardDefaults_of_resolve supported
    change := additiveChange_of_diffManaged diffed additive
    former := former
    later := later
  }
  rw [← compared.neverNarrows_iff]
  constructor
  · intro narrows
    exact narrows.congr beforeSame sameAfter
  · intro narrows
    exact narrows.congr sameBefore afterSame

end Schemas

/-! ## Hidden declarations -/

/-- The ownership of `a` by an entity. -/
def ownsAttribute (owner : String) : OwnsFactId := .ofLabels owner "a"

/-- An ownership of `a` with a cardinality from zero to a bound. -/
def ownsUpTo (owner : String) (bound : Nat) : List SchemaFact :=
  [.owns ⟨ownsAttribute owner, .unordered⟩, .annotated ⟨⟨.owns (ownsAttribute owner), .card⟩,
      .cardinality ⟨0, some bound⟩, rfl, rfl⟩]

/-- A string attribute `a`, and `p owns a @card(0..5)` with `c sub p`. -/
def familyFacts : List SchemaFact :=
  attributeFacts .string ++ [entityP, .type ⟨⟨.entity, ⟨"c"⟩⟩, by decide, by decide⟩,
      .sub ⟨⟨.entity, ⟨"c"⟩⟩, ⟨.entity, ⟨"p"⟩⟩, by decide, rfl, by decide⟩] ++
    ownsUpTo "p" 5

/-- A string attribute `a` with `b sub a`. -/
def stackedAttributeFacts : List SchemaFact :=
  attributeFacts .string ++ [attributeB, attributeBSubA]

/-- The family without a declaration on `c`. -/
def family : DeclaredSchema plainCodec := Checked.get (declarePlain familyFacts) (by decide +kernel)

/-- The family with `c owns a`. -/
def familyWithOwns : DeclaredSchema plainCodec :=
  Checked.get
    (declarePlain (familyFacts ++ [.owns ⟨ownsAttribute "c", .unordered⟩])) (by decide +kernel)

/-- The family with `c owns a @card(0..7)`. -/
def familyWithWiderOwns : DeclaredSchema plainCodec :=
  Checked.get (declarePlain (familyFacts ++ ownsUpTo "c" 7)) (by decide +kernel)

/-- The attributes without a declaration on `b`. -/
def stackedAttributes : DeclaredSchema plainCodec :=
  Checked.get (declarePlain stackedAttributeFacts) (by decide +kernel)

/-- The attributes with `b value integer`. -/
def stackedAttributesWithValue : DeclaredSchema plainCodec :=
  Checked.get
    (declarePlain (stackedAttributeFacts ++ [.value ⟨⟨⟨⟨"b"⟩⟩⟩, .long⟩])) (by decide +kernel)

def diffPlain (source target : DeclaredSchema plainCodec) :
    Except DeltaError (SchemaDelta PlainBytes) :=
  diffManaged source target (plainContext ∅)

/-- The delta that adds `c owns a`. -/
def ownsDelta : SchemaDelta PlainBytes :=
  Checked.get (diffPlain family familyWithOwns) (by decide +kernel)

/-- The delta that adds `c owns a @card(0..7)`. -/
def widerOwnsDelta : SchemaDelta PlainBytes :=
  Checked.get (diffPlain family familyWithWiderOwns) (by decide +kernel)

/-- The delta that adds `b value integer`. -/
def valueDelta : SchemaDelta PlainBytes :=
  Checked.get (diffPlain stackedAttributes stackedAttributesWithValue) (by decide +kernel)

def familyResolved : ResolvedSchema PlainBytes :=
  Checked.get (resolvePlain family) (by decide +kernel)

/-- The family with `c owns a` resolved. -/
def familyWithOwnsResolved : ResolvedSchema PlainBytes :=
  Checked.get (resolvePlain familyWithOwns) (by decide +kernel)

/-- The family with `c owns a @card(0..7)` resolved. -/
def familyWithWiderOwnsResolved : ResolvedSchema PlainBytes :=
  Checked.get (resolvePlain familyWithWiderOwns) (by decide +kernel)

def stackedAttributesResolved : ResolvedSchema PlainBytes :=
  Checked.get (resolvePlain stackedAttributes) (by decide +kernel)

/-- The attributes with `b value integer` resolved. -/
def stackedAttributesWithValueResolved : ResolvedSchema PlainBytes :=
  Checked.get (resolvePlain stackedAttributesWithValue) (by decide +kernel)

/--
Two additive deltas that narrow a type.

The declaration `c owns a` hides `p owns a @card(0..5)` and has the default
cardinality `0..1`. And `b value integer` hides the string domain of `a`.
-/
theorem hidden_declarations_narrow : (diffPlain family familyWithOwns = .ok ownsDelta ∧
      (∀ reason ∈ (classifyDeltaSafety ownsDelta).reasons, reason.classification.AtMostAdditive) ∧
      resolvePlain family = .ok familyResolved ∧
      resolvePlain familyWithOwns = .ok familyWithOwnsResolved ∧
      ¬ NeverNarrows familyResolved.types familyWithOwnsResolved.types) ∧
      diffPlain stackedAttributes stackedAttributesWithValue = .ok valueDelta ∧
        (∀ reason ∈ (classifyDeltaSafety valueDelta).reasons,
          reason.classification.AtMostAdditive) ∧
        resolvePlain stackedAttributes = .ok stackedAttributesResolved ∧
        resolvePlain stackedAttributesWithValue = .ok stackedAttributesWithValueResolved ∧
        ¬ NeverNarrows stackedAttributesResolved.types
          stackedAttributesWithValueResolved.types := by
  refine ⟨⟨eq_ok_get _ _, by decide +kernel, eq_ok_get _ _,
    eq_ok_get _ _, ?_⟩, eq_ok_get _ _, by decide +kernel,
    eq_ok_get _ _, eq_ok_get _ _, ?_⟩
  · intro narrows
    have wide : (familyResolved.types[TypeId.mk .entity ⟨"c"⟩]?.map fun resolved =>
          resolved.owns[AttributeId.mk ⟨"a"⟩]?.map (·.cardinality)) =
          some (some ⟨0, some 5⟩) := by
      decide +kernel
    have narrow : (familyWithOwnsResolved.types[TypeId.mk .entity ⟨"c"⟩]?.map fun resolved =>
            resolved.owns[AttributeId.mk ⟨"a"⟩]?.map (·.cardinality)) =
          some (some ⟨0, some 1⟩) := by decide +kernel
    obtain ⟨former, isFormer, formerOwns⟩ := Option.map_eq_some_iff.mp wide
    obtain ⟨entry, stored, isWide⟩ := Option.map_eq_some_iff.mp formerOwns
    obtain ⟨later, isLater, widens⟩ := narrows _ former isFormer
    obtain ⟨other, laterStored, contains, -⟩ := widens.owns _ entry stored
    rw [isLater, Option.map_some, laterStored, Option.map_some,
      Option.some.injEq, Option.some.injEq] at narrow
    rw [isWide, narrow] at contains
    cases contains
  · intro narrows
    have string : (stackedAttributesResolved.types[TypeId.mk .attribute ⟨"b"⟩]?.map
          fun resolved => resolved.valueType.map (·.valueType)) = some (some .string) := by
      decide +kernel
    have integer : (stackedAttributesWithValueResolved.types[TypeId.mk .attribute ⟨"b"⟩]?.map
            fun resolved => resolved.valueType.map (·.valueType)) = some (some .long) := by
      decide +kernel
    obtain ⟨former, isFormer, formerValue⟩ := Option.map_eq_some_iff.mp string
    obtain ⟨value, isValue, isString⟩ := Option.map_eq_some_iff.mp formerValue
    obtain ⟨later, isLater, widens⟩ := narrows _ former isFormer
    obtain ⟨other, isOther, same⟩ := widens.valueType value isValue
    rw [isLater, Option.map_some, isOther, Option.map_some,
      Option.some.injEq, Option.some.injEq, same, isString] at integer
    cases integer

/-- The defaults of the small schemas' profile. -/
def plainProfile : SemanticProfile :=
  Checked.get (SemanticProfile.resolve (plainContext ∅).semanticProfile) (by decide +kernel)

def isOldOrAdded : SchemaFact → Bool
  | .owns fact => .owns fact ∈ family.facts.values || fact.id = ownsAttribute "c"
  | _ => true

/-- Every ownership is the one of the supertype. -/
def isOfParent : SchemaFact → Bool
  | .owns fact => fact.id = ownsAttribute "p"
  | _ => true

def isOldValue : SchemaFact → Bool
  | .value fact => .value fact ∈ family.facts.values
  | _ => true

theorem widerOwns_hidesNothingWider :
    HidesNothingWider plainProfile family.facts familyWithWiderOwns.facts := by
  constructor
  · intro fact stored isNew inherited nearest
    have isAdded : fact.id = ownsAttribute "c" := by
      have listed : familyWithWiderOwns.facts.values.all isOldOrAdded = true := by decide +kernel
      simpa [isOldOrAdded, isNew] using List.all_eq_true.mp listed _ stored
    have isInherited : inherited = annotationsFor family.facts (.owns (ownsAttribute "p")) := by
      have listed : family.facts.values.all isOfParent = true := by decide +kernel
      obtain ⟨owner, declaring, isStored, -, -, isAnnotations⟩ := nearest.exists_declares
      have isParent : declaring.id = ownsAttribute "p" := by
        simpa [isOfParent] using List.all_eq_true.mp listed _ isStored
      rw [isAnnotations, isParent]
    rw [isAdded, isInherited]
    decide +kernel
  · intro fact stored isNew
    have listed : familyWithWiderOwns.facts.values.all isOldValue = true := by decide +kernel
    have isOld : .value fact ∈ family.facts.values := by
      simpa [isOldValue] using List.all_eq_true.mp listed _ stored
    exact (isNew isOld).elim

/-- A wider ownership narrows nothing. -/
theorem widerOwns_never_narrows : diffPlain family familyWithWiderOwns = .ok widerOwnsDelta ∧
      HidesNothingWider plainProfile family.facts familyWithWiderOwns.facts ∧
      NeverNarrows familyResolved.types familyWithWiderOwnsResolved.types := by
  have diffed : diffPlain family familyWithWiderOwns = .ok widerOwnsDelta := eq_ok_get _ _
  have additive : ∀ reason ∈ (classifyDeltaSafety widerOwnsDelta).reasons,
        reason.classification.AtMostAdditive := by decide +kernel
  refine ⟨diffed, widerOwns_hidesNothingWider, ?_⟩
  exact (additive_never_narrows_iff (eq_ok_get _ _)
    (eq_ok_get _ _) (eq_ok_get _ _) diffed additive).mpr widerOwns_hidesNothingWider

end TypeBridge.Migration
