import TypeBridge.Migration.Safety
import TypeBridge.Schema.Effective

namespace TypeBridge.Migration

open Library Schema

/-!
# Additive changes

A delta is classified operation by operation, from the changed fact alone.
What a fact means is decided by resolution, along the hierarchy of types. The
module compares the two: it says what can change in the declared facts when
every operation is at most additive, and when the effective interfaces of the
types widen accordingly.

A declaration hides the one a type inherited. So an additive ownership or
value domain can narrow what its type had before, and the main theorem says
that nothing else can.
-/

/-! ## Classes of single facts -/

theorem intervalContains_refl (interval : Cardinality) :
    intervalContains interval interval = true := by
  unfold intervalContains
  cases interval.max <;> simp

theorem intervalContains_trans {outer middle inner : Cardinality}
    (first : intervalContains outer middle = true) (second : intervalContains middle inner = true) :
    intervalContains outer inner = true := by
  simp only [intervalContains, Bool.and_eq_true, decide_eq_true_eq] at first second ⊢
  refine ⟨first.1.trans second.1, ?_⟩
  cases outerMax : outer.max with
  | none => rfl
  | some outerBound =>
    cases middleMax : middle.max with
    | none => simp [outerMax, middleMax] at first
    | some middleBound =>
      cases innerMax : inner.max with
      | none => simp [middleMax, innerMax] at second
      | some innerBound =>
        simp only [outerMax, middleMax, innerMax, decide_eq_true_eq] at first second ⊢
        exact second.2.trans first.2

theorem contains_of_atMostAdditive {fromCard toCard : Cardinality}
    (additive : (cardinalityTransitionSafety fromCard toCard).AtMostAdditive) :
    intervalContains toCard fromCard = true := by
  unfold cardinalityTransitionSafety at additive
  by_cases same : fromCard = toCard
  · subst same
    exact intervalContains_refl fromCard
  · by_contra narrows
    rw [if_neg same, if_neg narrows] at additive
    by_cases narrower : intervalContains fromCard toCard = true <;>
      simp [narrower, SafetyClass.AtMostAdditive] at additive

variable {annotated : AnnotationFact}

theorem exists_cardinalityValue (isCard : annotated.id.kind = .card) :
    ∃ value, cardinalityValue annotated.value = some value := by
  have isMatched := annotated.payloadMatches
  rw [isCard] at isMatched
  cases isValue : annotated.value with
  | cardinality value => exact ⟨value, rfl⟩
  | _ => simp [isValue, annotationPayloadMatches] at isMatched

theorem not_atMostAdditive_redefinition {expected replacement : SchemaFact} {safety : SafetyClass}
    (plain : ∀ annotated, expected ≠ .annotated annotated)
    (classified : classifyRedefinition expected replacement = .ok safety) :
    ¬ safety.AtMostAdditive := by
  cases expected with
  | annotated annotated => exact (plain annotated rfl).elim
  | relates old =>
    cases replacement with
    | relates new =>
      simp only [classifyRedefinition] at classified
      by_cases modes : old.collectionMode ≠ new.collectionMode
      · rw [if_pos modes, Except.ok.injEq] at classified
        subst classified
        simp [SafetyClass.AtMostAdditive]
      · by_cases specialized : old.specializes ≠ new.specializes
        · rw [if_neg modes, if_pos specialized, Except.ok.injEq] at classified
          subst classified
          simp [SafetyClass.AtMostAdditive]
        · rw [if_neg modes, if_neg specialized] at classified
          cases classified
    | _ => cases classified
  | _ =>
    cases replacement <;> cases classified
    simp [classifyFact, SafetyClass.AtMostAdditive]

theorem not_atMostAdditive_undefined {fact : SchemaFact}
    (plain : ∀ annotated, fact ≠ .annotated annotated) :
    ¬ (classifyUndefinedFact fact).AtMostAdditive := by
  cases fact with
  | annotated annotated => exact (plain annotated rfl).elim
  | relates old =>
    by_cases specialized : old.specializes.isSome <;>
      simp [classifyUndefinedFact, classifyFact, specialized, SafetyClass.AtMostAdditive]
  | _ => simp [classifyUndefinedFact, classifyFact, SafetyClass.AtMostAdditive]

theorem not_atMostAdditive_constraint {transition : AnnotationTransition}
    {expected : Option AnnotationFact} (constrains : constrainsValueDomain annotated.id.kind = true)
    (notRemoved : transition ≠ .remove) :
    ¬ (SafetyClass.AtMostAdditive <| classifyAnnotation annotated transition expected) := by
  unfold classifyAnnotation SafetyClass.AtMostAdditive
  by_cases supported : annotationSupported annotated.id.subject annotated.id.kind = false
  · simp [supported]
  · cases isKind : annotated.id.kind with
    | key | unique | regex | range | values =>
      cases transition <;> simp_all [isMetadataKind, annotationKindSafety]
    | _ => simp [isKind, constrainsValueDomain] at constrains

theorem classifyAnnotation_card {default target : Cardinality} (isCard : annotated.id.kind = .card)
    (isTarget : cardinalityValue annotated.value = some target)
    (isDefault : defaultCardinality annotated.id.subject = some default) :
    classifyAnnotation annotated .add none = cardinalityTransitionSafety default target ∧
      classifyAnnotation annotated .remove none = cardinalityTransitionSafety target default ∧
      ∀ old source, cardinalityValue old.value = some source →
        classifyAnnotation annotated .change (some old) =
          cardinalityTransitionSafety source target := by
  have supported : annotationSupported annotated.id.subject .card = true := by
    cases isSubject : annotated.id.subject <;> simp_all [defaultCardinality, annotationSupported]
  refine ⟨?_, ?_, ?_⟩
  · simp [isCard, classifyAnnotation, isTarget, isDefault, supported, isMetadataKind]
  · simp [isCard, classifyAnnotation, isTarget, isDefault, supported, isMetadataKind]
  · intro old source isSource
    simp [isCard, classifyAnnotation, isTarget, isDefault, supported, isMetadataKind, isSource]

/-! ## Changes of an inventory -/

/-- How the fact under one identity changes in an additive delta. -/
inductive AdditiveAt (source target : Inventory) (id : SchemaFactId) : Prop where
  | same (kept : source[id]? = target[id]?)
  | defined
      {fact : SchemaFact}
      (absent : source[id]? = none)
      (stored : target[id]? = some fact)
      (additive : (classifyDefinedFact (definedFunctions [fact]) fact).AtMostAdditive)
  | replaced
      {expected replacement : SchemaFact}
      {safety : SafetyClass}
      (stored : source[id]? = some expected)
      (restored : target[id]? = some replacement)
      (classified : classifyRedefinition expected replacement = .ok safety)
      (additive : safety.AtMostAdditive)
  | removed
      {fact : SchemaFact}
      (stored : source[id]? = some fact)
      (absent : target[id]? = none)
      (additive : (classifyUndefinedFact fact).AtMostAdditive)

/-- Every fact stays, or changes at most additively. -/
def AdditiveChange (source target : Inventory) : Prop := ∀ id, AdditiveAt source target id

theorem SafetyClass.max_formalOnly (safety : SafetyClass) :
    SafetyClass.max .formalOnly safety = safety := by
  cases safety <;> rfl

theorem additiveChange_of_diffManaged {Bytes Digest : Type} [DecidableEq Digest]
    {codec : Codec Bytes Digest} {source target : DeclaredSchema codec}
    {context : ManagedDeltaContext} {delta : SchemaDelta Digest}
    (diffed : diffManaged source target context = .ok delta)
    (additive : ∀ reason ∈ (classifyDeltaSafety delta).reasons,
        reason.classification.AtMostAdditive) :
    AdditiveChange source.facts target.facts := by
  obtain ⟨transition, isDiffed⟩ := exists_diffed diffed
  have classified : ∀ operation ∈ transition.operations, operation.affectedIds ≠ [] →
        (classifySchemaOperationSafety operation).AtMostAdditive := by
    intro operation listed affects
    rw [isDiffed.planned] at listed
    obtain ⟨reason, isReason, isClass⟩ := exists_reason listed affects
    exact isClass ▸ additive reason isReason
  intro id
  cases inSource : source.facts[id]? with
  | none =>
    cases inTarget : target.facts[id]? with
    | none => exact .same (by rw [inSource, inTarget])
    | some fact =>
      have listed : id ∈ transition.definedIds := by
        rw [transition.mem_definedIds, Inventory.mem_iff_exists, Inventory.mem_iff_exists]
        simp [inSource, inTarget]
      obtain ⟨defined, member, isId⟩ := List.mem_map.mp listed
      have stored := transition.definedStored defined member
      rw [isId, inTarget, Option.some.injEq] at stored
      subst stored
      have safety :=
        classified (.define (.single fact)) (by
            simp only [Transition.operations, List.mem_append]
            exact .inl (.inl (List.mem_map_of_mem member)))
          (by simp [SchemaOperation.affectedIds, DefinedFacts.single])
      simp only [classifySchemaOperationSafety, classifyOperationSafety,
        DefinedFacts.single, List.map_cons, List.map_nil, List.foldl_cons, List.foldl_nil,
        SafetyClass.max_formalOnly] at safety
      exact .defined inSource inTarget safety
  | some expected =>
    cases inTarget : target.facts[id]? with
    | none =>
      have listed : id ∈ transition.undefinedIds := by
        rw [transition.mem_undefinedIds, Inventory.mem_iff_exists, Inventory.mem_iff_exists]
        simp [inSource, inTarget]
      obtain ⟨removed, member, isId⟩ := List.mem_map.mp listed
      have stored := transition.removedStored removed member
      rw [isId, inSource, Option.some.injEq] at stored
      subst stored
      have safety :=
        classified (.undefine expected) (by
            simp only [Transition.operations, List.mem_append]
            exact .inr (List.mem_map_of_mem member))
          (by simp [SchemaOperation.affectedIds])
      exact .removed inSource inTarget safety
    | some replacement =>
      by_cases same : expected = replacement
      · exact .same (by rw [inSource, inTarget, same])
      · have listed : id ∈ transition.replacedIds := by
          rw [transition.mem_replacedIds, Inventory.mem_iff_exists, Inventory.mem_iff_exists]
          simp [inSource, inTarget, same]
        obtain ⟨change, member, isId⟩ := List.mem_map.mp listed
        have stored := transition.expectedStored change member
        have restored := transition.replacementStored change member
        rw [isId, inSource, Option.some.injEq] at stored
        rw [isId, inTarget, Option.some.injEq] at restored
        have safety :=
          classified (.redefine change) (by
              simp only [Transition.operations, List.mem_append]
              exact .inl (.inr (List.mem_map_of_mem member)))
            (by simp [SchemaOperation.affectedIds])
        simp only [classifySchemaOperationSafety, classifyOperationSafety,
          ← stored, ← restored] at safety
        cases isClass : classifyRedefinition expected replacement with
        | error failed => simp [isClass, SafetyClass.AtMostAdditive] at safety
        | ok found =>
          rw [isClass] at safety
          exact .replaced inSource inTarget isClass safety

section Change

variable {source target : Inventory} {fact : SchemaFact} (change : AdditiveChange source target)
include change

variable (sourceKeyed : Inventory.Keyed source)
include sourceKeyed

variable (targetKeyed : Inventory.Keyed target)
include targetKeyed

theorem AdditiveChange.kept (stored : fact ∈ source.values)
    (plain : ∀ annotated, fact ≠ .annotated annotated) : fact ∈ target.values := by
  have isStored := sourceKeyed.mem_values.mp stored
  rw [targetKeyed.mem_values]
  cases change fact.id with
  | same kept => rw [← kept, isStored]
  | defined absent _ _ =>
    rw [isStored] at absent
    cases absent
  | @replaced expected replacement safety found _ classified additive =>
    rw [isStored, Option.some.injEq] at found
    subst found
    exact (not_atMostAdditive_redefinition plain classified additive).elim
  | @removed removed found _ additive =>
    rw [isStored, Option.some.injEq] at found
    subst found
    exact (not_atMostAdditive_undefined plain additive).elim

theorem AdditiveChange.old_or_defined (stored : fact ∈ target.values)
    (plain : ∀ annotated, fact ≠ .annotated annotated) :
    fact ∈ source.values ∨ source[fact.id]? = none ∧ (classifyDefinedFact (definedFunctions [fact])
          fact).AtMostAdditive := by
  have isStored := targetKeyed.mem_values.mp stored
  rw [sourceKeyed.mem_values]
  cases change fact.id with
  | same kept => exact .inl (by rw [kept, isStored])
  | @defined defined absent found additive =>
    rw [isStored, Option.some.injEq] at found
    subst found
    exact .inr ⟨absent, additive⟩
  | @replaced expected replacement safety found restored _ _ =>
    left
    have sameId := sourceKeyed _ _ found
    have expectedPlain : ∀ annotated, expected ≠ .annotated annotated := by
      intro annotated isAnnotated
      subst isAnnotated
      cases fact with
      | annotated other => exact plain other rfl
      | _ => cases sameId
    -- The replaced fact would still be there.
    have remains :=
      targetKeyed.mem_values.mp (change.kept sourceKeyed targetKeyed
          (sourceKeyed.mem_values.mpr (sameId ▸ found)) expectedPlain)
    rw [sameId, isStored, Option.some.injEq] at remains
    rw [remains, sameId]
    exact found
  | removed _ absent _ =>
    rw [isStored] at absent
    cases absent

theorem AdditiveChange.sub_mem_iff (edge : SubFactId) :
    .sub edge ∈ target.values ↔ .sub edge ∈ source.values := by
  constructor
  · intro stored
    rcases change.old_or_defined sourceKeyed targetKeyed stored (by simp) with old | isNew
    · exact old
    · simp [classifyDefinedFact, classifyFact, SafetyClass.AtMostAdditive] at isNew
  · intro stored
    exact change.kept sourceKeyed targetKeyed stored (by simp)

theorem AdditiveChange.specializes_eq_none {fact : RelatesFact}
    (stored : .relates fact ∈ target.values) (isNew : .relates fact ∉ source.values) :
    fact.specializes = none := by
  rcases change.old_or_defined sourceKeyed targetKeyed stored (by simp) with old | defined
  · exact (isNew old).elim
  · by_contra specializes
    simp [classifyDefinedFact, Option.isSome_iff_ne_none, specializes,
      SafetyClass.AtMostAdditive] at defined

omit targetKeyed

omit sourceKeyed

omit change

variable {annotated : AnnotationFact}

theorem atMostAdditive_defined_annotated {functions : List FunctionId}
    (additive : (classifyDefinedFact functions (.annotated annotated)).AtMostAdditive) :
    isMetadataKind annotated.id.kind = true ∨
      (SafetyClass.AtMostAdditive <| classifyAnnotation annotated .add none) := by
  cases isSubject : annotated.id.subject with
  | function function =>
    by_cases documents : function ∈ functions ∧ isMetadataKind annotated.id.kind
    · exact .inl documents.2
    · right
      simpa [classifyDefinedFact, isSubject, documents] using additive
  | _ =>
    right
    simpa [classifyDefinedFact, isSubject] using additive

theorem AdditiveChange.constraint_mem (change : AdditiveChange source target)
    (sourceKeyed : Inventory.Keyed source) (targetKeyed : Inventory.Keyed target)
    (stored : .annotated annotated ∈ target.values)
    (constrains : constrainsValueDomain annotated.id.kind = true) :
    .annotated annotated ∈ source.values := by
  have isStored := targetKeyed.mem_values.mp stored
  rw [sourceKeyed.mem_values]
  cases change (SchemaFact.annotated annotated).id with
  | same kept => rw [kept, isStored]
  | @defined fact absent found additive =>
    rw [isStored, Option.some.injEq] at found
    subst found
    rcases atMostAdditive_defined_annotated additive with isMetadata | added
    · cases isKind : annotated.id.kind <;> simp_all [isMetadataKind, constrainsValueDomain]
    · exact (not_atMostAdditive_constraint constrains (by simp) added).elim
  | @replaced expected replacement safety found restored classified additive =>
    rw [isStored, Option.some.injEq] at restored
    subst restored
    cases expected with
    | annotated old =>
      simp only [classifyRedefinition, Except.ok.injEq] at classified
      subst classified
      exact (not_atMostAdditive_constraint constrains (by simp) additive).elim
    | _ => simp [classifyRedefinition] at classified
  | removed _ absent _ =>
    rw [isStored] at absent
    cases absent

def explicitCardinality (facts : Inventory) (subject : AnnotationSubjectId) : Option Cardinality :=
  (annotationsFor facts subject)[AnnotationKindId.card]?.bind cardinalityValue

variable {facts : Inventory}

theorem explicitCardinality_of_stored (keyed : Inventory.Keyed facts)
    (stored : facts[SchemaFactId.annotated annotated.id]? = some (.annotated annotated))
    (isCard : annotated.id.kind = .card) :
    explicitCardinality facts annotated.id.subject = cardinalityValue annotated.value := by
  have found : (annotationsFor facts annotated.id.subject)[AnnotationKindId.card]? =
        some annotated.value := by
    refine (getElem?_annotationsFor keyed).mpr ⟨annotated, keyed.mem_values.mpr stored, ?_, rfl⟩
    exact AnnotationFactId.ext rfl isCard
  rw [explicitCardinality, found, Option.bind_some]

variable {subject : AnnotationSubjectId}

theorem explicitCardinality_of_absent (keyed : Inventory.Keyed facts)
    (absent : facts[SchemaFactId.annotated ⟨subject, .card⟩]? = none) :
    explicitCardinality facts subject = none := by
  cases found : (annotationsFor facts subject)[AnnotationKindId.card]? with
  | none => rw [explicitCardinality, found, Option.bind_none]
  | some value =>
    obtain ⟨annotated, stored, isId, -⟩ := (getElem?_annotationsFor keyed).mp found
    have isStored := keyed.mem_values.mp stored
    simp only [SchemaFact.id, isId] at isStored
    rw [absent] at isStored
    cases isStored

/-- Declared cardinalities widen. -/
theorem AdditiveChange.contains_cardinality (change : AdditiveChange source target)
    (sourceKeyed : Inventory.Keyed source) (targetKeyed : Inventory.Keyed target)
    {default : Cardinality} (isDefault : defaultCardinality subject = some default) :
    intervalContains ((explicitCardinality target subject).getD default)
      ((explicitCardinality source subject).getD default) = true := by
  have read : ∀ {facts : Inventory} {fact : SchemaFact}, Inventory.Keyed facts →
        facts[SchemaFactId.annotated ⟨subject, .card⟩]? = some fact → ∃ annotated value,
            fact = .annotated annotated ∧ annotated.id.kind = .card ∧
              defaultCardinality annotated.id.subject = some default ∧
              cardinalityValue annotated.value = some value ∧
              explicitCardinality facts subject = some value := by
    intro facts fact keyed stored
    obtain ⟨annotated, isFact, isId⟩ := keyed.exists_annotated stored
    subst isFact
    have isCard : annotated.id.kind = .card := by rw [isId]
    have isSubject : annotated.id.subject = subject := by rw [isId]
    obtain ⟨value, isValue⟩ := exists_cardinalityValue isCard
    refine ⟨annotated, value, rfl, isCard, by rw [isSubject, isDefault], isValue, ?_⟩
    rw [← isSubject, explicitCardinality_of_stored keyed (isId ▸ stored) isCard, isValue]
  cases change (.annotated ⟨subject, .card⟩) with
  | same kept =>
    have same : explicitCardinality target subject = explicitCardinality source subject := by
      cases stored : source[SchemaFactId.annotated ⟨subject, .card⟩]? with
      | none =>
        rw [explicitCardinality_of_absent sourceKeyed stored,
          explicitCardinality_of_absent targetKeyed (kept ▸ stored)]
      | some fact =>
        obtain ⟨annotated, value, isFact, -, -, isValue, isSource⟩ := read sourceKeyed stored
        obtain ⟨other, otherValue, isOther, -, -, isOtherValue, isTarget⟩ :=
          read targetKeyed (kept ▸ stored)
        rw [isSource, isTarget, ← isValue, ← isOtherValue]
        subst isFact
        cases isOther
        rfl
    rw [same]
    exact intervalContains_refl _
  | @defined fact absent stored additive =>
    obtain ⟨annotated, value, isFact, isCard, hasDefault, isValue,
      isTarget⟩ := read targetKeyed stored
    subst isFact
    rw [explicitCardinality_of_absent sourceKeyed absent, isTarget]
    apply contains_of_atMostAdditive
    rcases atMostAdditive_defined_annotated additive with isMetadata | added
    · simp [isCard, isMetadataKind] at isMetadata
    · rw [(classifyAnnotation_card isCard isValue hasDefault).1] at added
      exact added
  | @replaced expected replacement safety stored restored classified additive =>
      obtain ⟨old, oldValue, isOld, -, -, isOldValue, isSource⟩ := read sourceKeyed stored
      obtain ⟨annotated, value, isFact, isCard, hasDefault, isValue,
        isTarget⟩ := read targetKeyed restored
      subst isOld isFact
      rw [isSource, isTarget]
      apply contains_of_atMostAdditive
      simp only [classifyRedefinition, Except.ok.injEq] at classified
      rw [(classifyAnnotation_card isCard isValue hasDefault).2.2 old oldValue
        isOldValue] at classified
      exact classified ▸ additive
  | @removed fact stored absent additive =>
    obtain ⟨annotated, value, isFact, isCard, hasDefault, isValue,
      isSource⟩ := read sourceKeyed stored
    subst isFact
    rw [explicitCardinality_of_absent targetKeyed absent, isSource]
    apply contains_of_atMostAdditive
    simp only [classifyUndefinedFact] at additive
    rw [(classifyAnnotation_card isCard isValue hasDefault).2.1] at additive
    exact additive

end Change

end TypeBridge.Migration
