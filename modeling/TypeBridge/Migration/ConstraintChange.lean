import TypeBridge.Migration.SafetyCondition
import TypeBridge.Schema.Scalar

namespace TypeBridge.Migration

open Library Schema
open Library.Checked hiding get

/-!
# Changed constraints

A cardinality, range or values annotation admits counts or values. When it is
added, changed or removed, the derived conditions must exclude exactly the data
that the former constraint admits and the later one does not. Conditions
without a resolution exclude nothing; they stop the migration instead.

A redefined range or set of values is proven condition-free if nothing is
excluded. The proof only looks at the declarations: a bound on a side that had
none counts as narrowing even at the end of its domain, and so does leaving out
a member of which an equal one is kept. A defined constraint is proven
condition-free if the source can hold no instance of the type it is declared
on; no condition is derived for it then.
-/

/-! ## Admitted data -/

/-- What a constraint is about: how many there are, or a value. -/
inductive Datum where
  | count (number : Nat)
  | value (scalar : CanonicalValue)

/-- The constraint that a schema puts on the subject of an annotation. -/
inductive EffectiveConstraint where
  | unconstrained
  | cardinality (interval : Cardinality)
  | range (lower upper : Option CanonicalValue)
  | values (members : Finset CanonicalValue)

def declaredFact (facts : Inventory) (id : AnnotationFactId) : Option AnnotationFact :=
  match facts[SchemaFactId.annotated id]? with
  | some (.annotated fact) => some fact
  | _ => none

def EffectiveConstraint.ofPayload : Option SchemaAnnotationValue → EffectiveConstraint
  | some (.range lower upper) => .range lower upper
  | some (.values members) => .values members
  | _ => .unconstrained

/-- The interval that a cardinality annotation declares. -/
def declaredInterval (facts : Inventory) (subject : AnnotationSubjectId) : Option Cardinality :=
  match declaredFact facts ⟨subject, .card⟩ with
  | some fact => cardinalityValue fact.value
  | none => none

/-- The interval in effect: that of a key, the declared one, or the default of the profile. -/
def effectiveInterval (facts : Inventory) (semantic : SemanticProfile) :
    AnnotationSubjectId → Option Cardinality
  | .owns id =>
      if (declaredFact facts ⟨.owns id, .key⟩).isSome then some semantic.keyOwnsCardinality
      else some ((declaredInterval facts (.owns id)).getD semantic.ownsCardinality)
  | .relates id => some ((declaredInterval facts (.relates id)).getD semantic.relatesCardinality)
  | .plays id => some ((declaredInterval facts (.plays id)).getD semantic.playsCardinality)
  | _ => none

/-- A cardinality is always in effect, the other constraints if declared. -/
def effectiveConstraint (facts : Inventory) (semantic : SemanticProfile) (id : AnnotationFactId) :
    Option EffectiveConstraint :=
  if id.kind = .card then (effectiveInterval facts semantic id.subject).map .cardinality
  else some (.ofPayload ((declaredFact facts id).map (·.value)))

def AdmitsCount (interval : Cardinality) (number : Nat) : Prop :=
  interval.min ≤ number ∧ ∀ max, interval.max = some max → number ≤ max

section Admission

variable (reading : ScalarReading)

def EffectiveConstraint.Admits : EffectiveConstraint → Datum → Prop
  | .unconstrained, _ => True
  | .cardinality interval, .count number => AdmitsCount interval number
  | .range lower upper, .value scalar =>
      WithinBound reading.compareSameDomain .gt lower scalar ∧
        WithinBound reading.compareSameDomain .lt upper scalar
  | .values members, .value scalar =>
      ∃ member ∈ members, reading.compareSameDomain scalar member = some .eq
  | _, _ => False

def SafetyCondition.Violates : SafetyCondition → Datum → Prop
  | .ownsMinimum _ minimum, .count number => number < minimum
  | .ownsMaximum _ maximum, .count number => maximum < number
  | .rangeLower _ lower, .value scalar => reading.compareSameDomain scalar lower = some .lt
  | .rangeUpper _ upper, .value scalar => reading.compareSameDomain scalar upper = some .gt
  | .valuesNarrowed _ allowed, .value scalar =>
      ∀ member ∈ allowed, reading.compareSameDomain scalar member ≠ some .eq
  | _, _ => False

def Datum.Of (kind : AnnotationKindId) (domain : ValueTypeTag) : Datum → Prop
  | .count _ => kind = .card
  | .value scalar => kind ≠ .card ∧ scalar ∈ reading.domain domain

/-- What the constructors of ranges and of value sets check.

A range has a bound, its bounds are of one ordered domain, and the lower one
is less. A set of values has a member, and its members are of one domain. -/
def EffectiveConstraint.OfDomain (domain : ValueTypeTag) : EffectiveConstraint → Prop
  | .unconstrained => True
  | .cardinality _ => True
  | .range lower upper =>
      (lower.isSome ∨ upper.isSome) ∧ domain ≠ .duration ∧
        (∀ bound, lower = some bound → bound ∈ reading.domain domain) ∧
        (∀ bound, upper = some bound → bound ∈ reading.domain domain) ∧
        ∀ least greatest, lower = some least → upper = some greatest →
          reading.compareSameDomain least greatest = some .lt
  | .values members => members.Nonempty ∧ ∀ member ∈ members, member ∈ reading.domain domain

end Admission

/-! ## Bounds -/

section Bounds

variable {compare : CanonicalValue → CanonicalValue → Option Ordering} {domain : Set CanonicalValue}
  {side : Ordering} {old new : Option CanonicalValue} {narrows : Bool} {value : CanonicalValue}

theorem withinBound_of_boundNarrows (ranked : RankedOn compare domain) (isSide : side ≠ .eq)
    (oldIn : ∀ bound, old = some bound → bound ∈ domain)
    (newIn : ∀ bound, new = some bound → bound ∈ domain) (valueIn : value ∈ domain)
    (run : boundNarrows compare side old new = .ok narrows)
    (admitted : WithinBound compare side old value)
    (notBeyond : narrows = true → ∀ bound, new = some bound →
      compare value bound ≠ some side.swap) :
    WithinBound compare side new value := by
  intro bound isNew
  subst isNew
  have boundIn := newIn bound rfl
  by_cases isNarrowed : narrows = true
  · exact (ranked.within_iff boundIn valueIn).mpr (notBeyond isNarrowed bound rfl)
  · cases old with
    | none => simp_all [boundNarrows]
    | some former =>
      have formerIn := oldIn former rfl
      have notFacing : compare bound former ≠ some side := by
        intro facing
        simp only [boundNarrows, facing, beq_self_eq_true, Except.ok.injEq] at run
        exact isNarrowed run.symm
      have former_within : Within compare side bound former := by
        by_contra outside
        exact notFacing ((ranked.compare_eq_side_iff boundIn formerIn).mpr outside)
      exact ranked.within_trans isSide boundIn formerIn valueIn
        former_within (admitted former rfl)

theorem boundNarrows_eq_false (ranked : RankedOn compare domain)
    (oldIn : ∀ bound, old = some bound → bound ∈ domain)
    (newIn : ∀ bound, new = some bound → bound ∈ domain)
    (run : boundNarrows compare side old new = .ok narrows)
    (admitted : ∀ former, old = some former → WithinBound compare side new former)
    (noneAdded : old = none → new = none) : narrows = false := by
  cases new with
  | none => cases old <;> simp_all [boundNarrows]
  | some bound =>
    cases old with
    | none => exact absurd (noneAdded rfl) (by simp)
    | some former =>
      have notFacing : compare bound former ≠ some side := by
        intro facing
        exact (ranked.compare_eq_side_iff (newIn bound rfl)
          (oldIn former rfl)).mp facing (admitted former rfl bound rfl)
      cases answer : compare bound former with
      | none => simp [boundNarrows, answer] at run
      | some ordering =>
        simp only [boundNarrows, answer, Except.ok.injEq] at run
        rw [answer] at notFacing
        rw [← run]
        simpa using notFacing

theorem none_of_boundNarrows (run : boundNarrows compare side old new = .ok false)
    (wasNone : old = none) : new = none := by
  subst wasNone
  cases new with
  | none => rfl
  | some bound => simp [boundNarrows] at run

end Bounds

/-! ## Ranges -/

section Ranges

variable {reading : ScalarReading} {domain : ValueTypeTag}

def EffectiveConstraint.ofRange :
    Option (Option CanonicalValue × Option CanonicalValue) → EffectiveConstraint
  | some payload => .range payload.1 payload.2
  | none => .unconstrained

variable {range : Option (Option CanonicalValue × Option CanonicalValue)} {scalar : CanonicalValue}

theorem EffectiveConstraint.admits_ofRange_iff :
    (EffectiveConstraint.ofRange range).Admits reading (.value scalar) ↔
      WithinBound reading.compareSameDomain .gt (range.bind Prod.fst) scalar ∧
        WithinBound reading.compareSameDomain .lt (range.bind Prod.snd) scalar := by
  cases range with
  | none => simp [ofRange, Admits, WithinBound]
  | some range => simp [ofRange, Admits]

theorem EffectiveConstraint.OfDomain.bounds
    (formed : (EffectiveConstraint.ofRange range).OfDomain reading domain) :
    (∀ bound, range.bind Prod.fst = some bound → bound ∈ reading.domain domain) ∧
      ∀ bound, range.bind Prod.snd = some bound → bound ∈ reading.domain domain := by
  cases range with
  | none => simp
  | some range => exact ⟨formed.2.2.1, formed.2.2.2.1⟩

theorem EffectiveConstraint.OfDomain.rangeDomain_eq {lower upper : Option CanonicalValue}
    (formed : (EffectiveConstraint.range lower upper).OfDomain reading domain) :
    rangeDomain (lower, upper) = some domain := by
  obtain ⟨isBounded, -, lowerIn, upperIn, -⟩ := formed
  unfold rangeDomain
  cases lower with
  | some bound => simp [(lowerIn bound rfl).1]
  | none =>
    cases upper with
    | some bound => simp [(upperIn bound rfl).1]
    | none => simp at isBounded

theorem rangeNarrowing_eq_ok {compare : CanonicalValue → CanonicalValue → Option Ordering}
    {old : Option (Option CanonicalValue × Option CanonicalValue)}
    {new : Option CanonicalValue × Option CanonicalValue} {narrows : Bool × Bool}
    (run : rangeNarrowing compare old new = .ok narrows) :
    (∀ range, old = some range → rangeDomain range = rangeDomain new) ∧
      boundNarrows compare .gt (old.bind Prod.fst) new.1 = .ok narrows.1 ∧
      boundNarrows compare .lt (old.bind Prod.snd) new.2 = .ok narrows.2 := by
  unfold rangeNarrowing at run
  split at run
  · exact absurd run (by simp)
  · rename_i comparable
    obtain ⟨lower, lowerRun, run⟩ := bind_eq_ok.mp run
    obtain ⟨upper, upperRun, run⟩ := bind_eq_ok.mp run
    have pair := pure_eq_ok.mp run
    subst pair
    refine ⟨?_, lowerRun, upperRun⟩
    intro range isOld
    subst isOld
    simpa using comparable

variable {old : Option (Option CanonicalValue × Option CanonicalValue)}
  {new : Option CanonicalValue × Option CanonicalValue} {oldDomain : ValueTypeTag}
  {narrows : Bool × Bool}

variable (oldForm : (EffectiveConstraint.ofRange old).OfDomain reading oldDomain)
include oldForm

variable (newForm : (EffectiveConstraint.range new.1 new.2).OfDomain reading domain)
include newForm

variable (run : rangeNarrowing reading.compareSameDomain old new = .ok narrows)
include run

theorem ofDomain_of_rangeNarrowing : (EffectiveConstraint.ofRange old).OfDomain reading domain := by
  cases old with
  | none => exact trivial
  | some range =>
    have same := (rangeNarrowing_eq_ok run).1 range rfl
    have former : rangeDomain (range.1, range.2) = some oldDomain :=
      EffectiveConstraint.OfDomain.rangeDomain_eq oldForm
    have later : rangeDomain (new.1, new.2) = some domain := newForm.rangeDomain_eq
    have domains : oldDomain = domain := Option.some.inj (former.symm.trans (same.trans later))
    exact domains ▸ oldForm

theorem range_admits_of_narrowing
    (scalarIn : scalar ∈ reading.domain domain)
    (admitted : (EffectiveConstraint.ofRange old).Admits reading (.value scalar))
    (notBelow : narrows.1 = true → ∀ bound, new.1 = some bound →
      reading.compareSameDomain scalar bound ≠ some .lt)
    (notAbove : narrows.2 = true → ∀ bound, new.2 = some bound →
      reading.compareSameDomain scalar bound ≠ some .gt) :
    (EffectiveConstraint.range new.1 new.2).Admits reading (.value scalar) := by
  obtain ⟨-, lowerRun, upperRun⟩ := rangeNarrowing_eq_ok run
  have bounds := (ofDomain_of_rangeNarrowing oldForm newForm run).bounds
  obtain ⟨-, ordered, lowerIn, upperIn, -⟩ := newForm
  have ranked := reading.rankedOn ordered
  obtain ⟨lowerAdmits, upperAdmits⟩ := EffectiveConstraint.admits_ofRange_iff.mp admitted
  exact ⟨withinBound_of_boundNarrows ranked (by decide) bounds.1 lowerIn
      scalarIn lowerRun lowerAdmits notBelow,
    withinBound_of_boundNarrows ranked (by decide) bounds.2 upperIn scalarIn
      upperRun upperAdmits notAbove⟩

omit run

omit newForm

omit oldForm

/-- A bound is added on a side that had none. -/
def EffectiveConstraint.AddsBound : EffectiveConstraint → EffectiveConstraint → Prop
  | .range oldLower oldUpper, .range newLower newUpper =>
      (oldLower = none ∧ newLower ≠ none) ∨ (oldUpper = none ∧ newUpper ≠ none)
  | _, _ => False

theorem rangeNarrowing_eq_false_iff {old : Option CanonicalValue × Option CanonicalValue}
    (oldForm : (EffectiveConstraint.range old.1 old.2).OfDomain reading oldDomain)
    (newForm : (EffectiveConstraint.range new.1 new.2).OfDomain reading domain)
    (run : rangeNarrowing reading.compareSameDomain (some old) new = .ok narrows) :
    narrows = (false, false) ↔ (∀ scalar ∈ reading.domain domain,
        (EffectiveConstraint.range old.1 old.2).Admits reading (.value scalar) →
          (EffectiveConstraint.range new.1 new.2).Admits reading (.value scalar)) ∧
        ¬ (EffectiveConstraint.range old.1 old.2).AddsBound (.range new.1 new.2) := by
  obtain ⟨-, lowerRun, upperRun⟩ := rangeNarrowing_eq_ok run
  have formerForm : (EffectiveConstraint.ofRange (some old)).OfDomain reading oldDomain := oldForm
  constructor
  · intro none
    subst none
    refine ⟨?_, ?_⟩
    · intro scalar scalarIn admitted
      have formerAdmits : (EffectiveConstraint.ofRange (some old)).Admits reading (.value scalar) :=
        admitted
      exact range_admits_of_narrowing formerForm newForm run scalarIn
        formerAdmits (by simp) (by simp)
    · rintro (⟨wasNone, isSome⟩ | ⟨wasNone, isSome⟩)
      · exact isSome (none_of_boundNarrows lowerRun wasNone)
      · exact isSome (none_of_boundNarrows upperRun wasNone)
  · rintro ⟨admits, addsNone⟩
    obtain ⟨-, -, lowerIn, upperIn, increasing⟩ :
        (EffectiveConstraint.range old.1 old.2).OfDomain reading domain :=
      ofDomain_of_rangeNarrowing formerForm newForm run
    obtain ⟨-, ordered, newLowerIn, newUpperIn, -⟩ := newForm
    have ranked := reading.rankedOn ordered
    -- Each old bound is itself admitted by the old range.
    have lowerAdmitted : ∀ former, old.1 = some former →
          WithinBound reading.compareSameDomain .gt new.1 former := by
      intro former isFormer
      refine (admits former (lowerIn former isFormer) ⟨?_, ?_⟩).1
      · intro bound isBound
        obtain rfl : former = bound := Option.some.inj (isFormer.symm.trans isBound)
        exact ranked.within_self (by decide) (lowerIn former isFormer)
      · intro bound isBound
        exact ⟨.lt, increasing former bound isFormer isBound, by decide⟩
    have upperAdmitted : ∀ former, old.2 = some former →
          WithinBound reading.compareSameDomain .lt new.2 former := by
      intro former isFormer
      refine (admits former (upperIn former isFormer) ⟨?_, ?_⟩).2
      · intro bound isBound
        refine ⟨.gt, ?_, by decide⟩
        rw [ranked.compare_swap (lowerIn bound isBound)
          (upperIn former isFormer), increasing bound former isBound isFormer]
        rfl
      · intro bound isBound
        obtain rfl : former = bound := Option.some.inj (isFormer.symm.trans isBound)
        exact ranked.within_self (by decide) (upperIn former isFormer)
    have lowerKept := boundNarrows_eq_false ranked lowerIn newLowerIn lowerRun
      lowerAdmitted fun wasNone => by
        by_contra isSome
        exact addsNone (.inl ⟨wasNone, isSome⟩)
    have upperKept := boundNarrows_eq_false ranked upperIn newUpperIn upperRun
      upperAdmitted fun wasNone => by
        by_contra isSome
        exact addsNone (.inr ⟨wasNone, isSome⟩)
    exact Prod.ext lowerKept upperKept

end Ranges

/-! ## Values -/

section Values

variable {reading : ScalarReading} {domain oldDomain : ValueTypeTag}

def EffectiveConstraint.ofValues : Option (Finset CanonicalValue) → EffectiveConstraint
  | some members => .values members
  | none => .unconstrained

variable {new : Finset CanonicalValue}

theorem values_admits_of_valuesNarrow {old : Option (Finset CanonicalValue)}
    (run : valuesNarrow old new = .ok false) {scalar : CanonicalValue}
    (admitted : (EffectiveConstraint.ofValues old).Admits reading (.value scalar)) :
    (EffectiveConstraint.values new).Admits reading (.value scalar) := by
  cases old with
  | none => simp [valuesNarrow] at run
  | some former =>
    obtain ⟨member, isMember, same⟩ := admitted
    unfold valuesNarrow at run
    simp only at run
    split at run
    · exact absurd run (by simp)
    · have kept : former ⊆ new := by simpa using run
      exact ⟨member, kept isMember, same⟩

def EffectiveConstraint.KeepsMembers : EffectiveConstraint → EffectiveConstraint → Prop
  | .values old, .values new => old ⊆ new
  | _, _ => True

/-- Equal scalars of the domain may have different canonical values. -/
def hasEqualScalars : ValueTypeTag → Bool
  | .double | .dateTimeTz => true
  | _ => false

/-- Nothing narrows exactly if all is admitted and members are kept. -/
theorem valuesNarrow_eq_false_iff {old : Finset CanonicalValue} {narrows : Bool}
    (ordered : domain ≠ .duration)
    (oldForm : (EffectiveConstraint.values old).OfDomain reading oldDomain)
    (newForm : (EffectiveConstraint.values new).OfDomain reading domain)
    (run : valuesNarrow (some old) new = .ok narrows) :
    narrows = false ↔ (∀ scalar ∈ reading.domain domain,
        (EffectiveConstraint.values old).Admits reading (.value scalar) →
          (EffectiveConstraint.values new).Admits reading (.value scalar)) ∧
        (hasEqualScalars domain = true → old ⊆ new) := by
  have inverted := run
  unfold valuesNarrow at inverted
  simp only at inverted
  split at inverted
  · exact absurd inverted (by simp)
  · rename_i comparable
    have isSubset : narrows = false ↔ old ⊆ new := by
      simp only [Except.ok.injEq] at inverted
      rw [← inverted]
      simp
    constructor
    · intro kept
      subst kept
      refine ⟨?_, fun _ => isSubset.mp rfl⟩
      intro scalar scalarIn admitted
      have formerAdmits : (EffectiveConstraint.ofValues (some old)).Admits reading
            (.value scalar) := admitted
      exact values_admits_of_valuesNarrow run formerAdmits
    · rintro ⟨admits, membersKept⟩
      refine isSubset.mpr ?_
      by_cases ambiguous : hasEqualScalars domain = true
      · exact membersKept ambiguous
      · intro member isMember
        -- The members of both sets are of one domain.
        have sameType : member.valueType = domain := by
          have inImage : member.valueType ∈ old.image (·.valueType) :=
            Finset.mem_image_of_mem _ isMember
          simp only [ne_eq, not_not] at comparable
          rw [comparable] at inImage
          obtain ⟨other, isOther, same⟩ := Finset.mem_image.mp inImage
          exact same.symm.trans (newForm.2 other isOther).1
        have memberIn : member ∈ reading.domain domain := ⟨sameType, (oldForm.2 member isMember).2⟩
        have itself : reading.compareSameDomain member member = some .eq :=
          (reading.rankedOn ordered).compare_self memberIn
        obtain ⟨other, isOther, same⟩ := admits member memberIn ⟨member, isMember, itself⟩
        have equal : member = other := by
          refine reading.eq_of_compareSameDomain ?_ ?_ same
          · rintro isDouble
            exact ambiguous (by rw [← sameType, isDouble]; rfl)
          · rintro isZoned
            exact ambiguous (by rw [← sameType, isZoned]; rfl)
        exact equal ▸ isOther

end Values

/-! ## Cardinalities -/

section Cardinalities

variable {reading : ScalarReading} {source target : Inventory} {semantic : SemanticProfile}
  {subject : AnnotationSubjectId} {old new : Cardinality} {conditions : List SafetyCondition}
  {number : Nat}

theorem le_of_maximumNarrows {oldMax newMax : Option Nat}
    (kept : maximumNarrows oldMax newMax = false)
    (admitted : ∀ max, oldMax = some max → number ≤ max) :
    ∀ max, newMax = some max → number ≤ max := by
  intro max isNew
  subst isNew
  cases oldMax with
  | none => simp [maximumNarrows] at kept
  | some former =>
    simp only [maximumNarrows, decide_eq_false_iff_not, not_lt] at kept
    exact (admitted former rfl).trans kept

theorem declaredCardinality_of_effectiveInterval {facts : Inventory} {interval : Cardinality}
    (effective : effectiveInterval facts semantic subject = some interval) :
    declaredCardinality facts semantic subject = .ok interval := by
  have valueOf : ∀ kind, declaredAnnotation facts subject kind =
      (declaredFact facts ⟨subject, kind⟩).map (·.value) := by
    intro kind
    unfold declaredAnnotation declaredFact
    cases facts[SchemaFactId.annotated ⟨subject, kind⟩]? with
    | none => rfl
    | some stored => cases stored <;> rfl
  have explicit : ((declaredFact facts ⟨subject, .card⟩).map (·.value)).bind cardinalityValue =
      declaredInterval facts subject := by
    unfold declaredInterval
    cases declaredFact facts ⟨subject, .card⟩ <;> rfl
  unfold declaredCardinality
  simp only [valueOf, explicit]
  clear explicit valueOf
  cases subject with
  | owns id =>
    cases key : declaredFact facts ⟨.owns id, .key⟩ <;>
      cases card : declaredInterval facts (.owns id) <;>
      simp_all [effectiveInterval, interfaceKind, SemanticProfile.effectiveCardinality,
        SemanticProfile.defaultCardinality, bind, Except.bind, pure, Except.pure]
  | relates id =>
    cases card : declaredInterval facts (.relates id) <;>
      simp_all [effectiveInterval, interfaceKind, SemanticProfile.effectiveCardinality,
        SemanticProfile.defaultCardinality, bind, Except.bind, pure, Except.pure]
  | plays id =>
    cases card : declaredInterval facts (.plays id) <;>
      simp_all [effectiveInterval, interfaceKind, SemanticProfile.effectiveCardinality,
        SemanticProfile.defaultCardinality, bind, Except.bind, pure, Except.pure]
  | _ => cases effective

/-- The condition on the least number of owned attributes. -/
def minimumCondition (owns : OwnsFactId) (minimum : Nat) : SafetyCondition :=
  if minimum = 1 then .ownsMinimum owns 1
  else .unresolvable .ownsMinimumRequiresDistinctAttributes .bindingDistinct

variable (oldRun : declaredCardinality source semantic subject = .ok old)
include oldRun

variable (newRun : declaredCardinality target semantic subject = .ok new)
include newRun

variable (run : deriveCardinalityConditions source target semantic subject = .ok conditions)
include run

theorem deriveCardinalityConditions_cases :
    (new.min ≤ old.min ∧ maximumNarrows old.max new.max = false ∧ conditions = []) ∨ (∃ owns,
        conditions = (if old.min < new.min then [minimumCondition owns new.min]
            else []) ++
          (if maximumNarrows old.max new.max then new.max.toList.map (.ownsMaximum owns) else [])) ∨
      ∃ reason unlock, conditions = [.unresolvable reason unlock] := by
  unfold deriveCardinalityConditions at run
  obtain ⟨former, formerRun, run⟩ := bind_eq_ok.mp run
  obtain ⟨later, laterRun, run⟩ := bind_eq_ok.mp run
  obtain rfl : old = former := Except.ok.inj (oldRun.symm.trans formerRun)
  obtain rfl : new = later := Except.ok.inj (newRun.symm.trans laterRun)
  by_cases same : decide (old.min < new.min) = false ∧ maximumNarrows old.max new.max = false
  · rw [if_pos same] at run
    have shape := pure_eq_ok.mp run
    exact .inl ⟨by simpa using same.1, same.2, shape.symm⟩
  · rw [if_neg same] at run
    cases subject with
    | owns owns =>
      have shape := pure_eq_ok.mp run
      refine .inr (.inl ⟨owns, ?_⟩)
      rw [← shape]
      simp only [decide_eq_true_eq]
      rfl
    | relates relates | plays plays => exact .inr (.inr ⟨_, _, (pure_eq_ok.mp run).symm⟩)
    | type id | sub id | value id | function id => exact absurd run (by simp)

theorem admitsCount_of_conditions
    (resolvable : ∀ condition ∈ conditions, condition.isResolvable = true)
    (admitted : AdmitsCount old number)
    (meets : ∀ condition ∈ conditions, ¬ condition.Violates reading (.count number)) :
    AdmitsCount new number := by
  rcases deriveCardinalityConditions_cases oldRun newRun run with
    ⟨minimum, maximum, -⟩ | ⟨owns, shape⟩ | ⟨reason, unlock, shape⟩
  · exact ⟨minimum.trans admitted.1, le_of_maximumNarrows maximum admitted.2⟩
  · subst shape
    constructor
    · by_cases narrows : old.min < new.min
      · have required : minimumCondition owns new.min ∈
              (if old.min < new.min then [minimumCondition owns new.min]
                else []) ++ (if maximumNarrows old.max new.max then
                new.max.toList.map (.ownsMaximum owns) else []) := by
          simp [narrows]
        -- A least number above one has no resolution.
        by_cases one : new.min = 1
        · have notBelow := meets _ required
          rw [minimumCondition, if_pos one] at notBelow
          rw [one]
          exact Nat.le_of_not_lt notBelow
        · have resolved := resolvable _ required
          rw [minimumCondition, if_neg one] at resolved
          simp [SafetyCondition.isResolvable] at resolved
      · exact (Nat.le_of_not_lt narrows).trans admitted.1
    · cases narrows : maximumNarrows old.max new.max with
      | false => exact le_of_maximumNarrows narrows admitted.2
      | true =>
        intro max isMax
        refine Nat.le_of_not_lt (meets (.ownsMaximum owns max) ?_)
        refine List.mem_append_right _ ?_
        rw [if_pos narrows, isMax]
        simp
  · have resolved := resolvable (.unresolvable reason unlock) (by simp [shape])
    simp [SafetyCondition.isResolvable] at resolved

theorem not_violates_of_admitsCount {condition : SafetyCondition}
    (isRequired : condition ∈ conditions) (admitted : AdmitsCount new number) :
    ¬ condition.Violates reading (.count number) := by
  rcases deriveCardinalityConditions_cases oldRun newRun run with
    ⟨-, -, shape⟩ | ⟨owns, shape⟩ | ⟨reason, unlock, shape⟩
  · simp [shape] at isRequired
  · rw [shape] at isRequired
    rcases List.mem_append.mp isRequired with minimum | maximum
    · split at minimum
      · rw [List.mem_singleton.mp minimum, minimumCondition]
        split
        · rename_i one
          exact Nat.not_lt.mpr (one ▸ admitted.1)
        · exact id
      · simp at minimum
    · split at maximum
      · simp only [List.mem_map, Option.mem_toList] at maximum
        obtain ⟨max, isMax, rfl⟩ := maximum
        exact Nat.not_lt.mpr (admitted.2 max isMax)
      · simp at maximum
  · rw [shape] at isRequired
    rw [List.mem_singleton.mp isRequired]
    exact id

end Cardinalities

/-! ## Constraint changes -/

section Changes

variable {reading : ScalarReading} {oldDomain newDomain : ValueTypeTag} {fact : AnnotationFact}

theorem value_of_rangePayload {range : Option CanonicalValue × Option CanonicalValue}
    (run : rangePayload fact = .ok range) : fact.value = .range range.1 range.2 := by
  unfold rangePayload at run
  cases payload : fact.value <;> simp [payload] at run
  subst run
  rfl

theorem value_of_valuesPayload {members : Finset CanonicalValue}
    (run : valuesPayload fact = .ok members) : fact.value = .values members := by
  unfold valuesPayload at run
  cases payload : fact.value <;> simp [payload] at run
  subst run
  rfl

theorem ofPayload_of_rangePayload {fact : Option AnnotationFact}
    {range : Option (Option CanonicalValue × Option CanonicalValue)}
    (run : fact.mapM rangePayload = .ok range) :
    EffectiveConstraint.ofPayload (fact.map (·.value)) = .ofRange range := by
  cases fact with
  | none =>
    have absent := pure_eq_ok.mp run
    subst absent
    rfl
  | some fact =>
    obtain ⟨payload, payloadRun, run⟩ := bind_eq_ok.mp run
    have present := pure_eq_ok.mp run
    subst present
    rw [Option.map_some, value_of_rangePayload payloadRun]
    rfl

theorem ofPayload_of_valuesPayload {fact : Option AnnotationFact}
    {members : Option (Finset CanonicalValue)} (run : fact.mapM valuesPayload = .ok members) :
    EffectiveConstraint.ofPayload (fact.map (·.value)) = .ofValues members := by
  cases fact with
  | none =>
    have absent := pure_eq_ok.mp run
    subst absent
    rfl
  | some fact =>
    obtain ⟨payload, payloadRun, run⟩ := bind_eq_ok.mp run
    have present := pure_eq_ok.mp run
    subst present
    rw [Option.map_some, value_of_valuesPayload payloadRun]
    rfl

/-- The conditions are enough, and exclude nothing that is admitted.

What the former constraint admits and no condition excludes is admitted by the
later one, unless a condition has no resolution; and what the later constraint
admits is excluded by no condition. -/
structure ExactConditions (reading : ScalarReading) (kind : AnnotationKindId)
    (domain : ValueTypeTag) (old new : EffectiveConstraint) (conditions : List SafetyCondition) :
    Prop where
  sufficient : (∀ condition ∈ conditions, condition.isResolvable = true) →
      ∀ datum : Datum, datum.Of reading kind domain → old.Admits reading datum →
          (∀ condition ∈ conditions, ¬ condition.Violates reading datum) → new.Admits reading datum
  necessary : ∀ condition ∈ conditions, ∀ datum : Datum,
      datum.Of reading kind domain → new.Admits reading datum → ¬ condition.Violates reading datum

variable {kind : AnnotationKindId} {domain : ValueTypeTag}

theorem exact_unconstrained {old : EffectiveConstraint} :
    ExactConditions reading kind domain old .unconstrained [] where
  sufficient := by
    intro _ datum _ _ _
    exact trivial
  necessary := by
    intro condition isRequired
    simp at isRequired

variable {old : Option AnnotationFact} {new : AnnotationFact} {conditions : List SafetyCondition}

theorem exact_deriveRangeConditions (aboutValues : kind ≠ .card)
    (oldForm : (EffectiveConstraint.ofPayload (old.map (·.value))).OfDomain reading oldDomain)
    (newForm : (EffectiveConstraint.ofPayload (some new.value)).OfDomain reading newDomain)
    (run : deriveRangeConditions reading.compareSameDomain old new = .ok conditions) :
    ExactConditions reading kind newDomain
      (.ofPayload (old.map (·.value))) (.ofPayload (some new.value)) conditions := by
  obtain ⟨range, rangeRun, run⟩ := bind_eq_ok.mp run
  obtain ⟨oldRange, oldRun, run⟩ := bind_eq_ok.mp run
  obtain ⟨narrows, narrowsRun, run⟩ := bind_eq_ok.mp run
  obtain ⟨subject, -, run⟩ := bind_eq_ok.mp run
  have shape := pure_eq_ok.mp run
  rw [ofPayload_of_rangePayload oldRun] at oldForm ⊢
  rw [value_of_rangePayload rangeRun] at newForm ⊢
  subst shape
  constructor
  · intro _ datum isOf admitted meets
    cases datum with
    | count number => exact absurd isOf aboutValues
    | value scalar =>
      refine range_admits_of_narrowing oldForm newForm narrowsRun isOf.2 admitted ?_ ?_
      · intro narrowed bound isBound
        refine meets (.rangeLower subject bound) (List.mem_append_left _ ?_)
        simp [narrowed, isBound]
      · intro narrowed bound isBound
        refine meets (.rangeUpper subject bound) (List.mem_append_right _ ?_)
        simp [narrowed, isBound]
  · intro condition isRequired datum isOf admitted
    cases datum with
    | count number => exact absurd isOf aboutValues
    | value scalar =>
      obtain ⟨lowerAdmits, upperAdmits⟩ := admitted
      rcases List.mem_append.mp isRequired with lower | upper
      · obtain ⟨bound, isBound, rfl⟩ := List.mem_map.mp lower
        have isLower : range.1 = some bound := by
          split at isBound
          · simpa using isBound
          · simp at isBound
        obtain ⟨ordering, compares, notBelow⟩ := lowerAdmits bound isLower
        intro below
        exact notBelow (Option.some.inj (compares.symm.trans below))
      · obtain ⟨bound, isBound, rfl⟩ := List.mem_map.mp upper
        have isUpper : range.2 = some bound := by
          split at isBound
          · simpa using isBound
          · simp at isBound
        obtain ⟨ordering, compares, notAbove⟩ := upperAdmits bound isUpper
        intro above
        exact notAbove (Option.some.inj (compares.symm.trans above))

theorem exact_deriveValuesConditions (aboutValues : kind ≠ .card)
    (run : deriveValuesConditions old new = .ok conditions) : ExactConditions reading kind newDomain
      (.ofPayload (old.map (·.value))) (.ofPayload (some new.value)) conditions := by
  obtain ⟨members, membersRun, run⟩ := bind_eq_ok.mp run
  obtain ⟨oldMembers, oldRun, run⟩ := bind_eq_ok.mp run
  obtain ⟨narrows, narrowsRun, run⟩ := bind_eq_ok.mp run
  rw [ofPayload_of_valuesPayload oldRun, value_of_valuesPayload membersRun]
  cases narrows with
  | false =>
    have shape := pure_eq_ok.mp run
    subst shape
    constructor
    · intro _ datum isOf admitted _
      cases datum with
      | count number => exact absurd isOf aboutValues
      | value scalar => exact values_admits_of_valuesNarrow narrowsRun admitted
    · intro condition isRequired
      simp at isRequired
  | true =>
    obtain ⟨subject, -, run⟩ := bind_eq_ok.mp run
    have shape := pure_eq_ok.mp run
    subst shape
    constructor
    · intro _ datum isOf admitted meets
      cases datum with
      | count number => exact absurd isOf aboutValues
      | value scalar =>
        have someEqual := meets _ (List.mem_singleton_self _)
        simp only [SafetyCondition.Violates, ne_eq, not_forall, not_not] at someEqual
        obtain ⟨member, isMember, same⟩ := someEqual
        exact ⟨member, isMember, same⟩
    · intro condition isRequired datum isOf admitted
      rw [List.mem_singleton.mp isRequired]
      cases datum with
      | count number => exact id
      | value scalar =>
        obtain ⟨member, isMember, same⟩ := admitted
        intro noneEqual
        exact noneEqual member isMember same

variable {source target : Inventory} {semantic : SemanticProfile} {id : AnnotationFactId}
  {old new : EffectiveConstraint} {conditions : List SafetyCondition}

theorem exact_deriveAnnotationTransition (constrains : id.kind ∈ [.card, .range, .values])
    (oldRun : effectiveConstraint source semantic id = some old)
    (newRun : effectiveConstraint target semantic id = some new)
    (oldForm : old.OfDomain reading oldDomain) (newForm : new.OfDomain reading newDomain)
    (run : deriveAnnotationTransition reading.compareSameDomain source target
      semantic (declaredFact source id) (declaredFact target id) id = .ok conditions) :
    ExactConditions reading id.kind newDomain old new conditions := by
  obtain ⟨subject, kind⟩ := id
  simp only [List.mem_cons, List.not_mem_nil, or_false] at constrains
  rcases constrains with rfl | rfl | rfl
  · simp only [effectiveConstraint, ↓reduceIte] at oldRun newRun
    obtain ⟨oldInterval, oldEffective, rfl⟩ := Option.map_eq_some_iff.mp oldRun
    obtain ⟨newInterval, newEffective, rfl⟩ := Option.map_eq_some_iff.mp newRun
    have oldDeclared := declaredCardinality_of_effectiveInterval oldEffective
    have newDeclared := declaredCardinality_of_effectiveInterval newEffective
    have cardinalityRun : deriveCardinalityConditions source target semantic subject =
          .ok conditions := by simpa [deriveAnnotationTransition] using run
    constructor
    · intro resolvable datum isOf admitted meets
      cases datum with
      | count number =>
        exact admitsCount_of_conditions oldDeclared newDeclared
          cardinalityRun resolvable admitted meets
      | value scalar => exact absurd rfl isOf.1
    · intro condition isRequired datum isOf admitted
      cases datum with
      | count number =>
        exact not_violates_of_admitsCount oldDeclared newDeclared
          cardinalityRun isRequired admitted
      | value scalar => exact absurd rfl isOf.1
  · obtain rfl := Option.some.inj oldRun
    obtain rfl := Option.some.inj newRun
    cases later : declaredFact target ⟨subject, .range⟩ with
    | none =>
      obtain rfl : [] = conditions := by simpa [deriveAnnotationTransition, later] using run
      exact exact_unconstrained
    | some fact =>
      rw [later] at newForm run
      exact exact_deriveRangeConditions (by simp) oldForm newForm run
  · obtain rfl := Option.some.inj oldRun
    obtain rfl := Option.some.inj newRun
    cases later : declaredFact target ⟨subject, .values⟩ with
    | none =>
      obtain rfl : [] = conditions := by simpa [deriveAnnotationTransition, later] using run
      exact exact_unconstrained
    | some fact =>
      rw [later] at run
      exact exact_deriveValuesConditions (by simp) run

/-! ## Proven condition-free changes -/

variable {index : SafetyConditionDomainIndex} {replacement : Replacement}
  {oldFact newFact : AnnotationFact}

def EffectiveConstraint.AdmitsAll (reading : ScalarReading) (kind : AnnotationKindId)
    (domain : ValueTypeTag) (old new : EffectiveConstraint) : Prop :=
  ∀ datum : Datum, datum.Of reading kind domain →
    old.Admits reading datum → new.Admits reading datum

theorem EffectiveConstraint.admitsAll_iff {old new : EffectiveConstraint}
    (aboutValues : kind ≠ .card) :
    EffectiveConstraint.AdmitsAll reading kind domain old new ↔ ∀ scalar ∈ reading.domain domain,
        old.Admits reading (.value scalar) → new.Admits reading (.value scalar) := by
  constructor
  · intro admits scalar scalarIn
    exact admits (.value scalar) ⟨aboutValues, scalarIn⟩
  · intro admits datum isOf
    cases datum with
    | count number => exact absurd isOf aboutValues
    | value scalar => exact admits scalar isOf.2

theorem isProven_range_iff (expected : replacement.expected = .annotated oldFact)
    (replaced : replacement.replacement = .annotated newFact) (isRange : newFact.id.kind = .range)
    (oldForm : (EffectiveConstraint.ofPayload (some oldFact.value)).OfDomain reading oldDomain)
    (newForm : (EffectiveConstraint.ofPayload (some newFact.value)).OfDomain reading newDomain)
    (run : deriveRangeConditions reading.compareSameDomain (some oldFact)
      newFact = .ok conditions) :
    isProvenConditionFreeConstraintTransition reading.compareSameDomain index
        (.redefine replacement) = .ok true ↔ EffectiveConstraint.AdmitsAll reading .range newDomain
          (.ofPayload (some oldFact.value)) (.ofPayload (some newFact.value)) ∧
        ¬ (EffectiveConstraint.ofPayload (some oldFact.value)).AddsBound
          (.ofPayload (some newFact.value)) := by
  obtain ⟨range, rangeRun, run⟩ := bind_eq_ok.mp run
  obtain ⟨oldRange, oldRun, run⟩ := bind_eq_ok.mp run
  obtain ⟨narrows, narrowsRun, -⟩ := bind_eq_ok.mp run
  obtain ⟨former, formerRun, oldRun⟩ := bind_eq_ok.mp oldRun
  obtain rfl : some former = oldRange := pure_eq_ok.mp oldRun
  have proven : isProvenConditionFreeConstraintTransition reading.compareSameDomain index
      (.redefine replacement) = .ok (!narrows.1 && !narrows.2) := by
    simp only [isProvenConditionFreeConstraintTransition, expected, replaced, isRange]
    exact bind_eq_ok.mpr
      ⟨_, formerRun, bind_eq_ok.mpr ⟨_, rangeRun, bind_eq_ok.mpr ⟨_, narrowsRun, rfl⟩⟩⟩
  rw [proven, EffectiveConstraint.admitsAll_iff (by simp)]
  rw [value_of_rangePayload formerRun] at oldForm ⊢
  rw [value_of_rangePayload rangeRun] at newForm ⊢
  refine Iff.trans ?_ (rangeNarrowing_eq_false_iff oldForm newForm narrowsRun)
  obtain ⟨lower, upper⟩ := narrows
  simp

theorem isProven_values_iff (expected : replacement.expected = .annotated oldFact)
    (replaced : replacement.replacement = .annotated newFact) (isValues : newFact.id.kind = .values)
    (ordered : newDomain ≠ .duration)
    (oldForm : (EffectiveConstraint.ofPayload (some oldFact.value)).OfDomain reading oldDomain)
    (newForm : (EffectiveConstraint.ofPayload (some newFact.value)).OfDomain reading newDomain)
    (run : deriveValuesConditions (some oldFact) newFact = .ok conditions) :
    isProvenConditionFreeConstraintTransition reading.compareSameDomain index
        (.redefine replacement) = .ok true ↔ EffectiveConstraint.AdmitsAll reading .values newDomain
          (.ofPayload (some oldFact.value)) (.ofPayload (some newFact.value)) ∧
        (hasEqualScalars newDomain = true →
          (EffectiveConstraint.ofPayload (some oldFact.value)).KeepsMembers
            (.ofPayload (some newFact.value))) := by
  obtain ⟨members, membersRun, run⟩ := bind_eq_ok.mp run
  obtain ⟨oldMembers, oldRun, run⟩ := bind_eq_ok.mp run
  obtain ⟨narrows, narrowsRun, -⟩ := bind_eq_ok.mp run
  obtain ⟨former, formerRun, oldRun⟩ := bind_eq_ok.mp oldRun
  obtain rfl : some former = oldMembers := pure_eq_ok.mp oldRun
  have proven : isProvenConditionFreeConstraintTransition reading.compareSameDomain index
      (.redefine replacement) = .ok (!narrows) := by
    simp only [isProvenConditionFreeConstraintTransition, expected, replaced, isValues]
    exact bind_eq_ok.mpr
      ⟨_, formerRun, bind_eq_ok.mpr ⟨_, membersRun, bind_eq_ok.mpr ⟨_, narrowsRun, rfl⟩⟩⟩
  rw [proven, EffectiveConstraint.admitsAll_iff (by simp)]
  rw [value_of_valuesPayload formerRun] at oldForm ⊢
  rw [value_of_valuesPayload membersRun] at newForm ⊢
  refine Iff.trans ?_ (valuesNarrow_eq_false_iff ordered oldForm newForm narrowsRun)
  simp

theorem declaredFact_of_stored {facts : Inventory}
    (stored : facts[SchemaFactId.annotated id]? = some (.annotated fact)) :
    declaredFact facts id = some fact := by
  unfold declaredFact
  rw [stored]

theorem declaredFact_of_absent {facts : Inventory}
    (absent : facts[SchemaFactId.annotated id]? = none) : declaredFact facts id = none := by
  unfold declaredFact
  rw [absent]

theorem isProven_redefine_iff (constrains : id.kind ∈ [.card, .range, .values])
    (oldRun : effectiveConstraint source semantic id = some old)
    (newRun : effectiveConstraint target semantic id = some new) (ordered : newDomain ≠ .duration)
    (oldForm : old.OfDomain reading oldDomain) (newForm : new.OfDomain reading newDomain)
    (oldDeclared : declaredFact source id = some oldFact)
    (newDeclared : declaredFact target id = some newFact) (sameId : newFact.id = id)
    (expected : replacement.expected = .annotated oldFact)
    (replaced : replacement.replacement = .annotated newFact)
    (run : deriveAnnotationTransition reading.compareSameDomain source target semantic
      (some oldFact) (some newFact) id = .ok conditions) :
    isProvenConditionFreeConstraintTransition reading.compareSameDomain index
        (.redefine replacement) = .ok true ↔
      id.kind ≠ .card ∧ EffectiveConstraint.AdmitsAll reading id.kind newDomain old new ∧
        ¬ old.AddsBound new ∧ (hasEqualScalars newDomain = true → old.KeepsMembers new) := by
  by_cases isCard : id.kind = .card
  · have newKind := isCard
    rw [← sameId] at newKind
    simp [isProvenConditionFreeConstraintTransition, expected, replaced, newKind, isCard]
  · simp only [effectiveConstraint, isCard, ↓reduceIte, oldDeclared, newDeclared, Option.map_some,
      Option.some.injEq] at oldRun newRun
    subst oldRun newRun
    simp only [List.mem_cons, List.not_mem_nil, or_false, isCard, false_or] at constrains
    rcases constrains with isRange | isValues
    · have rangeRun : deriveRangeConditions reading.compareSameDomain (some oldFact)
            newFact = .ok conditions := by simpa [deriveAnnotationTransition, isRange] using run
      obtain ⟨range, payload, -⟩ := bind_eq_ok.mp rangeRun
      have keeps : (EffectiveConstraint.ofPayload (some oldFact.value)).KeepsMembers
            (.ofPayload (some newFact.value)) := by
        rw [value_of_rangePayload payload]
        cases oldFact.value <;> exact trivial
      rw [isProven_range_iff expected replaced (sameId ▸ isRange) oldForm newForm rangeRun, isRange]
      simp [keeps]
    · have valuesRun : deriveValuesConditions (some oldFact) newFact = .ok conditions := by
        simpa [deriveAnnotationTransition, isValues] using run
      obtain ⟨members, payload, -⟩ := bind_eq_ok.mp valuesRun
      have addsNone : ¬ (EffectiveConstraint.ofPayload (some oldFact.value)).AddsBound
            (.ofPayload (some newFact.value)) := by
        rw [value_of_valuesPayload payload]
        cases oldFact.value <;> exact not_false
      rw [isProven_values_iff expected replaced (sameId ▸ isValues) ordered
        oldForm newForm valuesRun, isValues]
      simp [addsNone]

/-! ## Anchors without instances -/

/-- The type whose instances an annotation is about. -/
def anchorType : AnnotationSubjectId → Option TypeId
  | .type id => some id
  | .sub id => some id.subtype
  | .value id => some (attributeTypeId id.attributeId)
  | .owns id => some id.owner
  | .relates id => some id.relation
  | .plays id => some id.player
  | .function _ => none

/-- The source can hold no instance of the anchor: no source type is the anchor or below it. -/
def HasNoInstances (source target : Inventory) (subject : AnnotationSubjectId) : Prop :=
  ∃ anchor, anchorType subject = some anchor ∧
    ∀ declared ∈ directTypes source,
      ¬ Relation.ReflTransGen (fun subtype supertype => supertype ∈ supertypesOf target subtype)
        declared anchor

/-- Where each element has at most one label, counting by labels counts no element twice. -/
theorem sum_countP_le {α τ : Type} {labelled : τ → α → Bool} {counted : α → Bool}
    (unique : ∀ element first second, labelled first element → labelled second element →
      first = second)
    (isCounted : ∀ element label, labelled label element → counted element)
    (labels : Finset τ) (elements : List α) :
    ∑ label ∈ labels, elements.countP (labelled label) ≤ elements.countP counted := by
  induction elements with
  | nil => simp
  | cons element rest ih =>
    have once : ∑ label ∈ labels, (if labelled label element then 1 else 0) ≤
        if counted element then 1 else 0 := by
      rw [Finset.sum_boole]
      split
      · exact_mod_cast Finset.card_le_one.mpr fun first isFirst second isSecond =>
          unique element first second (Finset.mem_filter.mp isFirst).2
            (Finset.mem_filter.mp isSecond).2
      · rename_i notCounted
        rw [Finset.filter_false_of_mem fun label _ isLabelled =>
          notCounted (isCounted element label isLabelled)]
        simp
    simp only [List.countP_cons, Finset.sum_add_distrib]
    omega

theorem sum_supertypesOf_le (facts : Inventory) (types : Finset TypeId) :
    ∑ subtype ∈ types, (supertypesOf facts subtype).length ≤
      (facts.values.filter fun
        | .sub _ => true
        | _ => false).length := by
  simp only [supertypesOf, directParents, List.length_map, List.length_filterMap_eq_countP,
    ← List.countP_eq_length_filter]
  refine sum_countP_le ?_ ?_ types facts.values
  · intro fact first second isFirst isSecond
    cases fact <;> simp_all
  · intro fact subtype isEdge
    cases fact <;> simp_all

/-- The index holds the source types and their supertypes in the target. -/
theorem mayHaveSourceInstances_iff {anchor : TypeId} :
    (SafetyConditionDomainIndex.new source target).mayHaveSourceInstances anchor = true ↔
      ∃ declared ∈ directTypes source,
        Relation.ReflTransGen (fun subtype supertype => supertype ∈ supertypesOf target subtype)
          declared anchor := by
  let supertypes : List TypeId := target.values.filterMap fun
    | .sub id => some id.supertype
    | _ => none
  let types : Finset TypeId := (directTypes source ++ supertypes).toFinset
  have inside : ∀ subtype ∈ types, ∀ supertype ∈ supertypesOf target subtype,
      supertype ∈ types := by
    intro subtype _ supertype isSuper
    obtain ⟨edge, isEdge, rfl⟩ := List.mem_map.mp isSuper
    obtain ⟨fact, stored, selected⟩ := List.mem_filterMap.mp isEdge
    have listed : edge.supertype ∈ supertypes := by
      refine List.mem_filterMap.mpr ⟨fact, stored, ?_⟩
      cases fact <;> simp_all
    simp [types, listed]
  obtain ⟨result, run, spec⟩ := Worklist.closure_spec
    (fun subtype (_ : subtype ∈ types) => (rfl :
      (fun subtype => (.ok (supertypesOf target subtype) : Except Diagnostic (List TypeId)))
        subtype = .ok (supertypesOf target subtype)))
    inside _ (directTypes source) ∅ (by intro declared isDeclared; simp [types, isDeclared])
    (Nat.lt_succ_of_le (by
      simp only [Worklist.rounds, Finset.sdiff_empty]
      exact Nat.add_le_add_left (sum_supertypesOf_le target types) _))
  have domains :
      (SafetyConditionDomainIndex.new source target).possibleSourceInstanceDomains = result :=
    congrArg (fun reached : Except Diagnostic (Finset TypeId) => reached.toOption.getD ∅) run
  unfold SafetyConditionDomainIndex.mayHaveSourceInstances
  rw [domains, decide_eq_true_eq]
  constructor
  · exact fun reached => spec.reachable anchor reached (Finset.notMem_empty _)
  · rintro ⟨declared, isDeclared, path⟩
    induction path with
    | refl => exact spec.pendingTaken _ isDeclared
    | tail _ isSuper ih => exact spec.closed _ ih (Finset.notMem_empty _) _ isSuper

theorem annotationSubjectIsUninhabited_iff {subject : AnnotationSubjectId}
    (notAbstract : kind ≠ .abstract) :
    annotationSubjectIsUninhabited (.new source target) subject kind = true ↔
      HasNoInstances source target subject := by
  have ofAnchor : ∀ anchor, (!(SafetyConditionDomainIndex.new source target).mayHaveSourceInstances
      anchor) = true ↔ ∀ declared ∈ directTypes source,
        ¬ Relation.ReflTransGen (fun subtype supertype => supertype ∈ supertypesOf target subtype)
          declared anchor := by
    intro anchor
    rw [Bool.not_eq_true', ← Bool.not_eq_true, mayHaveSourceInstances_iff]
    simp
  unfold HasNoInstances
  cases subject <;> cases kind <;>
    simp_all [annotationSubjectIsUninhabited, anchorType]

/-! ## Exact conditions -/

/-- The operation adds, changes or removes an annotation. -/
inductive ChangesAnnotation (source target : Inventory) (id : AnnotationFactId) :
    SchemaOperation → Prop where
  | define
      {group : DefinedFacts} {new : AnnotationFact}
      (absent : source[SchemaFactId.annotated id]? = none)
      (stored : target[SchemaFactId.annotated id]? = some (.annotated new))
      (sameId : new.id = id)
      (defines : group.facts = [.annotated new]) :
      ChangesAnnotation source target id (.define group)
  | redefine
      {replacement : Replacement} {old new : AnnotationFact}
      (oldStored : source[SchemaFactId.annotated id]? = some (.annotated old))
      (newStored : target[SchemaFactId.annotated id]? = some (.annotated new))
      (sameId : new.id = id)
      (expected : replacement.expected = .annotated old)
      (replaced : replacement.replacement = .annotated new) :
      ChangesAnnotation source target id (.redefine replacement)
  | undefine
      {old : AnnotationFact}
      (stored : source[SchemaFactId.annotated id]? = some (.annotated old))
      (absent : target[SchemaFactId.annotated id]? = none)
      (sameId : old.id = id) :
      ChangesAnnotation source target id (.undefine (.annotated old))

/-- A defined annotation of a type without instances. -/
def IsExempt (source target : Inventory) (id : AnnotationFactId) : SchemaOperation → Prop
  | .define _ => HasNoInstances source target id.subject
  | _ => False

/-- When the change of a constraint is proven condition-free. -/
def IsProvenFree (reading : ScalarReading) (source target : Inventory) (id : AnnotationFactId)
    (domain : ValueTypeTag) (old new : EffectiveConstraint) : SchemaOperation → Prop
  | .define _ => HasNoInstances source target id.subject
  | .redefine _ =>
      id.kind ≠ .card ∧ EffectiveConstraint.AdmitsAll reading id.kind domain old new ∧
        ¬ old.AddsBound new ∧ (hasEqualScalars domain = true → old.KeepsMembers new)
  | .undefine _ => False

variable {operation : SchemaOperation}

theorem deriveOperationConditions_define {group : DefinedFacts}
    (defines : group.facts = [.annotated fact])
    (run : deriveOperationConditions reading.compareSameDomain source target semantic index
      (.define group) = .ok conditions) :
    deriveDefinedFact reading.compareSameDomain source target semantic index (.annotated fact) =
      .ok conditions := by
  obtain ⟨lists, listsRun, rfl⟩ := map_eq_ok.mp run
  rw [defines, List.mapM_cons, List.mapM_nil] at listsRun
  obtain ⟨first, firstRun, listsRun⟩ := bind_eq_ok.mp listsRun
  obtain ⟨rest, restRun, listsRun⟩ := bind_eq_ok.mp listsRun
  obtain rfl := pure_eq_ok.mp restRun
  obtain rfl := pure_eq_ok.mp listsRun
  simpa using firstRun

theorem isProven_define_iff {group : DefinedFacts} (defines : group.facts = [.annotated fact])
    (notAbstract : fact.id.kind ≠ .abstract) :
    isProvenConditionFreeConstraintTransition reading.compareSameDomain (.new source target)
        (.define group) = .ok true ↔ HasNoInstances source target fact.id.subject := by
  rw [← annotationSubjectIsUninhabited_iff notAbstract]
  simp only [isProvenConditionFreeConstraintTransition, isProvenConditionFreeDefine, defines,
    List.map_cons, List.map_nil, conditionFreeEvidence]
  split <;> simp_all

/-- Derived conditions are exact for changed constraints.

A defined constraint of a type without instances needs no condition, and none is
derived. Else the conditions suffice unless one of them has no resolution, and
exclude nothing that the new constraint admits. A defined constraint is proven
condition-free exactly in that first case. A redefined range or set of values
is proven condition-free exactly if the new one admits everything, adds no
bound on a side without one, and, where equal scalars have several canonical
values, keeps the old members. A redefined cardinality and a removed constraint
are never proven condition-free. -/
theorem constraint_change_exact
    (constrains : id.kind ∈ [.card, .range, .values])
    (oldRun : effectiveConstraint source semantic id = some old)
    (newRun : effectiveConstraint target semantic id = some new)
    (ordered : newDomain ≠ .duration)
    (oldForm : old.OfDomain reading oldDomain)
    (newForm : new.OfDomain reading newDomain)
    (changes : ChangesAnnotation source target id operation)
    (run : deriveOperationConditions reading.compareSameDomain source target semantic
      (.new source target) operation = .ok conditions) :
    (IsExempt source target id operation → conditions = []) ∧
      (¬ IsExempt source target id operation →
        ExactConditions reading id.kind newDomain old new conditions) ∧
      (isProvenConditionFreeConstraintTransition reading.compareSameDomain (.new source target)
          operation = .ok true ↔
        IsProvenFree reading source target id newDomain old new operation) := by
  have notAbstract : id.kind ≠ .abstract := by
    intro isAbstract
    simp [isAbstract] at constrains
  have exact_of : deriveAnnotationTransition reading.compareSameDomain source target semantic
      (declaredFact source id) (declaredFact target id) id = .ok conditions →
        ExactConditions reading id.kind newDomain old new conditions :=
    exact_deriveAnnotationTransition constrains oldRun newRun oldForm newForm
  cases changes with
  | @define _ fact absent stored sameId defines =>
    have factRun := deriveOperationConditions_define defines run
    subst sameId
    have uninhabited : annotationSubjectIsUninhabited (.new source target) fact.id.subject
        fact.id.kind = true ↔ HasNoInstances source target fact.id.subject :=
      annotationSubjectIsUninhabited_iff notAbstract
    refine ⟨?_, ?_, isProven_define_iff defines notAbstract⟩
    · intro exempt
      simp only [deriveDefinedFact, uninhabited.mpr exempt, ↓reduceIte] at factRun
      exact (Except.ok.inj factRun).symm
    · intro notExempt
      rw [declaredFact_of_absent absent, declaredFact_of_stored stored] at exact_of
      simp only [deriveDefinedFact, mt uninhabited.mp notExempt, Bool.false_eq_true,
        ↓reduceIte] at factRun
      exact exact_of factRun
  | redefine oldStored newStored sameId expected replaced =>
    simp only [deriveOperationConditions, expected, replaced, deriveRedefinition, sameId] at run
    have oldDeclared := declaredFact_of_stored oldStored
    have newDeclared := declaredFact_of_stored newStored
    rw [oldDeclared, newDeclared] at exact_of
    exact ⟨False.elim, fun _ => exact_of run, isProven_redefine_iff constrains oldRun newRun ordered
      oldForm newForm oldDeclared newDeclared sameId expected replaced run⟩
  | undefine stored absent sameId =>
    simp only [deriveOperationConditions, deriveUndefinedFact, sameId] at run
    rw [declaredFact_of_absent absent, declaredFact_of_stored stored] at exact_of
    refine ⟨False.elim, fun _ => exact_of run, ?_⟩
    simp [isProvenConditionFreeConstraintTransition, IsProvenFree]

end Changes

/-! ## Changes that are not exact -/

/-- The number that decimal digits write. -/
def readDigits (digits : List Char) : Option Nat :=
  digits.foldlM (fun value digit =>
    if digit.isDigit then some (10 * value + (digit.toNat - 48)) else none) 0

/-- The integer that a text writes in its shortest form. -/
def readInteger (text : String) : Option Int :=
  let number : Option Int :=
    match text.toList with
    | '-' :: digits => (readDigits digits).map fun value => -(value : Int)
    | digits => (readDigits digits).map fun value => (value : Int)
  number.filter fun value => toString value = text

def newYear (hour : Nat) (offset : Int) (inDay : hour ≤ 23)
    (selected : (TimeZoneDesignator.offsetSeconds (3600 * offset)).selects (3600 * offset)) :
    CanonicalDateTimeTz where
  localTime := ⟨⟨2024, 1, 1, by decide, by decide⟩, ⟨hour, 0, 0, 0, by omega⟩⟩
  zone := .offsetSeconds (3600 * offset)
  effectiveOffsetSeconds := 3600 * offset
  selected := selected

/-- Noon at an offset of one hour. -/
def noonAtOne : CanonicalValue := ⟨.dateTimeTz, "2024-01-01T12:00:00+01:00"⟩

/-- The same instant at an offset of two hours. -/
def oneAtTwo : CanonicalValue := ⟨.dateTimeTz, "2024-01-01T13:00:00+02:00"⟩

/-- The scalars of the integers and of the two zoned datetimes. -/
def readSome (value : CanonicalValue) : Option Scalar :=
  if value = noonAtOne then some (.dateTimeTz (newYear 12 1 (by decide) (by decide)))
  else if value = oneAtTwo then some (.dateTimeTz (newYear 13 2 (by decide) (by decide)))
  else if value.valueType = .long then
    (readInteger value.text).bind fun number =>
      if fits : -2 ^ 63 ≤ number ∧ number < 2 ^ 63 then some (.long ⟨number, fits⟩)
      else none
  else none

theorem readSome_cases {value : CanonicalValue} {scalar : Scalar}
    (reads : readSome value = some scalar) :
    (value = noonAtOne ∧ scalar = .dateTimeTz (newYear 12 1 (by decide) (by decide))) ∨
      (value = oneAtTwo ∧ scalar = .dateTimeTz (newYear 13 2 (by decide) (by decide))) ∨
      ∃ number : LongValue, scalar = .long number ∧ value = ⟨.long, toString number.val⟩ := by
  unfold readSome at reads
  split at reads
  · rename_i isNoon
    exact .inl ⟨isNoon, (Option.some.inj reads).symm⟩
  split at reads
  · rename_i isOne
    exact .inr (.inl ⟨isOne, (Option.some.inj reads).symm⟩)
  split at reads
  · rename_i isLong
    obtain ⟨number, readsNumber, reads⟩ := Option.bind_eq_some_iff.mp reads
    split at reads
    · rename_i fits
      refine .inr (.inr ⟨⟨number, fits⟩, (Option.some.inj reads).symm, ?_⟩)
      have isText : toString number = value.text := by
        unfold readInteger at readsNumber
        simpa using (Option.filter_eq_some_iff.mp readsNumber).2
      cases value
      simp_all
    · simp at reads
  · simp at reads

/-- A reading of integers and of two spellings of one instant. -/
def someReading : ScalarReading where
  read := readSome
  valueType_of_read := by
    intro value scalar reads
    rcases readSome_cases reads with ⟨rfl, rfl⟩ | ⟨rfl, rfl⟩ | ⟨number, rfl, rfl⟩ <;> rfl
  eq_of_read := by
    intro value other scalar reads readsOther
    rcases readSome_cases reads with ⟨rfl, rfl⟩ | ⟨rfl, rfl⟩ | ⟨number, rfl, rfl⟩
      <;> rcases readSome_cases readsOther with
        ⟨rfl, same⟩ | ⟨rfl, same⟩ | ⟨another, same, rfl⟩
      <;> simp_all [newYear]

/-- The defaults of a supported profile. -/
def someProfile : SemanticProfile :=
  Checked.get (SemanticProfile.resolve ⟨"typedb-3.12.1/v1"⟩) (by decide)

/-- A cardinality of the ownership of `a` by `p`. -/
def ownsCard (interval : Cardinality) : AnnotationFact where
  id := ⟨.owns (.ofLabels "p" "a"), .card⟩
  value := .cardinality interval
  payloadMatches := rfl
  subjectMatches := rfl

/-- A cardinality of the role `s` of `r`. -/
def relatesCard (interval : Cardinality) : AnnotationFact where
  id := ⟨.relates (.ofLabels "r" "s"), .card⟩
  value := .cardinality interval
  payloadMatches := rfl
  subjectMatches := rfl

/-- A range of the values of `n`. -/
def valueRange (lower upper : Option CanonicalValue) : AnnotationFact where
  id := ⟨.value ⟨⟨⟨"n"⟩⟩⟩, .range⟩
  value := .range lower upper
  payloadMatches := rfl
  subjectMatches := rfl

/-- The allowed values of `n`. -/
def valueValues (members : Finset CanonicalValue) : AnnotationFact where
  id := ⟨.value ⟨⟨⟨"n"⟩⟩⟩, .values⟩
  value := .values members
  payloadMatches := rfl
  subjectMatches := rfl

/-- The attribute `n` on which ranges and values are declared. -/
def typeN : SchemaFact := .type ⟨⟨.attribute, ⟨"n"⟩⟩, by decide, by decide⟩

/-- A schema with an annotation, if there is one. -/
def annotatedWith (facts : Inventory) : Option AnnotationFact → Inventory
  | some fact => facts.insert (.annotated fact.id) (.annotated fact)
  | none => facts

/-- The operation that leads from one annotation to another. -/
def annotationChange : Option AnnotationFact → Option AnnotationFact → Option SchemaOperation
  | none, some new => some (.define (.single (.annotated new)))
  | some old, some new =>
      if differ : SchemaFact.annotated old ≠ .annotated new ∧ old.id = new.id then
        some (.redefine
          ⟨.annotated old, .annotated new, congrArg SchemaFactId.annotated differ.2, differ.1⟩)
      else none
  | some old, none => some (.undefine (.annotated old))
  | none, none => none

/-- The conditions of a changed annotation of a schema, and whether it is proven condition-free. -/
def changed (facts : Inventory) (old new : Option AnnotationFact) :
    Option (Except Diagnostic (List SafetyCondition) × Except Diagnostic Bool) :=
  let source := annotatedWith facts old
  let target := annotatedWith facts new
  (annotationChange old new).map fun operation =>
    (deriveOperationConditions someReading.compareSameDomain source target someProfile
        (.new source target) operation,
      isProvenConditionFreeConstraintTransition someReading.compareSameDomain
        (.new source target) operation)

def leastLong : CanonicalValue := ⟨.long, "-9223372036854775808"⟩

/-- An integer. -/
def longValue (text : String) : CanonicalValue := ⟨.long, text⟩

theorem compare_leastLong {scalar : CanonicalValue} (isLong : scalar ∈ someReading.domain .long) :
    someReading.compareSameDomain scalar leastLong ≠ some .lt := by
  obtain ⟨value, reads, isOfType⟩ := ScalarReading.exists_scalar_of_mem_domain isLong
  obtain ⟨number, rfl⟩ : ∃ number, value = .long number := by
    cases value <;> simp_all [Scalar.valueType]
  have readsLeast : (someReading.read leastLong).any fun least =>
        least.semanticCmpSameDomain (.long ⟨-9223372036854775808, by decide⟩) = some .eq := by
    decide +kernel
  obtain ⟨least, leastReads, isLeast⟩ := (Option.any_eq_true _ _).mp readsLeast
  have places := of_decide_eq_true isLeast
  obtain rfl := Scalar.eq_of_semanticCmpSameDomain
    (by cases least <;> simp_all [Scalar.semanticCmpSameDomain, Scalar.valueType])
    (by cases least <;> simp_all [Scalar.semanticCmpSameDomain, Scalar.valueType]) places
  unfold ScalarReading.compareSameDomain
  rw [reads, leastReads]
  intro below
  have less : number.val < -9223372036854775808 := (cmp_eq_lt_iff _ _).mp (Option.some.inj below)
  exact absurd number.2.1 (not_le.mpr (by simpa using less))

theorem withinBound_leastLong {scalar : CanonicalValue}
    (isLong : scalar ∈ someReading.domain .long) :
    WithinBound someReading.compareSameDomain .gt (some leastLong) scalar := by
  rintro bound isBound
  obtain rfl := Option.some.inj isBound
  have leastIn : leastLong ∈ someReading.domain .long := ⟨rfl, by decide +kernel⟩
  exact ((someReading.rankedOn (by decide)).within_iff leastIn isLong).mpr
    (compare_leastLong isLong)

theorem not_withinBound_five :
    ¬ WithinBound someReading.compareSameDomain .gt (some (longValue "5")) (longValue "1") := by
  intro within
  have oneIn : longValue "1" ∈ someReading.domain .long := ⟨rfl, by decide +kernel⟩
  have fiveIn : longValue "5" ∈ someReading.domain .long := ⟨rfl, by decide +kernel⟩
  exact ((someReading.rankedOn (by decide)).within_iff fiveIn oneIn).mp (within _ rfl)
    (by decide +kernel)

/-- Conditions need not suffice, and a wider constraint need not be proven.

A role with at most one player: two players meet the only condition, which has
no resolution. A wider cardinality, a bound at the least integer and another
spelling of the same instant exclude nothing, and are not proven when they are
redefined. Neither is the bound at the least integer when it is defined on a
declared attribute, nor the removal of a range; while any range is proven when
it is defined on an attribute that the source does not have. -/
theorem changes_not_exact :
    (changed ∅ (some (relatesCard ⟨0, none⟩)) (some (relatesCard ⟨0, some 1⟩)) =
        some (.ok [.unresolvable .relatesCardinalityRequiresDistinctPlayers .bindingDistinct],
          .ok false) ∧
      ¬ AdmitsCount ⟨0, some 1⟩ 2 ∧ AdmitsCount ⟨0, none⟩ 2) ∧
    (changed ∅ (some (ownsCard ⟨0, some 1⟩)) (some (ownsCard ⟨0, some 2⟩)) =
        some (.ok [], .ok false) ∧
      EffectiveConstraint.AdmitsAll someReading .card .long
        (.cardinality ⟨0, some 1⟩) (.cardinality ⟨0, some 2⟩)) ∧
    (changed ∅ (some (valueRange none (some (longValue "9"))))
          (some (valueRange (some leastLong) (some (longValue "9")))) =
        some (.ok [.rangeLower (.value ⟨⟨⟨"n"⟩⟩⟩) leastLong], .ok false) ∧
      EffectiveConstraint.AdmitsAll someReading .range .long (.range none (some (longValue "9")))
        (.range (some leastLong) (some (longValue "9")))) ∧
    (changed ∅ (some (valueValues {noonAtOne})) (some (valueValues {oneAtTwo})) =
        some (.ok [.valuesNarrowed (.value ⟨⟨⟨"n"⟩⟩⟩) {oneAtTwo}], .ok false) ∧
      EffectiveConstraint.AdmitsAll someReading .values .dateTimeTz
        (.values {noonAtOne}) (.values {oneAtTwo})) ∧
    (changed ((∅ : Inventory).insert typeN.id typeN) none
          (some (valueRange (some leastLong) none)) =
        some (.ok [.rangeLower (.value ⟨⟨⟨"n"⟩⟩⟩) leastLong], .ok false) ∧
      EffectiveConstraint.AdmitsAll someReading .range .long .unconstrained
        (.range (some leastLong) none)) ∧
    (changed ∅ none (some (valueRange (some (longValue "5")) none)) =
        some (.ok [], .ok true) ∧
      ¬ EffectiveConstraint.AdmitsAll someReading .range .long .unconstrained
        (.range (some (longValue "5")) none)) ∧
    (changed ∅ (some (valueRange (some (longValue "5")) none)) none =
        some (.ok [], .ok false) ∧
      EffectiveConstraint.AdmitsAll someReading .range .long
        (.range (some (longValue "5")) none) .unconstrained) := by
  refine ⟨⟨by decide +kernel, ?_, ?_⟩, ⟨by decide +kernel, ?_⟩, ⟨by decide +kernel, ?_⟩,
    ⟨by decide +kernel, ?_⟩, ⟨by decide +kernel, ?_⟩, ⟨by decide +kernel, ?_⟩,
    ⟨by decide +kernel, ?_⟩⟩
  · rintro ⟨-, atMost⟩
    exact absurd (atMost 1 rfl) (by decide)
  · exact ⟨by decide, by simp⟩
  · rintro (number | scalar) isOf admitted
    · refine ⟨Nat.zero_le number, ?_⟩
      rintro max isMax
      obtain rfl := Option.some.inj isMax
      exact (admitted.2 1 rfl).trans (by decide)
    · exact absurd rfl isOf.1
  · rintro (number | scalar) isOf admitted
    · exact absurd isOf (by simp [Datum.Of])
    · exact ⟨withinBound_leastLong isOf.2, admitted.2⟩
  · rintro (number | scalar) isOf admitted
    · exact absurd isOf (by simp [Datum.Of])
    · refine ⟨oneAtTwo, Finset.mem_singleton_self _, ?_⟩
      obtain ⟨value, reads, isOfType⟩ := ScalarReading.exists_scalar_of_mem_domain isOf.2
      rcases readSome_cases reads with ⟨rfl, -⟩ | ⟨rfl, -⟩ | ⟨number, rfl, -⟩
      · decide +kernel
      · decide +kernel
      · simp [Scalar.valueType] at isOfType
  · rintro (number | scalar) isOf -
    · exact absurd isOf (by simp [Datum.Of])
    · exact ⟨withinBound_leastLong isOf.2, fun _ isBound => absurd isBound (by simp)⟩
  · intro admits
    have oneIn : longValue "1" ∈ someReading.domain .long := ⟨rfl, by decide +kernel⟩
    exact not_withinBound_five (admits (.value (longValue "1")) ⟨by decide, oneIn⟩ trivial).1
  · exact fun _ _ _ => trivial

/-- The integers of `n` from a bound on. -/
def integersFrom (text : String) : AnnotationFact := valueRange (some (longValue text)) none

/-- A lower bound of the integers that is raised from one to two. -/
theorem raised_bound_exact :
    changed ∅ (some (integersFrom "1")) (some (integersFrom "2")) =
        some (.ok [.rangeLower (.value ⟨⟨⟨"n"⟩⟩⟩) (longValue "2")], .ok false) ∧
      ExactConditions someReading .range .long (.range (some (longValue "1")) none)
        (.range (some (longValue "2")) none)
        [.rangeLower (.value ⟨⟨⟨"n"⟩⟩⟩) (longValue "2")] ∧
      ¬ EffectiveConstraint.AdmitsAll someReading .range .long
        (.range (some (longValue "1")) none) (.range (some (longValue "2")) none) := by
  have formed : ∀ text, (someReading.read (longValue text)).isSome →
        (EffectiveConstraint.range (some (longValue text)) none).OfDomain someReading .long := by
    intro text reads
    refine ⟨.inl rfl, by decide, ?_, by simp, by simp⟩
    rintro bound isBound
    obtain rfl := Option.some.inj isBound
    exact ⟨rfl, reads⟩
  have changes : ChangesAnnotation (annotatedWith ∅ (some (integersFrom "1")))
      (annotatedWith ∅ (some (integersFrom "2"))) (integersFrom "2").id
      (.redefine ⟨.annotated (integersFrom "1"), .annotated (integersFrom "2"), rfl, by decide⟩) :=
    .redefine (by decide +kernel) (by decide +kernel) rfl rfl rfl
  obtain ⟨-, exact_of, proven⟩ := constraint_change_exact (by decide)
    (show effectiveConstraint _ someProfile _ = _ from rfl) rfl (by decide)
    (formed "1" (by decide +kernel)) (formed "2" (by decide +kernel)) changes
    (show _ = Except.ok [.rangeLower (.value ⟨⟨⟨"n"⟩⟩⟩) (longValue "2")] by decide +kernel)
  refine ⟨by decide +kernel, exact_of id, ?_⟩
  intro admits
  -- It adds no bound, so it would be proven condition-free.
  have free := proven.mpr ⟨by decide, admits, by simp [EffectiveConstraint.AddsBound],
    fun _ => trivial⟩
  revert free
  decide +kernel

end TypeBridge.Migration
