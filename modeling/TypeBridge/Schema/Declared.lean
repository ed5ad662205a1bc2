import TypeBridge.Library.OrderedMap
import TypeBridge.Schema.Fact

namespace TypeBridge.Schema

open Library

/-!
# Declared schemas

`DeclaredSchema.fromFacts` is the only constructor of a declared schema: it
rejects an unsupported format, duplicate identities, dangling references and
incompatible annotations, and then fingerprints the canonical identity bytes.

Canonical JSON and SHA-256 enter as a `Codec`. Every encoding is a function
of the encoded view alone, in particular never of source spans, and may fail
on its own resource limits.
-/

structure Diagnostic where
  code : String
  deriving DecidableEq, Repr

/-- An open capability identifier. -/
structure CapabilityId where
  text : String
  deriving DecidableEq, Repr

abbrev CapabilitySet := Finset CapabilityId

def ensureSupportedBy (required available : CapabilitySet) : Except Diagnostic Unit :=
  if required ⊆ available then .ok ()
  else .error ⟨"unsupported_required_capability"⟩

structure FormatVersion where
  raw : Nat
  deriving DecidableEq, Repr

def FormatVersion.v1 : FormatVersion := ⟨1⟩

structure SemanticProfileId where
  text : String
  deriving DecidableEq, Repr

structure ManagedScopeId where
  text : String
  deriving DecidableEq, Repr

/-- A one-based source range in a named document. -/
structure SourceSpan where
  document : String
  byteStart : Nat
  byteEnd : Nat
  line : Nat
  column : Nat
  endLine : Nat
  endColumn : Nat
  deriving DecidableEq, Repr, Inhabited

/-- A fact and where it was declared. -/
structure SourcedSchemaFact where
  fact : SchemaFact
  source : SourceSpan

abbrev Inventory := Std.ExtTreeMap SchemaFactId SchemaFact

abbrev Provenance := Std.ExtTreeMap SchemaFactId SourceSpan

def Inventory.values (facts : Inventory) : List SchemaFact := facts.toList.map Prod.snd

/-- Every fact is stored under its own identity. -/
def Inventory.Keyed (facts : Inventory) : Prop :=
  ∀ (id : SchemaFactId) (fact : SchemaFact), facts[id]? = some fact → fact.id = id

/--
The canonical encodings a schema is fingerprinted with.

`descriptorIndex` stands for the content-addressed descriptors of a resolved
schema, of which only the failure is observable here.
-/
structure Codec (Bytes Digest : Type) where
  identityBytes : FormatVersion → CapabilitySet → Inventory → Except Diagnostic Bytes
  semanticBytes : SemanticProfileId → FormatVersion → CapabilitySet → Inventory →
      Except Diagnostic Bytes
  managedIdentityBytes : ManagedScopeId → FormatVersion → CapabilitySet → Inventory →
      Except Diagnostic Bytes
  managedSemanticBytes : ManagedScopeId → SemanticProfileId → FormatVersion → CapabilitySet →
      Inventory → Except Diagnostic Bytes
  descriptorIndex : Inventory → Except Diagnostic Unit
  digest : Bytes → Digest

def referencesDeclared (facts : Inventory) : SchemaFact → Bool
  | .type _ => true
  | .struct _ => true
  | .function fact =>
      fact.schemaReferences.all fun label =>
        facts.keys.any fun
          | .type id => id.label = label
          | .struct id => id.label = label
          | _ => false
  | .sub id =>
      facts.contains (.type id.subtype) && facts.contains (.type id.supertype)
  | .value fact => facts.contains (.type (attributeTypeId fact.id.attributeId))
  | .owns fact =>
      facts.contains (.type fact.id.owner) &&
        facts.contains (.type (attributeTypeId fact.id.attributeId))
  | .relates fact =>
      facts.contains (.type fact.id.relation) &&
        fact.specializes.all fun role => facts.contains (.relates (relatesId role))
  | .plays id =>
      facts.contains (.type id.player) && facts.contains (.relates (relatesId id.role))
  | .annotated fact => facts.contains (subjectFactId fact.id.subject)

def validateReferences (facts : Inventory) : List Diagnostic :=
  facts.values.filterMap fun fact =>
    if referencesDeclared facts fact then none
    else some ⟨"unknown_schema_fact_reference"⟩

def annotationKinds (facts : Inventory) (subject : AnnotationSubjectId) : List AnnotationKindId :=
  facts.keys.filterMap fun
    | .annotated id => if id.subject = subject then some id.kind else none
    | _ => none

def annotatedSubjects (facts : Inventory) : List AnnotationSubjectId :=
  (facts.keys.filterMap fun
    | .annotated id => some id.subject
    | _ => none).dedup

/-- The subject is not an unordered ownership or related role. -/
def subjectOrdered (facts : Inventory) (subject : AnnotationSubjectId) : Bool :=
  match facts[subjectFactId subject]? with
  | some (.owns fact) => fact.collectionMode = .orderedList
  | some (.relates fact) => fact.collectionMode = .orderedList
  | _ => true

/-- Reject `distinct` on an unordered collection and conflicting keys. -/
def validateAnnotationCombinations (facts : Inventory) : List Diagnostic :=
  (annotatedSubjects facts).flatMap fun subject =>
    let kinds := annotationKinds facts subject
    (if .distinct ∈ kinds ∧ subjectOrdered facts subject = false then
      [⟨"distinct_requires_ordered_collection"⟩]
    else []) ++
    (if .key ∈ kinds ∧ (.unique ∈ kinds ∨ .card ∈ kinds) then [⟨"key_annotation_conflict"⟩]
    else [])

def attributeSupertype (facts : Inventory) (attributeType : TypeId) : Option TypeId :=
  facts.keys.findSome? fun
    | .sub id =>
        if id.subtype = attributeType ∧ id.supertype.kind = .attribute then some id.supertype
        else none
    | _ => none

/--
The value domain of an attribute, its own or the nearest inherited one.

The source walks the supertypes with a visited set; the walk makes at most
one step for each fact before it repeats a type, which `fuel` bounds.
-/
def attributeValueType (facts : Inventory) : Nat → List TypeId → AttributeId → Option ValueTypeTag
  | 0, _, _ => none
  | fuel + 1, visited, attributeId =>
      let attributeType := attributeTypeId attributeId
      if attributeType ∈ visited then none
      else
        match facts[SchemaFactId.value ⟨attributeId⟩]? with
        | some (.value fact) => some fact.valueType
        | _ =>
            (attributeSupertype facts attributeType).bind fun supertype =>
              attributeValueType facts fuel (attributeType :: visited) ⟨supertype.label⟩

def annotationSubjectValueType (facts : Inventory) : AnnotationSubjectId → Option ValueTypeTag
  | .value id => attributeValueType facts (facts.size + 1) [] id.attributeId
  | .owns id => attributeValueType facts (facts.size + 1) [] id.attributeId
  | _ => none

def constrainsValueDomain : AnnotationKindId → Bool
  | .key => true
  | .unique => true
  | .regex => true
  | .range => true
  | .values => true
  | _ => false

def valueDomainMatches (valueType : ValueTypeTag) : AnnotationKindId → SchemaAnnotationValue → Bool
  | .key, _ => valueType ≠ .double
  | .unique, _ => valueType ≠ .double
  | .regex, .regex _ => valueType = .string
  | .range, .range lower upper =>
      valueType ≠ .duration && lower.all (·.valueType = valueType) &&
        upper.all (·.valueType = valueType)
  | .values, .values members => decide (∀ member ∈ members, member.valueType = valueType)
  | _, _ => false

def validateAnnotationValueDomains (facts : Inventory) : List Diagnostic :=
  facts.values.filterMap fun
    | .annotated fact =>
        if constrainsValueDomain fact.id.kind then
          match annotationSubjectValueType facts fact.id.subject with
          | none => some ⟨"unknown_annotation_value_domain"⟩
          | some valueType =>
              if valueDomainMatches valueType fact.id.kind fact.value then none
              else some ⟨"invalid_annotation_value_domain"⟩
        else none
    | _ => none

/-- All inventory checks of a declared schema. -/
def validateFacts (facts : Inventory) : List Diagnostic :=
  validateReferences facts ++ validateAnnotationCombinations facts ++
    validateAnnotationValueDomains facts

/--
Facts collected so far, with one diagnostic for each rejected duplicate.

Facts are stored under their own identity and every stored fact is sourced.
-/
structure CollectedFacts where
  facts : Inventory
  provenance : Provenance
  diagnostics : List Diagnostic
  keyed : Inventory.Keyed facts
  sourced : ∀ id : SchemaFactId, id ∈ facts ↔ id ∈ provenance

namespace CollectedFacts

def empty : CollectedFacts where
  facts := ∅
  provenance := ∅
  diagnostics := []
  keyed := by
    intro id fact stored
    simp at stored
  sourced := by
    intro id
    simp

/-- Store a fact unless its identity is already declared. -/
def add (collected : CollectedFacts) (sourced : SourcedSchemaFact) : CollectedFacts :=
  if sourced.fact.id ∈ collected.provenance then
    { collected with
      diagnostics := collected.diagnostics ++ [⟨"duplicate_schema_fact"⟩] }
  else
    { facts := collected.facts.insert sourced.fact.id sourced.fact
      provenance := collected.provenance.insert sourced.fact.id sourced.source
      diagnostics := collected.diagnostics
      keyed := by
        intro id fact stored
        rw [OrderedMap.getElem?_insert_eq] at stored
        by_cases same : sourced.fact.id = id
        · rw [if_pos same, Option.some.injEq] at stored
          rw [← stored]
          exact same
        · rw [if_neg same] at stored
          exact collected.keyed id fact stored
      sourced := by
        intro id
        simp [Std.ExtTreeMap.mem_insert, collected.sourced id] }

def addAll (collected : CollectedFacts) (sourced : List SourcedSchemaFact) : CollectedFacts :=
  sourced.foldl add collected

variable {collected : CollectedFacts}

theorem add_fresh {sourced : SourcedSchemaFact} (fresh : sourced.fact.id ∉ collected.facts) :
    (collected.add sourced).diagnostics = collected.diagnostics ∧ (collected.add sourced).facts =
        collected.facts.insert sourced.fact.id sourced.fact := by
  have unsourced : sourced.fact.id ∉ collected.provenance := by rwa [← collected.sourced]
  simp [add, unsourced]

/--
Adding facts with pairwise distinct fresh identities reports nothing and
stores exactly the added facts beside the earlier ones.
-/
theorem addAll_fresh {sourced : List SourcedSchemaFact} (distinct : (sourced.map (·.fact.id)).Nodup)
    (fresh : ∀ entry ∈ sourced, entry.fact.id ∉ collected.facts) :
    (collected.addAll sourced).diagnostics = collected.diagnostics ∧
      ∀ (id : SchemaFactId) (fact : SchemaFact), (collected.addAll sourced).facts[id]? = some fact ↔
          collected.facts[id]? = some fact ∨
            ∃ entry ∈ sourced, entry.fact = fact ∧ fact.id = id := by
  induction sourced generalizing collected with
  | nil => simp [addAll]
  | cons first rest ih =>
    obtain ⟨firstNotRest, restDistinct⟩ := List.nodup_cons.mp distinct
    have firstFresh := fresh first (by simp)
    obtain ⟨sameDiagnostics, inserted⟩ := add_fresh firstFresh
    have restFresh : ∀ entry ∈ rest, entry.fact.id ∉ (collected.add first).facts := by
      intro entry member stored
      rw [inserted, Std.ExtTreeMap.mem_insert] at stored
      rcases stored with isFirst | stored
      · rw [compare_eq_iff_eq] at isFirst
        exact firstNotRest (List.mem_map.mpr ⟨entry, member, isFirst.symm⟩)
      · exact fresh entry (by simp [member]) stored
    obtain ⟨restDiagnostics, restFacts⟩ := ih restDistinct restFresh
    refine ⟨restDiagnostics.trans sameDiagnostics, ?_⟩
    intro id fact
    have unfolded : collected.addAll (first :: rest) = (collected.add first).addAll rest := rfl
    rw [unfolded, restFacts, inserted, OrderedMap.getElem?_insert_eq]
    by_cases same : first.fact.id = id
    · have absent : collected.facts[id]? = none := by
        rw [← same]
        exact Std.ExtTreeMap.getElem?_eq_none firstFresh
      rw [if_pos same, Option.some.injEq, absent]
      simp only [List.mem_cons, exists_eq_or_imp, reduceCtorEq, false_or]
      constructor
      · rintro (isFirst | later)
        · exact Or.inl ⟨isFirst, isFirst ▸ same⟩
        · exact Or.inr later
      · rintro (⟨isFirst, -⟩ | later)
        · exact Or.inl isFirst
        · exact Or.inr later
    · rw [if_neg same]
      simp only [List.mem_cons, exists_eq_or_imp]
      constructor
      · rintro (earlier | later)
        · exact Or.inl earlier
        · exact Or.inr (Or.inr later)
      · rintro (earlier | ⟨isFirst, named⟩ | later)
        · exact Or.inl earlier
        · exact (same (isFirst ▸ named)).elim
        · exact Or.inr later

end CollectedFacts

variable {facts : Inventory} {fact : SchemaFact}

theorem Inventory.mem_values : fact ∈ facts.values ↔ ∃ id : SchemaFactId, facts[id]? = some fact :=
  OrderedMap.mem_values

variable (keyed : Inventory.Keyed facts)
include keyed

theorem Inventory.Keyed.mem_values : fact ∈ facts.values ↔ facts[fact.id]? = some fact := by
  rw [Inventory.mem_values]
  constructor
  · rintro ⟨id, stored⟩
    rw [keyed id fact stored]
    exact stored
  · intro stored
    exact ⟨fact.id, stored⟩

theorem Inventory.Keyed.values_ids :
    facts.values.map SchemaFact.id = facts.toList.map Prod.fst := by
  rw [Inventory.values, List.map_map]
  apply List.map_congr_left
  rintro ⟨id, fact⟩ member
  exact keyed id fact (Std.ExtTreeMap.mem_toList_iff_getElem?_eq_some.mp member)

theorem Inventory.Keyed.nodup_ids : (facts.values.map SchemaFact.id).Nodup := by
  rw [keyed.values_ids]
  exact OrderedMap.nodup_keys facts

theorem Inventory.Keyed.nodup_selected {α κ : Type} {select : SchemaFact → Option α} {key : α → κ}
    (identifies : ∀ left right first second, select left = some first → select right = some second →
          key first = key second → left.id = right.id) :
    ((facts.values.filterMap select).map key).Nodup := by
  have distinct := keyed.nodup_ids
  rw [List.Nodup, List.pairwise_map] at distinct ⊢
  rw [List.pairwise_filterMap]
  refine distinct.imp ?_
  intro left right differ first isFirst second isSecond same
  exact differ (identifies left right first second isFirst isSecond same)

section Selection

/-- The facts of one kind with a property are selected, and no others. -/
def Selects {α : Type} (select : SchemaFact → Option α) (embed : α → SchemaFact)
    (holds : α → Prop) : Prop :=
  ∀ stored chosen, select stored = some chosen ↔ stored = embed chosen ∧ holds chosen

variable {α κ : Type} {select : SchemaFact → Option α} {embed : α → SchemaFact} {holds : α → Prop}

omit keyed in
theorem Selects.mem_iff (selects : Selects select embed holds) {chosen : α} :
    chosen ∈ facts.values.filterMap select ↔ embed chosen ∈ facts.values ∧ holds chosen := by
  simp only [List.mem_filterMap, selects _ _]
  constructor
  · rintro ⟨_, member, rfl, satisfied⟩
    exact ⟨member, satisfied⟩
  · rintro ⟨member, satisfied⟩
    exact ⟨_, member, rfl, satisfied⟩

theorem Selects.nodup {key : α → κ} (selects : Selects select embed holds)
    (identifies : ∀ first second, holds first → holds second →
      key first = key second → (embed first).id = (embed second).id) :
    ((facts.values.filterMap select).map key).Nodup := by
  apply keyed.nodup_selected
  intro left right first second isFirst isSecond same
  obtain ⟨rfl, holdsFirst⟩ := (selects _ _).mp isFirst
  obtain ⟨rfl, holdsSecond⟩ := (selects _ _).mp isSecond
  exact identifies first second holdsFirst holdsSecond same

end Selection

theorem Inventory.Keyed.exists_type {id : TypeId} (declared : facts.contains (.type id) = true) :
    ∃ fact : TypeFact, .type fact ∈ facts.values ∧ fact.id = id := by
  rw [Std.ExtTreeMap.contains_iff_mem] at declared
  obtain ⟨stored, found⟩ := Option.isSome_iff_exists.mp
      (Std.ExtTreeMap.isSome_getElem?_iff_mem.mpr declared)
  have named := keyed _ stored found
  cases stored with
  | type fact =>
    exact ⟨fact, Inventory.mem_values.mpr ⟨_, found⟩, by simpa [SchemaFact.id] using named⟩
  | _ => simp [SchemaFact.id] at named

omit keyed

theorem referencesDeclared_of_checked (checked : validateFacts facts = [])
    (stored : fact ∈ facts.values) : referencesDeclared facts fact = true := by
  simp only [validateFacts, List.append_eq_nil_iff] at checked
  have references := checked.1.1
  simp only [validateReferences, List.filterMap_eq_nil_iff] at references
  simpa using references fact stored

def Inventory.withSources (facts : Inventory) (source : SchemaFactId → SourceSpan) :
    List SourcedSchemaFact :=
  facts.toList.map fun entry => ⟨entry.2, source entry.1⟩

theorem Inventory.Keyed.withSources_ids (keyed : Inventory.Keyed facts)
    (source : SchemaFactId → SourceSpan) :
    (facts.withSources source).map (·.fact.id) = facts.toList.map Prod.fst := by
  rw [← keyed.values_ids, Inventory.withSources, Inventory.values, List.map_map, List.map_map]
  rfl

theorem CollectedFacts.addAll_withSources (keyed : Inventory.Keyed facts)
    (source : SchemaFactId → SourceSpan) :
    (CollectedFacts.empty.addAll (facts.withSources source)).diagnostics = [] ∧
      (CollectedFacts.empty.addAll (facts.withSources source)).facts = facts := by
  have distinct : ((facts.withSources source).map (·.fact.id)).Nodup := by
    rw [keyed.withSources_ids]
    exact OrderedMap.nodup_keys facts
  have fresh : ∀ entry ∈ facts.withSources source, entry.fact.id ∉ CollectedFacts.empty.facts := by
    intro entry _
    simp [CollectedFacts.empty]
  obtain ⟨noDiagnostics, stored⟩ := CollectedFacts.addAll_fresh distinct fresh
  refine ⟨noDiagnostics, Std.ExtTreeMap.ext_getElem? ?_⟩
  intro id
  apply Option.ext
  intro fact
  rw [stored]
  simp only [CollectedFacts.empty, Inventory.withSources]
  constructor
  · rintro (impossible | ⟨entry, member, rfl, rfl⟩)
    · simp at impossible
    · obtain ⟨⟨key, value⟩, listed, rfl⟩ := List.mem_map.mp member
      have found := Std.ExtTreeMap.mem_toList_iff_getElem?_eq_some.mp listed
      have named := keyed key value found
      simpa [named] using found
  · intro found
    refine Or.inr ⟨⟨fact, source id⟩, ?_, rfl, keyed id fact found⟩
    exact List.mem_map.mpr ⟨(id, fact),
        Std.ExtTreeMap.mem_toList_iff_getElem?_eq_some.mpr found, rfl⟩

variable {Bytes Digest : Type}

/--
A declared schema: a supported format, required capabilities and a checked
inventory of sourced facts, with the fingerprint of its canonical identity.
-/
structure DeclaredSchema (codec : Codec Bytes Digest) where
  format : FormatVersion
  requiredCapabilities : CapabilitySet
  facts : Inventory
  provenance : Provenance
  fingerprint : Digest
  formatSupported : format = .v1
  keyed : Inventory.Keyed facts
  sourced : ∀ id : SchemaFactId, id ∈ facts ↔ id ∈ provenance
  checked : validateFacts facts = []
  fingerprintExact : (codec.identityBytes format requiredCapabilities facts).map
      codec.digest = .ok fingerprint

namespace DeclaredSchema

variable {codec : Codec Bytes Digest}

def fromFacts (codec : Codec Bytes Digest) (format : FormatVersion)
    (requiredCapabilities : CapabilitySet) (sourcedFacts : List SourcedSchemaFact) :
    Except (List Diagnostic) (DeclaredSchema codec) :=
  if formatSupported : format = .v1 then
    let collected := CollectedFacts.empty.addAll sourcedFacts
    if collected.diagnostics ≠ [] then .error collected.diagnostics
    else if checked : validateFacts collected.facts = [] then
      match fingerprintExact : (codec.identityBytes format requiredCapabilities
            collected.facts).map codec.digest with
      | .error diagnostic => .error [diagnostic]
      | .ok fingerprint =>
          .ok {
            format := format
            requiredCapabilities := requiredCapabilities
            facts := collected.facts
            provenance := collected.provenance
            fingerprint := fingerprint
            formatSupported := formatSupported
            keyed := collected.keyed
            sourced := collected.sourced
            checked := checked
            fingerprintExact := fingerprintExact
          }
    else .error (validateFacts collected.facts)
  else .error [⟨"unsupported_format_version"⟩]

/--
Re-declaring the facts of a declared schema, with any source spans, yields a
declared schema that agrees with it up to provenance.
-/
theorem fromFacts_withSources (declared : DeclaredSchema codec)
    (source : SchemaFactId → SourceSpan) :
    ∃ restored : DeclaredSchema codec, fromFacts codec declared.format declared.requiredCapabilities
          (declared.facts.withSources source) = .ok restored ∧ restored.format = declared.format ∧
        restored.requiredCapabilities = declared.requiredCapabilities ∧
        restored.facts = declared.facts ∧ restored.fingerprint = declared.fingerprint := by
  obtain ⟨noDiagnostics, sameFacts⟩ := CollectedFacts.addAll_withSources declared.keyed source
  have checked : validateFacts (CollectedFacts.empty.addAll
            (declared.facts.withSources source)).facts = [] := by
    rw [sameFacts]
    exact declared.checked
  have fingerprintExact : (codec.identityBytes declared.format declared.requiredCapabilities
          (CollectedFacts.empty.addAll
            (declared.facts.withSources source)).facts).map codec.digest =
        .ok declared.fingerprint := by
    rw [sameFacts]
    exact declared.fingerprintExact
  simp only [fromFacts, declared.formatSupported, ↓reduceDIte,
    noDiagnostics, ne_eq, not_true_eq_false, ↓reduceIte, checked]
  split
  · next failed =>
      rw [fingerprintExact] at failed
      cases failed
  · next fingerprint computed =>
      rw [fingerprintExact, Except.ok.injEq] at computed
      exact ⟨_, rfl, rfl, rfl, sameFacts, computed.symm⟩

end DeclaredSchema

end TypeBridge.Schema
