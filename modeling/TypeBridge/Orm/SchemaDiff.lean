import TypeBridge.Library.MapDiff
import TypeBridge.Schema.Fact

namespace TypeBridge.Orm

open Library Library.MapDiff

/-!
# Differences between two schemas

`SchemaDiff::compute` compares entries field by field, and ownership
annotations by the text they are printed as. The texts are printed by the
official query library; what is used of them is that a printed annotation can be
told apart from what follows it. The comparison reports nothing exactly when
the fields it reads agree, which leaves out several stored fields.
-/

abbrev MetaMap := Std.ExtTreeMap String String

inductive Annotation where
  | key | unique
  | card (min : Nat) (max : Option Nat)
  | distinct
  deriving DecidableEq, Repr

structure OwnedAttributeEntry where
  attrName : String
  valueType : Schema.ValueTypeTag
  annotations : List Annotation
  isOrdered : Bool
  doc : Option String
  metaMap : MetaMap

structure RoleEntry where
  roleName : String
  playerTypeNames : List String
  cardinality : Option (Nat × Option Nat)
  overrides : Option String
  isAbstract : Bool
  ordered : Bool
  distinct : Bool
  doc : Option String
  metaMap : MetaMap

structure EntitySchemaEntry where
  typeName : String
  isAbstract : Bool
  parentType : Option String
  ownedAttributes : List OwnedAttributeEntry
  playsCardinalities : Std.ExtTreeMap String (Nat × Option Nat)
  doc : Option String
  metaMap : MetaMap

structure RelationSchemaEntry extends EntitySchemaEntry where
  roles : List RoleEntry

structure AttributeSchemaEntry where
  attrName : String
  valueType : Schema.ValueTypeTag
  parentType : Option String
  isAbstract : Bool
  isIndependent : Bool
  regex : Option String
  allowedValues : Option (List String)
  range : Option (Option String × Option String)
  doc : Option String
  metaMap : MetaMap

structure SchemaInfo where
  entities : Std.ExtTreeMap String EntitySchemaEntry
  relations : Std.ExtTreeMap String RelationSchemaEntry
  attributes : Std.ExtTreeMap String AttributeSchemaEntry

/-! ## Printed annotations -/

/-- The checked annotations an ownership is written with. -/
inductive SchemaAnnotation where
  | key | unique | distinct
  | card (min : Nat) (max : Option Nat)
  | doc (text : String)
  | metadata (key value : String)

inductive TqlError where
  | invalidSchemaShape

/-- What may follow a printed annotation: nothing, or a blank. -/
def EndsWord (rest : List Char) : Prop := ∀ next ∈ rest.head?, next = ' '

/--
The official printing of annotations, which is not part of this repository. A
printed annotation is not empty, and it and the rest can be told from the text.
-/
structure AnnotationPrinter where
  toText : SchemaAnnotation → List Char
  toText_ne_nil : ∀ annotation, toText annotation ≠ []
  separated : ∀ first second firstRest secondRest, EndsWord firstRest → EndsWord secondRest →
    toText first ++ firstRest = toText second ++ secondRest →
      first = second ∧ firstRest = secondRest

/-- A cardinality whose maximum is below its minimum is refused. -/
def schemaCard (min : Nat) (max : Option Nat) : Except TqlError SchemaAnnotation :=
  if max.any (· < min) then .error .invalidSchemaShape else .ok (.card min max)

def Annotation.schemaAnnotation : Annotation → Except TqlError SchemaAnnotation
  | .key => .ok .key
  | .unique => .ok .unique
  | .distinct => .ok .distinct
  | .card min max => schemaCard min max

def docMeta (doc : Option String) (metaMap : MetaMap) : List SchemaAnnotation :=
  doc.toList.map .doc ++ metaMap.toList.map fun entry => .metadata entry.1 entry.2

def ownershipAnnotations (entry : OwnedAttributeEntry) :
    Except TqlError (List SchemaAnnotation) := do
  let annotations ← entry.annotations.mapM Annotation.schemaAnnotation
  pure (annotations ++ docMeta entry.doc entry.metaMap)

def renderSchemaAnnotations (printer : AnnotationPrinter) (values : List SchemaAnnotation) :
    List Char :=
  [' '].intercalate (values.map printer.toText)

/-- The annotations that are printed: none where they cannot be built. -/
def OwnedAttributeEntry.printedAnnotations (entry : OwnedAttributeEntry) : List SchemaAnnotation :=
  match ownershipAnnotations entry with
  | .ok annotations => annotations
  | .error _ => []

/-- `unwrap_or_default` on the rendered text. -/
def OwnedAttributeEntry.flagsString (printer : AnnotationPrinter) (entry : OwnedAttributeEntry) :
    List Char :=
  match ownershipAnnotations entry with
  | .ok annotations => renderSchemaAnnotations printer annotations
  | .error _ => []

/-! ## The comparison -/

abbrev ownedMap (entries : List OwnedAttributeEntry) := byKey OwnedAttributeEntry.attrName entries

abbrev roleMap (entries : List RoleEntry) := byKey RoleEntry.roleName entries

/-- A pair of values where they differ, as `doc_change` and `meta_change` report it. -/
def fieldChange {α : Type} [DecidableEq α] (old new : α) : Option (α × α) :=
  if old ≠ new then some (old, new) else none

structure EntityChanges where
  addedAttributes : List String
  removedAttributes : List String
  modifiedAttributes : List (String × (List Char × List Char))
  abstractChanged : Option (Bool × Bool)
  parentChanged : Option (Option String × Option String)
  docChanged : Option (Option String × Option String)
  metaChanged : Option (MetaMap × MetaMap)

structure RolePlayerChange where
  addedPlayerTypes : Finset String
  removedPlayerTypes : Finset String

structure RoleAnnotationChange where
  docChanged : Option (Option String × Option String)
  metaChanged : Option (MetaMap × MetaMap)

structure RelationChanges extends EntityChanges where
  addedRoles : List String
  removedRoles : List String
  modifiedRolePlayers : List (String × RolePlayerChange)
  modifiedRoleCardinality : List (String × (Option (Nat × Option Nat) × Option (Nat × Option Nat)))
  modifiedRoleAnnotations : List (String × RoleAnnotationChange)

structure AttributeTypeChanges where
  valueTypeChanged : Option (Schema.ValueTypeTag × Schema.ValueTypeTag)
  parentChanged : Option (Option String × Option String)
  abstractChanged : Option (Bool × Bool)
  independentChanged : Option (Bool × Bool)
  regexChanged : Option (Option String × Option String)
  allowedValuesChanged : Option (Option (List String) × Option (List String))
  rangeChanged :
    Option (Option (Option String × Option String) × Option (Option String × Option String))
  docChanged : Option (Option String × Option String)
  metaChanged : Option (MetaMap × MetaMap)

def AttributeTypeChanges.hasChanges (changes : AttributeTypeChanges) : Bool :=
  changes.valueTypeChanged.isSome || changes.parentChanged.isSome ||
    changes.abstractChanged.isSome || changes.independentChanged.isSome ||
    changes.regexChanged.isSome || changes.allowedValuesChanged.isSome ||
    changes.rangeChanged.isSome || changes.docChanged.isSome || changes.metaChanged.isSome

structure SchemaDiff where
  addedEntities : List String
  removedEntities : List String
  modifiedEntities : List (String × EntityChanges)
  addedRelations : List String
  removedRelations : List String
  modifiedRelations : List (String × RelationChanges)
  addedAttributes : List String
  removedAttributes : List String
  modifiedAttributes : List (String × AttributeTypeChanges)

def SchemaDiff.hasChanges (diff : SchemaDiff) : Bool :=
  !diff.addedEntities.isEmpty || !diff.removedEntities.isEmpty ||
    !diff.modifiedEntities.isEmpty || !diff.addedRelations.isEmpty ||
    !diff.removedRelations.isEmpty || !diff.modifiedRelations.isEmpty ||
    !diff.addedAttributes.isEmpty || !diff.removedAttributes.isEmpty ||
    !diff.modifiedAttributes.isEmpty

section Comparison

variable (printer : AnnotationPrinter)

def diffOwnedAttributes (oldAttrs newAttrs : List OwnedAttributeEntry) : EntityChanges :=
  let oldMap := ownedMap oldAttrs
  let newMap := ownedMap newAttrs
  { addedAttributes := added oldMap newMap
    removedAttributes := added newMap oldMap
    modifiedAttributes := changed (fun oldEntry newEntry =>
      fieldChange (oldEntry.flagsString printer) (newEntry.flagsString printer)) oldMap newMap
    abstractChanged := none
    parentChanged := none
    docChanged := none
    metaChanged := none }

/-- The changes both kinds of types share. -/
def entityChanges (oldEntry newEntry : EntitySchemaEntry) : EntityChanges :=
  { diffOwnedAttributes printer oldEntry.ownedAttributes newEntry.ownedAttributes with
    abstractChanged := fieldChange oldEntry.isAbstract newEntry.isAbstract
    parentChanged := fieldChange oldEntry.parentType newEntry.parentType
    docChanged := fieldChange oldEntry.doc newEntry.doc
    metaChanged := fieldChange oldEntry.metaMap newEntry.metaMap }

def EntityChanges.reported (changes : EntityChanges) : Bool :=
  !changes.addedAttributes.isEmpty || !changes.removedAttributes.isEmpty ||
    !changes.modifiedAttributes.isEmpty || changes.abstractChanged.isSome ||
    changes.parentChanged.isSome || changes.docChanged.isSome || changes.metaChanged.isSome

def diffEntity (oldEntry newEntry : EntitySchemaEntry) : Option EntityChanges :=
  let changes := entityChanges printer oldEntry newEntry
  if changes.reported then some changes else none

def playersChange (oldRole newRole : RoleEntry) : Option RolePlayerChange :=
  let oldPlayers := oldRole.playerTypeNames.toFinset
  let newPlayers := newRole.playerTypeNames.toFinset
  if newPlayers \ oldPlayers ≠ ∅ ∨ oldPlayers \ newPlayers ≠ ∅ then
    some ⟨newPlayers \ oldPlayers, oldPlayers \ newPlayers⟩
  else none

def roleAnnotationChange (oldRole newRole : RoleEntry) : Option RoleAnnotationChange :=
  let docChanged := fieldChange oldRole.doc newRole.doc
  let metaChanged := fieldChange oldRole.metaMap newRole.metaMap
  if docChanged.isSome || metaChanged.isSome then some ⟨docChanged, metaChanged⟩ else none

def relationChanges (oldEntry newEntry : RelationSchemaEntry) : RelationChanges :=
  let oldRoles := roleMap oldEntry.roles
  let newRoles := roleMap newEntry.roles
  { entityChanges printer oldEntry.toEntitySchemaEntry newEntry.toEntitySchemaEntry with
    addedRoles := added oldRoles newRoles
    removedRoles := added newRoles oldRoles
    modifiedRolePlayers :=
      changed (fun newRole oldRole => playersChange oldRole newRole) newRoles oldRoles
    modifiedRoleCardinality :=
      changed (fun newRole oldRole => fieldChange oldRole.cardinality newRole.cardinality)
        newRoles oldRoles
    modifiedRoleAnnotations :=
      changed (fun newRole oldRole => roleAnnotationChange oldRole newRole) newRoles oldRoles }

def RelationChanges.reportedRoles (changes : RelationChanges) : Bool :=
  !changes.addedRoles.isEmpty || !changes.removedRoles.isEmpty ||
    !changes.modifiedRolePlayers.isEmpty || !changes.modifiedRoleCardinality.isEmpty ||
    !changes.modifiedRoleAnnotations.isEmpty

def diffRelation (oldEntry newEntry : RelationSchemaEntry) : Option RelationChanges :=
  let changes := relationChanges printer oldEntry newEntry
  if changes.toEntityChanges.reported || changes.reportedRoles then some changes else none

def attributeTypeChanges (oldEntry newEntry : AttributeSchemaEntry) : AttributeTypeChanges :=
  { valueTypeChanged := fieldChange oldEntry.valueType newEntry.valueType
    parentChanged := fieldChange oldEntry.parentType newEntry.parentType
    abstractChanged := fieldChange oldEntry.isAbstract newEntry.isAbstract
    independentChanged := fieldChange oldEntry.isIndependent newEntry.isIndependent
    regexChanged := fieldChange oldEntry.regex newEntry.regex
    allowedValuesChanged := fieldChange oldEntry.allowedValues newEntry.allowedValues
    rangeChanged := fieldChange oldEntry.range newEntry.range
    docChanged := fieldChange oldEntry.doc newEntry.doc
    metaChanged := fieldChange oldEntry.metaMap newEntry.metaMap }

def diffAttributeType (oldEntry newEntry : AttributeSchemaEntry) : Option AttributeTypeChanges :=
  let changes := attributeTypeChanges oldEntry newEntry
  if changes.hasChanges then some changes else none

/-- Keys only one schema has, and the changes under the shared ones. -/
def SchemaDiff.compute (old new : SchemaInfo) : SchemaDiff :=
  { addedEntities := added old.entities new.entities
    removedEntities := added new.entities old.entities
    modifiedEntities := changed (diffEntity printer) old.entities new.entities
    addedRelations := added old.relations new.relations
    removedRelations := added new.relations old.relations
    modifiedRelations := changed (diffRelation printer) old.relations new.relations
    addedAttributes := added old.attributes new.attributes
    removedAttributes := added new.attributes old.attributes
    modifiedAttributes := changed diffAttributeType old.attributes new.attributes }

end Comparison

/-! ## What the stored fields say -/

def RoleEntry.EqualUpToOrder (old new : RoleEntry) : Prop :=
  { old with playerTypeNames := [] } = { new with playerTypeNames := [] } ∧
    old.playerTypeNames.Perm new.playerTypeNames

def EntitySchemaEntry.EqualUpToOrder (old new : EntitySchemaEntry) : Prop :=
  { old with ownedAttributes := [] } = { new with ownedAttributes := [] } ∧
    old.ownedAttributes.Perm new.ownedAttributes

def RelationSchemaEntry.EqualUpToOrder (old new : RelationSchemaEntry) : Prop :=
  old.toEntitySchemaEntry.EqualUpToOrder new.toEntitySchemaEntry ∧
    Matching RoleEntry.EqualUpToOrder old.roles new.roles

/--
Equal up to the order of owned attributes, roles and role players; as role names are distinct,
roles are reordered if each has its equal in the other schema.
-/
def SchemaInfo.EqualUpToOrder (old new : SchemaInfo) : Prop :=
  Agree EntitySchemaEntry.EqualUpToOrder old.entities new.entities ∧
    Agree RelationSchemaEntry.EqualUpToOrder old.relations new.relations ∧
    Agree Eq old.attributes new.attributes

structure SchemaInfo.WellFormed (info : SchemaInfo) : Prop where
  entities : ∀ (name : String) (entry : EntitySchemaEntry), info.entities[name]? = some entry →
    entry.typeName = name ∧ (entry.ownedAttributes.map OwnedAttributeEntry.attrName).Nodup
  relations : ∀ (name : String) (entry : RelationSchemaEntry), info.relations[name]? = some entry →
      entry.typeName = name ∧ (entry.ownedAttributes.map OwnedAttributeEntry.attrName).Nodup ∧
        (entry.roles.map RoleEntry.roleName).Nodup
  attributes : ∀ (name : String) (entry : AttributeSchemaEntry),
    info.attributes[name]? = some entry → entry.attrName = name

/-! Each stored field is either read by the comparison or left out of it. -/

/-- No cardinality has its maximum below its minimum. -/
def OwnedAttributeEntry.RangesOrdered (entry : OwnedAttributeEntry) : Prop :=
  ∀ min max, Annotation.card min (some max) ∈ entry.annotations → min ≤ max

/-- A cardinality is refused, or there is nothing to print. -/
def OwnedAttributeEntry.PrintsNothing (entry : OwnedAttributeEntry) : Prop :=
  ¬ entry.RangesOrdered ∨
    entry.annotations = [] ∧ entry.doc = none ∧ entry.metaMap = ∅

def OwnedAttributeEntry.ReadAlike (old new : OwnedAttributeEntry) : Prop :=
  old.PrintsNothing ∧ new.PrintsNothing ∨
    (old.RangesOrdered ∧ new.RangesOrdered) ∧
      old.annotations = new.annotations ∧ old.doc = new.doc ∧ old.metaMap = new.metaMap

def OwnedAttributeEntry.UnreadAlike (old new : OwnedAttributeEntry) : Prop :=
  (old.valueType = new.valueType ∧ old.isOrdered = new.isOrdered) ∧
    (old.RangesOrdered ∧ new.RangesOrdered ∨
      old.annotations = new.annotations ∧ old.doc = new.doc ∧ old.metaMap = new.metaMap)

def RoleEntry.ReadAlike (old new : RoleEntry) : Prop :=
  (∀ player, player ∈ old.playerTypeNames ↔ player ∈ new.playerTypeNames) ∧
    old.cardinality = new.cardinality ∧ old.doc = new.doc ∧ old.metaMap = new.metaMap

def RoleEntry.UnreadAlike (old new : RoleEntry) : Prop :=
  old.playerTypeNames.Perm new.playerTypeNames ∧ old.overrides = new.overrides ∧
    old.isAbstract = new.isAbstract ∧ old.ordered = new.ordered ∧ old.distinct = new.distinct

def EntitySchemaEntry.ReadAlike (old new : EntitySchemaEntry) : Prop :=
  Agree OwnedAttributeEntry.ReadAlike (ownedMap old.ownedAttributes)
      (ownedMap new.ownedAttributes) ∧
    old.isAbstract = new.isAbstract ∧ old.parentType = new.parentType ∧ old.doc = new.doc ∧
    old.metaMap = new.metaMap

def EntitySchemaEntry.UnreadAlike (old new : EntitySchemaEntry) : Prop :=
  OnShared OwnedAttributeEntry.UnreadAlike (ownedMap old.ownedAttributes)
      (ownedMap new.ownedAttributes) ∧
    old.playsCardinalities = new.playsCardinalities

def RelationSchemaEntry.ReadAlike (old new : RelationSchemaEntry) : Prop :=
  old.toEntitySchemaEntry.ReadAlike new.toEntitySchemaEntry ∧
    Agree RoleEntry.ReadAlike (roleMap old.roles) (roleMap new.roles)

def RelationSchemaEntry.UnreadAlike (old new : RelationSchemaEntry) : Prop :=
  old.toEntitySchemaEntry.UnreadAlike new.toEntitySchemaEntry ∧
    OnShared RoleEntry.UnreadAlike (roleMap old.roles) (roleMap new.roles)

def SchemaInfo.ReadAlike (old new : SchemaInfo) : Prop :=
  Agree EntitySchemaEntry.ReadAlike old.entities new.entities ∧
    Agree RelationSchemaEntry.ReadAlike old.relations new.relations ∧
    Agree Eq old.attributes new.attributes

/-- The entries both schemas have agree in all the comparison leaves out. -/
def SchemaInfo.UnreadAlike (old new : SchemaInfo) : Prop :=
  OnShared EntitySchemaEntry.UnreadAlike old.entities new.entities ∧
    OnShared RelationSchemaEntry.UnreadAlike old.relations new.relations

/-! ## Printing tells annotations apart -/

def renderedRest (printer : AnnotationPrinter) : List SchemaAnnotation → List Char
  | [] => []
  | rest => ' ' :: renderSchemaAnnotations printer rest

section Printing

variable {printer : AnnotationPrinter}

theorem render_cons (first : SchemaAnnotation) (rest : List SchemaAnnotation) :
    renderSchemaAnnotations printer (first :: rest) =
      printer.toText first ++ renderedRest printer rest := by
  cases rest with
  | nil | cons second others => simp [renderSchemaAnnotations, renderedRest, List.intercalate]

theorem endsWord_renderedRest (rest : List SchemaAnnotation) :
    EndsWord (renderedRest printer rest) := by
  cases rest <;> simp [EndsWord, renderedRest]

theorem render_injective : Function.Injective (renderSchemaAnnotations printer) := by
  intro left
  induction left with
  | nil =>
    intro right same
    cases right with
    | nil => rfl
    | cons second others =>
      rw [render_cons] at same
      exact absurd (List.append_eq_nil_iff.mp same.symm).1 (printer.toText_ne_nil second)
  | cons first rest ih =>
    intro right same
    cases right with
    | nil =>
      rw [render_cons] at same
      exact absurd (List.append_eq_nil_iff.mp same).1 (printer.toText_ne_nil first)
    | cons second others =>
      rw [render_cons, render_cons] at same
      obtain ⟨rfl, sameRest⟩ := printer.separated _ _ _ _ (endsWord_renderedRest rest)
        (endsWord_renderedRest others) same
      congr 1
      cases rest with
      | nil =>
        cases others with
        | nil => rfl
        | cons _ _ => cases sameRest
      | cons _ _ =>
        cases others with
        | nil => cases sameRest
        | cons _ _ => exact ih (List.cons.inj sameRest).2

theorem flagsString_eq (entry : OwnedAttributeEntry) :
    entry.flagsString printer = renderSchemaAnnotations printer entry.printedAnnotations := by
  unfold OwnedAttributeEntry.flagsString OwnedAttributeEntry.printedAnnotations
  cases ownershipAnnotations entry <;> rfl

end Printing

def Annotation.checkedForm : Annotation → SchemaAnnotation
  | .key => .key
  | .unique => .unique
  | .distinct => .distinct
  | .card min max => .card min max

theorem checkedForm_injective : Function.Injective Annotation.checkedForm := by
  intro first second same
  unfold Annotation.checkedForm at same
  cases first <;> cases second <;> simp_all

theorem printedAnnotations_of_rangesOrdered {entry : OwnedAttributeEntry}
    (ordered : entry.RangesOrdered) : entry.printedAnnotations =
      entry.annotations.map Annotation.checkedForm ++ docMeta entry.doc entry.metaMap := by
  have checked : entry.annotations.mapM Annotation.schemaAnnotation =
      .ok (entry.annotations.map Annotation.checkedForm) := by
    rw [Checked.mapM_eq_ok, List.forall₂_map_right_iff, List.forall₂_same]
    intro annotation member
    cases annotation with
    | card min max =>
      refine if_neg ?_
      cases max with
      | none => simp
      | some bound => simpa using ordered min bound member
    | key => rfl
    | unique => rfl
    | distinct => rfl
  simp only [OwnedAttributeEntry.printedAnnotations, ownershipAnnotations, checked]
  rfl

theorem printedAnnotations_eq_nil {entry : OwnedAttributeEntry} :
    entry.printedAnnotations = [] ↔ entry.PrintsNothing := by
  by_cases ordered : entry.RangesOrdered
  · rw [printedAnnotations_of_rangesOrdered ordered]
    simp [OwnedAttributeEntry.PrintsNothing, ordered, docMeta]
  · refine iff_of_true ?_ (.inl ordered)
    unfold OwnedAttributeEntry.printedAnnotations
    split
    · rename_i printed built
      obtain ⟨_, checked, -⟩ := Checked.bind_eq_ok.mp built
      refine (ordered fun min max member => ?_).elim
      obtain ⟨_, isCard⟩ := Checked.exists_mapM_eq_ok_iff.mp ⟨_, checked⟩ _ member
      by_contra reversed
      simp [schemaCard, Annotation.schemaAnnotation, not_le.mp reversed] at isCard
    · rfl

theorem docMeta_injective {oldDoc newDoc : Option String} {oldMeta newMeta : MetaMap}
    (same : docMeta oldDoc oldMeta = docMeta newDoc newMeta) :
    oldDoc = newDoc ∧ oldMeta = newMeta := by
  have pairs : Function.Injective fun entry : String × String =>
      SchemaAnnotation.metadata entry.1 entry.2 := by
    rintro ⟨_, _⟩ ⟨_, _⟩ equal
    cases equal
    rfl
  have entries : ∀ {left right : MetaMap}, (left.toList.map fun entry =>
      SchemaAnnotation.metadata entry.1 entry.2) =
        (right.toList.map fun entry => .metadata entry.1 entry.2) → left = right :=
    fun equal => Std.ExtTreeMap.toList_inj.mp (pairs.list_map equal)
  have noDoc : ∀ (text : String) (listed : List SchemaAnnotation) (metaMap : MetaMap),
      .doc text :: listed ≠ metaMap.toList.map fun entry => .metadata entry.1 entry.2 := by
    intro text listed metaMap equal
    cases shape : metaMap.toList <;> simp [shape] at equal
  cases oldDoc with
  | none =>
    cases newDoc with
    | none => exact ⟨rfl, entries same⟩
    | some text => exact absurd same.symm (noDoc text _ oldMeta)
  | some text =>
    cases newDoc with
    | none => exact absurd same (noDoc text _ newMeta)
    | some other =>
      obtain ⟨sameText, rest⟩ := List.cons.inj same
      cases sameText
      exact ⟨rfl, entries rest⟩

variable {old new : OwnedAttributeEntry}

/-- Annotations that can be built are told apart by what is printed of them. -/
theorem printedAnnotations_injective (oldOrdered : old.RangesOrdered)
    (newOrdered : new.RangesOrdered) (same : old.printedAnnotations = new.printedAnnotations) :
    old.annotations = new.annotations ∧ old.doc = new.doc ∧ old.metaMap = new.metaMap := by
  rw [printedAnnotations_of_rangesOrdered oldOrdered,
    printedAnnotations_of_rangesOrdered newOrdered] at same
  -- documentation and metadata come last, so dropping them leaves the declared annotations
  let declared : SchemaAnnotation → Bool := fun annotation => match annotation with
    | .doc _ => false
    | .metadata _ _ => false
    | _ => true
  have kept : ∀ entry : OwnedAttributeEntry, (entry.annotations.map Annotation.checkedForm ++
        docMeta entry.doc entry.metaMap).filter declared =
          entry.annotations.map Annotation.checkedForm := by
    intro entry
    have all : (entry.annotations.map Annotation.checkedForm).filter declared =
        entry.annotations.map Annotation.checkedForm := by
      rw [List.filter_eq_self]
      intro annotation member
      obtain ⟨source, _, rfl⟩ := List.mem_map.mp member
      cases source <;> rfl
    have none : (docMeta entry.doc entry.metaMap).filter declared = [] := by
      rw [List.filter_eq_nil_iff]
      intro annotation member
      simp only [docMeta, List.mem_append, List.mem_map] at member
      rcases member with ⟨_, _, rfl⟩ | ⟨_, _, rfl⟩ <;> simp [declared]
    rw [List.filter_append, all, none, List.append_nil]
  have sameDeclared := congrArg (List.filter declared) same
  rw [kept, kept] at sameDeclared
  rw [sameDeclared] at same
  exact ⟨checkedForm_injective.list_map sameDeclared,
    docMeta_injective (List.append_cancel_left same)⟩

theorem readAlike_iff : old.ReadAlike new ↔ old.printedAnnotations = new.printedAnnotations := by
  constructor
  · rintro (⟨oldNothing, newNothing⟩ | ⟨⟨oldOrdered, newOrdered⟩, annotations, doc, metadata⟩)
    · rw [printedAnnotations_eq_nil.mpr oldNothing, printedAnnotations_eq_nil.mpr newNothing]
    · rw [printedAnnotations_of_rangesOrdered oldOrdered,
        printedAnnotations_of_rangesOrdered newOrdered, annotations, doc, metadata]
  · intro same
    have nothing : old.PrintsNothing ↔ new.PrintsNothing := by
      rw [← printedAnnotations_eq_nil, same, printedAnnotations_eq_nil]
    by_cases oldNothing : old.PrintsNothing
    · exact .inl ⟨oldNothing, nothing.mp oldNothing⟩
    · have oldOrdered := not_not.mp (not_or.mp oldNothing).1
      have newOrdered := not_not.mp (not_or.mp (mt nothing.mpr oldNothing)).1
      exact .inr ⟨⟨oldOrdered, newOrdered⟩,
        printedAnnotations_injective oldOrdered newOrdered same⟩

/-! ## A comparison reports what it reads -/

variable {α : Type}

theorem ite_some_eq_none {reported : Bool} {changes : α} :
    (if reported then some changes else none) = none ↔ reported = false := by
  cases reported <;> simp

theorem fieldChange_eq_none [DecidableEq α] {old new : α} :
    fieldChange old new = none ↔ old = new := by
  simp [fieldChange]

section Reported

variable (printer : AnnotationPrinter)

theorem diffEntity_eq_none (old new : EntitySchemaEntry) :
    diffEntity printer old new = none ↔ old.ReadAlike new := by
  have flags : ∀ left right : OwnedAttributeEntry,
      fieldChange (left.flagsString printer) (right.flagsString printer) = none ↔
        left.ReadAlike right := by
    intro left right
    rw [fieldChange_eq_none, flagsString_eq, flagsString_eq, render_injective.eq_iff,
      readAlike_iff]
  refine ite_some_eq_none.trans ?_
  rw [EntitySchemaEntry.ReadAlike, OnShared.congr fun _ left right _ _ => (flags left right).symm,
    agree_unchanged_iff]
  simp only [entityChanges, diffOwnedAttributes, EntityChanges.reported, Bool.or_eq_false_iff,
    Bool.not_eq_false', List.isEmpty_iff, Option.isSome_eq_false_iff, Option.isNone_iff_eq_none,
    fieldChange_eq_none, and_assoc]

variable {old new : RoleEntry}

theorem playersChange_eq_none : playersChange old new = none ↔
      ∀ player, player ∈ old.playerTypeNames ↔ player ∈ new.playerTypeNames := by
  simp only [playersChange, ite_eq_right_iff, reduceCtorEq, imp_false, not_or, not_not,
    Finset.sdiff_eq_empty_iff_subset, Finset.subset_iff, List.mem_toFinset]
  constructor
  · rintro ⟨newer, older⟩ player
    exact ⟨fun member => older member, fun member => newer member⟩
  · intro same
    exact ⟨fun _ member => (same _).mpr member, fun _ member => (same _).mp member⟩

theorem roleAnnotationChange_eq_none :
    roleAnnotationChange old new = none ↔ old.doc = new.doc ∧ old.metaMap = new.metaMap := by
  refine ite_some_eq_none.trans ?_
  simp only [Bool.or_eq_false_iff, Option.isSome_eq_false_iff, Option.isNone_iff_eq_none,
    fieldChange_eq_none]

theorem reportedRoles_eq_false {old new : RelationSchemaEntry} :
    (relationChanges printer old new).reportedRoles = false ↔
      Agree RoleEntry.ReadAlike (roleMap old.roles) (roleMap new.roles) := by
  simp only [relationChanges, RelationChanges.reportedRoles, Bool.or_eq_false_iff,
    Bool.not_eq_false', List.isEmpty_iff, changed_eq_nil_iff, playersChange_eq_none,
    fieldChange_eq_none, roleAnnotationChange_eq_none, agree_iff, OnShared, RoleEntry.ReadAlike]
  -- the roles of the old relation are walked, so each pair comes the other way round
  constructor
  · rintro ⟨⟨⟨⟨none, gone⟩, players⟩, cardinality⟩, annotations⟩
    refine ⟨none, gone, fun name former latter isFormer isLatter => ?_⟩
    exact ⟨players _ _ _ isLatter isFormer, cardinality _ _ _ isLatter isFormer,
      annotations _ _ _ isLatter isFormer⟩
  · rintro ⟨none, gone, same⟩
    exact ⟨⟨⟨⟨none, gone⟩, fun _ _ _ isLatter isFormer => (same _ _ _ isFormer isLatter).1⟩,
      fun _ _ _ isLatter isFormer => (same _ _ _ isFormer isLatter).2.1⟩,
      fun _ _ _ isLatter isFormer => (same _ _ _ isFormer isLatter).2.2⟩

theorem diffRelation_eq_none (old new : RelationSchemaEntry) :
    diffRelation printer old new = none ↔ old.ReadAlike new := by
  rw [RelationSchemaEntry.ReadAlike, ← reportedRoles_eq_false printer, ← diffEntity_eq_none printer]
  refine ite_some_eq_none.trans ?_
  rw [Bool.or_eq_false_iff]
  exact and_congr_left' ite_some_eq_none.symm

theorem diffAttributeType_eq_none {old new : AttributeSchemaEntry}
    (sameName : old.attrName = new.attrName) : diffAttributeType old new = none ↔ old = new := by
  refine ite_some_eq_none.trans ?_
  simp only [AttributeTypeChanges.hasChanges, attributeTypeChanges, Bool.or_eq_false_iff,
    Option.isSome_eq_false_iff, Option.isNone_iff_eq_none, fieldChange_eq_none]
  constructor
  · cases old
    cases new
    rintro ⟨⟨⟨⟨⟨⟨⟨⟨rfl, rfl⟩, rfl⟩, rfl⟩, rfl⟩, rfl⟩, rfl⟩, rfl⟩, rfl⟩
    cases sameName
    rfl
  · rintro rfl
    simp

theorem hasChanges_eq_false {old new : SchemaInfo} (oldFormed : old.WellFormed)
    (newFormed : new.WellFormed) :
    (SchemaDiff.compute printer old new).hasChanges = false ↔ old.ReadAlike new := by
  have attributes : Agree Eq old.attributes new.attributes ↔
      Agree (fun former latter => diffAttributeType former latter = none)
        old.attributes new.attributes :=
    OnShared.congr fun name former latter isFormer isLatter =>
      (diffAttributeType_eq_none ((oldFormed.attributes name former isFormer).trans
        (newFormed.attributes name latter isLatter).symm)).symm
  rw [SchemaInfo.ReadAlike, attributes,
    OnShared.congr fun _ former latter _ _ => (diffEntity_eq_none printer former latter).symm,
    OnShared.congr fun _ former latter _ _ => (diffRelation_eq_none printer former latter).symm,
    agree_unchanged_iff, agree_unchanged_iff, agree_unchanged_iff]
  simp only [SchemaDiff.compute, SchemaDiff.hasChanges, Bool.or_eq_false_iff, Bool.not_eq_false',
    List.isEmpty_iff, and_assoc]

end Reported

/-! ## Read and unread fields together are all of them -/

theorem OwnedAttributeEntry.eq_iff (sameName : old.attrName = new.attrName) :
    old = new ↔ old.ReadAlike new ∧ old.UnreadAlike new := by
  constructor
  · rintro rfl
    exact ⟨readAlike_iff.mpr rfl, ⟨rfl, rfl⟩, .inr ⟨rfl, rfl, rfl⟩⟩
  · rintro ⟨read, ⟨sameType, sameOrder⟩, annotations⟩
    have printed : old.annotations = new.annotations ∧ old.doc = new.doc ∧
        old.metaMap = new.metaMap := by
      rcases annotations with ⟨oldOrdered, newOrdered⟩ | same
      · exact printedAnnotations_injective oldOrdered newOrdered (readAlike_iff.mp read)
      · exact same
    cases old
    cases new
    simp_all

theorem ownedAttributes_perm_iff {old new : List OwnedAttributeEntry}
    (oldDistinct : (old.map OwnedAttributeEntry.attrName).Nodup)
    (newDistinct : (new.map OwnedAttributeEntry.attrName).Nodup) : old.Perm new ↔
      Agree OwnedAttributeEntry.ReadAlike (ownedMap old) (ownedMap new) ∧
        OnShared OwnedAttributeEntry.UnreadAlike (ownedMap old) (ownedMap new) := by
  have matching : old.Perm new ↔ Matching Eq old new := by
    rw [List.perm_ext_iff_of_nodup oldDistinct.of_map newDistinct.of_map]
    simp [Matching, iff_def, forall_and]
  rw [matching, matching_iff oldDistinct newDistinct fun _ _ same => congrArg _ same,
    ← agree_and_iff]
  refine OnShared.congr fun name former latter isFormer isLatter => ?_
  rw [getElem?_byKey oldDistinct] at isFormer
  rw [getElem?_byKey newDistinct] at isLatter
  exact OwnedAttributeEntry.eq_iff (isFormer.2.trans isLatter.2.symm)

theorem RoleEntry.equalUpToOrder_iff {old new : RoleEntry}
    (sameName : old.roleName = new.roleName) :
    old.EqualUpToOrder new ↔ old.ReadAlike new ∧ old.UnreadAlike new := by
  simp only [RoleEntry.EqualUpToOrder, RoleEntry.ReadAlike, RoleEntry.UnreadAlike,
    RoleEntry.mk.injEq, sameName, true_and]
  constructor
  · rintro ⟨⟨cardinality, overrides, abstract, ordered, distinct, doc, metadata⟩, players⟩
    exact ⟨⟨fun _ => players.mem_iff, cardinality, doc, metadata⟩, players, overrides, abstract,
      ordered, distinct⟩
  · rintro ⟨⟨_, cardinality, doc, metadata⟩, players, overrides, abstract, ordered, distinct⟩
    exact ⟨⟨cardinality, overrides, abstract, ordered, distinct, doc, metadata⟩, players⟩

theorem roles_agree_iff {old new : List RoleEntry}
    (oldDistinct : (old.map RoleEntry.roleName).Nodup)
    (newDistinct : (new.map RoleEntry.roleName).Nodup) : Matching RoleEntry.EqualUpToOrder old new ↔
      Agree RoleEntry.ReadAlike (roleMap old) (roleMap new) ∧
        OnShared RoleEntry.UnreadAlike (roleMap old) (roleMap new) := by
  rw [matching_iff oldDistinct newDistinct fun _ _ same =>
    (RoleEntry.mk.injEq .. ▸ same.1).1, ← agree_and_iff]
  refine OnShared.congr fun name former latter isFormer isLatter => ?_
  rw [getElem?_byKey oldDistinct] at isFormer
  rw [getElem?_byKey newDistinct] at isLatter
  exact RoleEntry.equalUpToOrder_iff (isFormer.2.trans isLatter.2.symm)

theorem EntitySchemaEntry.equalUpToOrder_iff {old new : EntitySchemaEntry}
    (sameName : old.typeName = new.typeName)
    (oldDistinct : (old.ownedAttributes.map OwnedAttributeEntry.attrName).Nodup)
    (newDistinct : (new.ownedAttributes.map OwnedAttributeEntry.attrName).Nodup) :
    old.EqualUpToOrder new ↔ old.ReadAlike new ∧ old.UnreadAlike new := by
  simp only [EntitySchemaEntry.EqualUpToOrder, EntitySchemaEntry.ReadAlike,
    EntitySchemaEntry.UnreadAlike, EntitySchemaEntry.mk.injEq, sameName, true_and,
    ownedAttributes_perm_iff oldDistinct newDistinct]
  tauto

theorem SchemaInfo.equalUpToOrder_iff {old new : SchemaInfo} (oldFormed : old.WellFormed)
    (newFormed : new.WellFormed) :
    old.EqualUpToOrder new ↔ old.ReadAlike new ∧ old.UnreadAlike new := by
  have entities : Agree EntitySchemaEntry.EqualUpToOrder old.entities new.entities ↔
      Agree (fun former latter => former.ReadAlike latter ∧ former.UnreadAlike latter)
        old.entities new.entities := by
    refine OnShared.congr fun name former latter isFormer isLatter => ?_
    obtain ⟨formerName, formerOwns⟩ := oldFormed.entities name former isFormer
    obtain ⟨latterName, latterOwns⟩ := newFormed.entities name latter isLatter
    exact EntitySchemaEntry.equalUpToOrder_iff (formerName.trans latterName.symm) formerOwns
      latterOwns
  have relations : Agree RelationSchemaEntry.EqualUpToOrder old.relations new.relations ↔
      Agree (fun former latter => former.ReadAlike latter ∧ former.UnreadAlike latter)
        old.relations new.relations := by
    refine OnShared.congr fun name former latter isFormer isLatter => ?_
    obtain ⟨formerName, formerOwns, formerRoles⟩ := oldFormed.relations name former isFormer
    obtain ⟨latterName, latterOwns, latterRoles⟩ := newFormed.relations name latter isLatter
    rw [RelationSchemaEntry.EqualUpToOrder, EntitySchemaEntry.equalUpToOrder_iff
      (formerName.trans latterName.symm) formerOwns latterOwns,
      roles_agree_iff formerRoles latterRoles]
    simp only [RelationSchemaEntry.ReadAlike, RelationSchemaEntry.UnreadAlike]
    tauto
  rw [agree_and_iff] at entities relations
  simp only [SchemaInfo.EqualUpToOrder, SchemaInfo.ReadAlike, SchemaInfo.UnreadAlike, entities,
    relations]
  tauto

/--
Nothing reported means equal up to order exactly for the schemas that differ in a field the
comparison reads, or agree in those it leaves out: value type and ordering of ownerships and
annotations that cannot be built, specialisation, abstractness, ordering, distinctness and
repeated players of roles, and plays cardinalities.
-/
theorem schema_diff_complete_iff (printer : AnnotationPrinter) (old new : SchemaInfo)
    (oldFormed : old.WellFormed) (newFormed : new.WellFormed) :
    ((SchemaDiff.compute printer old new).hasChanges = false → old.EqualUpToOrder new) ↔
      (old.ReadAlike new → old.UnreadAlike new) := by
  rw [hasChanges_eq_false printer oldFormed newFormed,
    SchemaInfo.equalUpToOrder_iff oldFormed newFormed]
  exact forall_congr' fun read => and_iff_right read

/-! ## A specialised role goes unreported -/

def SchemaAnnotation.parts : SchemaAnnotation → Nat × Nat × Option Nat × List Nat × List Nat
  | .key => (0, 0, none, [], [])
  | .unique => (1, 0, none, [], [])
  | .distinct => (2, 0, none, [], [])
  | .card min max => (3, min, max, [], [])
  | .doc text => (4, 0, none, text.toList.map Char.toNat, [])
  | .metadata name value => (5, 0, none, name.toList.map Char.toNat, value.toList.map Char.toNat)

theorem SchemaAnnotation.parts_injective : Function.Injective SchemaAnnotation.parts := by
  have texts : ∀ left right : String,
      left.toList.map Char.toNat = right.toList.map Char.toNat → left = right :=
    fun left right same => String.toList_inj.mp
      (List.map_injective_iff.mpr (fun _ _ equal => Char.toNat_inj.mp equal) same)
  intro first second same
  unfold SchemaAnnotation.parts at same
  cases first <;> cases second <;> simp_all
  · exact texts _ _ same
  · exact ⟨texts _ _ same.1, texts _ _ same.2⟩

/-- A printer: each annotation is written as a run of one letter. -/
def tallyPrinter : AnnotationPrinter where
  toText annotation := List.replicate (Encodable.encode annotation.parts + 1) 'x'
  toText_ne_nil annotation := by simp
  separated := by
    intro first second firstRest secondRest firstEnds secondEnds same
    have letters : ∀ (count : Nat) (rest : List Char), EndsWord rest →
        (List.replicate count 'x' ++ rest).takeWhile (· == 'x') = List.replicate count 'x' := by
      intro count rest ends
      rw [List.takeWhile_append_of_pos (by simp)]
      cases rest with
      | nil => simp
      | cons next others =>
        have blank := ends next (by simp)
        subst blank
        simp
    have sameLetters := congrArg (List.takeWhile (· == 'x')) same
    rw [letters _ _ firstEnds, letters _ _ secondEnds] at sameLetters
    have counts := congrArg List.length sameLetters
    simp only [List.length_replicate, Nat.add_right_cancel_iff] at counts
    have sameParts := SchemaAnnotation.parts_injective (Encodable.encode_injective counts)
    rw [sameLetters] at same
    exact ⟨sameParts, List.append_cancel_left same⟩

def employeeRole (overrides : Option String) : RoleEntry :=
  ⟨"employee", ["person"], none, overrides, false, false, false, none, ∅⟩

def employerRole (players : List String) : RoleEntry :=
  ⟨"employer", players, none, none, false, false, false, none, ∅⟩

/-- One relation with the given roles. -/
def employmentSchema (roles : List RoleEntry) : SchemaInfo where
  entities := ∅
  relations := (∅ : Std.ExtTreeMap String RelationSchemaEntry).insert "employment"
    ⟨⟨"employment", false, some "work", [], ∅, none, ∅⟩, roles⟩
  attributes := ∅

theorem employmentSchema_wellFormed {roles : List RoleEntry}
    (distinct : (roles.map RoleEntry.roleName).Nodup) : (employmentSchema roles).WellFormed where
  entities := by simp [employmentSchema]
  relations := by
    intro name entry found
    rw [employmentSchema, OrderedMap.getElem?_insert_eq] at found
    split at found
    · rename_i same
      cases found
      exact ⟨same, List.nodup_nil, distinct⟩
    · simp at found
  attributes := by simp [employmentSchema]

/-- A schema, and the same with its roles and the players of one in another order. -/
def formerEmployment : SchemaInfo :=
  employmentSchema [employeeRole none, employerRole ["company", "person"]]

def latterEmployment : SchemaInfo :=
  employmentSchema [employerRole ["person", "company"], employeeRole none]

theorem employment_complete_iff :
    formerEmployment.WellFormed ∧
      latterEmployment.WellFormed ∧
      formerEmployment.EqualUpToOrder latterEmployment ∧
      (((SchemaDiff.compute tallyPrinter formerEmployment latterEmployment).hasChanges = false →
          formerEmployment.EqualUpToOrder latterEmployment) ↔
        (formerEmployment.ReadAlike latterEmployment →
          formerEmployment.UnreadAlike latterEmployment)) := by
  have former : formerEmployment.WellFormed := employmentSchema_wellFormed (by decide)
  have latter : latterEmployment.WellFormed := employmentSchema_wellFormed (by decide)
  refine ⟨former, latter, ?_, schema_diff_complete_iff tallyPrinter _ _ former latter⟩
  unfold formerEmployment latterEmployment employmentSchema
  refine ⟨fun _ => by simp, fun name => ?_, fun _ => by simp⟩
  simp only [OrderedMap.getElem?_insert_eq]
  split
  · refine .some ⟨⟨rfl, .nil⟩, ?_⟩
    simp [Matching, RoleEntry.EqualUpToOrder, employeeRole, employerRole, List.Perm.swap]
  · simp

def employeeSchema (overrides : Option String) : SchemaInfo :=
  employmentSchema [employeeRole overrides]

/-- A role that specialises another one is not told from a plain role. -/
theorem specialised_role_unreported :
    (employeeSchema none).WellFormed ∧ (employeeSchema (some "worker")).WellFormed ∧
      (SchemaDiff.compute tallyPrinter (employeeSchema none)
        (employeeSchema (some "worker"))).hasChanges = false ∧
      ¬ (employeeSchema none).EqualUpToOrder (employeeSchema (some "worker")) := by
  have formed : ∀ overrides, (employeeSchema overrides).WellFormed :=
    fun _ => employmentSchema_wellFormed (List.nodup_singleton _)
  unfold employeeSchema employmentSchema at *
  refine ⟨formed _, formed _, ?_, ?_⟩
  · rw [hasChanges_eq_false tallyPrinter (formed _) (formed _)]
    refine ⟨fun _ => by simp, fun name => ?_, fun _ => by simp⟩
    simp only [OrderedMap.getElem?_insert_eq]
    split
    · refine .some ⟨⟨fun _ => by simp [byKey], rfl, rfl, rfl, rfl⟩, fun role => ?_⟩
      simp only [byKey, List.map_cons, List.map_nil, Std.ExtTreeMap.ofList_singleton, employeeRole,
        OrderedMap.getElem?_insert_eq]
      split
      · exact .some ⟨fun _ => Iff.rfl, rfl, rfl, rfl⟩
      · simp
    · simp
  · rintro ⟨_, relations, _⟩
    have atName := relations "employment"
    simp only [OrderedMap.getElem?_insert_eq, if_true] at atName
    cases atName with
    | some same =>
      obtain ⟨latter, isLatter, sameRole⟩ := same.2.1 _ List.mem_cons_self
      cases List.mem_singleton.mp isLatter
      exact absurd (congrArg RoleEntry.overrides sameRole.1) (by simp [employeeRole])

end TypeBridge.Orm
