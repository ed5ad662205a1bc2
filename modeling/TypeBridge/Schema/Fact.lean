import Mathlib.Data.Finset.Basic
import TypeBridge.Schema.Identity

namespace TypeBridge.Schema

/-!
# Direct schema facts

A declared schema is an inventory of direct facts. Each fact carries its
identity and the payload that a redefinition may change: a value domain, a
collection mode, a role specialization, an annotation value, a function
signature and body, or the fields of a struct.

The constructors of the source reject malformed payloads. The corresponding
structures carry that check as a field.
-/

/-- The closed scalar domains of attribute values. -/
inductive ValueTypeTag where
  | string | long | double | boolean | date | dateTime | dateTimeTz | decimal | duration
  deriving DecidableEq, Repr

/-- The value-domain token a label may collide with. -/
def valueTypeTag : String → Option ValueTypeTag
  | "string" => some .string
  | "integer" => some .long
  | "double" => some .double
  | "boolean" => some .boolean
  | "date" => some .date
  | "datetime" => some .dateTime
  | "datetime-tz" => some .dateTimeTz
  | "decimal" => some .decimal
  | "duration" => some .duration
  | _ => none

structure CanonicalValue where
  valueType : ValueTypeTag
  text : String
  deriving DecidableEq, Repr

/-- A cardinality; an absent maximum is unbounded. -/
structure Cardinality where
  min : Nat
  max : Option Nat
  deriving DecidableEq, Repr

/-- Ordered or unordered members of an ownership or a related role. -/
inductive CollectionMode where
  | unordered | orderedList
  deriving DecidableEq, Repr

inductive SchemaAnnotationValue where
  | presence
  | cardinality (value : Cardinality)
  | regex (pattern : String)
  | range (lower upper : Option CanonicalValue)
  | values (members : Finset CanonicalValue)
  | doc (text : String)
  | metadata (value : CanonicalValue)
  deriving DecidableEq

def annotationPayloadMatches : AnnotationKindId → SchemaAnnotationValue → Bool
  | .abstract, .presence => true
  | .independent, .presence => true
  | .key, .presence => true
  | .unique, .presence => true
  | .distinct, .presence => true
  | .card, .cardinality _ => true
  | .regex, .regex _ => true
  | .range, .range _ _ => true
  | .values, .values _ => true
  | .doc, .doc _ => true
  | .metadata _, .metadata value => value.valueType = .string
  | _, _ => false

def annotationSubjectMatches : AnnotationKindId → AnnotationSubjectId → Bool
  | .abstract, .type id => id.kind ≠ .struct
  | .abstract, .relates _ => true
  | .independent, .type id => id.kind = .attribute
  | .key, .owns _ => true
  | .unique, .owns _ => true
  | .distinct, .owns _ => true
  | .distinct, .relates _ => true
  | .card, .owns _ => true
  | .card, .relates _ => true
  | .card, .plays _ => true
  | .regex, .value _ => true
  | .regex, .owns _ => true
  | .range, .value _ => true
  | .range, .owns _ => true
  | .values, .value _ => true
  | .values, .owns _ => true
  | .doc, .value _ => false
  | .doc, _ => true
  | .metadata _, .value _ => false
  | .metadata _, _ => true
  | _, _ => false

/-- Existence of an entity, relation or attribute type. -/
structure TypeFact where
  id : TypeId
  notStruct : id.kind ≠ .struct
  labelFree : valueTypeTag id.label.text = none

instance : DecidableEq TypeFact :=
  Function.Injective.decidableEq (f := TypeFact.id) (by rintro ⟨⟩ ⟨⟩ rfl; rfl)

/-- The declared value domain of one attribute. -/
structure ValueFact where
  id : ValueFactId
  valueType : ValueTypeTag
  deriving DecidableEq

structure OwnsFact where
  id : OwnsFactId
  collectionMode : CollectionMode
  deriving DecidableEq

structure RelatesFact where
  id : RelatesFactId
  specializes : Option RoleId
  collectionMode : CollectionMode
  notSelf : specializes ≠ some id.role
  deriving DecidableEq

structure AnnotationFact where
  id : AnnotationFactId
  value : SchemaAnnotationValue
  payloadMatches : annotationPayloadMatches id.kind value = true
  subjectMatches : annotationSubjectMatches id.kind id.subject = true
  deriving DecidableEq

/-- A type token in a function signature. -/
inductive TypeReference where
  | value (tag : ValueTypeTag)
  | schema (label : Label)
  deriving DecidableEq, Repr

def TypeReference.schemaLabel : TypeReference → Option Label
  | .value _ => none
  | .schema label => some label

structure FunctionParameter where
  name : Label
  typeRef : TypeReference
  deriving DecidableEq, Repr

structure FunctionReturnElement where
  typeRef : TypeReference
  optional : Bool
  deriving DecidableEq, Repr

inductive FunctionReturnMode where
  | scalar (element : FunctionReturnElement)
  | tuple (elements : List FunctionReturnElement)
  | stream (elements : List FunctionReturnElement)
  deriving DecidableEq, Repr

def FunctionReturnMode.elements : FunctionReturnMode → List FunctionReturnElement
  | .scalar element => [element]
  | .tuple elements => elements
  | .stream elements => elements

structure FunctionSignature where
  parameters : List FunctionParameter
  returns : FunctionReturnMode
  namesNodup : (parameters.map FunctionParameter.name).Nodup
  deriving DecidableEq

structure FunctionFact where
  id : FunctionId
  signature : FunctionSignature
  body : String
  deriving DecidableEq

/-- Schema labels of the parameters, then of the returned elements. -/
def FunctionFact.schemaReferences (fact : FunctionFact) : List Label :=
  fact.signature.parameters.filterMap (·.typeRef.schemaLabel) ++
    fact.signature.returns.elements.filterMap (·.typeRef.schemaLabel)

structure StructField where
  name : Label
  valueType : ValueTypeTag
  optional : Bool
  deriving DecidableEq, Repr

structure StructFact where
  id : StructId
  fields : List StructField
  labelFree : valueTypeTag id.label.text = none
  fieldsNonempty : fields ≠ []
  namesNodup : (fields.map StructField.name).Nodup
  deriving DecidableEq

inductive SchemaFact where
  | type (fact : TypeFact)
  | sub (id : SubFactId)
  | value (fact : ValueFact)
  | owns (fact : OwnsFact)
  | relates (fact : RelatesFact)
  | plays (id : PlaysFactId)
  | annotated (fact : AnnotationFact)
  | function (fact : FunctionFact)
  | struct (fact : StructFact)
  deriving DecidableEq

def SchemaFact.id : SchemaFact → SchemaFactId
  | .type fact => .type fact.id
  | .sub id => .sub id
  | .value fact => .value fact.id
  | .owns fact => .owns fact.id
  | .relates fact => .relates fact.id
  | .plays id => .plays id
  | .annotated fact => .annotated fact.id
  | .function fact => .function fact.id
  | .struct fact => .struct fact.id

def attributeTypeId (attributeId : AttributeId) : TypeId where
  kind := .attribute
  label := attributeId.label

def declaringRelationType (role : RoleId) : TypeId where
  kind := .relation
  label := role.declaringRelation

def relatesId (role : RoleId) : RelatesFactId where
  relation := declaringRelationType role
  role := role
  relationKind := rfl
  declaredHere := rfl

def subjectFactId : AnnotationSubjectId → SchemaFactId
  | .type id => .type id
  | .sub id => .sub id
  | .value id => .value id
  | .owns id => .owns id
  | .relates id => .relates id
  | .plays id => .plays id
  | .function id => .function id

end TypeBridge.Schema
