import Mathlib.Data.List.Lex
import Mathlib.Data.Sum.Order
import Mathlib.Data.String.Basic

namespace TypeBridge.Schema

/-!
# Typed schema identities

Every schema fact is addressed by a typed identity. The source derives the
total order of each identity from the declaration order of its variants and
fields, and every ordered map and set of the planner iterates in that order.

The order is modelled by one lexicographic key for each identity: a variant
contributes its declaration position and a label contributes its text, in
field order. Keys are injective, so the induced order is total.
-/

@[ext] structure Label where
  text : String
  deriving DecidableEq, Repr

/-- The kind of a schema type, in declaration order. -/
inductive TypeKind where
  | entity | relation | attribute | struct
  deriving DecidableEq, Repr

@[ext] structure TypeId where
  kind : TypeKind
  label : Label
  deriving DecidableEq, Repr

@[ext] structure RoleId where
  declaringRelation : Label
  label : Label
  deriving DecidableEq, Repr

@[ext] structure AttributeId where
  label : Label
  deriving DecidableEq, Repr

@[ext] structure FunctionId where
  label : Label
  deriving DecidableEq, Repr

@[ext] structure StructId where
  label : Label
  deriving DecidableEq, Repr

@[ext] structure SubFactId where
  subtype : TypeId
  supertype : TypeId
  subtypeNotStruct : subtype.kind ≠ .struct
  sameKind : subtype.kind = supertype.kind
  distinct : subtype ≠ supertype
  deriving DecidableEq, Repr

/-- Check and build a subtype edge. -/
def SubFactId.new (subtype supertype : TypeId) : Option SubFactId :=
  if valid : subtype.kind ≠ .struct ∧ subtype.kind = supertype.kind ∧ subtype ≠ supertype then
    some ⟨subtype, supertype, valid.1, valid.2.1, valid.2.2⟩
  else none

@[ext] structure ValueFactId where
  attributeId : AttributeId
  deriving DecidableEq, Repr

@[ext] structure OwnsFactId where
  owner : TypeId
  attributeId : AttributeId
  ownerKind : owner.kind = .entity ∨ owner.kind = .relation
  deriving DecidableEq, Repr

def OwnsFactId.ofLabels (owner owned : String) : OwnsFactId :=
  ⟨⟨.entity, ⟨owner⟩⟩, ⟨⟨owned⟩⟩, .inl rfl⟩

/-- Check and build an ownership. -/
def OwnsFactId.new (owner : TypeId) (attributeId : AttributeId) : Option OwnsFactId :=
  if valid : owner.kind = .entity ∨ owner.kind = .relation then some ⟨owner, attributeId, valid⟩
  else none

@[ext] structure RelatesFactId where
  relation : TypeId
  role : RoleId
  relationKind : relation.kind = .relation
  declaredHere : relation.label = role.declaringRelation
  deriving DecidableEq, Repr

def RelatesFactId.ofLabels (relation role : String) : RelatesFactId :=
  ⟨⟨.relation, ⟨relation⟩⟩, ⟨⟨relation⟩, ⟨role⟩⟩, rfl, rfl⟩

@[ext] structure PlaysFactId where
  player : TypeId
  role : RoleId
  playerKind : player.kind = .entity ∨ player.kind = .relation
  deriving DecidableEq, Repr

def PlaysFactId.new (player : TypeId) (role : RoleId) : Option PlaysFactId :=
  if valid : player.kind = .entity ∨ player.kind = .relation then some ⟨player, role, valid⟩
  else none

/-- The declaration an annotation is attached to. -/
inductive AnnotationSubjectId where
  | type (id : TypeId)
  | sub (id : SubFactId)
  | value (id : ValueFactId)
  | owns (id : OwnsFactId)
  | relates (id : RelatesFactId)
  | plays (id : PlaysFactId)
  | function (id : FunctionId)
  deriving DecidableEq, Repr

inductive AnnotationKindId where
  | abstract | independent | key | unique | distinct | card | regex | range | values | doc
  | metadata (label : Label)
  deriving DecidableEq, Repr

@[ext] structure AnnotationFactId where
  subject : AnnotationSubjectId
  kind : AnnotationKindId
  deriving DecidableEq, Repr

inductive SchemaFactId where
  | type (id : TypeId)
  | sub (id : SubFactId)
  | value (id : ValueFactId)
  | owns (id : OwnsFactId)
  | relates (id : RelatesFactId)
  | plays (id : PlaysFactId)
  | annotated (id : AnnotationFactId)
  | function (id : FunctionId)
  | struct (id : StructId)
  deriving DecidableEq, Repr

/-- One position of an order key: a variant position or a label text. -/
abbrev OrderAtom := Nat ⊕ₗ String

def OrderAtom.variant (position : Nat) : OrderAtom := Sum.inlₗ position

def OrderAtom.text (value : String) : OrderAtom := Sum.inrₗ value

@[simp] theorem OrderAtom.variant_inj {first second : Nat} :
    OrderAtom.variant first = OrderAtom.variant second ↔ first = second := by
  simp [OrderAtom.variant]

@[simp] theorem OrderAtom.text_inj {first second : String} :
    OrderAtom.text first = OrderAtom.text second ↔ first = second := by
  simp [OrderAtom.text]

def Label.orderKey (id : Label) : List OrderAtom := [.text id.text]

def TypeKind.position : TypeKind → Nat
  | .entity => 0
  | .relation => 1
  | .attribute => 2
  | .struct => 3

/-- The order key of a type identity: kind, then label. -/
def TypeId.orderKey (id : TypeId) : List OrderAtom :=
  [.variant id.kind.position, .text id.label.text]

/-- The order key of a role identity: declaring relation, then label. -/
def RoleId.orderKey (id : RoleId) : List OrderAtom :=
  [.text id.declaringRelation.text, .text id.label.text]

/-- The order key of a subtype edge: subtype, then supertype. -/
def SubFactId.orderKey (id : SubFactId) : List OrderAtom :=
  id.subtype.orderKey ++ id.supertype.orderKey

/-- The order key of an ownership: owner, then attribute. -/
def OwnsFactId.orderKey (id : OwnsFactId) : List OrderAtom :=
  id.owner.orderKey ++ id.attributeId.label.orderKey

def RelatesFactId.orderKey (id : RelatesFactId) : List OrderAtom :=
  id.relation.orderKey ++ id.role.orderKey

def PlaysFactId.orderKey (id : PlaysFactId) : List OrderAtom :=
  id.player.orderKey ++ id.role.orderKey

def AnnotationSubjectId.orderKey : AnnotationSubjectId → List OrderAtom
  | .type id => .variant 0 :: id.orderKey
  | .sub id => .variant 1 :: id.orderKey
  | .value id => .variant 2 :: id.attributeId.label.orderKey
  | .owns id => .variant 3 :: id.orderKey
  | .relates id => .variant 4 :: id.orderKey
  | .plays id => .variant 5 :: id.orderKey
  | .function id => .variant 6 :: id.label.orderKey

def AnnotationKindId.orderKey : AnnotationKindId → List OrderAtom
  | .abstract => [.variant 0]
  | .independent => [.variant 1]
  | .key => [.variant 2]
  | .unique => [.variant 3]
  | .distinct => [.variant 4]
  | .card => [.variant 5]
  | .regex => [.variant 6]
  | .range => [.variant 7]
  | .values => [.variant 8]
  | .doc => [.variant 9]
  | .metadata label => .variant 10 :: label.orderKey

def SchemaFactId.orderKey : SchemaFactId → List OrderAtom
  | .type id => .variant 0 :: id.orderKey
  | .sub id => .variant 1 :: id.orderKey
  | .value id => .variant 2 :: id.attributeId.label.orderKey
  | .owns id => .variant 3 :: id.orderKey
  | .relates id => .variant 4 :: id.orderKey
  | .plays id => .variant 5 :: id.orderKey
  | .annotated id => .variant 6 :: (id.subject.orderKey ++ id.kind.orderKey)
  | .function id => .variant 7 :: id.label.orderKey
  | .struct id => .variant 8 :: id.label.orderKey

@[simp] theorem TypeKind.position_inj {first second : TypeKind} :
    first.position = second.position ↔ first = second := by
  cases first <;> cases second <;> decide

@[simp] theorem Label.text_inj {first second : Label} : first.text = second.text ↔ first = second :=
  Label.ext_iff.symm

theorem Label.orderKey_injective : Function.Injective Label.orderKey := by
  intro first second same
  simpa [Label.orderKey] using same

theorem TypeId.orderKey_injective : Function.Injective TypeId.orderKey := by
  intro first second same
  simpa [TypeId.orderKey, TypeId.ext_iff] using same

theorem RoleId.orderKey_injective : Function.Injective RoleId.orderKey := by
  intro first second same
  simpa [RoleId.orderKey, RoleId.ext_iff] using same

theorem AttributeId.label_injective : Function.Injective AttributeId.label := by
  intro first second same
  exact AttributeId.ext same

theorem FunctionId.label_injective : Function.Injective FunctionId.label := by
  intro first second same
  exact FunctionId.ext same

theorem StructId.label_injective : Function.Injective StructId.label := by
  intro first second same
  exact StructId.ext same

theorem AnnotationKindId.orderKey_injective : Function.Injective AnnotationKindId.orderKey := by
  intro first second same
  cases first <;> cases second <;> simp_all [AnnotationKindId.orderKey, Label.orderKey]

/--
Subject keys are self-delimiting: a subject key followed by more atoms
determines both the subject and the remaining atoms.
-/
theorem AnnotationSubjectId.orderKey_append_inj {first second : AnnotationSubjectId}
    {firstRest secondRest : List OrderAtom}
    (same : first.orderKey ++ firstRest = second.orderKey ++ secondRest) :
    first = second ∧ firstRest = secondRest := by
  cases first <;> cases second <;> simp_all [AnnotationSubjectId.orderKey, TypeId.orderKey,
      SubFactId.orderKey, Label.orderKey, OwnsFactId.orderKey,
      RelatesFactId.orderKey, PlaysFactId.orderKey, RoleId.orderKey,
      TypeId.ext_iff, SubFactId.ext_iff, ValueFactId.ext_iff,
      AttributeId.ext_iff, OwnsFactId.ext_iff, RelatesFactId.ext_iff,
      PlaysFactId.ext_iff, RoleId.ext_iff, FunctionId.ext_iff]

theorem AnnotationSubjectId.orderKey_injective :
    Function.Injective AnnotationSubjectId.orderKey := by
  intro first second same
  have appended : first.orderKey ++ [] = second.orderKey ++ [] := by simpa using same
  exact (AnnotationSubjectId.orderKey_append_inj appended).1

theorem SchemaFactId.orderKey_injective : Function.Injective SchemaFactId.orderKey := by
  intro first second same
  cases first <;> cases second
  case annotated.annotated first second =>
    simp only [SchemaFactId.orderKey, List.cons.injEq, true_and] at same
    obtain ⟨subjects, kinds⟩ := AnnotationSubjectId.orderKey_append_inj same
    rw [SchemaFactId.annotated.injEq, AnnotationFactId.ext_iff]
    exact ⟨subjects, AnnotationKindId.orderKey_injective kinds⟩
  all_goals
    simp_all [SchemaFactId.orderKey, TypeId.orderKey,
      SubFactId.orderKey, Label.orderKey, OwnsFactId.orderKey,
      RelatesFactId.orderKey, PlaysFactId.orderKey, RoleId.orderKey,
      TypeId.ext_iff, SubFactId.ext_iff, ValueFactId.ext_iff,
      AttributeId.ext_iff, OwnsFactId.ext_iff, RelatesFactId.ext_iff,
      PlaysFactId.ext_iff, RoleId.ext_iff, FunctionId.ext_iff, StructId.ext_iff]

instance : LinearOrder Label := LinearOrder.lift' Label.orderKey Label.orderKey_injective

instance : LinearOrder TypeId := LinearOrder.lift' TypeId.orderKey TypeId.orderKey_injective

instance : LinearOrder RoleId := LinearOrder.lift' RoleId.orderKey RoleId.orderKey_injective

instance : LinearOrder AttributeId :=
  LinearOrder.lift' AttributeId.label AttributeId.label_injective

instance : LinearOrder FunctionId := LinearOrder.lift' FunctionId.label FunctionId.label_injective

instance : LinearOrder StructId := LinearOrder.lift' StructId.label StructId.label_injective

instance : LinearOrder AnnotationKindId :=
  LinearOrder.lift' AnnotationKindId.orderKey
    AnnotationKindId.orderKey_injective

instance : LinearOrder AnnotationSubjectId :=
  LinearOrder.lift' AnnotationSubjectId.orderKey
    AnnotationSubjectId.orderKey_injective

instance : LinearOrder SchemaFactId :=
  LinearOrder.lift' SchemaFactId.orderKey
    SchemaFactId.orderKey_injective

def SchemaFactId.position : SchemaFactId → Nat
  | .type _ => 0
  | .sub _ => 1
  | .value _ => 2
  | .owns _ => 3
  | .relates _ => 4
  | .plays _ => 5
  | .annotated _ => 6
  | .function _ => 7
  | .struct _ => 8

theorem SchemaFactId.orderKey_eq_cons (id : SchemaFactId) :
    ∃ rest, id.orderKey = .variant id.position :: rest := by
  cases id <;> exact ⟨_, rfl⟩

theorem SchemaFactId.lt_of_position_lt {left right : SchemaFactId}
    (earlier : left.position < right.position) : left < right := by
  obtain ⟨leftRest, leftKey⟩ := left.orderKey_eq_cons
  obtain ⟨rightRest, rightKey⟩ := right.orderKey_eq_cons
  change left.orderKey < right.orderKey
  rw [leftKey, rightKey]
  apply List.Lex.rel
  exact Sum.Lex.inl_lt_inl_iff.mpr earlier

end TypeBridge.Schema
