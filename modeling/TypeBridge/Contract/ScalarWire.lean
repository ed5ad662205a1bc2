import TypeBridge.Contract.Codec
import TypeBridge.Schema.DecimalText
import TypeBridge.Schema.ScalarText

namespace TypeBridge.Contract

open Library Schema

/-!
# Scalars as canonical JSON

A scalar is encoded as an object with its kind and its text; only booleans are
encoded as such, and a datetime with a zone as an object of its parts.

The readers that are derived for these types are more liberal than the writers:
they ignore members that they do not know, they take the fields of an object
from an array in order, and the kind of a zone also from its position. The
codec compares texts before such a reader runs, and not after it. So a scalar
has further encodings: objects with more members, arrays, and the texts of
decimals that are not normal.
-/

variable {Number Double Bytes : Type}

/-! ## Writing -/

def textTree (characters : List Char) : Json Number := .string (String.ofList characters)

def kindName : ValueTypeTag → String
  | .string => "string"
  | .long => "long"
  | .double => "double"
  | .boolean => "boolean"
  | .date => "date"
  | .dateTime => "datetime"
  | .dateTimeTz => "datetime_tz"
  | .decimal => "decimal"
  | .duration => "duration"

def ofKindName : String → Option ValueTypeTag
  | "string" => some .string
  | "long" => some .long
  | "double" => some .double
  | "boolean" => some .boolean
  | "date" => some .date
  | "datetime" => some .dateTime
  | "datetime_tz" => some .dateTimeTz
  | "decimal" => some .decimal
  | "duration" => some .duration
  | _ => none

def fieldName : ValueTypeTag → String
  | .double => "bits"
  | _ => "value"

section Wire

variable (backend : NumberBackend Number Double)

def zoneWire : TimeZoneDesignator → Json Number
  | .utc => .object [("kind", .string "utc")]
  | .offsetSeconds seconds =>
      .object [("kind", .string "offset_seconds"), ("seconds", .number (backend.fromI64 seconds))]
  | .named name => .object [("kind", .string "named"), ("name", .string name)]

def zonedWire (value : CanonicalDateTimeTz) : Json Number :=
  .object [("local", textTree value.localTime.text), ("zone", zoneWire backend value.zone),
    ("effective_offset_seconds", .number (backend.fromI64 value.effectiveOffsetSeconds))]

def fieldWire : Scalar → Json Number
  | .string text => .string text.1
  | .long value => textTree (LongValue.text value)
  | .double value => textTree value.bitsHex
  | .boolean value => .bool value
  | .date value => textTree value.text
  | .dateTime value => textTree value.text
  | .dateTimeTz value => zonedWire backend value
  | .decimal value => textTree value.text
  | .duration value => textTree value.text

def scalarWire (scalar : Scalar) : Json Number :=
  .object [("kind", .string (kindName scalar.valueType)),
    (fieldName scalar.valueType, fieldWire backend scalar)]

/-! ## Reading -/

inductive Fields (Number : Type) where
  | named (members : List (String × Json Number))
  | positional (elements : List (Json Number))

def Fields.single (name : String) : Fields Number → Option (Json Number)
  | .named members => members.lookup name
  | .positional [element] => some element
  | .positional _ => none

def Fields.noField : Fields Number → Option Unit
  | .named _ => some ()
  | .positional [] => some ()
  | .positional _ => none

def splitKind : Json Number → Option (Json Number × Fields Number)
  | .object members =>
      (members.lookup "kind").map fun kind =>
        (kind, .named (members.filter fun entry => entry.1 ≠ "kind"))
  | .array (kind :: elements) => some (kind, .positional elements)
  | _ => none

def asText : Json Number → Option String
  | .string text => some text
  | _ => none

/-- A signed 32-bit integer. -/
def asI32 : Json Number → Option Int
  | .number value =>
      (backend.asI64 value).filter fun integer => -2 ^ 31 ≤ integer ∧ integer < 2 ^ 31
  | _ => none

inductive ZoneKind where
  | utc | offsetSeconds | named

def ofZoneKind : Json Number → Option ZoneKind
  | .string "utc" => some .utc
  | .string "offset_seconds" => some .offsetSeconds
  | .string "named" => some .named
  | .number value =>
      match backend.asU64 value with
      | some 0 => some .utc
      | some 1 => some .offsetSeconds
      | some 2 => some .named
      | _ => none
  | _ => none

def ofZoneFields (fields : Fields Number) : ZoneKind → Option TimeZoneDesignator
  | .utc => fields.noField.map fun _ => .utc
  | .offsetSeconds => do
      let seconds ← fields.single "seconds"
      (asI32 backend seconds).map .offsetSeconds
  | .named => do
      let name ← fields.single "name"
      (asText name).map .named

def ofZoneWire (tree : Json Number) : Option TimeZoneDesignator := do
  let (kind, fields) ← splitKind tree
  let zoneKind ← ofZoneKind backend kind
  ofZoneFields backend fields zoneKind

def zonedFields : Json Number → Option (Json Number × Json Number × Json Number)
  | .object members => do
      let localTime ← members.lookup "local"
      let zone ← members.lookup "zone"
      let offset ← members.lookup "effective_offset_seconds"
      return (localTime, zone, offset)
  | .array [localTime, zone, offset] => some (localTime, zone, offset)
  | _ => none

def ofTextTree {Value : Type} (read : List Char → Option Value) (tree : Json Number) :
    Option Value := do
  let text ← asText tree
  read text.toList

def ofZonedWire (tree : Json Number) : Option CanonicalDateTimeTz := do
  let (localTree, zoneTree, offsetTree) ← zonedFields tree
  let localTime ← ofTextTree CanonicalDateTime.ofText localTree
  let zone ← ofZoneWire backend zoneTree
  let offset ← asI32 backend offsetTree
  CanonicalDateTimeTz.ofParts localTime zone offset

def ofStringTree (tree : Json Number) : Option CanonicalString := do
  let text ← asText tree
  if fits : text.utf8ByteSize ≤ 1048576 then some ⟨text, fits⟩ else none

def asBool : Json Number → Option Bool
  | .bool value => some value
  | _ => none

/-- Read the field of a kind. -/
def ofFieldWire (tree : Json Number) : ValueTypeTag → Option Scalar
  | .string => (ofStringTree tree).map .string
  | .long => (ofTextTree LongValue.ofText tree).map .long
  | .double => (ofTextTree CanonicalDouble.ofHex tree).map .double
  | .boolean => (asBool tree).map .boolean
  | .date => (ofTextTree CanonicalDate.ofText tree).map .date
  | .dateTime => (ofTextTree CanonicalDateTime.ofText tree).map .dateTime
  | .dateTimeTz => (ofZonedWire backend tree).map .dateTimeTz
  | .decimal => (ofTextTree DecimalValue.ofText tree).map .decimal
  | .duration => (ofTextTree CanonicalDuration.ofText tree).map .duration

def ofScalarWire (tree : Json Number) : Option Scalar := do
  let (kind, fields) ← splitKind tree
  let name ← asText kind
  let valueType ← ofKindName name
  let field ← fields.single (fieldName valueType)
  ofFieldWire backend field valueType

/-! ## Declared shapes -/

/-- The members of a zone are those that are written. -/
def IsDeclaredZone (tree : Json Number) : Prop :=
  tree = .object [("kind", .string "utc")] ∨ (∃ seconds, tree =
      .object [("kind", .string "offset_seconds"), ("seconds", seconds)]) ∨
    ∃ name, tree = .object [("kind", .string "named"), ("name", name)]

/-- The members of a datetime with a zone are those that are written. -/
def IsDeclaredZoned (tree : Json Number) : Prop :=
  ∃ offset localTime zone, tree = .object [("effective_offset_seconds", offset),
      ("local", localTime), ("zone", zone)] ∧ IsDeclaredZone zone

/-- The field is written in the way of its kind. -/
def IsDeclaredField (tree : Json Number) : ValueTypeTag → Prop
  | .dateTimeTz => IsDeclaredZoned tree
  | .decimal => ∀ text, tree = .string text → DecimalValue.IsNormalText text.toList
  | _ => True

/-- The members of a scalar, in the order of their keys. -/
def declaredMembers (valueType : ValueTypeTag) (field : Json Number) :
    List (String × Json Number) :=
  match valueType with
  | .double => [("bits", field), ("kind", .string "double")]
  | other => [("kind", .string (kindName other)), ("value", field)]

/-- The tree has the members of a scalar, at each level, and no others. -/
def IsDeclared (tree : Json Number) : Prop :=
  ∃ valueType field, tree = .object (declaredMembers valueType field) ∧
    IsDeclaredField field valueType

section MapNumbers

variable {Other : Type} (change : Number → Other) {tree : Json Number}

theorem mapNumbers_eq_string_iff {text : String} :
    tree.mapNumbers change = .string text ↔ tree = .string text := by
  cases tree <;> simp [Json.mapNumbers]

theorem mapNumbers_eq_object_iff {others : List (String × Json Other)} :
    tree.mapNumbers change = .object others ↔
      ∃ members, tree = .object members ∧ members.map (Json.mapEntry change) = others := by
  cases tree with
  | object members => simp [Json.mapNumbers_object]
  | _ => simp [Json.mapNumbers]

theorem isDeclaredZone_mapNumbers_iff :
    IsDeclaredZone (tree.mapNumbers change) ↔ IsDeclaredZone tree := by
  constructor
  · rintro (same | ⟨seconds, same⟩ | ⟨name, same⟩) <;>
      obtain ⟨members, rfl, mapped⟩ := (mapNumbers_eq_object_iff change).mp same <;>
      simp only [List.map_eq_cons_iff, List.map_eq_nil_iff, Json.mapEntry, Prod.mk.injEq,
        mapNumbers_eq_string_iff] at mapped
    · obtain ⟨⟨_, _⟩, _, rfl, ⟨rfl, rfl⟩, rfl⟩ := mapped
      exact .inl rfl
    · obtain ⟨⟨_, _⟩, _, rfl, ⟨rfl, rfl⟩, ⟨_, _⟩, _, rfl, ⟨rfl, rfl⟩, rfl⟩ := mapped
      exact .inr (.inl ⟨_, rfl⟩)
    · obtain ⟨⟨_, _⟩, _, rfl, ⟨rfl, rfl⟩, ⟨_, _⟩, _, rfl, ⟨rfl, rfl⟩, rfl⟩ := mapped
      exact .inr (.inr ⟨_, rfl⟩)
  · rintro (rfl | ⟨seconds, rfl⟩ | ⟨name, rfl⟩)
    · exact .inl rfl
    · exact .inr (.inl ⟨_, rfl⟩)
    · exact .inr (.inr ⟨_, rfl⟩)

theorem isDeclaredZoned_mapNumbers_iff :
    IsDeclaredZoned (tree.mapNumbers change) ↔ IsDeclaredZoned tree := by
  constructor
  · rintro ⟨offset, localTime, zone, same, declared⟩
    obtain ⟨members, rfl, mapped⟩ := (mapNumbers_eq_object_iff change).mp same
    simp only [List.map_eq_cons_iff, List.map_eq_nil_iff, Json.mapEntry, Prod.mk.injEq] at mapped
    obtain ⟨⟨_, _⟩, _, rfl, ⟨rfl, rfl⟩, ⟨_, _⟩, _, rfl, ⟨rfl, rfl⟩,
      ⟨_, _⟩, _, rfl, ⟨rfl, rfl⟩, rfl⟩ := mapped
    exact ⟨_, _, _, rfl, (isDeclaredZone_mapNumbers_iff change).mp declared⟩
  · rintro ⟨offset, localTime, zone, rfl, declared⟩
    exact ⟨_, _, _, rfl, (isDeclaredZone_mapNumbers_iff change).mpr declared⟩

theorem isDeclaredField_mapNumbers_iff {valueType : ValueTypeTag} :
    IsDeclaredField (tree.mapNumbers change) valueType ↔ IsDeclaredField tree valueType := by
  cases valueType with
  | dateTimeTz => exact isDeclaredZoned_mapNumbers_iff change
  | decimal => simp only [IsDeclaredField, mapNumbers_eq_string_iff]
  | _ => exact Iff.rfl

theorem map_mapEntry_eq_declaredMembers_iff {members : List (String × Json Number)}
    {valueType : ValueTypeTag} {field : Json Other} :
    members.map (Json.mapEntry change) = declaredMembers valueType field ↔
      ∃ original, members = declaredMembers valueType original ∧
        original.mapNumbers change = field := by
  constructor
  · intro same
    cases valueType <;>
      simp only [declaredMembers, List.map_eq_cons_iff, List.map_eq_nil_iff, Json.mapEntry,
        Prod.mk.injEq, mapNumbers_eq_string_iff] at same <;>
      obtain ⟨⟨_, _⟩, _, rfl, ⟨rfl, rfl⟩, ⟨_, _⟩, _, rfl, ⟨rfl, rfl⟩, rfl⟩ := same <;>
      exact ⟨_, rfl, rfl⟩
  · rintro ⟨original, rfl, rfl⟩
    cases valueType <;> rfl

/-- The declared members do not depend on the numbers. -/
theorem isDeclared_mapNumbers_iff :
    IsDeclared (tree.mapNumbers change) ↔ IsDeclared tree := by
  constructor
  · rintro ⟨valueType, field, same, declared⟩
    obtain ⟨members, rfl, mapped⟩ := (mapNumbers_eq_object_iff change).mp same
    obtain ⟨original, rfl, rfl⟩ := (map_mapEntry_eq_declaredMembers_iff change).mp mapped
    exact ⟨valueType, original, rfl, (isDeclaredField_mapNumbers_iff change).mp declared⟩
  · rintro ⟨valueType, original, rfl, declared⟩
    refine ⟨valueType, original.mapNumbers change, ?_,
      (isDeclaredField_mapNumbers_iff change).mpr declared⟩
    rw [Json.mapNumbers_object, (map_mapEntry_eq_declaredMembers_iff change).mpr ⟨_, rfl, rfl⟩]

end MapNumbers

/-! ## Sorted members -/

def canonicalZoned (value : CanonicalDateTimeTz) : Json Number :=
  .object [("effective_offset_seconds", .number (backend.fromI64 value.effectiveOffsetSeconds)),
    ("local", textTree value.localTime.text), ("zone", zoneWire backend value.zone)]

def canonicalField : Scalar → Json Number
  | .dateTimeTz value => canonicalZoned backend value
  | other => fieldWire backend other

def canonicalScalar (scalar : Scalar) : Json Number :=
  .object (declaredMembers scalar.valueType (canonicalField backend scalar))

variable {backend}

theorem sortObjectKeys_zoneWire (zone : TimeZoneDesignator) :
    (zoneWire backend zone).sortObjectKeys = zoneWire backend zone := by
  cases zone <;> unfold zoneWire <;> rw [Json.sortObjectKeys_object] <;>
    simp [Json.sortedMembers, Json.sortEntry, Json.sortObjectKeys]

theorem sortObjectKeys_fieldWire (scalar : Scalar) :
    (fieldWire backend scalar).sortObjectKeys = canonicalField backend scalar := by
  cases scalar with
  | dateTimeTz value =>
    unfold fieldWire zonedWire canonicalField canonicalZoned
    rw [Json.sortObjectKeys_object]
    simp [Json.sortedMembers, Json.sortEntry, sortObjectKeys_zoneWire,
      Json.sortObjectKeys, textTree]
  | _ => rfl

theorem sortObjectKeys_scalarWire (scalar : Scalar) :
    (scalarWire backend scalar).sortObjectKeys = canonicalScalar backend scalar := by
  unfold scalarWire canonicalScalar
  rw [Json.sortObjectKeys_object]
  simp only [List.map_cons, List.map_nil, Json.sortEntry, sortObjectKeys_fieldWire]
  cases scalar <;> simp [Json.sortedMembers, Json.sortObjectKeys, Scalar.valueType,
      fieldName, declaredMembers, kindName]

/-! ## Reading what is declared -/

theorem ofKindName_kindName (valueType : ValueTypeTag) :
    ofKindName (kindName valueType) = some valueType := by
  cases valueType <;> rfl

theorem ofScalarWire_declaredMembers (valueType : ValueTypeTag) (field : Json Number) :
    ofScalarWire backend (.object (declaredMembers valueType field)) =
      ofFieldWire backend field valueType := by
  have kind : splitKind (.object (declaredMembers valueType field)) =
        some (.string (kindName valueType), .named [(fieldName valueType, field)]) := by
    cases valueType <;> simp [splitKind, declaredMembers, kindName, fieldName, List.lookup]
  have single : (Fields.named [(fieldName valueType, field)]).single
        (fieldName valueType) = some field := by simp [Fields.single]
  unfold ofScalarWire
  simp only [kind, asText, ofKindName_kindName, single, Option.bind_eq_bind, Option.bind_some]

variable {Value : Type}

theorem ofTextTree_textTree (read : List Char → Option Value) (characters : List Char) :
    ofTextTree read (textTree characters : Json Number) = read characters := by
  unfold ofTextTree textTree
  simp [asText]

variable {read : List Char → Option Value} {tree : Json Number} {value : Value}

theorem exists_text_of_ofTextTree (reads : ofTextTree read tree = some value) :
    ∃ text, tree = .string text ∧ read text.toList = some value := by
  cases tree with
  | string text => exact ⟨text, rfl, reads⟩
  | _ => exact absurd reads (by simp [ofTextTree, asText])

theorem textTree_of_ofTextTree {write : Value → List Char}
    (writes : ∀ {text value}, read text = some value → write value = text)
    (reads : ofTextTree read tree = some value) : textTree (write value) = tree := by
  obtain ⟨text, rfl, readsText⟩ := exists_text_of_ofTextTree reads
  unfold textTree
  rw [writes readsText, String.ofList_toList]

end Wire

/-! ## Zones -/

def NumberBackend.KeepsSmall (backend : NumberBackend Number Double) : Prop :=
  ∀ integer, -2 ^ 31 ≤ integer → integer < 2 ^ 31 →
    backend.asI64 (backend.fromI64 integer) = some integer

section Zones

variable {backend : NumberBackend Number Double} {integer : Int}

theorem asI32_fromI64 (keeps : backend.KeepsSmall) (bounded : integer.natAbs ≤ 86399) :
    asI32 backend (.number (backend.fromI64 integer)) = some integer := by
  simp only [asI32]
  rw [keeps integer (by omega) (by omega), Option.filter_some,
    if_pos (decide_eq_true ⟨by omega, by omega⟩)]

variable {tree : Json Number} {object : List (String × Json Number) → Prop}

theorem number_of_asI32 (normal : tree.Every backend.IsNormal object)
    (reads : asI32 backend tree = some integer) : .number (backend.fromI64 integer) = tree := by
  cases tree with
  | number value =>
    simp only [asI32, Option.filter_eq_some_iff] at reads
    have isNormal : backend.normalize value = some value := normal
    unfold NumberBackend.normalize at isNormal
    rw [reads.1] at isNormal
    rw [Option.some.inj isNormal]
  | _ => exact absurd reads (by simp [asI32])

theorem ofZoneWire_utc : ofZoneWire backend (.object [("kind", .string "utc")]) = some .utc := by
  simp [ofZoneWire, splitKind, ofZoneKind, ofZoneFields, Fields.noField]

theorem ofZoneWire_offsetSeconds (seconds : Json Number) :
    ofZoneWire backend (.object [("kind", .string "offset_seconds"), ("seconds", seconds)]) =
      (asI32 backend seconds).map .offsetSeconds := by
  simp [ofZoneWire, splitKind, ofZoneKind, ofZoneFields, Fields.single]

theorem ofZoneWire_named (name : Json Number) :
    ofZoneWire backend (.object [("kind", .string "named"), ("name", name)]) =
      (asText name).map .named := by
  simp [ofZoneWire, splitKind, ofZoneKind, ofZoneFields, Fields.single]

theorem ofZoneWire_zoneWire (keeps : backend.KeepsSmall) (value : CanonicalDateTimeTz) :
    ofZoneWire backend (zoneWire backend value.zone) = some value.zone := by
  obtain ⟨localTime, zone, offset, selected⟩ := value
  cases zone with
  | utc => exact ofZoneWire_utc
  | offsetSeconds seconds =>
    refine (ofZoneWire_offsetSeconds _).trans ?_
    rw [asI32_fromI64 keeps selected.2.2]
    rfl
  | named name => exact ofZoneWire_named _

theorem zoneWire_of_ofZoneWire (normal : tree.Every backend.IsNormal object)
    (declared : IsDeclaredZone tree) {zone : TimeZoneDesignator}
    (reads : ofZoneWire backend tree = some zone) : zoneWire backend zone = tree := by
  rcases declared with rfl | ⟨seconds, rfl⟩ | ⟨name, rfl⟩
  · rw [ofZoneWire_utc] at reads
    obtain rfl := Option.some.inj reads
    rfl
  · rw [ofZoneWire_offsetSeconds] at reads
    obtain ⟨integer, readsInteger, rfl⟩ := Option.map_eq_some_iff.mp reads
    have isNumber : seconds.Every backend.IsNormal object :=
      (Json.every_object_iff.mp normal).2 ("seconds", seconds) (by simp)
    simp only [zoneWire]
    rw [number_of_asI32 isNumber readsInteger]
  · rw [ofZoneWire_named] at reads
    obtain ⟨text, readsText, rfl⟩ := Option.map_eq_some_iff.mp reads
    cases name with
    | string name =>
      obtain rfl := Option.some.inj readsText
      rfl
    | _ => exact absurd readsText (by simp [asText])

theorem isDeclaredZone_zoneWire (zone : TimeZoneDesignator) :
    IsDeclaredZone (zoneWire backend zone) := by
  cases zone with
  | utc => exact .inl rfl
  | offsetSeconds seconds => exact .inr (.inl ⟨_, rfl⟩)
  | named name => exact .inr (.inr ⟨_, rfl⟩)

theorem ofZonedWire_object (offset localTime zone : Json Number) : ofZonedWire backend
        (.object [("effective_offset_seconds", offset), ("local", localTime), ("zone", zone)]) =
      (do
        let readLocal ← ofTextTree CanonicalDateTime.ofText localTime
        let readZone ← ofZoneWire backend zone
        let readOffset ← asI32 backend offset
        CanonicalDateTimeTz.ofParts readLocal readZone readOffset) := by
  simp [ofZonedWire, zonedFields, List.lookup]

theorem ofZonedWire_canonicalZoned (keeps : backend.KeepsSmall) (value : CanonicalDateTimeTz) :
    ofZonedWire backend (canonicalZoned backend value) = some value := by
  refine (ofZonedWire_object _ _ _).trans ?_
  rw [ofTextTree_textTree, CanonicalDateTime.ofText_text, ofZoneWire_zoneWire keeps,
    asI32_fromI64 keeps value.natAbs_effectiveOffsetSeconds_le]
  exact value.ofParts_parts

theorem canonicalZoned_of_ofZonedWire (normal : tree.Every backend.IsNormal object)
    (declared : IsDeclaredZoned tree) {value : CanonicalDateTimeTz}
    (reads : ofZonedWire backend tree = some value) : canonicalZoned backend value = tree := by
  obtain ⟨offset, localTime, zone, rfl, zoneDeclared⟩ := declared
  have values := (Json.every_object_iff.mp normal).2
  have offsetNormal : offset.Every backend.IsNormal object :=
    values ("effective_offset_seconds", offset) (by simp)
  have zoneNormal : zone.Every backend.IsNormal object := values ("zone", zone) (by simp)
  rw [ofZonedWire_object] at reads
  simp only [Option.bind_eq_bind, Option.bind_eq_some_iff] at reads
  obtain ⟨readLocal, readsLocal, readZone, readsZone, readOffset, readsOffset, built⟩ := reads
  obtain ⟨rfl, rfl, rfl⟩ := CanonicalDateTimeTz.parts_of_ofParts built
  unfold canonicalZoned
  rw [number_of_asI32 offsetNormal readsOffset,
    textTree_of_ofTextTree CanonicalDateTime.text_of_ofText readsLocal,
    zoneWire_of_ofZoneWire zoneNormal zoneDeclared readsZone]

/-! ## Fields -/

theorem ofFieldWire_canonicalField (keeps : backend.KeepsSmall) (scalar : Scalar) :
    ofFieldWire backend (canonicalField backend scalar) scalar.valueType = some scalar := by
  cases scalar with
  | string text =>
    simp only [Scalar.valueType, ofFieldWire, canonicalField, fieldWire,
      ofStringTree, asText, Option.bind_eq_bind, Option.bind_some]
    rw [dif_pos text.2]
    rfl
  | long value =>
    simp [Scalar.valueType, ofFieldWire, canonicalField, fieldWire,
      ofTextTree_textTree, LongValue.ofText_text]
  | double value =>
    simp [Scalar.valueType, ofFieldWire, canonicalField, fieldWire,
      ofTextTree_textTree, CanonicalDouble.ofHex_bitsHex]
  | boolean value => rfl
  | date value =>
    simp [Scalar.valueType, ofFieldWire, canonicalField, fieldWire,
      ofTextTree_textTree, CanonicalDate.ofText_text]
  | dateTime value =>
    simp [Scalar.valueType, ofFieldWire, canonicalField, fieldWire,
      ofTextTree_textTree, CanonicalDateTime.ofText_text]
  | dateTimeTz value =>
    simp [Scalar.valueType, ofFieldWire, canonicalField, ofZonedWire_canonicalZoned keeps]
  | decimal value =>
    simp [Scalar.valueType, ofFieldWire, canonicalField, fieldWire,
      ofTextTree_textTree, DecimalValue.ofText_text]
  | duration value =>
    simp [Scalar.valueType, ofFieldWire, canonicalField, fieldWire,
      ofTextTree_textTree, CanonicalDuration.ofText_text]

variable {scalar : Scalar}

theorem canonicalField_of_ofFieldWire {field : Json Number}
    (normal : field.Every backend.IsNormal object) {valueType : ValueTypeTag}
    (declared : IsDeclaredField field valueType)
    (reads : ofFieldWire backend field valueType = some scalar) :
    scalar.valueType = valueType ∧ canonicalField backend scalar = field := by
  cases valueType with
  | string =>
    obtain ⟨text, readsText, rfl⟩ := Option.map_eq_some_iff.mp reads
    refine ⟨rfl, ?_⟩
    cases field with
    | string written =>
      simp only [ofStringTree, asText, Option.bind_eq_bind, Option.bind_some] at readsText
      split_ifs at readsText
      obtain rfl := Option.some.inj readsText
      rfl
    | _ => exact absurd readsText (by simp [ofStringTree, asText])
  | long =>
    obtain ⟨value, readsValue, rfl⟩ := Option.map_eq_some_iff.mp reads
    exact ⟨rfl, textTree_of_ofTextTree LongValue.text_of_ofText readsValue⟩
  | double =>
    obtain ⟨value, readsValue, rfl⟩ := Option.map_eq_some_iff.mp reads
    exact ⟨rfl, textTree_of_ofTextTree CanonicalDouble.bitsHex_of_ofHex readsValue⟩
  | boolean =>
    obtain ⟨value, readsValue, rfl⟩ := Option.map_eq_some_iff.mp reads
    refine ⟨rfl, ?_⟩
    cases field with
    | bool written =>
      obtain rfl := Option.some.inj readsValue
      rfl
    | _ => exact absurd readsValue (by simp [asBool])
  | date =>
    obtain ⟨value, readsValue, rfl⟩ := Option.map_eq_some_iff.mp reads
    exact ⟨rfl, textTree_of_ofTextTree CanonicalDate.text_of_ofText readsValue⟩
  | dateTime =>
    obtain ⟨value, readsValue, rfl⟩ := Option.map_eq_some_iff.mp reads
    exact ⟨rfl, textTree_of_ofTextTree CanonicalDateTime.text_of_ofText readsValue⟩
  | dateTimeTz =>
    obtain ⟨value, readsValue, rfl⟩ := Option.map_eq_some_iff.mp reads
    exact ⟨rfl, canonicalZoned_of_ofZonedWire normal declared readsValue⟩
  | decimal =>
    obtain ⟨value, readsValue, rfl⟩ := Option.map_eq_some_iff.mp reads
    obtain ⟨text, rfl, readsText⟩ := exists_text_of_ofTextTree readsValue
    have written := (DecimalValue.text_eq_iff_isNormalText readsText).mpr (declared text rfl)
    refine ⟨rfl, ?_⟩
    change textTree value.text = _
    unfold textTree
    rw [written, String.ofList_toList]
  | duration =>
    obtain ⟨value, readsValue, rfl⟩ := Option.map_eq_some_iff.mp reads
    exact ⟨rfl, textTree_of_ofTextTree CanonicalDuration.text_of_ofText readsValue⟩

theorem isDeclared_canonicalScalar (scalar : Scalar) :
    IsDeclared (canonicalScalar backend scalar) := by
  refine ⟨scalar.valueType, canonicalField backend scalar, rfl, ?_⟩
  cases scalar with
  | dateTimeTz value => exact ⟨_, _, _, rfl, isDeclaredZone_zoneWire value.zone⟩
  | decimal value =>
    intro text same
    obtain rfl := Json.string.inj same
    rw [String.toList_ofList]
    exact value.isNormalText_text
  | _ => trivial

theorem canonicalScalar_eq_iff (normal : tree.Every backend.IsNormal object)
    (reads : ofScalarWire backend tree = some scalar) :
    canonicalScalar backend scalar = tree ↔ IsDeclared tree := by
  constructor
  · rintro rfl
    exact isDeclared_canonicalScalar scalar
  · rintro ⟨valueType, field, rfl, declared⟩
    rw [ofScalarWire_declaredMembers] at reads
    have fieldNormal : field.Every backend.IsNormal object := by
      refine (Json.every_object_iff.mp normal).2 (fieldName valueType, field) ?_
      cases valueType <;> simp [declaredMembers, fieldName]
    obtain ⟨rfl, same⟩ := canonicalField_of_ofFieldWire fieldNormal declared reads
    unfold canonicalScalar
    rw [same]

theorem ofScalarWire_canonicalScalar (keeps : backend.KeepsSmall) (scalar : Scalar) :
    ofScalarWire backend (canonicalScalar backend scalar) = some scalar :=
  (ofScalarWire_declaredMembers _ _).trans (ofFieldWire_canonicalField keeps scalar)

end Zones

/-! ## Sizes -/

mutual

/-- A bound on the bytes of a printed tree.

A string takes at most six bytes for each of its bytes, next to its quotes, and
a number that was converted from a machine number takes at most 32 bytes. -/
def textBound : Json Number → Nat
  | .null => 4
  | .bool _ => 5
  | .number _ => 32
  | .string text => 6 * text.utf8ByteSize + 2
  | .array elements => elementsBound elements + 2
  | .object members => membersBound members + 2

def elementsBound : List (Json Number) → Nat
  | [] => 0
  | element :: rest => textBound element + 1 + elementsBound rest

def membersBound : List (String × Json Number) → Nat
  | [] => 0
  | (key, value) :: rest => 6 * key.utf8ByteSize + 2 + 1 + textBound value + 1 + membersBound rest

end

/-- The printer and the parser of the JSON library, with what scalars need.

Small integers are read back, and a canonical tree is printed within its
bound. -/
structure ScalarJsonText (backend : NumberBackend Number Double) (Bytes : Type)
    extends JsonText backend Bytes where
  keepsSmall : backend.KeepsSmall
  size_print : ∀ tree : Json Number, IsCanonical backend tree → size (print tree) ≤ textBound tree

section Sizes

variable {backend : NumberBackend Number Double}

theorem utf8ByteSize_text_le {characters : List Char} (short : characters.length ≤ 80) :
    (String.ofList characters).utf8ByteSize ≤ 320 := by
  have bytes := utf8ByteSize_ofList_le characters
  omega

theorem canonicalField_cases (backend : NumberBackend Number Double) (scalar : Scalar) :
    (∃ text, canonicalField backend scalar = .string text ∧
        fieldWire backend scalar = .string text ∧ text.utf8ByteSize ≤ 1048576) ∨
      (∃ value, canonicalField backend scalar = .bool value ∧
        fieldWire backend scalar = .bool value) ∨ ∃ value, scalar = .dateTimeTz value := by
  have ofText : ∀ characters : List Char, characters.length ≤ 80 →
        canonicalField backend scalar = textTree characters →
        fieldWire backend scalar = textTree characters →
          ∃ text, canonicalField backend scalar = .string text ∧
            fieldWire backend scalar = .string text ∧ text.utf8ByteSize ≤ 1048576 := by
    intro characters short canonical written
    exact ⟨_, canonical, written, (utf8ByteSize_text_le short).trans (by decide)⟩
  cases scalar with
  | string text => exact .inl ⟨text.1, rfl, rfl, text.2⟩
  | long value => exact .inl (ofText _ ((LongValue.length_text_le value).trans (by decide)) rfl rfl)
  | double value => exact .inl (ofText _ (value.length_bitsHex.le.trans (by decide)) rfl rfl)
  | boolean value => exact .inr (.inl ⟨value, rfl, rfl⟩)
  | date value | dateTime value | decimal value =>
    exact .inl (ofText _ (value.length_text_le.trans (by decide)) rfl rfl)
  | dateTimeTz value => exact .inr (.inr ⟨value, rfl⟩)
  | duration value => exact .inl (ofText _ value.length_text_le rfl rfl)

theorem isNormal_fromI64 (keeps : backend.KeepsSmall) {integer : Int}
    (bounded : integer.natAbs ≤ 86399) : backend.IsNormal (backend.fromI64 integer) := by
  unfold NumberBackend.IsNormal NumberBackend.normalize
  rw [keeps integer (by omega) (by omega)]

theorem isValue_zoneWire (keeps : backend.KeepsSmall) (value : CanonicalDateTimeTz) :
    IsValue backend (zoneWire backend value.zone) := by
  obtain ⟨localTime, zone, offset, selected⟩ := value
  cases zone with
  | utc => exact ⟨by simp [Json.DistinctKeys], trivial, trivial⟩
  | offsetSeconds seconds =>
    exact ⟨by simp [Json.DistinctKeys], trivial, isNormal_fromI64 keeps selected.2.2, trivial⟩
  | named name => exact ⟨by simp [Json.DistinctKeys], trivial, trivial, trivial⟩

theorem isValue_scalarWire (keeps : backend.KeepsSmall) (scalar : Scalar) :
    IsValue backend (scalarWire backend scalar) := by
  have keys : Json.DistinctKeys [("kind", Json.string (kindName scalar.valueType)),
          (fieldName scalar.valueType, fieldWire backend scalar)] := by
    cases scalar <;> simp [Json.DistinctKeys, Scalar.valueType, fieldName]
  have field : IsValue backend (fieldWire backend scalar) := by
    rcases canonicalField_cases backend scalar with
      ⟨text, -, written, -⟩ | ⟨value, -, written⟩ | ⟨value, rfl⟩
    · rw [written]
      trivial
    · rw [written]
      trivial
    · exact ⟨by simp [Json.DistinctKeys], trivial, isValue_zoneWire keeps value,
        isNormal_fromI64 keeps value.natAbs_effectiveOffsetSeconds_le, trivial⟩
  exact ⟨keys, trivial, field, trivial⟩

theorem isInteger_fromI64 (keeps : backend.KeepsSmall) {integer : Int}
    (bounded : integer.natAbs ≤ 86399) : backend.IsInteger (backend.fromI64 integer) := by
  refine Or.inl ?_
  rw [keeps integer (by omega) (by omega)]
  rfl

/-- The tree of a scalar holds no doubles: they are written by their bits. -/
theorem hasIntegers_canonicalScalar (keeps : backend.KeepsSmall) (scalar : Scalar) :
    HasIntegers backend (canonicalScalar backend scalar) := by
  have field : HasIntegers backend (canonicalField backend scalar) := by
    rcases canonicalField_cases backend scalar with
      ⟨text, canonical, -, -⟩ | ⟨value, canonical, -⟩ | ⟨value, rfl⟩
    · rw [canonical]
      trivial
    · rw [canonical]
      trivial
    · refine ⟨trivial, isInteger_fromI64 keeps value.natAbs_effectiveOffsetSeconds_le, trivial,
        ?_, trivial⟩
      obtain ⟨localTime, zone, offset, selected⟩ := value
      cases zone with
      | utc => exact ⟨trivial, trivial, trivial⟩
      | offsetSeconds seconds =>
        exact ⟨trivial, trivial, isInteger_fromI64 keeps selected.2.2, trivial⟩
      | named name => exact ⟨trivial, trivial, trivial, trivial⟩
  unfold canonicalScalar HasIntegers
  rw [Json.every_object_iff]
  refine ⟨trivial, ?_⟩
  unfold HasIntegers at field
  cases scalar.valueType <;> simp [declaredMembers, Json.Every, field]

variable {depth : Nat}

theorem inspect_string {text : String} (shallow : depth ≤ 64) (fits : text.utf8ByteSize ≤ 1048576) :
    canonicalCodecLimits.inspect depth (.string text : Json Number) = .ok () := by
  simp only [CodecLimits.inspect, CodecLimits.ensureDepth,
    CodecLimits.ensureString, Checked.check_bind_eq_ok, Checked.ensure_eq_ok]
  exact ⟨shallow, fits⟩

theorem inspect_number (value : Number) (shallow : depth ≤ 64) :
    canonicalCodecLimits.inspect depth (.number value : Json Number) = .ok () :=
  Checked.ensure_eq_ok.mpr shallow

theorem inspect_bool (value : Bool) (shallow : depth ≤ 64) :
    canonicalCodecLimits.inspect depth (.bool value : Json Number) = .ok () :=
  Checked.ensure_eq_ok.mpr shallow

theorem utf8ByteSize_zone_le (value : CanonicalDateTimeTz) {name : String}
    (named : value.zone = .named name) : name.utf8ByteSize ≤ 255 := by
  have selected := value.selected
  rw [named] at selected
  exact selected.1.2.1

theorem inspect_zoneWire (value : CanonicalDateTimeTz) :
    canonicalCodecLimits.inspect 3 (zoneWire backend value.zone) = .ok () := by
  have kind : ∀ text : String, text.utf8ByteSize ≤ 255 →
        canonicalCodecLimits.inspect 4 (.string text : Json Number) = .ok () := fun text short =>
    inspect_string (by decide) (short.trans (by decide))
  cases zone : value.zone with
  | utc =>
    refine CodecLimits.inspect_object_iff.mpr ⟨by decide, by simp [canonicalCodecLimits], ?_⟩
    simp only [List.forall_mem_cons, List.not_mem_nil, false_implies, implies_true, and_true]
    exact ⟨by decide, kind _ (by decide)⟩
  | offsetSeconds seconds =>
    refine CodecLimits.inspect_object_iff.mpr ⟨by decide, by simp [canonicalCodecLimits], ?_⟩
    simp only [List.forall_mem_cons, List.not_mem_nil, false_implies, implies_true, and_true]
    exact ⟨⟨by decide, kind _ (by decide)⟩, by decide, inspect_number _ (by decide)⟩
  | named name =>
    refine CodecLimits.inspect_object_iff.mpr ⟨by decide, by simp [canonicalCodecLimits], ?_⟩
    simp only [List.forall_mem_cons, List.not_mem_nil, false_implies, implies_true, and_true]
    exact ⟨⟨by decide, kind _ (by decide)⟩, by decide, kind _ (utf8ByteSize_zone_le value zone)⟩

theorem inspect_canonicalScalar (scalar : Scalar) :
    canonicalCodecLimits.inspect 1 (canonicalScalar backend scalar) = .ok () := by
  have field : canonicalCodecLimits.inspect 2 (canonicalField backend scalar) = .ok () := by
    rcases canonicalField_cases backend scalar with
      ⟨text, canonical, -, fits⟩ | ⟨value, canonical, -⟩ | ⟨value, rfl⟩
    · rw [canonical]
      exact inspect_string (by decide) fits
    · rw [canonical]
      exact inspect_bool _ (by decide)
    · refine CodecLimits.inspect_object_iff.mpr ⟨by decide, by simp [canonicalCodecLimits], ?_⟩
      simp only [List.forall_mem_cons, List.not_mem_nil, false_implies, implies_true, and_true]
      have localTime := utf8ByteSize_text_le (value.localTime.length_text_le.trans (by decide))
      exact ⟨⟨by decide, inspect_number _ (by decide)⟩, ⟨by decide, inspect_string (by decide)
          (localTime.trans (by decide))⟩, by decide, inspect_zoneWire value⟩
  have kind : canonicalCodecLimits.inspect 2
        (.string (kindName scalar.valueType) : Json Number) = .ok () := by
    refine inspect_string (by decide) ?_
    cases scalar.valueType <;> decide
  refine CodecLimits.inspect_object_iff.mpr ⟨by decide, ?_, ?_⟩
  · cases scalar.valueType <;> simp [declaredMembers, canonicalCodecLimits]
  · cases valueType : scalar.valueType <;>
      simp only [declaredMembers, List.forall_mem_cons, List.not_mem_nil,
        false_implies, implies_true, and_true] <;> rw [valueType] at kind <;> first
      | exact ⟨⟨by decide, kind⟩, by decide, field⟩
      | exact ⟨⟨by decide, field⟩, by decide, kind⟩

theorem notReserved_canonicalScalar (scalar : Scalar) :
    (canonicalScalar backend scalar).Every (fun _ => True)
      (NotReserved arbitraryPrecisionNumberKey) := by
  have zone : ∀ zone, (zoneWire backend zone).Every (fun _ => True)
      (NotReserved arbitraryPrecisionNumberKey) := by
    intro zone
    cases zone <;> simp [zoneWire, Json.Every, Json.EveryMember, NotReserved,
        arbitraryPrecisionNumberKey]
  have field : (canonicalField backend scalar).Every (fun _ => True)
      (NotReserved arbitraryPrecisionNumberKey) := by
    rcases canonicalField_cases backend scalar with
      ⟨text, canonical, -, -⟩ | ⟨value, canonical, -⟩ | ⟨value, rfl⟩
    · rw [canonical]
      trivial
    · rw [canonical]
      trivial
    · refine ⟨?_, trivial, trivial, zone value.zone, trivial⟩
      simp [NotReserved, arbitraryPrecisionNumberKey]
  unfold canonicalScalar
  rw [Json.every_object_iff]
  constructor
  · cases scalar.valueType <;> simp [declaredMembers, NotReserved, arbitraryPrecisionNumberKey]
  · cases scalar.valueType <;> simp [declaredMembers, field, Json.Every]

theorem textBound_zoneWire_le (backend : NumberBackend Number Double)
    (value : CanonicalDateTimeTz) : textBound (zoneWire backend value.zone) ≤ 2000 := by
  have kind : "kind".utf8ByteSize = 4 := by decide
  cases zone : value.zone with
  | utc =>
    have utc : "utc".utf8ByteSize = 3 := by decide
    simp only [zoneWire, textBound, membersBound, kind, utc]
    decide
  | offsetSeconds seconds =>
    have offset : "offset_seconds".utf8ByteSize = 14 := by decide
    have unit : "seconds".utf8ByteSize = 7 := by decide
    simp only [zoneWire, textBound, membersBound, kind, offset, unit]
    decide
  | named name =>
    have short := utf8ByteSize_zone_le value zone
    have named : "named".utf8ByteSize = 5 := by decide
    have field : "name".utf8ByteSize = 4 := by decide
    simp only [zoneWire, textBound, membersBound, kind, named, field]
    omega

theorem textBound_canonicalField_le (backend : NumberBackend Number Double) (scalar : Scalar) :
    textBound (canonicalField backend scalar) ≤ 6 * 1048576 + 10000 := by
  rcases canonicalField_cases backend scalar with
    ⟨text, canonical, -, fits⟩ | ⟨value, canonical, -⟩ | ⟨value, rfl⟩
  · rw [canonical, textBound]
    omega
  · rw [canonical, textBound]
    decide
  · have offset : "effective_offset_seconds".utf8ByteSize = 24 := by decide
    have zone : "zone".utf8ByteSize = 4 := by decide
    have isLocal : "local".utf8ByteSize = 5 := by decide
    have zoneBound := textBound_zoneWire_le backend value
    have localBound := utf8ByteSize_text_le (value.localTime.length_text_le.trans (by decide))
    simp only [canonicalField, canonicalZoned, textTree, textBound,
      membersBound, offset, zone, isLocal]
    omega

theorem textBound_canonicalScalar_le (scalar : Scalar) :
    textBound (canonicalScalar backend scalar) ≤ canonicalCodecLimits.maxBytes := by
  have field := textBound_canonicalField_le backend scalar
  have kind : "kind".utf8ByteSize = 4 := by decide
  have value : "value".utf8ByteSize = 5 := by decide
  have bits : "bits".utf8ByteSize = 4 := by decide
  have double : "double".utf8ByteSize = 6 := by decide
  have name : (kindName scalar.valueType).utf8ByteSize ≤ 11 := by cases scalar.valueType <;> decide
  unfold canonicalScalar
  cases valueType : scalar.valueType <;> rw [valueType] at name <;>
    simp only [declaredMembers, textBound, membersBound, kind, value, bits,
      double, canonicalCodecLimits] <;> omega

end Sizes

/-! ## The codec of scalars -/

section ScalarCodec

variable {backend : NumberBackend Number Double}

/-- Encode a scalar. -/
def encodeScalar (text : ScalarJsonText backend Bytes) (scalar : Scalar) :
    Except Diagnostic Bytes :=
  toCanonicalJson text.toJsonText (scalarWire backend scalar)

/-- Decode exact canonical bytes to a scalar. -/
def decodeScalar [DecidableEq Bytes] (text : ScalarJsonText backend Bytes) (bytes : Bytes) :
    Except Diagnostic Scalar := do
  let tree ← readCanonical text.toJsonText bytes
  match ofScalarWire backend tree with
  | some scalar => .ok scalar
  | none => .error ⟨"invalid_canonical_value"⟩

variable {text : ScalarJsonText backend Bytes}

theorem isCanonical_canonicalScalar (text : ScalarJsonText backend Bytes) (scalar : Scalar) :
    IsCanonical backend (canonicalScalar backend scalar) ∧
      text.size (text.print (canonicalScalar backend scalar)) ≤ canonicalCodecLimits.maxBytes := by
  have canonical : IsCanonical backend (canonicalScalar backend scalar) := by
    rw [← sortObjectKeys_scalarWire]
    exact Json.every_sortObjectKeys (isValue_scalarWire text.keepsSmall scalar)
  exact ⟨canonical, (text.size_print _ canonical).trans (textBound_canonicalScalar_le scalar)⟩

variable {scalar : Scalar} {bytes : Bytes}

theorem encodeScalar_eq_ok_iff :
    encodeScalar text scalar = .ok bytes ↔ text.print (canonicalScalar backend scalar) = bytes := by
  obtain ⟨-, fits⟩ := isCanonical_canonicalScalar text scalar
  unfold encodeScalar
  rw [toCanonicalJson_value_iff (isValue_scalarWire text.keepsSmall scalar),
    sortObjectKeys_scalarWire]
  exact ⟨fun encoded => encoded.2.2, fun printed => ⟨inspect_canonicalScalar scalar, fits, printed⟩⟩

theorem decodeScalar_eq_ok_iff [DecidableEq Bytes] : decodeScalar text bytes = .ok scalar ↔
      ∃ tree, readCanonical text.toJsonText bytes = .ok tree ∧
        ofScalarWire backend tree = some scalar := by
  unfold decodeScalar
  rw [Checked.bind_eq_ok]
  refine exists_congr fun tree => and_congr_right fun _ => ?_
  cases ofScalarWire backend tree <;> simp

theorem exists_decodeScalar_encodeScalar [DecidableEq Bytes] (text : ScalarJsonText backend Bytes)
    (scalar : Scalar) :
    ∃ bytes, encodeScalar text scalar = .ok bytes ∧ decodeScalar text bytes = .ok scalar := by
  obtain ⟨canonical, fits⟩ := isCanonical_canonicalScalar text scalar
  refine ⟨_, encodeScalar_eq_ok_iff.mpr rfl, decodeScalar_eq_ok_iff.mpr
    ⟨canonicalScalar backend scalar, ?_, ?_⟩⟩
  · exact readCanonical_print canonical (hasIntegers_canonicalScalar text.keepsSmall scalar)
      (notReserved_canonicalScalar scalar) (inspect_canonicalScalar scalar) fits
  · exact ofScalarWire_canonicalScalar text.keepsSmall scalar

theorem encodeScalar_of_decodeScalar_iff [DecidableEq Bytes] {tree : Json Number}
    (parses : text.parse bytes = some tree) (decoded : decodeScalar text bytes = .ok scalar) :
    encodeScalar text scalar = .ok bytes ↔ IsDeclared tree := by
  obtain ⟨read, readRun, reads⟩ := decodeScalar_eq_ok_iff.mp decoded
  obtain ⟨⟨canonical, -, -, -, printed⟩, parsed, parses', same⟩ := of_readCanonical readRun
  cases parses.symm.trans parses'
  rw [encodeScalar_eq_ok_iff]
  constructor
  · intro encoded
    -- The tree of the scalar holds integers only, so it is the one that was parsed.
    have reparsed := parse_print_of_integers text.toJsonText
      (isCanonical_canonicalScalar text scalar).1
      (hasIntegers_canonicalScalar text.keepsSmall scalar) (inspect_canonicalScalar scalar)
    rw [encoded, parses] at reparsed
    obtain rfl := Option.some.inj reparsed
    exact isDeclared_canonicalScalar scalar
  · intro declared
    have readDeclared : IsDeclared read := by
      rwa [← isDeclared_mapNumbers_iff backend.integer?, ← same, isDeclared_mapNumbers_iff]
    rw [(canonicalScalar_eq_iff canonical reads).mpr readDeclared, printed]

end ScalarCodec

/-- Scalars have one encoding among the texts of declared trees.

A text that is decoded is the encoding of the result exactly if its tree has
the declared members and no others, at each level, with a normal text of a
decimal. Two such texts of one scalar are equal. Every scalar is decoded from
its encoding. -/
theorem scalar_encoding_iff {Number Double Bytes : Type} [DecidableEq Bytes]
    {backend : NumberBackend Number Double} (text : ScalarJsonText backend Bytes) :
    (∀ bytes tree scalar, text.parse bytes = some tree → decodeScalar text bytes = .ok scalar →
        (encodeScalar text scalar = .ok bytes ↔ IsDeclared tree)) ∧
      (∀ bytes other tree otherTree scalar, text.parse bytes = some tree →
        text.parse other = some otherTree → decodeScalar text bytes = .ok scalar →
            decodeScalar text other = .ok scalar →
              IsDeclared tree → IsDeclared otherTree → bytes = other) ∧
      ∀ scalar, ∃ bytes, encodeScalar text scalar = .ok bytes ∧
        decodeScalar text bytes = .ok scalar := by
  refine ⟨?_, ?_, exists_decodeScalar_encodeScalar text⟩
  · intro bytes tree scalar parses decoded
    exact encodeScalar_of_decodeScalar_iff parses decoded
  · intro bytes other tree otherTree scalar parses otherParses decoded
      otherDecoded declared otherDeclared
    have encoded :=
      (encodeScalar_of_decodeScalar_iff parses decoded).mpr declared
    have otherEncoded :=
      (encodeScalar_of_decodeScalar_iff otherParses otherDecoded).mpr otherDeclared
    exact Except.ok.inj (encoded.symm.trans otherEncoded)

/-! ## Further encodings -/

def scalarTreeText : ScalarJsonText machineBackend (Json MachineNumber) where
  toJsonText := treeText
  keepsSmall := by
    intro integer above below
    change MachineNumber.asI64 (MachineNumber.fromI64 integer) = some integer
    unfold MachineNumber.fromI64
    split_ifs with negative
    · rfl
    · simp only [MachineNumber.asI64]
      rw [if_pos (by omega)]
      exact congrArg some (Int.toNat_of_nonneg (by omega))
  size_print _ _ := Nat.zero_le _

/-- A boolean with a member that is not declared. -/
def booleanWithExtra : Json MachineNumber :=
  .object [("extra", .null), ("kind", .string "boolean"), ("value", .bool true)]

/-- A decimal with zeros that the normal form has not. -/
def paddedDecimal : Json MachineNumber :=
  .object [("kind", .string "decimal"), ("value", .string "01.50")]

theorem exists_decodeScalar_treeText [DecidableEq (Json MachineNumber)] {tree : Json MachineNumber}
    (canonical : IsCanonical machineBackend tree)
    (integers : HasIntegers machineBackend tree)
    (notReserved : tree.Every (fun _ => True) (NotReserved arbitraryPrecisionNumberKey))
    (within : canonicalCodecLimits.inspect 1 tree = .ok ())
    (reads : (ofScalarWire machineBackend tree).isSome) :
    ∃ scalar, decodeScalar scalarTreeText tree = .ok scalar := by
  obtain ⟨scalar, isScalar⟩ := Option.isSome_iff_exists.mp reads
  refine ⟨scalar, decodeScalar_eq_ok_iff.mpr ⟨tree, ?_, isScalar⟩⟩
  exact readCanonical_print canonical integers notReserved within (Nat.zero_le _)

theorem booleanWithExtra_accepted [DecidableEq (Json MachineNumber)] :
    ∃ scalar, decodeScalar scalarTreeText booleanWithExtra = .ok scalar ∧
      encodeScalar scalarTreeText scalar ≠ .ok booleanWithExtra := by
  have increasing : Json.IncreasingKeys [("extra", Json.null), ("kind", .string "boolean"),
          ("value", (.bool true : Json MachineNumber))] := by
    unfold Json.IncreasingKeys
    decide
  obtain ⟨scalar, decoded⟩ : ∃ scalar, decodeScalar scalarTreeText booleanWithExtra = .ok scalar :=
    exists_decodeScalar_treeText ⟨increasing, trivial, trivial, trivial, trivial⟩
      ⟨trivial, trivial, trivial, trivial, trivial⟩
      ⟨by simp [NotReserved, arbitraryPrecisionNumberKey], trivial, trivial,
        trivial, trivial⟩ (by decide) (by decide)
  refine ⟨scalar, decoded, fun encoded => ?_⟩
  obtain ⟨valueType, field, same, -⟩ := (encodeScalar_of_decodeScalar_iff rfl decoded).mp encoded
  cases valueType <;> simp [booleanWithExtra, declaredMembers] at same

theorem paddedDecimal_accepted [DecidableEq (Json MachineNumber)] :
    ∃ scalar, decodeScalar scalarTreeText paddedDecimal = .ok scalar ∧
      encodeScalar scalarTreeText scalar ≠ .ok paddedDecimal := by
  have increasing : Json.IncreasingKeys [("kind", .string "decimal"),
          ("value", (.string "01.50" : Json MachineNumber))] := by
    unfold Json.IncreasingKeys
    decide
  obtain ⟨scalar, decoded⟩ : ∃ scalar, decodeScalar scalarTreeText paddedDecimal = .ok scalar :=
    exists_decodeScalar_treeText ⟨increasing, trivial, trivial, trivial⟩
      ⟨trivial, trivial, trivial, trivial⟩
      ⟨by simp [NotReserved, arbitraryPrecisionNumberKey], trivial, trivial,
        trivial⟩ (by decide) (by decide +kernel)
  refine ⟨scalar, decoded, fun encoded => ?_⟩
  obtain ⟨valueType, field, same, declared⟩ :=
    (encodeScalar_of_decodeScalar_iff rfl decoded).mp encoded
  cases valueType <;> simp [paddedDecimal, declaredMembers, kindName] at same
  have normal := declared "01.50" same.symm
  exact absurd normal.noLeadingZero (by decide +kernel)

open Classical in
/-- Texts other than the encodings are accepted. -/
theorem undeclared_encodings_accepted :
    (∃ scalar, decodeScalar scalarTreeText booleanWithExtra = .ok scalar ∧
        encodeScalar scalarTreeText scalar ≠ .ok booleanWithExtra) ∧
      ∃ scalar, decodeScalar scalarTreeText paddedDecimal = .ok scalar ∧
        encodeScalar scalarTreeText scalar ≠ .ok paddedDecimal :=
  ⟨booleanWithExtra_accepted, paddedDecimal_accepted⟩

end TypeBridge.Contract
