import TypeBridge.Library.Json
import TypeBridge.Schema.Declared

namespace TypeBridge.Contract

open Library Schema
open Library.Checked hiding get

/-!
# Canonical JSON

A value is encoded as its JSON tree with normalized numbers and sorted members.
Decoding parses the text, rejects repeated keys, brings the tree into that form
and compares the text of the result with the input.

One key is special. Some builds of the JSON library hand a number to its
readers as an object with a single private member, and the reader of the
decoder takes every object that starts with this key for such a number. A tree
in which an object starts with the key is encoded, but its encoding is not
accepted.
-/

/-! ## Limits -/

structure CodecLimits where
  maxBytes : Nat
  maxDepth : Nat
  maxCollectionLen : Nat
  maxStringBytes : Nat

def canonicalCodecLimits : CodecLimits where
  maxBytes := 16 * 1024 * 1024
  maxDepth := 64
  maxCollectionLen := 65536
  maxStringBytes := 1024 * 1024

variable {Number Double Bytes : Type}

namespace CodecLimits

variable (limits : CodecLimits)

/-- The text is not too large. -/
def ensureBytes (actual : Nat) : Except Diagnostic Unit :=
  Checked.ensure (actual ≤ limits.maxBytes) ⟨"canonical_json_too_large"⟩

/-- The collection is not too large. -/
def ensureCollection (actual : Nat) : Except Diagnostic Unit :=
  Checked.ensure (actual ≤ limits.maxCollectionLen) ⟨"canonical_collection_too_large"⟩

/-- The string is not too large. -/
def ensureString (text : String) : Except Diagnostic Unit :=
  Checked.ensure (text.utf8ByteSize ≤ limits.maxStringBytes) ⟨"canonical_string_too_large"⟩

/-- The tree is not too deep. -/
def ensureDepth (depth : Nat) : Except Diagnostic Unit :=
  Checked.ensure (depth ≤ limits.maxDepth) ⟨"canonical_json_too_deep"⟩

mutual

/-- Check a tree at a depth against the limits. -/
def inspect (depth : Nat) : Json Number → Except Diagnostic Unit
  | .string text => do
      limits.ensureDepth depth
      limits.ensureString text
  | .array elements => do
      limits.ensureDepth depth
      limits.ensureCollection elements.length
      inspectElements (depth + 1) elements
  | .object members => do
      limits.ensureDepth depth
      limits.ensureCollection members.length
      inspectMembers (depth + 1) members
  | _ => limits.ensureDepth depth

/-- Check the elements of an array. -/
def inspectElements (depth : Nat) : List (Json Number) → Except Diagnostic Unit
  | [] => .ok ()
  | element :: rest => do
      inspect depth element
      inspectElements depth rest

/-- Check the keys and values of an object. -/
def inspectMembers (depth : Nat) : List (String × Json Number) → Except Diagnostic Unit
  | [] => .ok ()
  | (key, value) :: rest => do
      limits.ensureString key
      inspect depth value
      inspectMembers depth rest

end

end CodecLimits

/-! ## Numbers -/

/-- The numbers of the JSON library.

With one build they are machine numbers, with another one they keep their text.
Both answer the same about what they return themselves: the conversions back
from an integer or a double give numbers that convert to the same value, and
only in that way. -/
structure NumberBackend (Number Double : Type) where
  asI64 : Number → Option Int
  asU64 : Number → Option Nat
  asF64 : Number → Option Double
  fromI64 : Int → Number
  fromU64 : Nat → Number
  fromF64 : Double → Option Number
  parse : String → Option Number
  signed : ∀ {value integer}, asI64 value = some integer → asI64 (fromI64 integer) = some integer
  unsigned : ∀ {value natural}, asI64 value = none → asU64 value = some natural →
      asI64 (fromU64 natural) = none ∧ asU64 (fromU64 natural) = some natural
  floating : ∀ {value double other}, asI64 value = none →
    asU64 value = none → asF64 value = some double → fromF64 double = some other →
        asI64 other = none ∧ asU64 other = none ∧ asF64 other = some double

namespace NumberBackend

variable (backend : NumberBackend Number Double)

/-- Rebuild a number from what it converts to. -/
def normalize (value : Number) : Option Number :=
  match backend.asI64 value with
  | some integer => some (backend.fromI64 integer)
  | none =>
      match backend.asU64 value with
      | some natural => some (backend.fromU64 natural)
      | none =>
          match backend.asF64 value with
          | some double => backend.fromF64 double
          | none => none

/-- The number is the one that its conversions give back. -/
def IsNormal (value : Number) : Prop := backend.normalize value = some value

/-- The number converts to a signed or an unsigned integer. -/
def IsInteger (value : Number) : Prop :=
  (backend.asI64 value).isSome ∨ (backend.asU64 value).isSome

/-- The number, unless it is a double. -/
def integer? (value : Number) : Option Number :=
  if (backend.asI64 value).isSome ∨ (backend.asU64 value).isSome then some value else none

mutual

def normalizeNumbers : Json Number → Option (Json Number)
  | .number value => (backend.normalize value).map .number
  | .array elements => (normalizeElements elements).map .array
  | .object members => (normalizeMembers members).map .object
  | tree => some tree

def normalizeElements : List (Json Number) → Option (List (Json Number))
  | [] => some []
  | element :: rest => do
      let normal ← normalizeNumbers element
      let normals ← normalizeElements rest
      return normal :: normals

def normalizeMembers : List (String × Json Number) → Option (List (String × Json Number))
  | [] => some []
  | (key, value) :: rest => do
      let normal ← normalizeNumbers value
      let normals ← normalizeMembers rest
      return (key, normal) :: normals

end

variable {backend}

theorem isNormal_of_normalize {value normal : Number}
    (run : backend.normalize value = some normal) : backend.IsNormal normal := by
  unfold normalize at run
  cases signed : backend.asI64 value with
  | some integer =>
    simp only [signed, Option.some.injEq] at run
    subst run
    unfold IsNormal normalize
    rw [backend.signed signed]
  | none =>
    cases unsigned : backend.asU64 value with
    | some natural =>
      simp only [signed, unsigned, Option.some.injEq] at run
      subst run
      obtain ⟨notSigned, isUnsigned⟩ := backend.unsigned signed unsigned
      unfold IsNormal normalize
      simp only [notSigned, isUnsigned]
    | none =>
      cases floating : backend.asF64 value with
      | none => simp [signed, unsigned, floating] at run
      | some double =>
        simp only [signed, unsigned, floating] at run
        obtain ⟨notSigned, notUnsigned, isFloating⟩ := backend.floating signed unsigned floating run
        unfold IsNormal normalize
        simp only [notSigned, notUnsigned, isFloating, run]

end NumberBackend

/-! ## Reading without repeated keys -/

def arbitraryPrecisionNumberKey : String := "$serde_json::private::Number"

section Visitor

variable (backend : NumberBackend Number Double)

/-- Read the text of a number, the only member under the private key. -/
def visitNumber : Json Number → List (String × Json Number) → Except Diagnostic (Json Number)
  | .string spelling, [] =>
      match backend.parse spelling with
      | some number => .ok (.number number)
      | none => .error ⟨"malformed_canonical_json"⟩
  | .string _, _ :: _ => .error ⟨"duplicate_canonical_json_key"⟩
  | _, _ => .error ⟨"malformed_canonical_json"⟩

mutual

/-- Read a tree member by member, rejecting repeated keys. -/
def visit : Json Number → Except Diagnostic (Json Number)
  | .array elements => (visitSeq elements).map .array
  | .object [] => .ok (.object [])
  | .object ((key, value) :: rest) =>
      if key = arbitraryPrecisionNumberKey then visitNumber backend value rest
      else do
        let first ← visit value
        let members ← visitMap [(key, first)] rest
        return .object members
  | tree => .ok tree

/-- Read the elements of an array. -/
def visitSeq : List (Json Number) → Except Diagnostic (List (Json Number))
  | [] => .ok []
  | element :: rest => do
      let first ← visit element
      let others ← visitSeq rest
      return first :: others

/-- Read the remaining members of an object after those read already. -/
def visitMap (values : List (String × Json Number)) :
    List (String × Json Number) → Except Diagnostic (List (String × Json Number))
  | [] => .ok values
  | (key, value) :: rest =>
      if key ∈ values.map Prod.fst then .error ⟨"duplicate_canonical_json_key"⟩
      else do
        let read ← visit value
        visitMap (values ++ [(key, read)]) rest

end

end Visitor

/-! ## Limits and canonical forms -/

namespace CodecLimits

variable {limits : CodecLimits} {depth : Nat}

theorem inspect_array_iff {elements : List (Json Number)} :
    limits.inspect depth (.array elements) = .ok () ↔
      depth ≤ limits.maxDepth ∧ elements.length ≤ limits.maxCollectionLen ∧
        ∀ element ∈ elements, limits.inspect (depth + 1) element = .ok () := by
  have ofElements : limits.inspectElements (depth + 1) elements = .ok () ↔ ∀ element ∈ elements,
          limits.inspect (depth + 1) element = .ok () := by
    induction elements with
    | nil => simp [inspectElements]
    | cons element rest ih => simp [inspectElements, check_bind_eq_ok, ih]
  simp [inspect, ensureDepth, ensureCollection, check_bind_eq_ok, ensure_eq_ok, ofElements]

theorem inspect_object_iff {members : List (String × Json Number)} :
    limits.inspect depth (.object members) = .ok () ↔
      depth ≤ limits.maxDepth ∧ members.length ≤ limits.maxCollectionLen ∧ ∀ entry ∈ members,
          entry.1.utf8ByteSize ≤ limits.maxStringBytes ∧
            limits.inspect (depth + 1) entry.2 = .ok () := by
  have ofMembers : limits.inspectMembers (depth + 1) members = .ok () ↔ ∀ entry ∈ members,
          entry.1.utf8ByteSize ≤ limits.maxStringBytes ∧
            limits.inspect (depth + 1) entry.2 = .ok () := by
    induction members with
    | nil => simp [inspectMembers]
    | cons entry rest ih =>
      simp [inspectMembers, ensureString, check_bind_eq_ok, ensure_eq_ok, ih, and_assoc]
  simp [inspect, ensureDepth, ensureCollection, check_bind_eq_ok, ensure_eq_ok, ofMembers]

theorem inspect_sortObjectKeys_iff {tree : Json Number} :
    limits.inspect depth tree.sortObjectKeys = .ok () ↔ limits.inspect depth tree = .ok () := by
  induction tree generalizing depth with
  | array elements ih =>
    rw [Json.sortObjectKeys_array, inspect_array_iff, inspect_array_iff,
      List.length_map, List.forall_mem_map]
    refine and_congr_right fun _ => and_congr_right fun _ => ?_
    exact forall₂_congr fun element isIn => ih element isIn
  | object members ih =>
    have permuted := Json.perm_sortedMembers (members.map Json.sortEntry)
    rw [Json.sortObjectKeys_object, inspect_object_iff, inspect_object_iff,
      permuted.length_eq, List.length_map]
    refine and_congr_right fun _ => and_congr_right fun _ => ?_
    simp only [permuted.mem_iff, List.forall_mem_map]
    refine forall₂_congr fun entry isIn => and_congr_right fun _ => ?_
    exact ih entry isIn
  | _ => exact Iff.rfl

end CodecLimits

namespace NumberBackend

variable {backend : NumberBackend Number Double} {result : Json Number}

theorem normalizeNumbers_array {elements : List (Json Number)}
    (run : backend.normalizeNumbers (.array elements) = some result) :
    ∃ normals, result = .array normals ∧ List.Forall₂
        (fun element normal => backend.normalizeNumbers element = some normal)
        elements normals := by
  obtain ⟨normals, elementsRun, rfl⟩ := Option.map_eq_some_iff.mp run
  refine ⟨normals, rfl, ?_⟩
  clear run
  induction elements generalizing normals with
  | nil =>
    obtain rfl := Option.some.inj elementsRun
    exact .nil
  | cons element rest ih =>
    simp only [normalizeElements, Option.bind_eq_bind,
      Option.bind_eq_some_iff, Option.pure_def, Option.some.injEq] at elementsRun
    obtain ⟨normal, normalRun, others, othersRun, rfl⟩ := elementsRun
    exact .cons normalRun (ih others othersRun)

theorem normalizeNumbers_object {members : List (String × Json Number)}
    (run : backend.normalizeNumbers (.object members) = some result) :
    ∃ normals, result = .object normals ∧ List.Forall₂ (fun entry normal => entry.1 = normal.1 ∧
          backend.normalizeNumbers entry.2 = some normal.2) members normals := by
  obtain ⟨normals, membersRun, rfl⟩ := Option.map_eq_some_iff.mp run
  refine ⟨normals, rfl, ?_⟩
  clear run
  induction members generalizing normals with
  | nil =>
    obtain rfl := Option.some.inj membersRun
    exact .nil
  | cons entry rest ih =>
    simp only [normalizeMembers, Option.bind_eq_bind,
      Option.bind_eq_some_iff, Option.pure_def, Option.some.injEq] at membersRun
    obtain ⟨normal, normalRun, others, othersRun, rfl⟩ := membersRun
    exact .cons ⟨rfl, normalRun⟩ (ih others othersRun)

variable {object : List (String × Json Number) → Prop} {tree : Json Number}

theorem every_normalizeNumbers (ofKeys : ∀ members others : List (String × Json Number),
      members.map Prod.fst = others.map Prod.fst → object members → object others)
    {number : Number → Prop} (every : tree.Every number object)
    (run : backend.normalizeNumbers tree = some result) : result.Every backend.IsNormal object := by
  induction tree generalizing result with
  | null | bool value | string text => obtain rfl := Option.some.inj run; exact trivial
  | number value =>
    obtain ⟨normal, normalRun, rfl⟩ := Option.map_eq_some_iff.mp run
    exact isNormal_of_normalize normalRun
  | array elements ih =>
    obtain ⟨normals, rfl, pairwise⟩ := normalizeNumbers_array run
    rw [Json.every_array_iff] at every ⊢
    intro normal isIn
    obtain ⟨element, isElement, elementRun⟩ := exists_left_of_forall₂ pairwise isIn
    exact ih element isElement (every element isElement) elementRun
  | object members ih =>
    obtain ⟨normals, rfl, pairwise⟩ := normalizeNumbers_object run
    rw [Json.every_object_iff] at every ⊢
    have keys : members.map Prod.fst = normals.map Prod.fst :=
      map_eq_map_of_related pairwise fun _ _ _ related => related.1
    refine ⟨ofKeys members normals keys every.1, ?_⟩
    intro normal isIn
    obtain ⟨entry, isEntry, -, entryRun⟩ := exists_left_of_forall₂ pairwise isIn
    exact ih entry isEntry (every.2 entry isEntry) entryRun

theorem normalizeNumbers_eq_self (every : tree.Every backend.IsNormal object) :
    backend.normalizeNumbers tree = some tree := by
  induction tree with
  | null => rfl
  | bool value => rfl
  | number value =>
    unfold normalizeNumbers
    rw [show backend.normalize value = some value from every]
    rfl
  | string text => rfl
  | array elements ih =>
    rw [Json.every_array_iff] at every
    have unchanged : backend.normalizeElements elements = some elements := by
      induction elements with
      | nil => rfl
      | cons element rest restHypothesis =>
        simp only [List.forall_mem_cons] at every ih
        simp [normalizeElements, ih.1 every.1, restHypothesis ih.2 every.2]
    simp [normalizeNumbers, unchanged]
  | object members ih =>
    rw [Json.every_object_iff] at every
    have unchanged : backend.normalizeMembers members = some members := by
      replace every := every.2
      induction members with
      | nil => rfl
      | cons entry rest restHypothesis =>
        simp only [List.forall_mem_cons] at every ih
        simp [normalizeMembers, ih.1 every.1, restHypothesis ih.2 every.2]
    simp [normalizeNumbers, unchanged]

theorem objectCount_normalizeNumbers (run : backend.normalizeNumbers tree = some result) :
    result.objectCount = tree.objectCount := by
  induction tree generalizing result with
  | null | bool value | string text => obtain rfl := Option.some.inj run; rfl
  | number value =>
    obtain ⟨normal, normalRun, rfl⟩ := Option.map_eq_some_iff.mp run
    rfl
  | array elements ih =>
    obtain ⟨normals, rfl, pairwise⟩ := normalizeNumbers_array run
    rw [Json.objectCount_array, Json.objectCount_array]
    congr 1
    refine (map_eq_map_of_related pairwise ?_).symm
    intro element isIn normal elementRun
    exact (ih element isIn elementRun).symm
  | object members ih =>
    obtain ⟨normals, rfl, pairwise⟩ := normalizeNumbers_object run
    rw [Json.objectCount_object, Json.objectCount_object]
    congr 2
    refine (map_eq_map_of_related pairwise ?_).symm
    intro entry isIn normal entryRun
    exact (ih entry isIn entryRun.2).symm

theorem inspect_normalizeNumbers_iff {limits : CodecLimits} {depth : Nat}
    (run : backend.normalizeNumbers tree = some result) :
    limits.inspect depth result = .ok () ↔ limits.inspect depth tree = .ok () := by
  induction tree generalizing depth result with
  | null | bool value | string text => obtain rfl := Option.some.inj run; rfl
  | number value =>
    obtain ⟨normal, normalRun, rfl⟩ := Option.map_eq_some_iff.mp run
    exact Iff.rfl
  | array elements ih =>
    obtain ⟨normals, rfl, pairwise⟩ := normalizeNumbers_array run
    rw [CodecLimits.inspect_array_iff, CodecLimits.inspect_array_iff, pairwise.length_eq]
    refine and_congr_right fun _ => and_congr_right fun _ => ?_
    refine forall_mem_iff_of_forall₂ pairwise ?_
    intro element isIn normal elementRun
    exact ih element isIn elementRun
  | object members ih =>
    obtain ⟨normals, rfl, pairwise⟩ := normalizeNumbers_object run
    rw [CodecLimits.inspect_object_iff, CodecLimits.inspect_object_iff, pairwise.length_eq]
    refine and_congr_right fun _ => and_congr_right fun _ => ?_
    refine forall_mem_iff_of_forall₂ pairwise ?_
    intro entry isIn normal entryRun
    rw [entryRun.1, ih entry isIn entryRun.2]

end NumberBackend

/-! ## What the reader accepts -/

section Reading

variable {backend : NumberBackend Number Double}

/-- The first key is not the reserved one. -/
def NotReserved (reserved : String) (members : List (String × Json Number)) : Prop :=
  ∀ value rest, members ≠ (reserved, value) :: rest

def ReadPairwise (backend : NumberBackend Number Double)
    (members read : List (String × Json Number)) : Prop :=
  List.Forall₂ (fun entry result => entry.1 = result.1 ∧ visit backend entry.2 = .ok result.2)
    members read

variable {members : List (String × Json Number)}

theorem ReadPairwise.keys {read : List (String × Json Number)}
    (pairwise : ReadPairwise backend members read) : members.map Prod.fst = read.map Prod.fst :=
  map_eq_map_of_related pairwise fun _ _ _ related => related.1

variable {values rest : List (String × Json Number)}

theorem visitMap_eq_ok (run : visitMap backend values rest = .ok members) :
    ∃ read, members = values ++ read ∧ ReadPairwise backend rest read ∧
      (Json.DistinctKeys values → Json.DistinctKeys (values ++ read)) := by
  induction rest generalizing values with
  | nil =>
    obtain rfl := Except.ok.inj run
    exact ⟨[], by simp, .nil, by simp⟩
  | cons entry rest ih =>
    obtain ⟨key, value⟩ := entry
    obtain ⟨fresh, run⟩ := guard_eq_ok.mp run
    obtain ⟨result, valueRun, run⟩ := bind_eq_ok.mp run
    obtain ⟨read, rfl, pairwise, distinct⟩ := ih run
    refine ⟨(key, result) :: read, by simp, .cons ⟨rfl, valueRun⟩ pairwise, ?_⟩
    intro valuesDistinct
    have extended : Json.DistinctKeys (values ++ [(key, result)]) := by
      unfold Json.DistinctKeys at valuesDistinct ⊢
      rw [List.map_append, List.nodup_append]
      refine ⟨valuesDistinct, by simp, ?_⟩
      intro first isFirst second isSecond same
      subst same
      simp only [List.map_cons, List.map_nil, List.mem_singleton] at isSecond
      exact fresh (isSecond ▸ isFirst)
    simpa using distinct extended

variable {result : Json Number}

theorem visit_array_eq_ok {elements : List (Json Number)}
    (run : visit backend (.array elements) = .ok result) : ∃ read, result = .array read ∧
      List.Forall₂ (fun element other => visit backend element = .ok other) elements read := by
  obtain ⟨read, elementsRun, rfl⟩ := map_eq_ok.mp run
  refine ⟨read, rfl, ?_⟩
  clear run
  induction elements generalizing read with
  | nil =>
    obtain rfl := Except.ok.inj elementsRun
    exact .nil
  | cons element rest ih =>
    obtain ⟨first, firstRun, elementsRun⟩ := bind_eq_ok.mp elementsRun
    obtain ⟨others, othersRun, elementsRun⟩ := bind_eq_ok.mp elementsRun
    obtain rfl := pure_eq_ok.mp elementsRun
    exact .cons firstRun (ih others othersRun)

theorem visit_object_eq_ok (run : visit backend (.object members) = .ok result) :
    (NotReserved arbitraryPrecisionNumberKey members ∧ ∃ read, result = .object read ∧
        ReadPairwise backend members read ∧ Json.DistinctKeys read) ∨
      ∃ spelling number, result = .number number ∧
        members = [(arbitraryPrecisionNumberKey, .string spelling)] := by
  cases members with
  | nil =>
    obtain rfl := Except.ok.inj run
    exact .inl ⟨by simp [NotReserved], [], rfl, .nil, List.nodup_nil⟩
  | cons entry rest =>
    obtain ⟨key, value⟩ := entry
    by_cases isReserved : key = arbitraryPrecisionNumberKey
    · subst isReserved
      simp only [visit, ↓reduceIte] at run
      cases value <;> cases rest <;> simp [visitNumber] at run
      rename_i spelling
      cases parsed : backend.parse spelling with
      | none => simp [parsed] at run
      | some number =>
        simp only [parsed, Except.ok.injEq] at run
        exact .inr ⟨spelling, number, run.symm, rfl⟩
    · simp only [visit, isReserved, ↓reduceIte] at run
      obtain ⟨first, firstRun, run⟩ := bind_eq_ok.mp run
      obtain ⟨others, othersRun, run⟩ := bind_eq_ok.mp run
      obtain rfl := pure_eq_ok.mp run
      obtain ⟨read, rfl, pairwise, distinct⟩ := visitMap_eq_ok othersRun
      refine .inl ⟨?_, (key, first) :: read, rfl,
        .cons ⟨rfl, firstRun⟩ pairwise, distinct (List.nodup_singleton key)⟩
      intro other others same
      exact isReserved (congrArg Prod.fst (List.cons.inj same).1)

variable {tree : Json Number}

theorem wellKeyed_of_visit (run : visit backend tree = .ok result) :
    tree.WellKeyed ∧ result.WellKeyed := by
  induction tree generalizing result with
  | array elements ih =>
    obtain ⟨read, rfl, pairwise⟩ := visit_array_eq_ok run
    refine ⟨Json.every_array_iff.mpr ?_, Json.every_array_iff.mpr ?_⟩
    · intro element isIn
      obtain ⟨other, -, elementRun⟩ := exists_right_of_forall₂ pairwise isIn
      exact (ih element isIn elementRun).1
    · intro other isIn
      obtain ⟨element, isElement, elementRun⟩ := exists_left_of_forall₂ pairwise isIn
      exact (ih element isElement elementRun).2
  | object members ih =>
    rcases visit_object_eq_ok run with
      ⟨-, read, rfl, pairwise, distinct⟩ | ⟨spelling, number, rfl, rfl⟩
    · refine ⟨Json.every_object_iff.mpr ⟨?_, ?_⟩, Json.every_object_iff.mpr ⟨distinct, ?_⟩⟩
      · unfold Json.DistinctKeys
        rwa [pairwise.keys]
      · intro entry isIn
        obtain ⟨other, -, -, entryRun⟩ := exists_right_of_forall₂ pairwise isIn
        exact (ih entry isIn entryRun).1
      · intro other isIn
        obtain ⟨entry, isEntry, -, entryRun⟩ := exists_left_of_forall₂ pairwise isIn
        exact (ih entry isEntry entryRun).2
    · refine ⟨Json.every_object_iff.mpr ⟨List.nodup_singleton _, ?_⟩, trivial⟩
      intro entry isIn
      rw [List.mem_singleton.mp isIn]
      exact trivial
  | _ => obtain rfl := Except.ok.inj run; exact ⟨trivial, trivial⟩

theorem objectCount_of_visit (run : visit backend tree = .ok result) :
    result.objectCount ≤ tree.objectCount ∧ (result.objectCount = tree.objectCount →
        tree.Every (fun _ => True) (NotReserved arbitraryPrecisionNumberKey)) := by
  induction tree generalizing result with
  | null => obtain rfl := Except.ok.inj run; exact ⟨le_rfl, fun _ => trivial⟩
  | bool value | number value | string text =>
    obtain rfl := Except.ok.inj run
    exact ⟨le_rfl, fun _ => trivial⟩
  | array elements ih =>
    obtain ⟨read, rfl, pairwise⟩ := visit_array_eq_ok run
    rw [Json.objectCount_array, Json.objectCount_array, Json.every_array_iff]
    refine sum_le_sum_of_related pairwise ?_
    intro element isIn other elementRun
    exact ih element isIn elementRun
  | object members ih =>
    rcases visit_object_eq_ok run with
      ⟨notReserved, read, rfl, pairwise, -⟩ | ⟨spelling, number, rfl, rfl⟩
    · rw [Json.objectCount_object, Json.objectCount_object, Json.every_object_iff]
      obtain ⟨less, kept⟩ := sum_le_sum_of_related pairwise fun entry isIn other entryRun =>
          ih entry isIn entryRun.2
      exact ⟨Nat.add_le_add_right less 1, fun same =>
        ⟨notReserved, kept (Nat.add_right_cancel same)⟩⟩
    · rw [Json.objectCount_object]
      refine ⟨Nat.zero_le _, fun same => ?_⟩
      exact absurd same (Nat.succ_ne_zero _).symm

theorem visitMap_eq_append (distinct : Json.DistinctKeys (values ++ rest))
    (unchanged : ∀ entry ∈ rest, visit backend entry.2 = .ok entry.2) :
    visitMap backend values rest = .ok (values ++ rest) := by
  induction rest generalizing values with
  | nil => rw [List.append_nil]; rfl
  | cons entry rest ih =>
    obtain ⟨key, value⟩ := entry
    rw [List.forall_mem_cons] at unchanged
    have fresh : key ∉ values.map Prod.fst := by
      unfold Json.DistinctKeys at distinct
      rw [List.map_append, List.nodup_append] at distinct
      intro isOld
      exact distinct.2.2 key isOld key (by simp) rfl
    have shifted : Json.DistinctKeys (values ++ [(key, value)] ++ rest) := by simpa using distinct
    have later := ih shifted unchanged.2
    rw [List.append_assoc] at later
    refine guard_eq_ok.mpr ⟨fresh, ?_⟩
    exact bind_eq_ok.mpr ⟨value, unchanged.1, later⟩

/-- A tree with distinct keys, none first and private, is read as it is. -/
theorem visit_eq_self {number : Number → Prop}
    (every : tree.Every number fun members =>
      Json.DistinctKeys members ∧ NotReserved arbitraryPrecisionNumberKey members) :
    visit backend tree = .ok tree := by
  induction tree with
  | array elements ih =>
    rw [Json.every_array_iff] at every
    have unchanged : visitSeq backend elements = .ok elements := by
      induction elements with
      | nil => rfl
      | cons element rest restHypothesis =>
        rw [List.forall_mem_cons] at every ih
        refine bind_eq_ok.mpr ⟨element, ih.1 every.1, ?_⟩
        exact bind_eq_ok.mpr ⟨rest, restHypothesis ih.2 every.2, rfl⟩
    exact map_eq_ok.mpr ⟨elements, unchanged, rfl⟩
  | object members ih =>
    obtain ⟨⟨distinct, notReserved⟩, values⟩ := Json.every_object_iff.mp every
    cases members with
    | nil => rfl
    | cons entry rest =>
      obtain ⟨key, value⟩ := entry
      have isNotReserved : key ≠ arbitraryPrecisionNumberKey := by
        rintro rfl
        exact notReserved value rest rfl
      rw [List.forall_mem_cons] at values ih
      simp only [visit, isNotReserved, ↓reduceIte]
      refine bind_eq_ok.mpr ⟨value, ih.1 values.1, ?_⟩
      have others : visitMap backend [(key, value)] rest = .ok ((key, value) :: rest) := by
        refine visitMap_eq_append distinct ?_
        intro entry isIn
        exact ih.2 entry isIn (values.2 entry isIn)
      exact bind_eq_ok.mpr ⟨_, others, rfl⟩
  | _ => rfl

end Reading

/-! ## The generic reader -/

/-- The private key of raw values. -/
def rawValueKey : String := "$serde_json::private::RawValue"

/-- How the JSON library reads the text of a raw value.

A text whose object starts with the private key is itself taken for a raw
value, so no object with that key alone is ever read. -/
structure RawReader (Number : Type) where
  read : String → Option (Json Number)
  unwraps : ∀ text value, read text ≠ some (.object [(rawValueKey, value)])

section FromValue

variable (raw : RawReader Number)

/-- Read the text of a raw value, the only member under the private key. -/
def fromRaw : Json Number → List (String × Json Number) → Option (Json Number)
  | .string text, [] => raw.read text
  | _, _ => none

mutual

/-- Read a generic value back from a tree.

This is the reader of the JSON library with the raw values that the manifest
of the crate turns on. The private key of numbers, which it knows in one of its
builds, is first in no object of a tree that was visited. -/
def fromValue : Json Number → Option (Json Number)
  | .array elements => (fromElements elements).map .array
  | .object [] => some (.object [])
  | .object ((key, value) :: rest) =>
      if key = rawValueKey then fromRaw raw value rest
      else do
        let first ← fromValue value
        let others ← fromMembers rest
        return .object ((key, first) :: others)
  | tree => some tree

def fromElements : List (Json Number) → Option (List (Json Number))
  | [] => some []
  | element :: rest => do
      let first ← fromValue element
      let others ← fromElements rest
      return first :: others

def fromMembers : List (String × Json Number) → Option (List (String × Json Number))
  | [] => some []
  | (key, value) :: rest => do
      let first ← fromValue value
      let others ← fromMembers rest
      return (key, first) :: others

end

variable {raw} {result : Json Number} {members : List (String × Json Number)}

theorem fromElements_eq_some {elements read : List (Json Number)} :
    fromElements raw elements = some read ↔
      List.Forall₂ (fun element other => fromValue raw element = some other) elements read := by
  induction elements generalizing read with
  | nil => simp [fromElements, eq_comm]
  | cons element rest ih =>
    simp only [fromElements, Option.bind_eq_bind, Option.bind_eq_some_iff, Option.pure_def,
      Option.some.injEq, List.forall₂_cons_left_iff, ih]
    constructor
    · rintro ⟨first, firstRun, others, othersRun, rfl⟩
      exact ⟨first, others, firstRun, othersRun, rfl⟩
    · rintro ⟨first, others, firstRun, othersRun, rfl⟩
      exact ⟨first, firstRun, others, othersRun, rfl⟩

theorem fromMembers_eq_some {read : List (String × Json Number)} :
    fromMembers raw members = some read ↔
      List.Forall₂ (fun entry other => entry.1 = other.1 ∧ fromValue raw entry.2 = some other.2)
        members read := by
  induction members generalizing read with
  | nil => simp [fromMembers, eq_comm]
  | cons entry rest ih =>
    simp only [fromMembers, Option.bind_eq_bind, Option.bind_eq_some_iff, Option.pure_def,
      Option.some.injEq, List.forall₂_cons_left_iff, ih]
    constructor
    · rintro ⟨first, firstRun, others, othersRun, rfl⟩
      exact ⟨(entry.1, first), others, ⟨rfl, firstRun⟩, othersRun, rfl⟩
    · rintro ⟨first, others, ⟨key, firstRun⟩, othersRun, rfl⟩
      exact ⟨first.2, firstRun, others, othersRun, by rw [key]⟩

/-- An object is read member by member, or it holds the text of a raw value. -/
theorem fromValue_object_eq_some (run : fromValue raw (.object members) = some result) :
    (NotReserved rawValueKey members ∧ ∃ read,
        result = .object read ∧ fromMembers raw members = some read) ∨
      ∃ text, members = [(rawValueKey, .string text)] ∧ raw.read text = some result := by
  cases members with
  | nil =>
    obtain rfl := Option.some.inj run
    exact .inl ⟨by simp [NotReserved], [], rfl, rfl⟩
  | cons entry rest =>
    obtain ⟨key, value⟩ := entry
    by_cases isReserved : key = rawValueKey
    · subst isReserved
      simp only [fromValue, ↓reduceIte] at run
      cases value <;> cases rest <;> simp only [fromRaw, reduceCtorEq] at run
      exact .inr ⟨_, rfl, run⟩
    · simp only [fromValue, isReserved, ↓reduceIte, Option.bind_eq_bind,
        Option.bind_eq_some_iff, Option.pure_def, Option.some.injEq] at run
      obtain ⟨first, firstRun, others, othersRun, rfl⟩ := run
      refine .inl ⟨?_, (key, first) :: others, rfl, ?_⟩
      · intro other others same
        exact isReserved (congrArg Prod.fst (List.cons.inj same).1)
      · exact fromMembers_eq_some.mpr (.cons ⟨rfl, firstRun⟩ (fromMembers_eq_some.mp othersRun))

variable {tree : Json Number}

/-- A tree in which the private key is never first is read as it is. -/
theorem fromValue_eq_self (every : tree.Every (fun _ => True) (NotReserved rawValueKey)) :
    fromValue raw tree = some tree := by
  induction tree with
  | array elements ih =>
    rw [Json.every_array_iff] at every
    have unchanged : fromElements raw elements = some elements :=
      fromElements_eq_some.mpr
        (List.forall₂_same.mpr fun element isIn => ih element isIn (every element isIn))
    simp [fromValue, unchanged]
  | object members ih =>
    obtain ⟨notReserved, values⟩ := Json.every_object_iff.mp every
    cases members with
    | nil => rfl
    | cons entry rest =>
      obtain ⟨key, value⟩ := entry
      have isNotReserved : key ≠ rawValueKey := by
        rintro rfl
        exact notReserved value rest rfl
      rw [List.forall_mem_cons] at values ih
      have others : fromMembers raw rest = some rest :=
        fromMembers_eq_some.mpr (List.forall₂_same.mpr fun entry isIn =>
          ⟨rfl, ih.2 entry isIn (values.2 entry isIn)⟩)
      simp [fromValue, isNotReserved, ih.1 values.1, others]
  | _ => rfl

/-- Only such a tree is read as itself, up to the order of members. -/
theorem notReserved_of_fromValue {number : Number → Prop}
    (sorted : tree.Every number Json.IncreasingKeys)
    (run : fromValue raw tree = some result)
    (same : result.sortObjectKeys = tree) :
    tree.Every (fun _ => True) (NotReserved rawValueKey) := by
  induction tree generalizing result with
  | array elements ih =>
    obtain ⟨read, elementsRun, rfl⟩ := Option.map_eq_some_iff.mp run
    rw [Json.sortObjectKeys_array, Json.array.injEq] at same
    subst same
    rw [Json.every_array_iff] at sorted ⊢
    have pairwise := List.forall₂_same.mp
      (List.forall₂_map_left_iff.mp (fromElements_eq_some.mp elementsRun))
    rw [List.forall_mem_map] at ih sorted ⊢
    exact fun element isIn =>
      ih element isIn (sorted element isIn) (pairwise element isIn) rfl
  | object members ih =>
    obtain ⟨increasing, values⟩ := Json.every_object_iff.mp sorted
    rcases fromValue_object_eq_some run with ⟨notReserved, read, rfl, membersRun⟩ | ⟨text, rfl, read⟩
    · have pairwise := fromMembers_eq_some.mp membersRun
      have keys : members.map Prod.fst = read.map Prod.fst :=
        map_eq_map_of_related pairwise fun _ _ _ related => related.1
      have readIncreasing : Json.IncreasingKeys (read.map Json.sortEntry) := by
        unfold Json.IncreasingKeys
        rwa [Json.keys_map_sortEntry, ← keys]
      rw [Json.sortObjectKeys_object, Json.sortedMembers_eq_self readIncreasing,
        Json.object.injEq] at same
      subst same
      have related := List.forall₂_same.mp (List.forall₂_map_left_iff.mp pairwise)
      rw [List.forall_mem_map] at ih values
      rw [Json.every_object_iff, List.forall_mem_map]
      exact ⟨notReserved, fun entry isIn =>
        ih entry isIn (values entry isIn) (related entry isIn).2 rfl⟩
    · -- The text would have to be read as an object with the private key alone.
      cases result with
      | object members =>
        rw [Json.sortObjectKeys_object, Json.object.injEq] at same
        have permuted := Json.perm_sortedMembers (members.map Json.sortEntry)
        rw [same] at permuted
        have single := List.perm_singleton.mp permuted.symm
        obtain ⟨entry, rfl, entryEq⟩ := List.map_eq_singleton_iff.mp single
        obtain ⟨key, value⟩ := entry
        obtain rfl : key = rawValueKey := congrArg Prod.fst entryEq
        exact absurd read (raw.unwraps text value)
      | _ => simp [Json.sortObjectKeys] at same
  | _ => trivial

end FromValue

/-! ## Encoding and decoding -/

/-- The printer and the parser of the JSON library.

The parser keeps the members of an object in the order of the text. It reads
the text of a tree in canonical form, of a depth that it accepts, as that tree,
except that a double may be read as another one. -/
structure JsonText (backend : NumberBackend Number Double) (Bytes : Type) where
  print : Json Number → Bytes
  parse : Bytes → Option (Json Number)
  size : Bytes → Nat
  parse_print : ∀ tree : Json Number, tree.Every backend.IsNormal Json.IncreasingKeys →
      canonicalCodecLimits.inspect 1 tree = .ok () →
      (parse (print tree)).map (Json.mapNumbers backend.integer?) =
        some (tree.mapNumbers backend.integer?)

section Codec

variable {backend : NumberBackend Number Double} [DecidableEq Bytes] (text : JsonText backend Bytes)

def canonicalTree (backend : NumberBackend Number Double) (tree : Json Number) :
    Option (Json Number) :=
  (backend.normalizeNumbers tree).map Json.sortObjectKeys

def toCanonicalJson (tree : Json Number) : Except Diagnostic Bytes :=
  match canonicalTree backend tree with
  | none => .error ⟨"canonical_json_encode_failed"⟩
  | some canonical => do
      canonicalCodecLimits.inspect 1 canonical
      canonicalCodecLimits.ensureBytes (text.size (text.print canonical))
      return text.print canonical

/-- Parse a text and read it without repeated keys. -/
def parseUnique (bytes : Bytes) : Except Diagnostic (Json Number) :=
  match text.parse bytes with
  | none => .error ⟨"malformed_canonical_json"⟩
  | some tree => visit backend tree

/-- The canonical form of a tree that was read, if it prints as the input. -/
def compareCanonical (bytes : Bytes) (tree : Json Number) : Except Diagnostic (Json Number) :=
  match canonicalTree backend tree with
  | none => .error ⟨"malformed_canonical_json"⟩
  | some canonical =>
      if text.print canonical ≠ bytes then .error ⟨"non_canonical_json"⟩
      else .ok canonical

/-- Check that bytes are canonical, and parse them to a tree. -/
def readCanonical (bytes : Bytes) : Except Diagnostic (Json Number) := do
  canonicalCodecLimits.ensureBytes (text.size bytes)
  let tree ← parseUnique text bytes
  canonicalCodecLimits.inspect 1 tree
  compareCanonical text bytes tree

/-- Decode exact canonical bytes to a generic value. -/
def fromCanonicalJson (raw : RawReader Number) (bytes : Bytes) :
    Except Diagnostic (Json Number) := do
  let tree ← readCanonical text bytes
  match fromValue raw tree with
  | some value => .ok value
  | none => .error ⟨"invalid_canonical_value"⟩

end Codec

/-! ## The canonical form -/

section CanonicalForm

variable {backend : NumberBackend Number Double} {text : JsonText backend Bytes}

def IsCanonical (backend : NumberBackend Number Double) (tree : Json Number) : Prop :=
  tree.Every backend.IsNormal Json.IncreasingKeys

variable {tree canonical : Json Number}

theorem canonicalTree_eq_some (distinct : tree.WellKeyed)
    (run : canonicalTree backend tree = some canonical) :
    IsCanonical backend canonical ∧ (canonicalCodecLimits.inspect 1 canonical = .ok () ↔
        canonicalCodecLimits.inspect 1 tree = .ok ()) ∧
      canonical.objectCount = tree.objectCount := by
  obtain ⟨normal, normalRun, rfl⟩ := Option.map_eq_some_iff.mp run
  have everyNormal : normal.Every backend.IsNormal Json.DistinctKeys := by
    refine NumberBackend.every_normalizeNumbers ?_ distinct normalRun
    intro members others sameKeys keysDistinct
    unfold Json.DistinctKeys at keysDistinct ⊢
    rwa [← sameKeys]
  refine ⟨Json.every_sortObjectKeys everyNormal, ?_, ?_⟩
  · rw [CodecLimits.inspect_sortObjectKeys_iff,
      NumberBackend.inspect_normalizeNumbers_iff normalRun]
  · rw [Json.objectCount_sortObjectKeys, NumberBackend.objectCount_normalizeNumbers normalRun]

theorem canonicalTree_eq_sortObjectKeys {object : List (String × Json Number) → Prop}
    (every : tree.Every backend.IsNormal object) :
    canonicalTree backend tree = some tree.sortObjectKeys := by
  unfold canonicalTree
  rw [NumberBackend.normalizeNumbers_eq_self every]
  rfl

theorem IsCanonical.canonicalTree_eq (canonical : IsCanonical backend tree) :
    canonicalTree backend tree = some tree := by
  rw [canonicalTree_eq_sortObjectKeys canonical, Json.sortObjectKeys_eq_self canonical]

variable {bytes : Bytes}

theorem toCanonicalJson_eq_ok_iff (run : canonicalTree backend tree = some canonical) :
    toCanonicalJson text tree = .ok bytes ↔ canonicalCodecLimits.inspect 1 canonical = .ok () ∧
        text.size (text.print canonical) ≤ canonicalCodecLimits.maxBytes ∧
        text.print canonical = bytes := by
  unfold toCanonicalJson
  rw [run]
  simp only [CodecLimits.ensureBytes, check_bind_eq_ok, ensure_eq_ok, pure_eq_ok]

variable {other parsed : Json Number}

/-- The numbers of the tree are integers. -/
def HasIntegers (backend : NumberBackend Number Double) (tree : Json Number) : Prop :=
  tree.Every backend.IsInteger fun _ => True

theorem HasIntegers.eq_of_mapNumbers (integers : HasIntegers backend tree)
    (same : parsed.mapNumbers backend.integer? = tree.mapNumbers backend.integer?) :
    parsed = tree := by
  refine Json.eq_of_mapNumbers_eq (integers.imp ?_ fun _ _ => trivial) same
  intro value isInteger another equal
  have kept : backend.integer? value = some value := if_pos isInteger
  rw [kept] at equal
  unfold NumberBackend.integer? at equal
  split at equal
  · exact Option.some.inj equal
  · cases equal

theorem hasIntegers_mapNumbers_iff :
    (tree.mapNumbers backend.integer?).Every (fun value => value.isSome) (fun _ => True) ↔
      HasIntegers backend tree := by
  refine Json.every_mapNumbers_iff ?_ fun _ => Iff.rfl
  intro value
  unfold NumberBackend.integer? NumberBackend.IsInteger
  split <;> simp_all

theorem parse_print_of_integers (text : JsonText backend Bytes) (canonical : IsCanonical backend tree)
    (integers : HasIntegers backend tree)
    (within : canonicalCodecLimits.inspect 1 tree = .ok ()) :
    text.parse (text.print tree) = some tree := by
  obtain ⟨parsed, parses, same⟩ := Option.map_eq_some_iff.mp (text.parse_print tree canonical within)
  rw [parses, integers.eq_of_mapNumbers same]

theorem print_inj (canonical : IsCanonical backend tree) (integers : HasIntegers backend tree)
    (within : canonicalCodecLimits.inspect 1 tree = .ok ())
    (otherCanonical : IsCanonical backend other) (otherIntegers : HasIntegers backend other)
    (otherWithin : canonicalCodecLimits.inspect 1 other = .ok ())
    (same : text.print tree = text.print other) : tree = other := by
  have parsed := parse_print_of_integers text canonical integers within
  rw [same, parse_print_of_integers text otherCanonical otherIntegers otherWithin] at parsed
  exact (Option.some.inj parsed).symm

theorem every_notReserved_mapNumbers_iff {Other : Type} (change : Number → Other)
    {reserved : String} :
    (tree.mapNumbers change).Every (fun _ => True) (NotReserved reserved) ↔
      tree.Every (fun _ => True) (NotReserved reserved) := by
  refine Json.every_mapNumbers_iff (fun _ => Iff.rfl) fun members => ?_
  cases members with
  | nil => simp [NotReserved]
  | cons entry rest => simp [NotReserved, Json.mapEntry, Prod.ext_iff]

/-- What is known of a tree that was read, and of the tree parsed for it. -/
theorem of_readCanonical [DecidableEq Bytes] (run : readCanonical text bytes = .ok tree) :
    (IsCanonical backend tree ∧
        tree.Every (fun _ => True) (NotReserved arbitraryPrecisionNumberKey) ∧
        canonicalCodecLimits.inspect 1 tree = .ok () ∧
        text.size bytes ≤ canonicalCodecLimits.maxBytes ∧ text.print tree = bytes) ∧
      ∃ parsed, text.parse bytes = some parsed ∧
        parsed.mapNumbers backend.integer? = tree.mapNumbers backend.integer? := by
  obtain ⟨sizeRun, run⟩ := check_bind_eq_ok.mp run
  obtain ⟨read, readRun, run⟩ := bind_eq_ok.mp run
  obtain ⟨within, run⟩ := check_bind_eq_ok.mp run
  obtain ⟨parsed, parsedRun, visited⟩ : ∃ parsed, text.parse bytes = some parsed ∧
        visit backend parsed = .ok read := by
    unfold parseUnique at readRun
    cases parsedRun : text.parse bytes with
    | none => simp [parsedRun] at readRun
    | some parsed =>
      rw [parsedRun] at readRun
      exact ⟨parsed, rfl, readRun⟩
  obtain ⟨canonicalRun, printed⟩ :
      canonicalTree backend read = some tree ∧ text.print tree = bytes := by
    unfold compareCanonical at run
    cases canonicalRun : canonicalTree backend read with
    | none => simp [canonicalRun] at run
    | some canonical =>
      rw [canonicalRun] at run
      obtain ⟨prints, run⟩ := guard_eq_ok.mp run
      obtain rfl := Except.ok.inj run
      exact ⟨rfl, not_not.mp prints⟩
  obtain ⟨canonical, sameLimits, sameCount⟩ :=
    canonicalTree_eq_some (wellKeyed_of_visit visited).2 canonicalRun
  have treeWithin := sameLimits.mpr within
  -- The text is that of the result, so the result is what was parsed, but for doubles.
  have reparsed := text.parse_print tree canonical treeWithin
  rw [printed, parsedRun, Option.map_some, Option.some.injEq] at reparsed
  have parsedCount : read.objectCount = parsed.objectCount := by
    rw [← sameCount, ← Json.objectCount_mapNumbers backend.integer? tree, ← reparsed,
      Json.objectCount_mapNumbers]
  have notReserved := (objectCount_of_visit visited).2 parsedCount
  rw [← every_notReserved_mapNumbers_iff backend.integer?, reparsed,
    every_notReserved_mapNumbers_iff] at notReserved
  exact ⟨⟨canonical, notReserved, treeWithin, ensure_eq_ok.mp sizeRun, printed⟩,
    parsed, parsedRun, reparsed⟩

theorem readCanonical_print [DecidableEq Bytes] (canonical : IsCanonical backend tree)
    (integers : HasIntegers backend tree)
    (notReserved : tree.Every (fun _ => True) (NotReserved arbitraryPrecisionNumberKey))
    (within : canonicalCodecLimits.inspect 1 tree = .ok ())
    (fits : text.size (text.print tree) ≤ canonicalCodecLimits.maxBytes) :
    readCanonical text (text.print tree) = .ok tree := by
  have parsed := parse_print_of_integers text canonical integers within
  have unchanged : visit backend tree = .ok tree := by
    refine visit_eq_self (canonical.map₂ notReserved (fun _ isNormal _ => isNormal) ?_)
    intro members increasing first
    exact ⟨increasing.distinctKeys, first⟩
  refine check_bind_eq_ok.mpr
    ⟨ensure_eq_ok.mpr fits, bind_eq_ok.mpr ⟨tree, ?_, check_bind_eq_ok.mpr ⟨within, ?_⟩⟩⟩
  · unfold parseUnique
    rw [parsed]
    exact unchanged
  · unfold compareCanonical
    rw [canonical.canonicalTree_eq]
    exact guard_eq_ok.mpr ⟨not_not.mpr rfl, rfl⟩

variable {raw : RawReader Number} {decoded : Json Number}

theorem fromCanonicalJson_eq_ok_iff [DecidableEq Bytes] :
    fromCanonicalJson text raw bytes = .ok decoded ↔
      ∃ tree, readCanonical text bytes = .ok tree ∧ fromValue raw tree = some decoded := by
  unfold fromCanonicalJson
  rw [bind_eq_ok]
  refine exists_congr fun tree => and_congr_right fun _ => ?_
  cases fromValue raw tree <;> simp

/-- The reserved key is missing, or not the least one. -/
def LeastNotReserved (reserved : String) (members : List (String × Json Number)) : Prop :=
  reserved ∈ members.map Prod.fst → ∃ key ∈ members.map Prod.fst, key < reserved

variable {reserved : String}

theorem notReserved_sortedMembers_iff {members : List (String × Json Number)}
    (distinct : Json.DistinctKeys members) :
    NotReserved reserved (Json.sortedMembers members) ↔ LeastNotReserved reserved members := by
  have increasing := Json.increasing_sortedMembers distinct
  have sameKeys : ∀ key, key ∈ (Json.sortedMembers members).map Prod.fst ↔
      key ∈ members.map Prod.fst := fun key =>
    ((Json.perm_sortedMembers members).map Prod.fst).mem_iff
  unfold LeastNotReserved
  simp only [← sameKeys]
  unfold Json.IncreasingKeys at increasing
  cases sorted : Json.sortedMembers members with
  | nil => simp [NotReserved]
  | cons entry rest =>
    rw [sorted, List.map_cons, List.pairwise_cons] at increasing
    constructor
    · intro notFirst isKey
      rcases List.mem_cons.mp isKey with isFirst | isLater
      · exact absurd (by rw [isFirst]) (notFirst entry.2 rest)
      · exact ⟨entry.1, List.mem_cons_self, increasing.1 _ isLater⟩
    · rintro hasLess value others same
      obtain ⟨rfl, rfl⟩ := List.cons.inj same
      obtain ⟨key, isKey, less⟩ := hasLess List.mem_cons_self
      rcases List.mem_cons.mp isKey with rfl | isLater
      · exact lt_irrefl _ less
      · exact lt_asymm less (increasing.1 key isLater)

theorem every_notReserved_sortObjectKeys_iff (distinct : tree.WellKeyed) :
    tree.sortObjectKeys.Every (fun _ => True) (NotReserved reserved) ↔
      tree.Every (fun _ => True) (LeastNotReserved reserved) := by
  unfold Json.WellKeyed at distinct
  induction tree with
  | array elements ih =>
    rw [Json.every_array_iff] at distinct
    rw [Json.sortObjectKeys_array, Json.every_array_iff, Json.every_array_iff, List.forall_mem_map]
    exact forall₂_congr fun element isIn => ih element isIn (distinct element isIn)
  | object members ih =>
    obtain ⟨keysDistinct, values⟩ := Json.every_object_iff.mp distinct
    have permuted := Json.perm_sortedMembers (members.map Json.sortEntry)
    have entriesDistinct : Json.DistinctKeys (members.map Json.sortEntry) := by
      unfold Json.DistinctKeys
      rwa [Json.keys_map_sortEntry]
    rw [Json.sortObjectKeys_object, Json.every_object_iff,
      Json.every_object_iff, notReserved_sortedMembers_iff entriesDistinct]
    refine and_congr ?_ ?_
    · unfold LeastNotReserved
      rw [Json.keys_map_sortEntry]
    · simp only [permuted.mem_iff, List.forall_mem_map]
      exact forall₂_congr fun entry isIn => ih entry isIn (values entry isIn)
  | _ => exact Iff.rfl

/-- The numbers of the tree are normal and its keys distinct. -/
def IsValue (backend : NumberBackend Number Double) (tree : Json Number) : Prop :=
  tree.Every backend.IsNormal Json.DistinctKeys

variable (isValue : IsValue backend tree)
include isValue

theorem IsValue.wellKeyed : tree.WellKeyed :=
  isValue.imp (fun _ _ => trivial) fun _ distinct => distinct

theorem toCanonicalJson_value_iff : toCanonicalJson text tree = .ok bytes ↔
      canonicalCodecLimits.inspect 1 tree.sortObjectKeys = .ok () ∧
        text.size (text.print tree.sortObjectKeys) ≤ canonicalCodecLimits.maxBytes ∧
        text.print tree.sortObjectKeys = bytes :=
  toCanonicalJson_eq_ok_iff (canonicalTree_eq_sortObjectKeys isValue)

theorem hasIntegers_sortObjectKeys (integers : HasIntegers backend tree) :
    HasIntegers backend tree.sortObjectKeys :=
  (Json.every_sortObjectKeys (integers.map₂ isValue (fun _ isInteger _ => isInteger)
    fun _ _ distinct => distinct)).imp (fun _ isInteger => isInteger) fun _ _ => trivial

omit isValue in
/-- No private key of the JSON library is the least key of an object. -/
def IsUnreserved (tree : Json Number) : Prop :=
  tree.Every (fun _ => True) (LeastNotReserved arbitraryPrecisionNumberKey) ∧
    tree.Every (fun _ => True) (LeastNotReserved rawValueKey)

theorem roundTrip_iff [DecidableEq Bytes] (integers : HasIntegers backend tree)
    (encoded : toCanonicalJson text tree = .ok bytes) :
    (∃ decoded, fromCanonicalJson text raw bytes = .ok decoded ∧
        Json.SameUpToOrder tree decoded) ↔ IsUnreserved tree := by
  obtain ⟨within, fits, rfl⟩ := (toCanonicalJson_value_iff isValue).mp encoded
  have canonical : IsCanonical backend tree.sortObjectKeys := Json.every_sortObjectKeys isValue
  have sortedIntegers := hasIntegers_sortObjectKeys isValue integers
  unfold IsUnreserved
  rw [← every_notReserved_sortObjectKeys_iff isValue.wellKeyed,
    ← every_notReserved_sortObjectKeys_iff isValue.wellKeyed]
  constructor
  · rintro ⟨decoded, run, same⟩
    obtain ⟨read, readRun, valueRun⟩ := fromCanonicalJson_eq_ok_iff.mp run
    obtain ⟨⟨-, notReserved, -⟩, parsed, parses, parsedSame⟩ := of_readCanonical readRun
    rw [parse_print_of_integers text canonical sortedIntegers within] at parses
    obtain rfl := Option.some.inj parses
    obtain rfl : read = tree.sortObjectKeys := by
      refine (HasIntegers.eq_of_mapNumbers ?_ parsedSame).symm
      rw [← hasIntegers_mapNumbers_iff, ← parsedSame, hasIntegers_mapNumbers_iff]
      exact sortedIntegers
    refine ⟨notReserved, notReserved_of_fromValue canonical valueRun ?_⟩
    exact ((Json.sameUpToOrder_iff isValue.wellKeyed).mp same).symm
  · rintro ⟨noNumber, noRaw⟩
    refine ⟨tree.sortObjectKeys, fromCanonicalJson_eq_ok_iff.mpr ⟨_,
      readCanonical_print canonical sortedIntegers noNumber within fits,
      fromValue_eq_self noRaw⟩, ?_⟩
    rw [Json.sameUpToOrder_iff isValue.wellKeyed, Json.sortObjectKeys_eq_self canonical]

theorem encodings_eq_iff (integers : HasIntegers backend tree)
    (otherIsValue : IsValue backend other) (otherIntegers : HasIntegers backend other)
    {otherBytes : Bytes} (encoded : toCanonicalJson text tree = .ok bytes)
    (otherEncoded : toCanonicalJson text other = .ok otherBytes) :
    bytes = otherBytes ↔ Json.SameUpToOrder tree other := by
  obtain ⟨within, -, rfl⟩ := (toCanonicalJson_value_iff isValue).mp encoded
  obtain ⟨otherWithin, -, rfl⟩ := (toCanonicalJson_value_iff otherIsValue).mp otherEncoded
  rw [Json.sameUpToOrder_iff isValue.wellKeyed]
  constructor
  · exact print_inj (Json.every_sortObjectKeys isValue)
      (hasIntegers_sortObjectKeys isValue integers) within (Json.every_sortObjectKeys otherIsValue)
      (hasIntegers_sortObjectKeys otherIsValue otherIntegers) otherWithin
  · intro same
    rw [same]

omit isValue

/-- The bytes are the encoding of a value that the decoder reads as another one. -/
def IsEncodingRead [DecidableEq Bytes] (text : JsonText backend Bytes) (raw : RawReader Number)
    (bytes : Bytes) (tree decoded : Json Number) : Prop :=
  IsValue backend tree ∧
    tree.Every (fun _ => True) (LeastNotReserved arbitraryPrecisionNumberKey) ∧
    fromValue raw tree.sortObjectKeys = some decoded ∧
    toCanonicalJson text tree = .ok bytes

theorem exists_encoding [DecidableEq Bytes]
    (run : fromCanonicalJson text raw bytes = .ok decoded) :
    ∃ tree, IsEncodingRead text raw bytes tree decoded ∧
      ∃ parsed, text.parse bytes = some parsed ∧
        parsed.mapNumbers backend.integer? = tree.mapNumbers backend.integer? := by
  obtain ⟨tree, readRun, valueRun⟩ := fromCanonicalJson_eq_ok_iff.mp run
  obtain ⟨⟨canonical, notReserved, within, fits, printed⟩, parsed⟩ := of_readCanonical readRun
  have isValue : IsValue backend tree :=
    canonical.imp (fun _ normal => normal) fun _ increasing => increasing.distinctKeys
  have unchanged := Json.sortObjectKeys_eq_self canonical
  refine ⟨tree, ⟨isValue, ?_, ?_, ?_⟩, parsed⟩
  · rwa [← every_notReserved_sortObjectKeys_iff isValue.wellKeyed, unchanged]
  · rwa [unchanged]
  · rw [toCanonicalJson_value_iff isValue, unchanged, printed]
    exact ⟨within, fits, rfl⟩

theorem fromCanonicalJson_of_encoding [DecidableEq Bytes] (integers : HasIntegers backend tree)
    (encoding : IsEncodingRead text raw bytes tree decoded) :
    fromCanonicalJson text raw bytes = .ok decoded := by
  obtain ⟨isValue, notReserved, valueRun, encoded⟩ := encoding
  obtain ⟨within, fits, rfl⟩ := (toCanonicalJson_value_iff isValue).mp encoded
  rw [← every_notReserved_sortObjectKeys_iff isValue.wellKeyed] at notReserved
  exact fromCanonicalJson_eq_ok_iff.mpr ⟨_, readCanonical_print (Json.every_sortObjectKeys isValue)
    (hasIntegers_sortObjectKeys isValue integers) notReserved within fits, valueRun⟩

theorem accepted_iff [DecidableEq Bytes] (parses : text.parse bytes = some parsed)
    (integers : HasIntegers backend parsed) :
    fromCanonicalJson text raw bytes = .ok decoded ↔
      ∃ tree, HasIntegers backend tree ∧ IsEncodingRead text raw bytes tree decoded := by
  constructor
  · intro run
    obtain ⟨tree, encoding, _, parses', same⟩ := exists_encoding run
    cases parses.symm.trans parses'
    refine ⟨tree, ?_, encoding⟩
    rw [← hasIntegers_mapNumbers_iff, ← same, hasIntegers_mapNumbers_iff]
    exact integers
  · rintro ⟨tree, treeIntegers, encoding⟩
    exact fromCanonicalJson_of_encoding treeIntegers encoding

theorem repeated_key_rejected [DecidableEq Bytes] (parses : text.parse bytes = some parsed)
    (repeats : ¬ parsed.WellKeyed) (decoded : Json Number) :
    fromCanonicalJson text raw bytes ≠ .ok decoded := by
  intro run
  obtain ⟨_, run, -⟩ := bind_eq_ok.mp run
  obtain ⟨-, run⟩ := check_bind_eq_ok.mp run
  obtain ⟨read, readRun, -⟩ := bind_eq_ok.mp run
  unfold parseUnique at readRun
  rw [parses] at readRun
  exact repeats (wellKeyed_of_visit readRun).1

/-- Canonical JSON is a canonical form of trees without reserved first keys.

A value with integers within the limits is decoded from its encoding, up to the
order of members, exactly if no private key is the least one of an object.
Encodings are equal exactly if the values are, up to that order. Every accepted
text is the encoding of a value, and a text with integers is accepted exactly
if it is the encoding of a value in which the private key of numbers is not
least and every raw value can be read. None of them repeats a key. -/
theorem canonical_json_iff {Number Double Bytes : Type} [DecidableEq Bytes]
    (backend : NumberBackend Number Double) (text : JsonText backend Bytes)
    (raw : RawReader Number) :
    (∀ tree bytes, IsValue backend tree → HasIntegers backend tree →
        toCanonicalJson text tree = .ok bytes →
        ((∃ decoded, fromCanonicalJson text raw bytes = .ok decoded ∧
            Json.SameUpToOrder tree decoded) ↔
          IsUnreserved tree)) ∧
      (∀ tree other bytes otherBytes, IsValue backend tree → HasIntegers backend tree →
        IsValue backend other → HasIntegers backend other →
        toCanonicalJson text tree = .ok bytes →
        toCanonicalJson text other = .ok otherBytes →
        (bytes = otherBytes ↔ Json.SameUpToOrder tree other)) ∧
      (∀ bytes decoded, fromCanonicalJson text raw bytes = .ok decoded →
        ∃ tree, IsEncodingRead text raw bytes tree decoded) ∧
      (∀ bytes parsed decoded, text.parse bytes = some parsed → HasIntegers backend parsed →
        (fromCanonicalJson text raw bytes = .ok decoded ↔
          ∃ tree, HasIntegers backend tree ∧ IsEncodingRead text raw bytes tree decoded)) ∧
      ∀ bytes parsed decoded, text.parse bytes = some parsed →
        ¬ parsed.WellKeyed → fromCanonicalJson text raw bytes ≠ .ok decoded := by
  refine ⟨?_, ?_, ?_, ?_, ?_⟩
  · intro tree bytes isValue integers encoded
    exact roundTrip_iff isValue integers encoded
  · intro tree other bytes otherBytes isValue integers otherIsValue otherIntegers encoded
      otherEncoded
    exact encodings_eq_iff isValue integers otherIsValue otherIntegers encoded otherEncoded
  · intro bytes decoded run
    obtain ⟨tree, encoding, -⟩ := exists_encoding run
    exact ⟨tree, encoding⟩
  · intro bytes parsed decoded parses integers
    exact accepted_iff parses integers
  · intro bytes parsed decoded parses repeats
    exact repeated_key_rejected parses repeats decoded

end CanonicalForm

/-! ## Encodings that are not kept -/

/-- The numbers of the plain build: natural, negative, or doubles. -/
inductive MachineNumber where
  | posInt (value : Nat)
  | negInt (value : { value : Int // value < 0 })
  | float (bits : Nat)
  deriving DecidableEq

namespace MachineNumber

/-- The signed integer, if there is one. -/
def asI64 : MachineNumber → Option Int
  | .posInt value => if value < 2 ^ 63 then some value else none
  | .negInt value => some value
  | .float _ => none

/-- The unsigned integer, if there is one. -/
def asU64 : MachineNumber → Option Nat
  | .posInt value => some value
  | _ => none

/-- The double; it is only asked for when there is no integer. -/
def asF64 : MachineNumber → Option Nat
  | .float bits => some bits
  | _ => none

/-- The number of a signed integer. -/
def fromI64 (value : Int) : MachineNumber :=
  if negative : value < 0 then .negInt ⟨value, negative⟩
  else .posInt value.toNat

end MachineNumber

/-- The plain build; of texts it reads the digit one. -/
def machineBackend : NumberBackend MachineNumber Nat where
  asI64 := MachineNumber.asI64
  asU64 := MachineNumber.asU64
  asF64 := MachineNumber.asF64
  fromI64 := MachineNumber.fromI64
  fromU64 := MachineNumber.posInt
  fromF64 bits := some (.float bits)
  parse spelling := if spelling = "1" then some (.posInt 1) else none
  signed := by
    intro value integer run
    unfold MachineNumber.fromI64
    split
    · rfl
    · rename_i notNegative
      cases value with
      | posInt natural =>
          simp only [MachineNumber.asI64] at run ⊢
          split at run
          · obtain rfl := Option.some.inj run
            simpa using ‹natural < 2 ^ 63›
          · simp at run
      | negInt natural =>
          obtain rfl := Option.some.inj run
          exact absurd natural.2 notNegative
      | float bits => simp [MachineNumber.asI64] at run
  unsigned := by
    intro value natural notSigned run
    cases value with
    | posInt value =>
        obtain rfl := Option.some.inj run
        exact ⟨notSigned, rfl⟩
    | negInt value | float bits => simp [MachineNumber.asU64] at run
  floating := by
    intro value double other _ _ _ run
    obtain rfl := Option.some.inj run
    exact ⟨rfl, rfl, rfl⟩

def treeText : JsonText machineBackend (Json MachineNumber) where
  print := id
  parse := some
  size _ := 0
  parse_print _ _ _ := rfl

/-- Of raw values, the digit one is read. -/
def digitReader : RawReader MachineNumber where
  read spelling := if spelling = "1" then some (.number (.posInt 1)) else none
  unwraps text value := by split <;> simp

/-- An object with the private key of numbers and the text of one. -/
def reservedObject : Json MachineNumber := .object [(arbitraryPrecisionNumberKey, .string "1")]

/-- An object with the private key of raw values and the text of a number. -/
def rawObject : Json MachineNumber := .object [(rawValueKey, .string "1")]

/--
The encoding of an object with the private key of numbers is not accepted, and
that of an object with the private key of raw values is decoded to a number.
-/
theorem reserved_objects_not_kept :
    (IsValue machineBackend reservedObject ∧
        toCanonicalJson treeText reservedObject = .ok reservedObject ∧
        ∀ (_ : DecidableEq (Json MachineNumber)) (decoded : Json MachineNumber),
          fromCanonicalJson treeText digitReader reservedObject ≠ .ok decoded) ∧
      IsValue machineBackend rawObject ∧
        toCanonicalJson treeText rawObject = .ok rawObject ∧
        ∀ (_ : DecidableEq (Json MachineNumber)),
          fromCanonicalJson treeText digitReader rawObject = .ok (.number (.posInt 1)) := by
  have reservedIsValue : IsValue machineBackend reservedObject :=
    ⟨List.nodup_singleton _, trivial, trivial⟩
  have rawIsValue : IsValue machineBackend rawObject := ⟨List.nodup_singleton _, trivial, trivial⟩
  refine ⟨⟨reservedIsValue, ?_, ?_⟩, rawIsValue, ?_, ?_⟩
  · rw [toCanonicalJson_value_iff reservedIsValue]
    exact ⟨by decide, Nat.zero_le _, rfl⟩
  · intro decidable decoded run
    obtain ⟨tree, readRun, -⟩ := fromCanonicalJson_eq_ok_iff.mp run
    obtain ⟨⟨-, notReserved, -, -, printed⟩, -⟩ := of_readCanonical readRun
    obtain rfl : tree = reservedObject := printed
    exact notReserved.1 _ _ rfl
  · rw [toCanonicalJson_value_iff rawIsValue]
    exact ⟨by decide, Nat.zero_le _, rfl⟩
  · intro decidable
    have canonical : IsCanonical machineBackend rawObject :=
      ⟨List.pairwise_singleton _ _, trivial, trivial⟩
    have integers : HasIntegers machineBackend rawObject := ⟨trivial, trivial, trivial⟩
    refine fromCanonicalJson_eq_ok_iff.mpr ⟨rawObject, readCanonical_print canonical integers ?_
      (by decide) (Nat.zero_le _), rfl⟩
    exact ⟨by simp [NotReserved, rawValueKey, arbitraryPrecisionNumberKey], trivial, trivial⟩

end TypeBridge.Contract
