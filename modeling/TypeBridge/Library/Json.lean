import Mathlib

namespace TypeBridge.Library

/-!
# JSON trees

Trees with numbers of any kind. An object is the list of its members in the
order of a text, so that a repeated key can be told apart. Sorting the members
at every depth gives one tree for all orders: two trees whose objects have
distinct keys are equal up to the order of members exactly if they are equal
once sorted.
-/

/-! ## Lists related element by element -/

section Related

variable {α β : Type} {relation : α → β → Prop} {elements : List α} {others : List β}

theorem exists_left_of_forall₂ (pairwise : List.Forall₂ relation elements others) {other : β}
    (isIn : other ∈ others) : ∃ element ∈ elements, relation element other := by
  induction pairwise with
  | nil => exact absurd isIn List.not_mem_nil
  | cons related _ ih =>
    rcases List.mem_cons.mp isIn with rfl | isIn
    · exact ⟨_, List.mem_cons_self, related⟩
    · obtain ⟨element, isElement, holds⟩ := ih isIn
      exact ⟨element, List.mem_cons_of_mem _ isElement, holds⟩

theorem exists_right_of_forall₂ (pairwise : List.Forall₂ relation elements others) {element : α}
    (isIn : element ∈ elements) : ∃ other ∈ others, relation element other := by
  induction pairwise with
  | nil => exact absurd isIn List.not_mem_nil
  | cons related _ ih =>
    rcases List.mem_cons.mp isIn with rfl | isIn
    · exact ⟨_, List.mem_cons_self, related⟩
    · obtain ⟨other, isOther, holds⟩ := ih isIn
      exact ⟨other, List.mem_cons_of_mem _ isOther, holds⟩

variable {γ : Type} (pairwise : List.Forall₂ relation elements others)
include pairwise

theorem map_eq_map_of_related {left : α → γ} {right : β → γ}
    (agree : ∀ element ∈ elements, ∀ other, relation element other → left element = right other) :
    elements.map left = others.map right := by
  induction pairwise with
  | nil => rfl
  | cons related _ ih =>
    rw [List.map_cons, List.map_cons, agree _ List.mem_cons_self _ related,
      ih fun element isIn => agree element (List.mem_cons_of_mem _ isIn)]

theorem sum_le_sum_of_related {left : α → Nat} {right : β → Nat} {kept : α → Prop}
    (agree : ∀ element ∈ elements, ∀ other, relation element other → right other ≤ left element ∧
        (right other = left element → kept element)) :
    (others.map right).sum ≤ (elements.map left).sum ∧
      ((others.map right).sum = (elements.map left).sum → ∀ element ∈ elements, kept element) := by
  induction pairwise with
  | nil => simp
  | cons related _ ih =>
    obtain ⟨headLe, headKept⟩ := agree _ List.mem_cons_self _ related
    obtain ⟨tailLe, tailKept⟩ := ih fun element isIn => agree element (List.mem_cons_of_mem _ isIn)
    simp only [List.map_cons, List.sum_cons, List.forall_mem_cons]
    refine ⟨Nat.add_le_add headLe tailLe, fun same => ⟨?_, ?_⟩⟩
    · exact headKept (by omega)
    · exact tailKept (by omega)

theorem forall_mem_iff_of_forall₂ {left : α → Prop} {right : β → Prop}
    (agree : ∀ element ∈ elements, ∀ other, relation element other → (right other ↔ left element)) :
    (∀ other ∈ others, right other) ↔ ∀ element ∈ elements, left element := by
  induction pairwise with
  | nil => simp
  | cons related _ ih =>
    rw [List.forall_mem_cons, List.forall_mem_cons, agree _ List.mem_cons_self _ related,
      ih fun element isIn => agree element (List.mem_cons_of_mem _ isIn)]

omit pairwise

theorem forall₂_of_map_eq_map {relation : α → α → Prop} {image : α → γ} {elements others : List α}
    (images : elements.map image = others.map image)
    (related : ∀ element ∈ elements, ∀ other, image element = image other → relation element other) :
    List.Forall₂ relation elements others := by
  induction elements generalizing others with
  | nil =>
    have empty : others = [] := by simpa using images.symm
    rw [empty]
    exact .nil
  | cons element rest ih =>
    cases others with
    | nil => simp at images
    | cons other others =>
      simp only [List.map_cons, List.cons.injEq] at images
      exact .cons (related element List.mem_cons_self other images.1)
        (ih images.2 fun element isIn => related element (List.mem_cons_of_mem _ isIn))

end Related

/-! ## Trees -/

inductive Json (Number : Type) where
  | null
  | bool (value : Bool)
  | number (value : Number)
  | string (text : String)
  | array (elements : List (Json Number))
  | object (members : List (String × Json Number))

namespace Json

variable {Number : Type}

@[induction_eliminator]
theorem inductionOn {motive : Json Number → Prop} (tree : Json Number) (null : motive .null)
    (bool : ∀ value, motive (.bool value)) (number : ∀ value, motive (.number value))
    (string : ∀ text, motive (.string text))
    (array : ∀ elements, (∀ element ∈ elements, motive element) → motive (.array elements))
    (object : ∀ members : List (String × Json Number),
      (∀ entry ∈ members, motive entry.2) → motive (.object members)) :
    motive tree := by
  refine @Json.rec Number motive (fun elements => ∀ element ∈ elements, motive element)
    (fun members => ∀ entry ∈ members, motive entry.2) (fun entry => motive entry.2)
    null bool number string array object ?_ ?_ ?_ ?_ ?_ tree
  · exact fun _ isIn => absurd isIn List.not_mem_nil
  · intro head tail headHolds tailHolds element isIn
    rcases List.mem_cons.mp isIn with rfl | isIn
    · exact headHolds
    · exact tailHolds element isIn
  · exact fun _ isIn => absurd isIn List.not_mem_nil
  · intro head tail headHolds tailHolds entry isIn
    rcases List.mem_cons.mp isIn with rfl | isIn
    · exact headHolds
    · exact tailHolds entry isIn
  · exact fun _ _ holds => holds

/-! ## Conditions on all parts of a tree -/

mutual

def Every (number : Number → Prop) (object : List (String × Json Number) → Prop) :
    Json Number → Prop
  | .number value => number value
  | .array elements => EveryElement number object elements
  | .object members => object members ∧ EveryMember number object members
  | _ => True

def EveryElement (number : Number → Prop) (object : List (String × Json Number) → Prop) :
    List (Json Number) → Prop
  | [] => True
  | element :: rest => element.Every number object ∧ EveryElement number object rest

def EveryMember (number : Number → Prop) (object : List (String × Json Number) → Prop) :
    List (String × Json Number) → Prop
  | [] => True
  | (_, value) :: rest => value.Every number object ∧ EveryMember number object rest

end

variable {number : Number → Prop} {object : List (String × Json Number) → Prop}

theorem every_array_iff {elements : List (Json Number)} :
    (Json.array elements).Every number object ↔
      ∀ element ∈ elements, element.Every number object := by
  change EveryElement number object elements ↔ _
  induction elements with
  | nil => simp [EveryElement]
  | cons element rest ih => simp [EveryElement, ih]

variable {members : List (String × Json Number)}

theorem every_object_iff : (Json.object members).Every number object ↔
      object members ∧ ∀ entry ∈ members, entry.2.Every number object := by
  have ofMembers : EveryMember number object members ↔
        ∀ entry ∈ members, entry.2.Every number object := by
    induction members with
    | nil => simp [EveryMember]
    | cons entry rest ih => simp [EveryMember, ih]
  exact and_congr_right fun _ => ofMembers

variable {tree : Json Number}

theorem Every.map₂ {otherNumber bothNumber : Number → Prop}
    {otherObject bothObject : List (String × Json Number) → Prop}
    (every : tree.Every number object) (others : tree.Every otherNumber otherObject)
    (ofNumber : ∀ value, number value → otherNumber value → bothNumber value)
    (ofObject : ∀ members, object members → otherObject members → bothObject members) :
    tree.Every bothNumber bothObject := by
  induction tree with
  | number value => exact ofNumber value every others
  | array elements ih =>
    rw [every_array_iff] at every others ⊢
    intro element isIn
    exact ih element isIn (every element isIn) (others element isIn)
  | object members ih =>
    rw [every_object_iff] at every others ⊢
    refine ⟨ofObject members every.1 others.1, ?_⟩
    intro entry isIn
    exact ih entry isIn (every.2 entry isIn) (others.2 entry isIn)
  | _ => exact trivial

theorem Every.imp {weakerNumber : Number → Prop} {weakerObject : List (String × Json Number) → Prop}
    (every : tree.Every number object) (ofNumber : ∀ value, number value → weakerNumber value)
    (ofObject : ∀ members, object members → weakerObject members) :
    tree.Every weakerNumber weakerObject :=
  every.map₂ every (fun value holds _ => ofNumber value holds)
    fun members holds _ => ofObject members holds

def DistinctKeys (members : List (String × Json Number)) : Prop := (members.map Prod.fst).Nodup

def IncreasingKeys (members : List (String × Json Number)) : Prop :=
  (members.map Prod.fst).Pairwise (· < ·)

/-- Every object of the tree has distinct keys. -/
def WellKeyed (tree : Json Number) : Prop := tree.Every (fun _ => True) DistinctKeys

theorem IncreasingKeys.distinctKeys (increasing : IncreasingKeys members) : DistinctKeys members :=
  increasing.imp ne_of_lt

/-! ## Sorting -/

/-- Members in the order of their keys. -/
def sortedMembers (members : List (String × Json Number)) : List (String × Json Number) :=
  members.insertionSort fun first second => first.1 ≤ second.1

mutual

def sortObjectKeys : Json Number → Json Number
  | .array elements => .array (sortElements elements)
  | .object members => .object (sortedMembers (sortValues members))
  | tree => tree

def sortElements : List (Json Number) → List (Json Number)
  | [] => []
  | element :: rest => element.sortObjectKeys :: sortElements rest

def sortValues : List (String × Json Number) → List (String × Json Number)
  | [] => []
  | (key, value) :: rest => (key, value.sortObjectKeys) :: sortValues rest

end

/-- The member with its value sorted. -/
def sortEntry (entry : String × Json Number) : String × Json Number :=
  (entry.1, entry.2.sortObjectKeys)

theorem sortObjectKeys_array (elements : List (Json Number)) :
    (Json.array elements).sortObjectKeys = .array (elements.map sortObjectKeys) := by
  unfold sortObjectKeys
  congr 1
  induction elements with
  | nil => rfl
  | cons element rest ih => simp [sortElements, ih]

variable (members : List (String × Json Number))

theorem sortObjectKeys_object :
    (Json.object members).sortObjectKeys = .object (sortedMembers (members.map sortEntry)) := by
  unfold sortObjectKeys
  congr 2
  induction members with
  | nil => rfl
  | cons entry rest ih => simp [sortValues, sortEntry, ih]

theorem perm_sortedMembers : (sortedMembers members).Perm members :=
  List.perm_insertionSort _ members

theorem keys_map_sortEntry : (members.map sortEntry).map Prod.fst = members.map Prod.fst := by
  rw [List.map_map]
  rfl

variable {members : List (String × Json Number)}

theorem increasing_sortedMembers (distinct : DistinctKeys members) :
    IncreasingKeys (sortedMembers members) := by
  have ordered : ((sortedMembers members).map Prod.fst).Pairwise (· ≤ ·) := by
    rw [List.pairwise_map]
    exact List.pairwise_insertionSort _ members
  have stillDistinct : ((sortedMembers members).map Prod.fst).Nodup :=
    ((perm_sortedMembers members).map Prod.fst).nodup_iff.mpr distinct
  exact (ordered.and stillDistinct).imp fun both => lt_of_le_of_ne both.1 both.2

theorem sortedMembers_eq_self (increasing : IncreasingKeys members) :
    sortedMembers members = members := by
  refine List.Pairwise.insertionSort_eq ?_
  exact (List.pairwise_map.mp increasing).imp le_of_lt

variable {tree : Json Number}

theorem every_sortObjectKeys (every : tree.Every number DistinctKeys) :
    tree.sortObjectKeys.Every number IncreasingKeys := by
  induction tree with
  | number value => exact every
  | array elements ih =>
    rw [sortObjectKeys_array, every_array_iff]
    intro element isIn
    obtain ⟨original, isOriginal, rfl⟩ := List.mem_map.mp isIn
    exact ih original isOriginal (every_array_iff.mp every original isOriginal)
  | object members ih =>
    obtain ⟨distinct, values⟩ := every_object_iff.mp every
    rw [sortObjectKeys_object, every_object_iff]
    constructor
    · refine increasing_sortedMembers ?_
      unfold DistinctKeys
      rwa [keys_map_sortEntry]
    · intro entry isIn
      obtain ⟨original, isOriginal, rfl⟩ := List.mem_map.mp ((perm_sortedMembers _).mem_iff.mp isIn)
      exact ih original isOriginal (values original isOriginal)
  | _ => exact trivial

theorem sortObjectKeys_eq_self (every : tree.Every number IncreasingKeys) :
    tree.sortObjectKeys = tree := by
  induction tree with
  | array elements ih =>
    rw [sortObjectKeys_array]
    congr 1
    refine (List.map_congr_left ?_).trans (List.map_id elements)
    intro element isIn
    exact ih element isIn (every_array_iff.mp every element isIn)
  | object members ih =>
    obtain ⟨increasing, values⟩ := every_object_iff.mp every
    have unchanged : members.map sortEntry = members := by
      refine (List.map_congr_left ?_).trans (List.map_id members)
      intro entry isIn
      exact Prod.ext rfl (ih entry isIn (values entry isIn))
    rw [sortObjectKeys_object, unchanged, sortedMembers_eq_self increasing]
  | _ => rfl

/-! ## Counting objects -/

mutual

/-- How many objects the tree has, at any depth. -/
def objectCount : Json Number → Nat
  | .array elements => countElements elements
  | .object members => countMembers members + 1
  | _ => 0

def countElements : List (Json Number) → Nat
  | [] => 0
  | element :: rest => element.objectCount + countElements rest

def countMembers : List (String × Json Number) → Nat
  | [] => 0
  | (_, value) :: rest => value.objectCount + countMembers rest

end

theorem objectCount_array (elements : List (Json Number)) :
    (Json.array elements).objectCount = (elements.map objectCount).sum := by
  change countElements elements = _
  induction elements with
  | nil => rfl
  | cons element rest ih => simp [countElements, ih]

theorem objectCount_object :
    (Json.object members).objectCount = (members.map fun entry => entry.2.objectCount).sum + 1 := by
  change countMembers members + 1 = _
  congr 1
  induction members with
  | nil => rfl
  | cons entry rest ih => simp [countMembers, ih]

theorem objectCount_sortObjectKeys (tree : Json Number) :
    tree.sortObjectKeys.objectCount = tree.objectCount := by
  induction tree with
  | array elements ih =>
    rw [sortObjectKeys_array, objectCount_array, objectCount_array, List.map_map]
    congr 1
    exact List.map_congr_left ih
  | object members ih =>
    rw [sortObjectKeys_object, objectCount_object, objectCount_object]
    have permuted :=
      (perm_sortedMembers (members.map sortEntry)).map fun entry => entry.2.objectCount
    rw [permuted.sum_eq, List.map_map]
    congr 2
    exact List.map_congr_left ih
  | _ => rfl

/-! ## Changing the numbers -/

section MapNumbers

variable {Other : Type} (change : Number → Other)

mutual

/-- Change every number of a tree. -/
def mapNumbers : Json Number → Json Other
  | .null => .null
  | .bool value => .bool value
  | .number value => .number (change value)
  | .string text => .string text
  | .array elements => .array (mapElements elements)
  | .object members => .object (mapMembers members)

def mapElements : List (Json Number) → List (Json Other)
  | [] => []
  | element :: rest => element.mapNumbers :: mapElements rest

def mapMembers : List (String × Json Number) → List (String × Json Other)
  | [] => []
  | (key, value) :: rest => (key, value.mapNumbers) :: mapMembers rest

end

/-- The member with the numbers of its value changed. -/
def mapEntry (entry : String × Json Number) : String × Json Other :=
  (entry.1, entry.2.mapNumbers change)

theorem mapNumbers_array (elements : List (Json Number)) :
    (Json.array elements).mapNumbers change = .array (elements.map (mapNumbers change)) := by
  change Json.array (mapElements change elements) = _
  congr 1
  induction elements with
  | nil => rfl
  | cons element rest ih => simp [mapElements, ih]

theorem mapNumbers_object (members : List (String × Json Number)) :
    (Json.object members).mapNumbers change = .object (members.map (mapEntry change)) := by
  change Json.object (mapMembers change members) = _
  congr 1
  induction members with
  | nil => rfl
  | cons entry rest ih => simp [mapMembers, mapEntry, ih]

theorem objectCount_mapNumbers (tree : Json Number) :
    (tree.mapNumbers change).objectCount = tree.objectCount := by
  induction tree with
  | array elements ih =>
    rw [mapNumbers_array, objectCount_array, objectCount_array, List.map_map]
    congr 1
    exact List.map_congr_left ih
  | object members ih =>
    rw [mapNumbers_object, objectCount_object, objectCount_object, List.map_map]
    congr 2
    exact List.map_congr_left ih
  | _ => rfl

variable {change}

/-- A condition on numbers and keys holds of the changed tree as of the tree. -/
theorem every_mapNumbers_iff {otherNumber : Other → Prop}
    {otherObject : List (String × Json Other) → Prop}
    (numbers : ∀ value, otherNumber (change value) ↔ number value)
    (objects : ∀ members, otherObject (members.map (mapEntry change)) ↔ object members) :
    (tree.mapNumbers change).Every otherNumber otherObject ↔ tree.Every number object := by
  induction tree with
  | number value => exact numbers value
  | array elements ih =>
    rw [mapNumbers_array, every_array_iff, every_array_iff, List.forall_mem_map]
    exact forall₂_congr ih
  | object members ih =>
    rw [mapNumbers_object, every_object_iff, every_object_iff, objects, List.forall_mem_map]
    exact and_congr_right fun _ => forall₂_congr ih
  | _ => exact Iff.rfl

/-- Where no other number is changed to the same, the tree is determined by the change. -/
theorem eq_of_mapNumbers_eq {other : Json Number}
    (determined : tree.Every (fun value => ∀ another, change another = change value →
      another = value) object)
    (same : other.mapNumbers change = tree.mapNumbers change) :
    other = tree := by
  induction tree generalizing other with
  | null => cases other <;> simp [mapNumbers] at same ⊢
  | bool value | string text => cases other <;> simp_all [mapNumbers]
  | number value =>
    cases other with
    | number another =>
      rw [determined another (by simpa [mapNumbers] using same)]
    | _ => simp [mapNumbers] at same
  | array elements ih =>
    rw [mapNumbers_array] at same
    cases other with
    | array others =>
      rw [mapNumbers_array, array.injEq] at same
      have determined := every_array_iff.mp determined
      congr 1
      refine (List.forall₂_eq_eq_eq.symm ▸ forall₂_of_map_eq_map same.symm ?_ :
        elements = others).symm
      intro element isIn another equal
      exact (ih element isIn (determined element isIn) equal.symm).symm
    | _ => simp [mapNumbers] at same
  | object members ih =>
    rw [mapNumbers_object] at same
    cases other with
    | object others =>
      rw [mapNumbers_object, Json.object.injEq] at same
      have determined := (every_object_iff.mp determined).2
      congr 1
      refine (List.forall₂_eq_eq_eq.symm ▸ forall₂_of_map_eq_map same.symm ?_ :
        members = others).symm
      intro entry isIn another equal
      obtain ⟨key, value⟩ := Prod.ext_iff.mp equal
      exact Prod.ext key (ih entry isIn (determined entry isIn) value.symm).symm
    | _ => simp [mapNumbers] at same

end MapNumbers

/-! ## Equality up to the order of members -/

/-- The trees differ at most in the order of members, at every depth. -/
inductive SameUpToOrder : Json Number → Json Number → Prop where
  | null : SameUpToOrder .null .null
  | bool (value : Bool) : SameUpToOrder (.bool value) (.bool value)
  | number (value : Number) : SameUpToOrder (.number value) (.number value)
  | string (text : String) : SameUpToOrder (.string text) (.string text)
  | array
      {elements others : List (Json Number)}
      (pairwise : List.Forall₂ SameUpToOrder elements others) :
      SameUpToOrder (.array elements) (.array others)
  | object
      {members matched others : List (String × Json Number)}
      (keys : members.map Prod.fst = matched.map Prod.fst)
      (values : List.Forall₂ SameUpToOrder (members.map Prod.snd) (matched.map Prod.snd))
      (reordered : matched.Perm others) : SameUpToOrder (.object members) (.object others)

variable {others : List (String × Json Number)}

theorem sortedMembers_eq_of_perm (distinct : DistinctKeys members) (reordered : members.Perm others) :
    sortedMembers members = sortedMembers others := by
  have otherDistinct : DistinctKeys others := (reordered.map Prod.fst).nodup_iff.mp distinct
  have increasing := List.pairwise_map.mp (increasing_sortedMembers distinct)
  have otherIncreasing := List.pairwise_map.mp (increasing_sortedMembers otherDistinct)
  refine List.Perm.eq_of_pairwise ?_ increasing otherIncreasing ?_
  · intro entry other _ _ less greater
    exact absurd greater less.not_gt
  · exact (perm_sortedMembers members).trans (reordered.trans (perm_sortedMembers others).symm)

theorem map_sortEntry_eq (keys : members.map Prod.fst = others.map Prod.fst)
    (values : members.map (fun entry => entry.2.sortObjectKeys) =
      others.map (fun entry => entry.2.sortObjectKeys)) :
    members.map sortEntry = others.map sortEntry := by
  induction members generalizing others with
  | nil =>
    have empty : others = [] := by simpa using keys.symm
    rw [empty]
  | cons entry rest ih =>
    cases others with
    | nil => simp at keys
    | cons other others =>
      simp only [List.map_cons, List.cons.injEq] at keys values ⊢
      exact ⟨Prod.ext keys.1 values.1, ih keys.2 values.2⟩

variable {other : Json Number}

theorem SameUpToOrder.sortObjectKeys_eq (distinct : tree.WellKeyed)
    (same : SameUpToOrder tree other) : tree.sortObjectKeys = other.sortObjectKeys := by
  unfold WellKeyed at distinct
  induction tree generalizing other with
  | array elements ih =>
    cases same with
    | array pairwise =>
      rw [sortObjectKeys_array, sortObjectKeys_array]
      congr 1
      refine map_eq_map_of_related pairwise ?_
      intro element isIn other related
      exact ih element isIn (every_array_iff.mp distinct element isIn) related
  | object members ih =>
    obtain ⟨keysDistinct, valuesDistinct⟩ := every_object_iff.mp distinct
    cases same with
    | @object _ matched others keys values reordered =>
      have sortedValues : (members.map Prod.snd).map sortObjectKeys =
            (matched.map Prod.snd).map sortObjectKeys := by
        refine map_eq_map_of_related values ?_
        intro value isIn other related
        obtain ⟨entry, isEntry, rfl⟩ := List.mem_map.mp isIn
        exact ih entry isEntry (valuesDistinct entry isEntry) related
      rw [List.map_map, List.map_map] at sortedValues
      rw [sortObjectKeys_object, sortObjectKeys_object, map_sortEntry_eq keys sortedValues]
      congr 1
      refine sortedMembers_eq_of_perm ?_ (reordered.map sortEntry)
      unfold DistinctKeys at keysDistinct ⊢
      rwa [keys_map_sortEntry, ← keys]
  | _ => cases same; rfl

theorem sameUpToOrder_of_sortObjectKeys_eq (same : tree.sortObjectKeys = other.sortObjectKeys) :
    SameUpToOrder tree other := by
  induction tree generalizing other with
  | null =>
    cases other <;> simp_all [sortObjectKeys]
    exact .null
  | bool value =>
    cases other <;> simp_all [sortObjectKeys]
    exact .bool _
  | number value =>
    cases other <;> simp_all [sortObjectKeys]
    exact .number _
  | string text =>
    cases other <;> simp_all [sortObjectKeys]
    exact .string _
  | array elements ih =>
    rw [sortObjectKeys_array] at same
    cases other with
    | array others =>
      rw [sortObjectKeys_array, array.injEq] at same
      exact .array (forall₂_of_map_eq_map same ih)
    | _ => simp [sortObjectKeys] at same
  | object members ih =>
    rw [sortObjectKeys_object] at same
    cases other with
    | object others =>
      rw [sortObjectKeys_object, object.injEq] at same
      have reordered : (members.map sortEntry).Perm (others.map sortEntry) :=
        (perm_sortedMembers _).symm.trans (same ▸ perm_sortedMembers (others.map sortEntry))
      have images : List.Forall₂ (fun image entry => image = sortEntry entry)
            (others.map sortEntry) others := List.forall₂_map_left_iff.mpr
          (List.forall₂_same.mpr fun _ _ => rfl)
      -- The other members in the order in which they match.
      obtain ⟨matched, matching, isPerm⟩ := List.perm_comp_forall₂ reordered images
      have entries : members.map sortEntry = matched.map sortEntry := by
        rw [← List.forall₂_eq_eq_eq, List.forall₂_map_right_iff]
        exact matching
      have keys : members.map Prod.fst = matched.map Prod.fst := by
        rw [← keys_map_sortEntry members, entries, keys_map_sortEntry]
      refine .object keys ?_ isPerm
      rw [List.forall₂_map_left_iff, List.forall₂_map_right_iff]
      refine forall₂_of_map_eq_map entries ?_
      intro entry isIn other sameEntry
      exact ih entry isIn (congrArg Prod.snd sameEntry)
    | _ => simp [sortObjectKeys] at same

theorem sameUpToOrder_iff (distinct : tree.WellKeyed) :
    SameUpToOrder tree other ↔ tree.sortObjectKeys = other.sortObjectKeys :=
  ⟨fun same => same.sortObjectKeys_eq distinct, sameUpToOrder_of_sortObjectKeys_eq⟩

end Json

end TypeBridge.Library
