import TypeBridge.Library.Checked

namespace TypeBridge.Library

/-!
# Ordered maps over linear orders

The extensional tree maps of the standard library serve as ordered maps.
Their lookup lemmas are stated for a lawful comparison; over a linear order
the comparison is `compare`, and lookups can be phrased with equality of keys.
-/

instance lawfulEqCmp_compare {α : Type*} [LinearOrder α] :
    Std.LawfulEqCmp (compare : α → α → Ordering) where
  eq_of_compare := fun same => compare_eq_iff_eq.mp same

instance transCmp_compare {α : Type*} [LinearOrder α] : Std.TransCmp (compare : α → α → Ordering) :=
  inferInstance

instance lawfulBEq_of_linearOrder {α : Type*} [LinearOrder α] : LawfulBEq α := inferInstance

namespace OrderedMap

variable {K V : Type*} [LinearOrder K] (map : Std.ExtTreeMap K V)

theorem getElem?_insert_eq (key query : K) (value : V) :
    (map.insert key value)[query]? = if key = query then some value else map[query]? := by
  rw [Std.ExtTreeMap.getElem?_insert]
  simp only [compare_eq_iff_eq]

theorem getElem?_erase_eq (key query : K) : (map.erase key)[query]? =
      if key = query then none else map[query]? := by
  rw [Std.ExtTreeMap.getElem?_erase]
  simp only [compare_eq_iff_eq]

theorem mem_values {map : Std.ExtTreeMap K V} {value : V} :
    value ∈ map.toList.map Prod.snd ↔ ∃ key : K, map[key]? = some value := by
  simp only [List.mem_map, Prod.exists, exists_eq_right,
    Std.ExtTreeMap.mem_toList_iff_getElem?_eq_some]

theorem nodup_keys : (map.toList.map Prod.fst).Nodup := by
  have distinct := Std.ExtTreeMap.distinct_keys_toList (t := map)
  rw [List.Nodup, List.pairwise_map]
  exact distinct.imp fun different same => different (compare_eq_iff_eq.mpr same)

theorem sorted_keys : (map.toList.map Prod.fst).Pairwise (· < ·) := by
  have ordered := Std.ExtTreeMap.ordered_keys_toList (t := map)
  rw [List.pairwise_map]
  exact ordered.imp fun less => compare_lt_iff_lt.mp less

section CheckedInsertion

variable {ε α K V : Type} [LinearOrder K]

def insertAll (key : α → K) (compute : α → Except ε V) (items : List α)
    (start : Std.ExtTreeMap K V) : Except ε (Std.ExtTreeMap K V) :=
  items.foldlM (fun map item => do
      let value ← compute item
      return map.insert (key item) value)
    start

variable {key : α → K} {compute : α → Except ε V} {start map : Std.ExtTreeMap K V}

theorem insertAll_cons_eq_ok {first : α} {rest : List α} :
    insertAll key compute (first :: rest) start = .ok map ↔ ∃ value, compute first = .ok value ∧
        insertAll key compute rest (start.insert (key first) value) = .ok map := by
  unfold insertAll
  rw [Checked.foldlM_cons_eq_ok]
  simp only [Checked.bind_eq_ok, Checked.pure_eq_ok]
  constructor
  · rintro ⟨middle, ⟨value, computed, rfl⟩, run⟩
    exact ⟨value, computed, run⟩
  · rintro ⟨value, computed, run⟩
    exact ⟨_, ⟨value, computed, rfl⟩, run⟩

theorem exists_insertAll (key : α → K) (compute : α → Except ε V) (items : List α)
    (computed : ∀ item ∈ items, ∃ value, compute item = .ok value) (start : Std.ExtTreeMap K V) :
    ∃ map : Std.ExtTreeMap K V, insertAll key compute items start = .ok map := by
  induction items generalizing start with
  | nil => exact ⟨start, rfl⟩
  | cons first rest ih =>
    obtain ⟨value, firstComputed⟩ := computed first (by simp)
    obtain ⟨map, run⟩ := ih (fun item member => computed item (by simp [member]))
        (start.insert (key first) value)
    exact ⟨map, insertAll_cons_eq_ok.mpr ⟨value, firstComputed, run⟩⟩

theorem insertAll_spec {items : List α} (distinct : (items.map key).Nodup)
    (run : insertAll key compute items start = .ok map) :
    (∀ item ∈ items, ∃ value, compute item = .ok value ∧ map[key item]? = some value) ∧
      ∀ query : K, query ∉ items.map key → map[query]? = start[query]? := by
  induction items generalizing start with
  | nil =>
    rw [insertAll, List.foldlM_nil, Checked.pure_eq_ok] at run
    subst map
    simp
  | cons first rest ih =>
    obtain ⟨value, computed, run⟩ := insertAll_cons_eq_ok.mp run
    rw [List.map_cons, List.nodup_cons] at distinct
    obtain ⟨stored, others⟩ := ih distinct.2 run
    constructor
    · intro item member
      rcases List.mem_cons.mp member with rfl | later
      · refine ⟨value, computed, ?_⟩
        rw [others _ distinct.1, getElem?_insert_eq, if_pos rfl]
      · exact stored item later
    · intro query absent
      rw [List.map_cons, List.mem_cons, not_or] at absent
      rw [others query absent.2, getElem?_insert_eq, if_neg (Ne.symm absent.1)]

theorem getElem?_insertAll_values {W : Type} {key : V → K} {compute : V → Except ε W}
    (keyed : ∀ (query : K) (value : V), map[query]? = some value → key value = query)
    {result : Std.ExtTreeMap K W}
    (run : insertAll key compute (map.toList.map Prod.snd) ∅ = .ok result) (query : K) :
    (map[query]? = none ∧ result[query]? = none) ∨ ∃ value changed,
        map[query]? = some value ∧ compute value = .ok changed ∧ result[query]? = some changed := by
  have listed : (map.toList.map Prod.snd).map key = map.toList.map Prod.fst := by
    rw [List.map_map]
    apply List.map_congr_left
    intro entry member
    exact keyed entry.1 entry.2 (Std.ExtTreeMap.mem_toList_iff_getElem?_eq_some.mp member)
  obtain ⟨stored, frame⟩ := insertAll_spec (by rw [listed]; exact nodup_keys map) run
  cases found : map[query]? with
  | none =>
    left
    refine ⟨rfl, ?_⟩
    rw [frame query]
    · simp
    · rw [listed]
      intro member
      obtain ⟨entry, isEntry, same⟩ := List.mem_map.mp member
      have isStored := Std.ExtTreeMap.mem_toList_iff_getElem?_eq_some.mp isEntry
      rw [same, found] at isStored
      cases isStored
  | some value =>
    right
    obtain ⟨changed, computed, isStored⟩ := stored value (mem_values.mpr ⟨query, found⟩)
    rw [keyed query value found] at isStored
    exact ⟨value, changed, rfl, computed, isStored⟩

end CheckedInsertion

end OrderedMap

end TypeBridge.Library
