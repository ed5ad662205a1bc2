import TypeBridge.Library.OrderedMap

namespace TypeBridge.Library

/-!
# Inheritance along a hierarchy

A node of a hierarchy has the value that it declares, or else the one of the
node above it. `Nearest` says which value that is. Declaring a value lower
down hides the one from above; the first half of the module says exactly when
additional declarations keep every value related to the former one.

The second half is about maps that are built this way: an inherited map is
rebuilt entry by entry and the declared entries are stored over it.
-/

/-! ## The nearest declaration -/

section Nearest

variable {α β : Type} {above : α → α → Prop} {declares extended : α → β → Prop} {node : α}
  {value : β}

inductive Nearest (above : α → α → Prop) (declares : α → β → Prop) : α → β → Prop where
  | here
      {node : α}
      {value : β}
      (declared : declares node value) : Nearest above declares node value
  | above
      {node parent : α}
      {value : β}
      (undeclared : ∀ other, ¬ declares node other)
      (isParent : above node parent)
      (inherited : Nearest above declares parent value) : Nearest above declares node value

namespace Nearest

theorem iff_declares_or :
    Nearest above declares node value ↔ declares node value ∨ (∀ other, ¬ declares node other) ∧
          ∃ parent, above node parent ∧ Nearest above declares parent value := by
  constructor
  · intro nearest
    cases nearest with
    | here declared => exact .inl declared
    | @above _ parent _ undeclared isParent inherited =>
      exact .inr ⟨undeclared, parent, isParent, inherited⟩
  · intro declaredOr
    rcases declaredOr with declared | further
    · exact .here declared
    · obtain ⟨undeclared, parent, isParent, inherited⟩ := further
      exact .above undeclared isParent inherited

theorem eq_of_declares {declaredValue : β}
    (unique : ∀ other, declares node other → other = declaredValue)
    (declared : declares node declaredValue) (nearest : Nearest above declares node value) :
    value = declaredValue := by
  cases nearest with
  | here isDeclared => exact unique value isDeclared
  | above undeclared isParent inherited => exact (undeclared declaredValue declared).elim

theorem exists_declares (nearest : Nearest above declares node value) :
    ∃ declaring, declares declaring value := by
  induction nearest with
  | @here node value declared => exact ⟨node, declared⟩
  | above undeclared isParent inherited ih => exact ih

theorem exists_iff : (∃ value, Nearest above declares node value) ↔
      ∃ declaring, Relation.ReflTransGen above node declaring ∧
        ∃ value, declares declaring value := by
  constructor
  · intro found
    obtain ⟨value, nearest⟩ := found
    induction nearest with
    | @here node value declared => exact ⟨node, .refl, value, declared⟩
    | above undeclared isParent inherited ih =>
      obtain ⟨declaring, isAbove, declared⟩ := ih
      exact ⟨declaring, .head isParent isAbove, declared⟩
  · intro found
    obtain ⟨declaring, isAbove, declared⟩ := found
    induction isAbove using Relation.ReflTransGen.head_induction_on with
    | refl =>
      obtain ⟨value, declared⟩ := declared
      exact ⟨value, .here declared⟩
    | @head node parent isParent rest ih =>
      by_cases declaresHere : ∃ value, declares node value
      · obtain ⟨value, isDeclared⟩ := declaresHere
        exact ⟨value, .here isDeclared⟩
      · obtain ⟨value, nearest⟩ := ih
        exact ⟨value, .above (not_exists.mp declaresHere) isParent nearest⟩

theorem map_iff {γ : Type} (read : β → γ) {result : γ} :
    Nearest above (fun node result => ∃ value, declares node value ∧ read value = result)
        node result ↔ ∃ value, Nearest above declares node value ∧ read value = result := by
  constructor
  · intro nearest
    induction nearest with
    | here declared =>
      obtain ⟨value, isDeclared, isRead⟩ := declared
      exact ⟨value, .here isDeclared, isRead⟩
    | above undeclared isParent inherited ih =>
      obtain ⟨value, nearest, isRead⟩ := ih
      refine ⟨value, .above ?_ isParent nearest, isRead⟩
      intro other declared
      exact undeclared (read other) ⟨other, declared, rfl⟩
  · intro found
    obtain ⟨value, nearest, isRead⟩ := found
    induction nearest with
    | @here node value declared => exact .here ⟨value, declared, isRead⟩
    | above undeclared isParent inherited ih =>
      refine .above ?_ isParent (ih isRead)
      intro other declared
      obtain ⟨value, isDeclared, -⟩ := declared
      exact undeclared value isDeclared

/--
Additional declarations keep every value related to the former one exactly if
each of them is related to the value it hides.
-/
theorem related_iff (above : α → α → Prop) {related : β → β → Prop}
    (kept : ∀ node value, declares node value → ∃ later, extended node later ∧ related value later)
    (unique : ∀ node value other, extended node value → extended node other → other = value) :
    (∀ node value, Nearest above declares node value →
      ∃ later, Nearest above extended node later ∧ related value later) ↔
      ∀ node later, extended node later → (∀ other, ¬ declares node other) →
        ∀ value, Nearest above declares node value → related value later := by
  constructor
  · intro keeps node later declared isNew value nearest
    obtain ⟨found, foundNearest, isRelated⟩ := keeps node value nearest
    have same :=
      eq_of_declares (fun other => unique node later other declared) declared foundNearest
    exact same ▸ isRelated
  · intro hides node value nearest
    induction nearest with
    | @here node value declared =>
      obtain ⟨later, isDeclared, isRelated⟩ := kept node value declared
      exact ⟨later, .here isDeclared, isRelated⟩
    | @above node parent value undeclared isParent inherited ih =>
        by_cases declared : ∃ later, extended node later
        · obtain ⟨later, isDeclared⟩ := declared
          exact ⟨later, .here isDeclared, hides node later isDeclared undeclared value
              (.above undeclared isParent inherited)⟩
        · obtain ⟨later, laterNearest, isRelated⟩ := ih
          refine ⟨later, .above ?_ isParent laterNearest, isRelated⟩
          intro other isDeclared
          exact declared ⟨other, isDeclared⟩

end Nearest

end Nearest

/-! ## Maps of inherited entries -/

section Tracks

variable {ε α K V W : Type} [LinearOrder K] {reads : K → V → W → Prop}
  {value declared : K → W → Prop}

structure Tracks (reads : K → V → W → Prop) (map : Std.ExtTreeMap K V) (value : K → W → Prop) :
    Prop where
  sound : ∀ (query : K) (entry : V), map[query]? = some entry →
      ∃ found, value query found ∧ reads query entry found
  complete : ∀ (query : K) (found : W), value query found →
      ∃ entry, map[query]? = some entry ∧ reads query entry found

theorem Tracks.mem_iff {map : Std.ExtTreeMap K V} (tracked : Tracks reads map value) (query : K) :
    query ∈ map ↔ ∃ found, value query found := by
  rw [← Std.ExtTreeMap.isSome_getElem?_iff_mem, Option.isSome_iff_exists]
  constructor
  · intro stored
    obtain ⟨entry, stored⟩ := stored
    obtain ⟨found, isFound, -⟩ := tracked.sound query entry stored
    exact ⟨found, isFound⟩
  · intro isValue
    obtain ⟨found, isFound⟩ := isValue
    obtain ⟨entry, stored, -⟩ := tracked.complete query found isFound
    exact ⟨entry, stored⟩

theorem Tracks.congr {other : K → W → Prop} {map : Std.ExtTreeMap K V}
    (tracked : Tracks reads map value)
    (same : ∀ query found, value query found ↔ other query found) : Tracks reads map other := by
  have isOther : value = other := by
    funext query found
    exact propext (same query found)
  exact isOther ▸ tracked

theorem Tracks.map {U : Type} {readsAlso : K → V → U → Prop} {map : Std.ExtTreeMap K V}
    (tracked : Tracks reads map value) (read : W → U)
    (carries : ∀ query entry found, reads query entry found → readsAlso query entry (read found)) :
    Tracks readsAlso map fun query result => ∃ found, value query found ∧ read found = result := by
  constructor
  · intro query entry stored
    obtain ⟨found, isFound, isRead⟩ := tracked.sound query entry stored
    exact ⟨read found, ⟨found, isFound, rfl⟩, carries query entry found isRead⟩
  · intro query result isResult
    obtain ⟨found, isFound, isRead⟩ := isResult
    obtain ⟨entry, stored, reads⟩ := tracked.complete query found isFound
    exact ⟨entry, stored, isRead ▸ carries query entry found reads⟩

theorem Tracks.empty (nothing : ∀ query found, ¬ value query found) :
    Tracks reads (∅ : Std.ExtTreeMap K V) value := by
  constructor
  · intro query entry stored
    simp at stored
  · intro query found isFound
    exact (nothing query found isFound).elim

theorem Tracks.rebuilt {key : V → K} {compute : V → Except ε V} {map result : Std.ExtTreeMap K V}
    (tracked : Tracks reads map value)
    (keyed : ∀ query entry found, reads query entry found → key entry = query)
    (keeps : ∀ query entry changed found, reads query entry found → compute entry = .ok changed →
          reads query changed found)
    (run : OrderedMap.insertAll key compute (map.toList.map Prod.snd) ∅ = .ok result) :
    Tracks reads result value := by
  have mapKeyed : ∀ (query : K) (entry : V), map[query]? = some entry → key entry = query := by
    intro query entry stored
    obtain ⟨found, -, isRead⟩ := tracked.sound query entry stored
    exact keyed query entry found isRead
  have lookups := OrderedMap.getElem?_insertAll_values mapKeyed run
  constructor
  · intro query changed stored
    rcases lookups query with absent | present
    · rw [absent.2] at stored
      cases stored
    · obtain ⟨entry, computed, isStored, isComputed, isResult⟩ := present
      rw [isResult, Option.some.injEq] at stored
      subst stored
      obtain ⟨found, isFound, isRead⟩ := tracked.sound query entry isStored
      exact ⟨found, isFound, keeps query entry computed found isRead isComputed⟩
  · intro query found isFound
    obtain ⟨entry, stored, isRead⟩ := tracked.complete query found isFound
    rcases lookups query with absent | present
    · rw [absent.1] at stored
      cases stored
    · obtain ⟨other, computed, isStored, isComputed, isResult⟩ := present
      rw [stored, Option.some.injEq] at isStored
      subst isStored
      exact ⟨computed, isResult, keeps query entry computed found isRead isComputed⟩

/-- Declared entries are stored over the inherited ones. -/
theorem Tracks.declare {key : α → K} {compute : α → Except ε V} {items : List α}
    {start result : Std.ExtTreeMap K V} (tracked : Tracks reads start value)
    (distinct : (items.map key).Nodup)
    (declares : ∀ item ∈ items, ∀ entry, compute item = .ok entry →
        ∃ found, declared (key item) found ∧ reads (key item) entry found)
    (listed : ∀ query found, declared query found → ∃ item ∈ items, key item = query ∧
          ∀ entry, compute item = .ok entry → reads query entry found)
    (run : OrderedMap.insertAll key compute items start = .ok result) :
    Tracks reads result fun query found => declared query found ∨
        (∀ other, ¬ declared query other) ∧ value query found := by
  obtain ⟨stored, frame⟩ := OrderedMap.insertAll_spec distinct run
  constructor
  · intro query entry isStored
    by_cases isKey : query ∈ items.map key
    · obtain ⟨item, member, same⟩ := List.mem_map.mp isKey
      subst same
      obtain ⟨computed, isComputed, isResult⟩ := stored item member
      rw [isResult, Option.some.injEq] at isStored
      subst isStored
      obtain ⟨found, isDeclared, isRead⟩ := declares item member computed isComputed
      exact ⟨found, .inl isDeclared, isRead⟩
    · rw [frame query isKey] at isStored
      obtain ⟨found, isFound, isRead⟩ := tracked.sound query entry isStored
      refine ⟨found, .inr ⟨?_, isFound⟩, isRead⟩
      intro other isDeclared
      obtain ⟨item, member, same, -⟩ := listed query other isDeclared
      exact isKey (List.mem_map.mpr ⟨item, member, same⟩)
  · intro query found isFound
    rcases isFound with isDeclared | inherited
    · obtain ⟨item, member, same, readsEntry⟩ := listed query found isDeclared
      obtain ⟨computed, isComputed, isResult⟩ := stored item member
      rw [same] at isResult
      exact ⟨computed, isResult, readsEntry computed isComputed⟩
    · obtain ⟨undeclared, isFound⟩ := inherited
      obtain ⟨entry, isStored, isRead⟩ := tracked.complete query found isFound
      refine ⟨entry, ?_, isRead⟩
      rw [frame query]
      · exact isStored
      · intro isKey
        obtain ⟨item, member, same⟩ := List.mem_map.mp isKey
        obtain ⟨computed, isComputed, -⟩ := stored item member
        obtain ⟨other, isDeclared, -⟩ := declares item member computed isComputed
        exact undeclared other (same ▸ isDeclared)

theorem Tracks.exists_related {later : K → W → Prop} {related : W → W → Prop}
    {map laterMap : Std.ExtTreeMap K V} (tracked : Tracks reads map value)
    (laterTracked : Tracks reads laterMap later) {query : K}
    (relates : ∀ found, value query found → ∃ other, later query other ∧ related found other)
    {entry : V} (stored : map[query]? = some entry) :
    ∃ laterEntry found other, laterMap[query]? = some laterEntry ∧ reads query entry found ∧
        reads query laterEntry other ∧ related found other := by
  obtain ⟨found, isFound, isRead⟩ := tracked.sound query entry stored
  obtain ⟨other, isOther, isRelated⟩ := relates found isFound
  obtain ⟨laterEntry, isStored, laterRead⟩ := laterTracked.complete query other isOther
  exact ⟨laterEntry, found, other, isStored, isRead, laterRead, isRelated⟩

end Tracks

end TypeBridge.Library
