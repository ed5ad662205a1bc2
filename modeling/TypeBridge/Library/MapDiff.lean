import TypeBridge.Library.OrderedMap

namespace TypeBridge.Library.MapDiff

/-!
# Comparing keyed collections

Two maps are compared by the keys only one of them has and by the changes of
the entries under a shared key. Lists whose items carry distinct keys are
compared through the maps they are collected into; reporting nothing then means
that each item of one list has its match in the other.
-/

variable {K V C : Type} [LinearOrder K]

def added (old new : Std.ExtTreeMap K V) : List K := new.keys.filter fun key => !old.contains key

def changed (change : V → V → Option C) (old new : Std.ExtTreeMap K V) : List (K × C) :=
  new.toList.filterMap fun entry =>
    old[entry.1]?.bind fun former => (change former entry.2).map fun found => (entry.1, found)

/-- The same keys, with related entries. -/
def Agree (related : V → V → Prop) (old new : Std.ExtTreeMap K V) : Prop :=
  ∀ key : K, Option.Rel related old[key]? new[key]?

/-- Related entries wherever both maps have one. -/
def OnShared (related : V → V → Prop) (old new : Std.ExtTreeMap K V) : Prop :=
  ∀ (key : K) (former latter : V), old[key]? = some former → new[key]? = some latter →
    related former latter

section Maps

variable {change : V → V → Option C} {related other : V → V → Prop} {old new : Std.ExtTreeMap K V}

theorem added_eq_nil_iff : added old new = [] ↔ ∀ key : K, new[key]?.isSome → old[key]?.isSome := by
  simp only [added, List.filter_eq_nil_iff, Std.ExtTreeMap.mem_keys,
    Std.ExtTreeMap.mem_iff_isSome_getElem?, Std.ExtTreeMap.contains_eq_isSome_getElem?,
    Bool.not_eq_true', Bool.not_eq_false]

theorem changed_eq_nil_iff : changed change old new = [] ↔
      OnShared (fun former latter => change former latter = none) old new := by
  simp only [changed, List.filterMap_eq_nil_iff, Prod.forall,
    Std.ExtTreeMap.mem_toList_iff_getElem?_eq_some, Option.bind_eq_none_iff, Option.map_eq_none_iff]
  constructor
  · intro none key former latter isFormer isLatter
    exact none key latter isLatter former isFormer
  · intro none key latter isLatter former isFormer
    exact none key former latter isFormer isLatter

theorem agree_iff : Agree related old new ↔
      added old new = [] ∧ added new old = [] ∧ OnShared related old new := by
  simp only [added_eq_nil_iff, Agree, OnShared, ← forall_and]
  refine forall_congr' fun key => ?_
  cases old[key]? <;> cases new[key]? <;> simp [Option.rel_some_some, Option.rel_none_none]

theorem agree_unchanged_iff : Agree (fun former latter => change former latter = none) old new ↔
      added old new = [] ∧ added new old = [] ∧ changed change old new = [] := by
  rw [agree_iff, changed_eq_nil_iff]

theorem agree_and_iff :
    Agree (fun former latter => related former latter ∧ other former latter) old new ↔
      Agree related old new ∧ OnShared other old new := by
  rw [agree_iff, agree_iff]
  simp only [OnShared, forall_and]
  tauto

theorem OnShared.congr (shared : OnShared (fun former latter => related former latter ↔
      other former latter) old new) : Agree related old new ↔ Agree other old new := by
  rw [agree_iff, agree_iff]
  refine and_congr_right fun _ => and_congr_right fun _ => ?_
  exact forall_congr' fun key => forall_congr' fun former => forall_congr' fun latter =>
    forall_congr' fun isFormer => forall_congr' fun isLatter =>
      shared key former latter isFormer isLatter

end Maps

section KeyedLists

variable {key : V → K} {related : V → V → Prop} {left right : List V}

def byKey (key : V → K) (items : List V) : Std.ExtTreeMap K V :=
  .ofList (items.map fun item => (key item, item))

theorem getElem?_byKey {items : List V} (distinct : (items.map key).Nodup) (query : K) (item : V) :
    (byKey key items)[query]? = some item ↔ item ∈ items ∧ key item = query := by
  have apart : (items.map fun item => (key item, item)).Pairwise
      fun first second => ¬ compare first.1 second.1 = .eq := by
    rw [List.pairwise_map]
    exact (List.pairwise_map.mp distinct).imp fun different same =>
      different (compare_eq_iff_eq.mp same)
  have lookup : ∀ found ∈ items, key found = query → (byKey key items)[query]? = some found :=
    fun found member same => Std.ExtTreeMap.getElem?_ofList_of_mem (compare_eq_iff_eq.mpr same)
      apart (List.mem_map_of_mem member)
  constructor
  · intro found
    by_cases present : ∃ other ∈ items, key other = query
    · obtain ⟨other, member, same⟩ := present
      have equal := (lookup other member same).symm.trans found
      cases equal
      exact ⟨member, same⟩
    · have absent : (byKey key items)[query]? = none := by
        apply Std.ExtTreeMap.getElem?_ofList_of_contains_eq_false
        simpa using present
      rw [absent] at found
      cases found
  · rintro ⟨member, same⟩
    exact lookup item member same

def Matching (related : V → V → Prop) (left right : List V) : Prop :=
  (∀ former ∈ left, ∃ latter ∈ right, related former latter) ∧
    ∀ latter ∈ right, ∃ former ∈ left, related former latter

theorem matching_iff (leftDistinct : (left.map key).Nodup) (rightDistinct : (right.map key).Nodup)
    (keeps : ∀ former latter, related former latter → key former = key latter) :
    Matching related left right ↔ Agree related (byKey key left) (byKey key right) := by
  rw [agree_iff, added_eq_nil_iff, added_eq_nil_iff]
  simp only [OnShared, Option.isSome_iff_exists, getElem?_byKey leftDistinct,
    getElem?_byKey rightDistinct]
  constructor
  · rintro ⟨partnerOf, partner⟩
    refine ⟨?_, ?_, ?_⟩
    · rintro query ⟨latter, member, same⟩
      obtain ⟨former, isFormer, agrees⟩ := partner latter member
      exact ⟨former, isFormer, (keeps _ _ agrees).trans same⟩
    · rintro query ⟨former, member, same⟩
      obtain ⟨latter, isLatter, agrees⟩ := partnerOf former member
      exact ⟨latter, isLatter, (keeps _ _ agrees).symm.trans same⟩
    · rintro query former latter ⟨isFormer, formerKey⟩ ⟨isLatter, latterKey⟩
      obtain ⟨other, isOther, agrees⟩ := partner latter isLatter
      have same : key other = key former :=
        (keeps _ _ agrees).trans (latterKey.trans formerKey.symm)
      rwa [← List.inj_on_of_nodup_map leftDistinct isOther isFormer same]
  · rintro ⟨older, newer, shared⟩
    constructor
    · intro former member
      obtain ⟨latter, isLatter, same⟩ := newer (key former) ⟨former, member, rfl⟩
      exact ⟨latter, isLatter, shared _ former latter ⟨member, rfl⟩ ⟨isLatter, same⟩⟩
    · intro latter member
      obtain ⟨former, isFormer, same⟩ := older (key latter) ⟨latter, member, rfl⟩
      exact ⟨former, isFormer, shared _ former latter ⟨isFormer, same⟩ ⟨member, rfl⟩⟩

end KeyedLists

end TypeBridge.Library.MapDiff
