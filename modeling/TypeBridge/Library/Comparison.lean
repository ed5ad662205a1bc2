import Mathlib

namespace TypeBridge.Library

/-!
# Comparisons that are linear on a domain

A comparison of values from several domains answers nothing across domains.
Within one domain it may still be that of a linear order, possibly with
different values at the same place. `RankedOn` says so by a key.

Bounds are treated once for both sides: a lower bound faces `.gt`, an upper
bound faces `.lt`, and a value is beyond a bound when it compares the other
way.
-/

variable {α : Type} {compare : α → α → Option Ordering} {domain : Set α} {side : Ordering}
  {first second third bound value : α}

def RankedOn (compare : α → α → Option Ordering) (domain : Set α) : Prop :=
  ∃ (Key : Type) (_ : LinearOrder Key) (key : α → Key), ∀ first ∈ domain, ∀ second ∈ domain,
      compare first second = some (cmp (key first) (key second))

def Within (compare : α → α → Option Ordering) (side : Ordering) (bound value : α) : Prop :=
  ∃ ordering, compare value bound = some ordering ∧ ordering ≠ side.swap

def WithinBound (compare : α → α → Option Ordering) (side : Ordering) (bound : Option α)
    (value : α) : Prop :=
  ∀ limit, bound = some limit → Within compare side limit value

theorem rankedOn_of_parts {Part Key : Type} [order : LinearOrder Key] (make : Part → α)
    (key : Part → Key) (made : ∀ value ∈ domain, ∃ part, make part = value)
    (agrees : ∀ first second, compare (make first) (make second) =
        some (cmp (key first) (key second))) :
    RankedOn compare domain := by
  classical
  -- Values that no part makes get the least key.
  let keyOf : α → WithBot Key := fun value =>
    if isMade : ∃ part, make part = value then key isMade.choose else ⊥
  have keyOf_eq : ∀ value ∈ domain, ∃ part, make part = value ∧ keyOf value = key part := by
    intro value isIn
    have isMade := made value isIn
    exact ⟨isMade.choose, isMade.choose_spec, dif_pos isMade⟩
  refine ⟨WithBot Key, inferInstance, keyOf, ?_⟩
  intro first firstIn second secondIn
  obtain ⟨firstPart, rfl, firstKey⟩ := keyOf_eq first firstIn
  obtain ⟨secondPart, rfl, secondKey⟩ := keyOf_eq second secondIn
  rw [agrees, firstKey, secondKey]
  simp only [cmp, cmpUsing, WithBot.coe_lt_coe]

variable (ranked : RankedOn compare domain)
include ranked

theorem RankedOn.within_iff (boundIn : bound ∈ domain) (valueIn : value ∈ domain) :
    Within compare side bound value ↔ compare value bound ≠ some side.swap := by
  obtain ⟨Key, order, key, agrees⟩ := ranked
  unfold Within
  rw [agrees value valueIn bound boundIn]
  simp

theorem RankedOn.compare_swap (firstIn : first ∈ domain) (secondIn : second ∈ domain) :
    compare second first = (compare first second).map Ordering.swap := by
  obtain ⟨Key, order, key, agrees⟩ := ranked
  rw [agrees first firstIn second secondIn, agrees second secondIn first
    firstIn, Option.map_some, cmp_swap]

theorem RankedOn.compare_self (valueIn : value ∈ domain) : compare value value = some .eq := by
  obtain ⟨Key, order, key, agrees⟩ := ranked
  rw [agrees value valueIn value valueIn, cmp_self_eq_eq]

theorem RankedOn.within_self (isSide : side ≠ .eq) (valueIn : value ∈ domain) :
    Within compare side value value := by
  refine ⟨.eq, ranked.compare_self valueIn, ?_⟩
  cases side <;> simp_all

theorem RankedOn.compare_eq_side_iff (firstIn : first ∈ domain) (secondIn : second ∈ domain) :
    compare first second = some side ↔ ¬ Within compare side first second := by
  rw [ranked.within_iff firstIn secondIn, not_not, ranked.compare_swap firstIn secondIn]
  cases answer : compare first second with
  | none => simp
  | some ordering => cases ordering <;> cases side <;> simp

theorem RankedOn.within_trans (isSide : side ≠ .eq) (firstIn : first ∈ domain)
    (secondIn : second ∈ domain) (thirdIn : third ∈ domain)
    (lower : Within compare side first second) (upper : Within compare side second third) :
    Within compare side first third := by
  rw [ranked.within_iff firstIn thirdIn]
  rw [ranked.within_iff firstIn secondIn] at lower
  rw [ranked.within_iff secondIn thirdIn] at upper
  obtain ⟨Key, order, key, agrees⟩ := ranked
  rw [agrees second secondIn first firstIn] at lower
  rw [agrees third thirdIn second secondIn] at upper
  rw [agrees third thirdIn first firstIn]
  cases side with
  | eq => exact absurd rfl isSide
  | lt =>
    simp only [Ordering.swap_lt, ne_eq, Option.some.injEq, cmp_eq_gt_iff, not_lt] at lower upper ⊢
    exact upper.trans lower
  | gt =>
    simp only [Ordering.swap_gt, ne_eq, Option.some.injEq, cmp_eq_lt_iff, not_lt] at lower upper ⊢
    exact lower.trans upper

end TypeBridge.Library
