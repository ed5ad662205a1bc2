import Mathlib

namespace TypeBridge.Library

/-!
# Retiring the latest matching record

Records are keyed by a linear order, oldest first. A retirement takes the
latest active record it is eligible for. If any two retirements are eligible
for disjoint records, or one of them for the older part of the other's, then
the order of the retirements does not matter. Nor does it matter when a
record is activated that the retirements before it are not eligible for, so a
replay of activations and retirements retires the same records as retiring
from all records at once.
-/

variable {κ ρ : Type} [LinearOrder κ]

def takeLatest (eligible : κ → Bool) (active : Finset κ) : Option (Finset κ) :=
  if found : (active.filter (eligible ·)).Nonempty then
    some (active.erase ((active.filter (eligible ·)).max' found))
  else none

variable {active rest : Finset κ}

theorem takeLatest_eq_some {eligible : κ → Bool} :
    takeLatest eligible active = some rest ↔ ∃ latest ∈ active, eligible latest = true ∧
        (∀ other ∈ active, eligible other = true → other ≤ latest) ∧
        rest = active.erase latest := by
  unfold takeLatest
  constructor
  · intro taken
    split at taken
    · rename_i found
      have isMember := Finset.max'_mem _ found
      rw [Finset.mem_filter] at isMember
      refine ⟨_, isMember.1, isMember.2, ?_, (Option.some.inj taken).symm⟩
      intro other member isEligible
      exact Finset.le_max' _ other (Finset.mem_filter.mpr ⟨member, isEligible⟩)
    · cases taken
  · intro taken
    obtain ⟨latest, member, isEligible, isLatest, isRest⟩ := taken
    have found : (active.filter (eligible ·)).Nonempty :=
      ⟨latest, Finset.mem_filter.mpr ⟨member, isEligible⟩⟩
    rw [dif_pos found, isRest]
    have isMax : (active.filter (eligible ·)).max' found = latest := by
      refine le_antisymm (Finset.max'_le _ _ _ ?_) (Finset.le_max' _ _
        (Finset.mem_filter.mpr ⟨member, isEligible⟩))
      intro other isOther
      obtain ⟨otherMember, otherEligible⟩ := Finset.mem_filter.mp isOther
      exact isLatest other otherMember otherEligible
    rw [isMax]

def OlderPart (first second : κ → Bool) : Prop :=
  (∀ key, first key = true → second key = true) ∧
    ∀ key other, first key = true → second other = true → first other = false → key < other

/-- Disjoint records, or the older part of one another. -/
def Compatible (first second : κ → Bool) : Prop :=
  (∀ key, first key = true → second key = false) ∨ OlderPart first second ∨ OlderPart second first

variable {first second : κ → Bool} (compatible : Compatible first second)
include compatible

theorem Compatible.symm : Compatible second first := by
  rcases compatible with disjoint | older | newer
  · refine .inl ?_
    intro key isSecond
    by_contra isFirst
    rw [Bool.not_eq_false] at isFirst
    rw [disjoint key isFirst] at isSecond
    cases isSecond
  · exact .inr (.inr older)
  · exact .inr (.inl newer)

/-- Taking for two compatible retirements gives the same in both orders. -/
theorem takeLatest_swap {middle : Finset κ} (takenFirst : takeLatest first active = some middle)
    (takenSecond : takeLatest second middle = some rest) :
    ∃ other, takeLatest second active = some other ∧ takeLatest first other = some rest := by
  obtain ⟨early, earlyMember, isEarly, earlyLatest, isMiddle⟩ := takeLatest_eq_some.mp takenFirst
  obtain ⟨late, lateMember, isLate, lateLatest, isRest⟩ := takeLatest_eq_some.mp takenSecond
  subst isMiddle isRest
  obtain ⟨different, lateActive⟩ := Finset.mem_erase.mp lateMember
  simp only [Finset.mem_erase, and_imp] at lateLatest
  by_cases shared : second early = true ∧ late < early
  · -- The second retirement would have taken the earlier choice.
    obtain ⟨isShared, below⟩ := shared
    have isFirst : first late = true := by
      rcases compatible with disjoint | older | newer
      · rw [disjoint early isEarly] at isShared
        cases isShared
      · by_contra notFirst
        rw [Bool.not_eq_true] at notFirst
        exact absurd (older.2 early late isEarly isLate notFirst) below.asymm
      · exact newer.1 late isLate
    have lateFirst : ∀ other ∈ active, other ≠ early → first other = true → other ≤ late := by
      intro other member notEarly isOther
      apply lateLatest other notEarly member
      rcases compatible with disjoint | older | newer
      · rw [disjoint early isEarly] at isShared
        cases isShared
      · exact older.1 other isOther
      · by_contra notSecond
        rw [Bool.not_eq_true] at notSecond
        have above := newer.2 early other isShared isOther notSecond
        exact absurd (earlyLatest other member isOther) above.not_ge
    refine ⟨active.erase early, takeLatest_eq_some.mpr
      ⟨early, earlyMember, isShared, ?_, rfl⟩, takeLatest_eq_some.mpr
      ⟨late, lateMember, isFirst, ?_, rfl⟩⟩
    · intro other member isOther
      by_cases same : other = early
      · exact same.le
      · exact (lateLatest other same member isOther).trans below.le
    · intro other member isOther
      obtain ⟨notEarly, otherMember⟩ := Finset.mem_erase.mp member
      exact lateFirst other otherMember notEarly isOther
  · -- Both retirements take the same record in either order.
    refine ⟨active.erase late, takeLatest_eq_some.mpr
      ⟨late, lateActive, isLate, ?_, rfl⟩, takeLatest_eq_some.mpr
      ⟨early, Finset.mem_erase.mpr ⟨different.symm, earlyMember⟩, isEarly,
        ?_, Finset.erase_right_comm⟩⟩
    · intro other member isOther
      by_cases same : other = early
      · subst same
        by_contra above
        exact shared ⟨isOther, lt_of_not_ge above⟩
      · exact lateLatest other same member isOther
    · intro other member isOther
      exact earlyLatest other (Finset.mem_of_mem_erase member) isOther

theorem takeLatest_comm (active : Finset κ) : (takeLatest first active).bind (takeLatest second) =
      (takeLatest second active).bind (takeLatest first) := by
  apply Option.ext
  intro rest
  simp only [Option.bind_eq_some_iff]
  constructor
  · intro taken
    obtain ⟨middle, takenFirst, takenSecond⟩ := taken
    exact takeLatest_swap compatible takenFirst takenSecond
  · intro taken
    obtain ⟨middle, takenSecond, takenFirst⟩ := taken
    exact takeLatest_swap compatible.symm takenSecond takenFirst

omit compatible

theorem foldlM_perm {α β : Type} {step : β → α → Option β} {left right : List α}
    (same : left.Perm right)
    (commutes : ∀ first ∈ left, ∀ second ∈ left, ∀ state, (step state first).bind (step · second) =
          (step state second).bind (step · first)) (start : β) :
    left.foldlM step start = right.foldlM step start := by
  induction same generalizing start with
  | nil => rfl
  | cons first same ih =>
    simp only [List.foldlM_cons]
    congr 1
    funext middle
    exact ih (fun one oneMember other otherMember =>
        commutes one (by simp [oneMember]) other (by simp [otherMember]))
      middle
  | swap first second rest =>
    have swapped := commutes first (by simp) second (by simp) start
    simp only [List.foldlM_cons, Option.bind_eq_bind] at swapped ⊢
    rw [← Option.bind_assoc, ← Option.bind_assoc, swapped]
  | @trans _ middle _ same _ firstHypothesis secondHypothesis =>
    rw [firstHypothesis commutes start]
    refine secondHypothesis ?_ start
    intro one oneMember other otherMember
    exact commutes one (same.mem_iff.mpr oneMember) other (same.mem_iff.mpr otherMember)

/-! ## Replay -/

inductive RecordEvent (κ ρ : Type) where
  | activate (key : κ)
  | retire (retirement : ρ)

namespace RecordEvent

def step (eligible : ρ → κ → Bool) (active : Finset κ) : RecordEvent κ ρ → Option (Finset κ)
  | .activate key => some (insert key active)
  | .retire retirement => takeLatest (eligible retirement) active

def activated (events : List (RecordEvent κ ρ)) : Finset κ :=
  (events.filterMap fun
    | .activate key => some key
    | .retire _ => none).toFinset

def retirements (events : List (RecordEvent κ ρ)) : List ρ :=
  events.filterMap fun
    | .activate _ => none
    | .retire retirement => some retirement

def Causal (eligible : ρ → κ → Bool) (events : List (RecordEvent κ ρ)) : Prop :=
  events.Pairwise fun earlier later =>
    ∀ retirement key, earlier = .retire retirement → later = .activate key →
      eligible retirement key = false

theorem takeLatest_union {eligible : κ → Bool} {later : Finset κ}
    (notEligible : ∀ key ∈ later, eligible key = false) (active : Finset κ) :
    takeLatest eligible (active ∪ later) = (takeLatest eligible active).map (· ∪ later) := by
  have notLater : ∀ {key : κ}, eligible key = true → key ∉ later := by
    intro key isEligible member
    rw [notEligible key member] at isEligible
    cases isEligible
  have active_of_union : ∀ {key : κ}, key ∈ active ∪ later → eligible key = true →
        key ∈ active := by
    intro key member isEligible
    exact (Finset.mem_union.mp member).resolve_right (notLater isEligible)
  have erase_union : ∀ {key : κ}, eligible key = true →
        (active ∪ later).erase key = active.erase key ∪ later := by
    intro key isEligible
    rw [Finset.erase_union_distrib, Finset.erase_eq_of_notMem (notLater isEligible)]
  apply Option.ext
  intro rest
  simp only [Option.map_eq_some_iff, takeLatest_eq_some]
  constructor
  · intro taken
    obtain ⟨latest, member, isEligible, isLatest, isRest⟩ := taken
    refine ⟨active.erase latest, ⟨latest, active_of_union member isEligible,
      isEligible, ?_, rfl⟩, ?_⟩
    · intro other otherMember otherEligible
      exact isLatest other (Finset.mem_union_left later otherMember) otherEligible
    · rw [isRest, erase_union isEligible]
  · intro taken
    obtain ⟨middle, ⟨latest, member, isEligible, isLatest, isMiddle⟩, isRest⟩ := taken
    refine ⟨latest, Finset.mem_union_left later member, isEligible, ?_, ?_⟩
    · intro other otherMember otherEligible
      exact isLatest other (active_of_union otherMember otherEligible) otherEligible
    · rw [← isRest, isMiddle, erase_union isEligible]

theorem foldlM_step {eligible : ρ → κ → Bool} {events : List (RecordEvent κ ρ)}
    (causal : Causal eligible events) (active : Finset κ) :
    events.foldlM (step eligible) active = (retirements events).foldlM
        (fun active retirement => takeLatest (eligible retirement) active)
        (active ∪ activated events) := by
  induction events generalizing active with
  | nil => simp [retirements, activated]
  | cons event events ih =>
    obtain ⟨beforeEvents, causalEvents⟩ := List.pairwise_cons.mp causal
    cases event with
    | activate key =>
      have grown : insert key active ∪ activated events =
            active ∪ activated (.activate key :: events : List (RecordEvent κ ρ)) := by
        simp [activated]
      rw [List.foldlM_cons]
      simp only [step, Option.bind_eq_bind, Option.bind_some]
      rw [ih causalEvents, grown]
      rfl
    | retire retirement =>
      have notEligible : ∀ key ∈ activated events, eligible retirement key = false := by
        intro key member
        simp only [activated, List.mem_toFinset, List.mem_filterMap] at member
        obtain ⟨event, eventMember, isKey⟩ := member
        cases event with
        | activate other =>
          cases isKey
          exact beforeEvents _ eventMember retirement key rfl rfl
        | retire other => cases isKey
      have retiresFirst : retirements (.retire retirement :: events) =
            retirement :: retirements events := rfl
      have sameRecords : activated (.retire retirement :: events) = activated events := rfl
      rw [retiresFirst, sameRecords]
      simp only [List.foldlM_cons, step, Option.bind_eq_bind,
        takeLatest_union notEligible, Option.bind_map]
      congr 1
      funext middle
      exact ih causalEvents middle

end RecordEvent

end TypeBridge.Library
