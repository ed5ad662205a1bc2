import Mathlib

namespace TypeBridge.Library

/-!
# Succession

A roster holds members, each with the former members it stands for. A newcomer
either joins, or replaces a member: it names someone, the member who is that
one or stands for it leaves, and the newcomer takes over its history together
with the name.

The name is recorded, not the member who left. So a newcomer who names a
former member drives out the one who stood for it without a trace. The module
says exactly when a run of newcomers loses nobody.
-/

/-- Members, each with the former members it stands for. -/
abbrev Roster (ι : Type) := ι → Option (Finset ι)

namespace Roster

variable {ι : Type} [DecidableEq ι] {roster middle last : Roster ι} {newcomer someone : ι}
  {named : Option ι} {moves : List (ι × Option ι)}

def Member (roster : Roster ι) (someone : ι) : Prop := roster someone ≠ none

def StandsFor (roster : Roster ι) (member former : ι) : Prop :=
  ∃ history, roster member = some history ∧ former ∈ history

/-- A former member that somebody stands for. -/
def Succeeded (roster : Roster ι) (former : ι) : Prop := ∃ member, roster.StandsFor member former

/-- A member, or a former one that somebody stands for. -/
def Known (roster : Roster ι) (someone : ι) : Prop :=
  roster.Member someone ∨ roster.Succeeded someone

/-- Nobody is both current and former, and former members have one successor. -/
structure Consistent (roster : Roster ι) : Prop where
  apart : ∀ member former, roster.StandsFor member former → roster former = none
  unique : ∀ member other former,
      roster.StandsFor member former → roster.StandsFor other former → member = other

inductive Step (roster : Roster ι) (newcomer : ι) : Option ι → Roster ι → Prop where
  | join : Step roster newcomer none (Function.update roster newcomer (some ∅))
  | replace
      {holder name : ι}
      {history : Finset ι}
      (held : roster holder = some history)
      (answers : holder = name ∨ name ∈ history) : Step roster newcomer (some name)
        (Function.update (Function.update roster holder none) newcomer (some (insert name history)))

/-! ## One step -/

omit [DecidableEq ι] in
theorem consistent_empty : Consistent (fun _ : ι => none) := by
  constructor
  · intro member former stands
    obtain ⟨history, held, -⟩ := stands
    cases held
  · intro member other former stands
    obtain ⟨history, held, -⟩ := stands
    cases held

omit [DecidableEq ι] in
theorem Consistent.not_succeeded (consistent : roster.Consistent)
    (isMember : roster.Member someone) : ¬ roster.Succeeded someone := by
  intro succeeded
  obtain ⟨member, stands⟩ := succeeded
  exact isMember (consistent.apart member someone stands)

namespace Step

variable (step : Step roster newcomer named last)
include step

theorem member : last.Member newcomer := by
  cases step with
  | join => simp [Member]
  | replace held answers => simp [Member]

theorem member_of (isMember : last.Member someone) :
    someone = newcomer ∨ roster.Member someone := by
  by_cases same : someone = newcomer
  · exact .inl same
  · right
    cases step with
    | join => simpa [Member, Function.update_of_ne same] using isMember
    | @replace holder name history held answers =>
      unfold Member at isMember ⊢
      rw [Function.update_of_ne same] at isMember
      by_cases leaves : someone = holder
      · subst leaves
        simp at isMember
      · rwa [Function.update_of_ne leaves] at isMember

variable (fresh : ¬ roster.Known newcomer)
include fresh

/--
Who stands for a former member after a step.

It is the newcomer, for the one who left and those that one stood for, or a
member who stood for it before.
-/
theorem standsFor_of {member former : ι} (stands : last.StandsFor member former) :
    (member = newcomer ∧ ∃ holder, roster.Member holder ∧ last holder = none ∧
          (holder = former ∧ named = some former ∨ roster.StandsFor holder former)) ∨
      roster.StandsFor member former := by
  obtain ⟨after, isAfter, recorded⟩ := stands
  cases step with
  | join =>
    by_cases same : member = newcomer
    · subst same
      simp only [Function.update_self, Option.some.injEq] at isAfter
      subst isAfter
      simp at recorded
    · rw [Function.update_of_ne same] at isAfter
      exact .inr ⟨after, isAfter, recorded⟩
  | @replace holder name history held answers =>
    have notNew : holder ≠ newcomer := by
      intro same
      subst same
      exact fresh (.inl (by simp [Member, held]))
    by_cases same : member = newcomer
    · subst same
      simp only [Function.update_self, Option.some.injEq] at isAfter
      subst isAfter
      refine .inl ⟨rfl, holder, by simp [Member, held], ?_, ?_⟩
      · rw [Function.update_of_ne notNew, Function.update_self]
      · rcases Finset.mem_insert.mp recorded with isName | older
        · subst isName
          rcases answers with isHolder | answered
          · exact .inl ⟨isHolder, rfl⟩
          · exact .inr ⟨history, held, answered⟩
        · exact .inr ⟨history, held, older⟩
    · rw [Function.update_of_ne same] at isAfter
      by_cases leaves : member = holder
      · subst leaves
        simp at isAfter
      · rw [Function.update_of_ne leaves] at isAfter
        exact .inr ⟨after, isAfter, recorded⟩

theorem known_of (known : last.Known someone) : someone = newcomer ∨ roster.Known someone := by
  rcases known with isMember | succeeded
  · rcases step.member_of isMember with same | older
    · exact .inl same
    · exact .inr (.inl older)
  · right
    obtain ⟨member, stands⟩ := succeeded
    rcases step.standsFor_of fresh stands with taken | older
    · obtain ⟨-, holder, isMember, -, ⟨isHolder, -⟩ | stood⟩ := taken
      · subst isHolder
        exact .inl isMember
      · exact .inr ⟨holder, stood⟩
    · exact .inr ⟨member, older⟩

theorem named_of_succeeded (isSucceeded : last.Succeeded someone) :
    roster.Succeeded someone ∨ named = some someone := by
  obtain ⟨member, stands⟩ := isSucceeded
  rcases step.standsFor_of fresh stands with taken | older
  · obtain ⟨-, holder, -, -, ⟨-, isNamed⟩ | stood⟩ := taken
    · exact .inr isNamed
    · exact .inl ⟨holder, stood⟩
  · exact .inl ⟨member, older⟩

theorem succeeded (isSucceeded : roster.Succeeded someone) : last.Succeeded someone := by
  obtain ⟨member, history, held, recorded⟩ := isSucceeded
  have notNew : member ≠ newcomer := by
    intro same
    subst same
    exact fresh (.inl (by simp [Member, held]))
  cases step with
  | join => exact ⟨member, history, by rwa [Function.update_of_ne notNew], recorded⟩
  | @replace holder name older isHeld answers =>
    by_cases leaves : member = holder
    · subst leaves
      rw [isHeld, Option.some.injEq] at held
      subst held
      exact ⟨newcomer, insert name older, by simp, Finset.mem_insert_of_mem recorded⟩
    · refine ⟨member, history, ?_, recorded⟩
      rwa [Function.update_of_ne notNew, Function.update_of_ne leaves]

omit fresh

omit step

variable {name : ι}

theorem standsFor_name (step : Step roster newcomer (some name) last) :
    last.StandsFor newcomer name := by
  cases step with
  | @replace holder _ history held answers =>
    exact ⟨insert name history, by simp, Finset.mem_insert_self name history⟩

theorem eq_none (step : Step roster newcomer named last) (fresh : ¬ roster.Known newcomer)
    (known : roster.Known someone) (notMember : roster someone = none) : last someone = none := by
  by_contra isMember
  rcases step.member_of isMember with same | older
  · subst same
    exact fresh known
  · exact older notMember

theorem known_name (step : Step roster newcomer (some name) last) : roster.Known name := by
  cases step with
  | @replace holder _ history held answers =>
    rcases answers with isName | stood
    · subst isName
      exact .inl (by simp [Member, held])
    · exact .inr ⟨holder, history, held, stood⟩

theorem consistent (step : Step roster newcomer named last) (fresh : ¬ roster.Known newcomer)
    (isConsistent : roster.Consistent) : last.Consistent := by
  constructor
  · intro member former stands
    rcases step.standsFor_of fresh stands with taken | older
    · obtain ⟨-, holder, -, left, ⟨isHolder, -⟩ | stood⟩ := taken
      · subst isHolder
        exact left
      · exact step.eq_none fresh (.inr ⟨holder, stood⟩) (isConsistent.apart holder former stood)
    · exact step.eq_none fresh (.inr ⟨member, older⟩) (isConsistent.apart member former older)
  · intro member other former stands otherStands
    -- The one who left is no member, so nobody shares its history.
    have alone : ∀ holder stayed, roster.Member holder → last holder = none →
          (holder = former ∧ named = some former ∨ roster.StandsFor holder former) →
          last.StandsFor stayed former → roster.StandsFor stayed former → False := by
      intro holder stayed isMember left stood isStayed olderStayed
      rcases stood with ⟨isHolder, -⟩ | stood
      · subst isHolder
        exact isMember (isConsistent.apart stayed holder olderStayed)
      · have same := isConsistent.unique holder stayed former stood olderStayed
        subst same
        obtain ⟨history, held, -⟩ := isStayed
        rw [left] at held
        cases held
    rcases step.standsFor_of fresh stands with taken | older
    · obtain ⟨isNew, holder, isMember, left, stood⟩ := taken
      rcases step.standsFor_of fresh otherStands with otherTaken | otherOlder
      · exact isNew.trans otherTaken.1.symm
      · exact (alone holder other isMember left stood otherStands otherOlder).elim
    · rcases step.standsFor_of fresh otherStands with otherTaken | otherOlder
      · obtain ⟨-, holder, isMember, left, stood⟩ := otherTaken
        exact (alone holder member isMember left stood stands older).elim
      · exact isConsistent.unique member other former older otherOlder

theorem member_stays (step : Step roster newcomer named last) (isConsistent : roster.Consistent)
    (namesMember : ∀ name, named = some name → roster.Member name)
    (isMember : roster.Member someone) (unnamed : named ≠ some someone) : last.Member someone := by
  by_cases same : someone = newcomer
  · subst same
    exact step.member
  · cases step with
    | join => simpa [Member, Function.update_of_ne same] using isMember
    | @replace holder name history held answers =>
      have stays : someone ≠ holder := by
        intro leaves
        subst leaves
        rcases answers with isName | stood
        · exact unnamed (by rw [isName])
        · exact isConsistent.not_succeeded (namesMember name rfl) ⟨someone, history, held, stood⟩
      unfold Member
      rwa [Function.update_of_ne same, Function.update_of_ne stays]

theorem named_cases (step : Step roster newcomer (some name) last) (fresh : ¬ roster.Known newcomer)
    (isConsistent : roster.Consistent) : (roster.Member name ∧ last name = none) ∨
      ∃ holder, roster.Member holder ∧ ¬ last.Known holder := by
  have atMost : ∀ someone, last.Succeeded someone →
        roster.Succeeded someone ∨ some name = some someone := by
    intro someone
    exact step.named_of_succeeded fresh
  cases step with
  | @replace holder _ history held answers =>
    have isMember : roster.Member holder := by simp [Member, held]
    have notNew : holder ≠ newcomer := by
      intro same
      subst same
      exact fresh (.inl isMember)
    have left : Function.update (Function.update roster holder none) newcomer
          (some (insert name history)) holder = none := by
      rw [Function.update_of_ne notNew, Function.update_self]
    rcases answers with isName | stood
    · subst isName
      exact .inl ⟨isMember, left⟩
    · right
      refine ⟨holder, isMember, ?_⟩
      intro known
      rcases known with stays | succeeded
      · exact stays left
      · rcases atMost holder succeeded with older | isNamed
        · exact isConsistent.not_succeeded isMember older
        · rw [Option.some.inj isNamed] at stood
          exact isConsistent.not_succeeded isMember ⟨holder, history, held, stood⟩

end Step

/-! ## Runs -/

inductive Run : Roster ι → List (ι × Option ι) → Roster ι → Prop where
  | nil (roster : Roster ι) : Run roster [] roster
  | cons
      {roster middle last : Roster ι}
      {newcomer : ι}
      {named : Option ι}
      {moves : List (ι × Option ι)}
      (step : Step roster newcomer named middle)
      (rest : Run middle moves last) : Run roster ((newcomer, named) :: moves) last

/-- The newcomers are new, and each comes once. -/
structure Fresh (roster : Roster ι) (moves : List (ι × Option ι)) : Prop where
  nodup : (moves.map Prod.fst).Nodup
  unknown : ∀ move ∈ moves, ¬ roster.Known move.1

omit [DecidableEq ι] in
theorem Fresh.head (fresh : Fresh roster ((newcomer, named) :: moves)) : ¬ roster.Known newcomer :=
  fresh.unknown (newcomer, named) (by simp)

theorem Fresh.tail (fresh : Fresh roster ((newcomer, named) :: moves))
    (step : Step roster newcomer named middle) : Fresh middle moves := by
  have nodup := List.nodup_cons.mp fresh.nodup
  refine ⟨nodup.2, ?_⟩
  intro move member known
  rcases step.known_of fresh.head known with same | older
  · exact nodup.1 (List.mem_map.mpr ⟨move, member, same⟩)
  · exact fresh.unknown move (by simp [member]) older

namespace Run

variable (run : Run roster moves last)
include run

variable (fresh : Fresh roster moves)
include fresh

theorem known_of (known : last.Known someone) :
    someone ∈ moves.map Prod.fst ∨ roster.Known someone := by
  induction run with
  | nil roster => exact .inr known
  | cons step rest ih =>
    rcases ih (fresh.tail step) known with later | earlier
    · exact .inl (List.mem_cons_of_mem _ later)
    · rcases step.known_of fresh.head earlier with same | older
      · subst same
        exact .inl (by simp)
      · exact .inr older

theorem consistent (isConsistent : roster.Consistent) : last.Consistent := by
  induction run with
  | nil roster => exact isConsistent
  | cons step rest ih => exact ih (fresh.tail step) (step.consistent fresh.head isConsistent)

theorem succeeded (isSucceeded : roster.Succeeded someone) : last.Succeeded someone := by
  induction run with
  | nil roster => exact isSucceeded
  | cons step rest ih => exact ih (fresh.tail step) (step.succeeded fresh.head isSucceeded)

theorem succeeded_of_named (isNamed : (newcomer, some someone) ∈ moves) :
    last.Succeeded someone := by
  induction run with
  | nil roster => cases isNamed
  | cons step rest ih =>
    rcases List.mem_cons.mp isNamed with isFirst | later
    · cases isFirst
      exact rest.succeeded (fresh.tail step) ⟨_, step.standsFor_name⟩
    · exact ih (fresh.tail step) later

theorem known_of_named (isNamed : (newcomer, some someone) ∈ moves) :
    someone ∈ moves.map Prod.fst ∨ roster.Known someone := by
  induction run with
  | nil roster => cases isNamed
  | cons step rest ih =>
    rcases List.mem_cons.mp isNamed with isFirst | later
    · cases isFirst
      exact .inr step.known_name
    · rcases ih (fresh.tail step) later with isNew | known
      · exact .inl (List.mem_cons_of_mem _ isNew)
      · rcases step.known_of fresh.head known with same | older
        · subst same
          exact .inl (by simp)
        · exact .inr older

theorem named_of_succeeded (isSucceeded : last.Succeeded someone) :
    roster.Succeeded someone ∨ ∃ newcomer, (newcomer, some someone) ∈ moves := by
  induction run with
  | nil roster => exact .inl isSucceeded
  | @cons roster middle last first named moves step rest ih =>
      rcases ih (fresh.tail step) isSucceeded with earlier | later
      · rcases step.named_of_succeeded fresh.head earlier with older | isNamed
        · exact .inl older
        · subst isNamed
          exact .inr ⟨first, by simp⟩
      · obtain ⟨newcomer, isMove⟩ := later
        exact .inr ⟨newcomer, by simp [isMove]⟩

end Run

/-! ## Runs that lose nobody -/

/-- Every newcomer stays, and every member stays or gets one successor. -/
structure Keeps (roster : Roster ι) (moves : List (ι × Option ι)) (last : Roster ι) : Prop where
  newcomers : ∀ move ∈ moves, last.Member move.1
  members : ∀ someone, roster.Member someone →
      last.Member someone ∨ ∃! member, last.StandsFor member someone

structure Tidy (roster : Roster ι) (moves : List (ι × Option ι)) : Prop where
  members : ∀ move ∈ moves, ∀ name, move.2 = some name → roster.Member name
  once : moves.Pairwise fun earlier later =>
      ∀ name, earlier.2 = some name → later.2 ≠ some name

theorem Tidy.tail (tidy : Tidy roster ((newcomer, named) :: moves))
    (isConsistent : roster.Consistent) (step : Step roster newcomer named middle) :
    Tidy middle moves := by
  obtain ⟨differs, once⟩ := List.pairwise_cons.mp tidy.once
  refine ⟨?_, once⟩
  intro move member name isNamed
  apply step.member_stays isConsistent
  · intro other isOther
    exact tidy.members (newcomer, named) (by simp) other isOther
  · exact tidy.members move (by simp [member]) name isNamed
  · intro same
    exact differs move member name same isNamed

section

variable (run : Run roster moves last)
include run

theorem Run.member_stays (fresh : Fresh roster moves) (isConsistent : roster.Consistent)
    (tidy : Tidy roster moves) (isMember : roster.Member someone)
    (unnamed : ∀ move ∈ moves, move.2 ≠ some someone) : last.Member someone := by
  induction run with
  | nil roster => exact isMember
  | @cons roster middle last first named moves step rest ih =>
      apply ih (fresh.tail step) (step.consistent fresh.head isConsistent)
        (tidy.tail isConsistent step)
      · apply step.member_stays isConsistent _ isMember (unnamed (first, named) (by simp))
        intro name isNamed
        exact tidy.members (first, named) (by simp) name isNamed
      · intro move member
        exact unnamed move (by simp [member])

theorem Run.newcomers_stay (fresh : Fresh roster moves) (isConsistent : roster.Consistent)
    (tidy : Tidy roster moves) : ∀ move ∈ moves, last.Member move.1 := by
  induction run with
  | nil roster => simp
  | @cons roster middle last first named moves step rest ih =>
      have middleConsistent := step.consistent fresh.head isConsistent
      have restTidy := tidy.tail isConsistent step
      intro move member
      rcases List.mem_cons.mp member with isFirst | later
      · subst isFirst
        apply rest.member_stays (fresh.tail step) middleConsistent restTidy step.member
        -- Whom the others name was there from the start.
        intro move later isNamed
        exact fresh.head (.inl (tidy.members move (by simp [later]) first isNamed))
      · exact ih (fresh.tail step) middleConsistent restTidy move later

/-- A run loses nobody exactly if it is tidy. -/
theorem Run.keeps_iff_tidy (fresh : Fresh roster moves) (isConsistent : roster.Consistent) :
    Keeps roster moves last ↔ Tidy roster moves := by
  constructor
  · intro keeps
    induction run with
    | nil roster => exact ⟨by simp, .nil⟩
    | @cons roster middle last first named moves step rest ih =>
        have restFresh := fresh.tail step
        have middleConsistent := step.consistent fresh.head isConsistent
        have lastConsistent := rest.consistent restFresh middleConsistent
        have firstStays := keeps.newcomers (first, named) (by simp)
        have restKeeps : Keeps middle moves last := by
          refine ⟨?_, ?_⟩
          · intro move member
            exact keeps.newcomers move (by simp [member])
          · intro someone isMember
            rcases step.member_of isMember with isFirst | older
            · subst isFirst
              exact .inl firstStays
            · exact keeps.members someone older
        have restTidy := ih restFresh middleConsistent restKeeps
        -- The first newcomer names a member, or somebody is lost.
        have firstNames : ∀ name, named = some name → roster.Member name ∧ middle name = none := by
          intro name isNamed
          subst isNamed
          rcases step.named_cases fresh.head isConsistent with left | lost
          · exact left
          · obtain ⟨holder, isMember, unknown⟩ := lost
            have known : last.Known holder := by
              rcases keeps.members holder isMember with stays | succeeded
              · exact .inl stays
              · exact .inr succeeded.exists
            rcases rest.known_of restFresh known with isNew | older
            · obtain ⟨move, member, same⟩ := List.mem_map.mp isNew
              subst same
              exact (fresh.unknown move (by simp [member]) (.inl isMember)).elim
            · exact (unknown older).elim
        refine ⟨?_, List.pairwise_cons.mpr ⟨?_, restTidy.once⟩⟩
        · intro move member name isNamed
          rcases List.mem_cons.mp member with isFirst | later
          · subst isFirst
            exact (firstNames name isNamed).1
          · rcases step.member_of (restTidy.members move later name isNamed) with isFirst | older
            · -- Nobody names the first newcomer, who is there in the end.
              subst isFirst
              have succeeded :=
                rest.succeeded_of_named restFresh (show (move.1, some name) ∈ moves by
                    rw [← isNamed]
                    exact later)
              exact (lastConsistent.not_succeeded firstStays succeeded).elim
            · exact older
        · intro move later name isNamed again
          exact restTidy.members move later name again (firstNames name isNamed).2
  · intro tidy
    have lastConsistent := run.consistent fresh isConsistent
    refine ⟨run.newcomers_stay fresh isConsistent tidy, ?_⟩
    intro someone isMember
    by_cases isNamed : ∃ move ∈ moves, move.2 = some someone
    · right
      obtain ⟨move, member, isNamed⟩ := isNamed
      obtain ⟨successor, stands⟩ := run.succeeded_of_named fresh
          (show (move.1, some someone) ∈ moves by
            rw [← isNamed]
            exact member)
      refine ⟨successor, stands, ?_⟩
      intro other otherStands
      exact lastConsistent.unique other successor someone otherStands stands
    · left
      apply run.member_stays fresh isConsistent tidy isMember
      intro move member same
      exact isNamed ⟨move, member, same⟩

end

/-! ## More newcomers -/

/-- The larger roster has more members, none of whom stands for anybody. -/
structure Extends (added : ι → Prop) (small big : Roster ι) : Prop where
  agrees : ∀ someone, ¬ added someone → big someone = small someone
  unknown : ∀ someone, added someone → ¬ small.Known someone
  plain : ∀ someone history, added someone → big someone = some history → history = ∅

variable {added : ι → Prop}

omit [DecidableEq ι] in
theorem Extends.refl (unknown : ∀ someone, added someone → ¬ roster.Known someone) :
    Extends added roster roster := by
  refine ⟨fun _ _ => rfl, unknown, ?_⟩
  intro someone history isAdded held
  exact (unknown someone isAdded (.inl (by simp [Member, held]))).elim

variable {small big : Roster ι} {history : Finset ι}

omit [DecidableEq ι] in
theorem Extends.eq_some (extended : Extends added small big) (held : small someone = some history) :
    big someone = some history := by
  rw [extended.agrees someone]
  · exact held
  · intro isAdded
    exact extended.unknown someone isAdded (.inl (by simp [Member, held]))

theorem Extends.join {bigger : Roster ι} (extended : Extends added small big)
    (isAdded : added newcomer) (step : Step big newcomer none bigger) :
    Extends added small bigger := by
  cases step with
  | join =>
    refine ⟨?_, extended.unknown, ?_⟩
    · intro someone notAdded
      have differs : someone ≠ newcomer := by
        intro same
        exact notAdded (same ▸ isAdded)
      rw [Function.update_of_ne differs]
      exact extended.agrees someone notAdded
    · intro someone history someoneAdded held
      by_cases same : someone = newcomer
      · subst same
        simpa using held.symm
      · rw [Function.update_of_ne same] at held
        exact extended.plain someone history someoneAdded held

omit [DecidableEq ι] in
theorem Consistent.holder_unique {holder other name : ι} {otherHistory : Finset ι}
    (consistent : roster.Consistent) (held : roster holder = some history)
    (answers : holder = name ∨ name ∈ history) (otherHeld : roster other = some otherHistory)
    (otherAnswers : other = name ∨ name ∈ otherHistory) : holder = other := by
  rcases answers with isName | stood
  · subst isName
    rcases otherAnswers with same | otherStood
    · exact same.symm
    · have absent := consistent.apart other holder ⟨_, otherHeld, otherStood⟩
      rw [held] at absent
      cases absent
  · rcases otherAnswers with isName | otherStood
    · subst isName
      have absent := consistent.apart holder other ⟨_, held, stood⟩
      rw [otherHeld] at absent
      cases absent
    · exact consistent.unique holder other name ⟨_, held, stood⟩ ⟨_, otherHeld, otherStood⟩

variable {smallLast bigLast : Roster ι}

/-- The same newcomer does the same in both rosters. -/
theorem Extends.step (extended : Extends added small big) (consistent : small.Consistent)
    (notAdded : ¬ added newcomer) (fresh : ¬ small.Known newcomer)
    (smallStep : Step small newcomer named smallLast) (bigStep : Step big newcomer named bigLast) :
    Extends added smallLast bigLast := by
  have unknown : ∀ someone, added someone → ¬ smallLast.Known someone := by
    intro someone isAdded known
    rcases smallStep.known_of fresh known with same | older
    · exact notAdded (same ▸ isAdded)
    · exact extended.unknown someone isAdded older
  cases smallStep with
  | join =>
    cases bigStep with
    | join =>
      refine ⟨?_, unknown, ?_⟩
      · intro someone someoneOld
        by_cases same : someone = newcomer
        · subst same
          simp
        · rw [Function.update_of_ne same, Function.update_of_ne same]
          exact extended.agrees someone someoneOld
      · intro someone history isAdded held
        have differs : someone ≠ newcomer := by
          intro same
          exact notAdded (same ▸ isAdded)
        rw [Function.update_of_ne differs] at held
        exact extended.plain someone history isAdded held
  | @replace holder name history held answers =>
    cases bigStep with
    | @replace bigHolder _ bigHistory bigHeld bigAnswers =>
      have known : small.Known name := by
        rcases answers with isName | stood
        · subst isName
          exact .inl (by simp [Member, held])
        · exact .inr ⟨holder, history, held, stood⟩
      -- An added member answers to its own name only.
      have holderOld : ¬ added bigHolder := by
        intro isAdded
        have isEmpty := extended.plain bigHolder bigHistory isAdded bigHeld
        subst isEmpty
        rcases bigAnswers with isName | stood
        · subst isName
          exact extended.unknown bigHolder isAdded known
        · simp at stood
      have smallHeld : small bigHolder = some bigHistory := by
        rw [← extended.agrees bigHolder holderOld]
        exact bigHeld
      have sameHolder := consistent.holder_unique held answers smallHeld bigAnswers
      subst sameHolder
      rw [held, Option.some.injEq] at smallHeld
      subst smallHeld
      refine ⟨?_, unknown, ?_⟩
      · intro someone someoneOld
        by_cases same : someone = newcomer
        · subst same
          simp
        · rw [Function.update_of_ne same, Function.update_of_ne same]
          by_cases leaves : someone = holder
          · subst leaves
            simp
          · rw [Function.update_of_ne leaves, Function.update_of_ne leaves]
            exact extended.agrees someone someoneOld
      · intro someone after isAdded isAfter
        have differs : someone ≠ newcomer := by
          intro same
          exact notAdded (same ▸ isAdded)
        have stays : someone ≠ holder := by
          intro leaves
          exact holderOld (leaves ▸ isAdded)
        rw [Function.update_of_ne differs, Function.update_of_ne stays] at isAfter
        exact extended.plain someone after isAdded isAfter

theorem Extends.run [DecidablePred added] (extended : Extends added small big)
    (consistent : small.Consistent) (joins : ∀ move ∈ moves, added move.1 → move.2 = none)
    (fresh : Fresh small (moves.filter fun move => ¬ added move.1))
    (smallRun : Run small (moves.filter fun move => ¬ added move.1) smallLast)
    (bigRun : Run big moves bigLast) : Extends added smallLast bigLast := by
  induction bigRun generalizing small with
  | nil big =>
    cases smallRun
    exact extended
  | @cons big middle last newcomer named moves step rest ih =>
    have restJoins : ∀ move ∈ moves, added move.1 → move.2 = none :=
      fun move member => joins move (by simp [member])
    by_cases isAdded : added newcomer
    · have isNone : named = none := joins (newcomer, named) (by simp) isAdded
      subst isNone
      simp only [List.filter_cons, isAdded, not_true_eq_false,
        decide_false, Bool.false_eq_true, ↓reduceIte] at fresh smallRun
      exact ih (extended.join isAdded step) consistent restJoins fresh smallRun
    · simp only [List.filter_cons, isAdded, not_false_eq_true,
        decide_true, ↓reduceIte] at fresh smallRun
      cases smallRun with
      | cons smallStep smallRest =>
        exact ih (extended.step consistent isAdded fresh.head smallStep step)
          (smallStep.consistent fresh.head consistent)
          restJoins (fresh.tail smallStep) smallRest

end Roster

end TypeBridge.Library
