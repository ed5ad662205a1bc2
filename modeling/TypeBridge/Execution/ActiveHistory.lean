import TypeBridge.Library.LatestMatch
import TypeBridge.Execution.Timeline

namespace TypeBridge.Execution

open Library Schema Migration

/-!
# The active part of the applied ledger

`activeAppliedEntries` reads the applied and the retirement records as two
lists: every retirement consumes the latest applied record before it with the
same identity and digest. `replay` reads them as one journal in sequence
order instead: an apply activates a record, a retirement deactivates the
latest active record it matches. Both leave the same records active, whatever
the order in which the retirements are listed.
-/

variable {Digest PlanDigest : Type}

/-! ## The latest candidate -/

/-- The greatest sequence among the candidates; the last one on ties. -/
def maxBySequence (candidates : List (JournalEntry (AppliedRecord Digest PlanDigest) × Nat)) :
    Option (JournalEntry (AppliedRecord Digest PlanDigest) × Nat) :=
  candidates.foldl (fun best candidate =>
      match best with
      | none => some candidate
      | some kept =>
          if candidate.1.sequence.value < kept.1.sequence.value then some kept
          else some candidate)
    none

theorem foldl_maxBySequence
    (candidates : List (JournalEntry (AppliedRecord Digest PlanDigest) × Nat))
    (kept : JournalEntry (AppliedRecord Digest PlanDigest) × Nat) (increasing :
      (kept :: candidates).Pairwise fun earlier later => earlier.2 < later.2) :
    ∃ latest ∈ kept :: candidates,
      (∀ other ∈ kept :: candidates, recordKey other ≤ recordKey latest) ∧ candidates.foldl
          (fun best candidate =>
            match best with
            | none => some candidate
            | some kept =>
              if candidate.1.sequence.value < kept.1.sequence.value then some kept
              else some candidate)
          (some kept) = some latest := by
  induction candidates generalizing kept with
  | nil =>
    refine ⟨kept, List.mem_cons_self, ?_, rfl⟩
    intro other member
    rw [List.mem_singleton.mp member]
  | cons candidate candidates ih =>
    obtain ⟨keptFirst, restIncreasing⟩ := List.pairwise_cons.mp increasing
    by_cases older : candidate.1.sequence.value < kept.1.sequence.value
    · have keptIncreasing : (kept :: candidates).Pairwise fun earlier later =>
            earlier.2 < later.2 :=
        List.pairwise_cons.mpr ⟨fun other member =>
          keptFirst other (List.mem_cons_of_mem _ member),
          restIncreasing.of_cons⟩
      obtain ⟨latest, member, isLatest, isResult⟩ := ih kept keptIncreasing
      refine ⟨latest, ?_, ?_, ?_⟩
      · rcases List.mem_cons.mp member with isKept | isLater
        · exact isKept ▸ List.mem_cons_self
        · exact List.mem_cons_of_mem _ (List.mem_cons_of_mem _ isLater)
      · intro other otherMember
        rcases List.mem_cons.mp otherMember with isKept | isRest
        · exact isLatest other (isKept ▸ List.mem_cons_self)
        · rcases List.mem_cons.mp isRest with isCandidate | isLater
          · refine le_trans ?_ (isLatest kept List.mem_cons_self)
            rw [isCandidate]
            exact recordKey_le_iff.mpr (.inl older)
          · exact isLatest other (List.mem_cons_of_mem _ isLater)
      · simpa only [List.foldl_cons, if_pos older] using isResult
    · obtain ⟨latest, member, isLatest, isResult⟩ := ih candidate restIncreasing
      refine ⟨latest, List.mem_cons_of_mem _ member, ?_, ?_⟩
      · intro other otherMember
        rcases List.mem_cons.mp otherMember with isKept | isRest
        · refine le_trans ?_ (isLatest candidate List.mem_cons_self)
          rw [isKept]
          have below := keptFirst candidate List.mem_cons_self
          exact recordKey_le_iff.mpr (by omega)
        · exact isLatest other isRest
      · simpa only [List.foldl_cons, if_neg older] using isResult

theorem maxBySequence_cases
    {candidates : List (JournalEntry (AppliedRecord Digest PlanDigest) × Nat)}
    (increasing : candidates.Pairwise fun earlier later => earlier.2 < later.2) :
    candidates = [] ∧ maxBySequence candidates = none ∨
      ∃ latest ∈ candidates, maxBySequence candidates = some latest ∧
        ∀ other ∈ candidates, recordKey other ≤ recordKey latest := by
  cases candidates with
  | nil => exact .inl ⟨rfl, rfl⟩
  | cons candidate candidates =>
    obtain ⟨latest, member, isLatest, isResult⟩ :=
      foldl_maxBySequence candidates candidate increasing
    exact .inr ⟨latest, member, isResult, isLatest⟩

/-! ## Keys of a ledger -/

def activeKeys (applied : List (JournalEntry (AppliedRecord Digest PlanDigest)))
    (retired : List Bool) : Finset (ℕ ×ₗ ℕ) :=
  ((applied.zipIdx.filter fun candidate =>
    !(retired.getD candidate.2 false)).map recordKey).toFinset

variable {applied : List (JournalEntry (AppliedRecord Digest PlanDigest))} {retired : List Bool}
  {candidate : JournalEntry (AppliedRecord Digest PlanDigest) × Nat}

theorem mem_activeKeys (member : candidate ∈ applied.zipIdx) :
    recordKey candidate ∈ activeKeys applied retired ↔ retired.getD candidate.2 false = false := by
  simp only [activeKeys, List.mem_toFinset, List.mem_map, List.mem_filter, Bool.not_eq_true']
  constructor
  · intro found
    obtain ⟨other, ⟨otherMember, notRetired⟩, sameKey⟩ := found
    rw [← eq_of_recordKey_eq otherMember member sameKey]
    exact notRetired
  · intro notRetired
    exact ⟨candidate, ⟨member, notRetired⟩, rfl⟩

variable {key : ℕ ×ₗ ℕ}

theorem exists_of_mem_activeKeys (active : key ∈ activeKeys applied retired) :
    ∃ candidate ∈ applied.zipIdx, recordKey candidate = key := by
  simp only [activeKeys, List.mem_toFinset, List.mem_map, List.mem_filter] at active
  obtain ⟨candidate, ⟨member, _⟩, isKey⟩ := active
  exact ⟨candidate, member, isKey⟩

theorem activeKeys_set (sameLength : retired.length = applied.length)
    (member : candidate ∈ applied.zipIdx) : activeKeys applied (retired.set candidate.2 true) =
      (activeKeys applied retired).erase (recordKey candidate) := by
  have inRange : candidate.2 < retired.length := by
    rw [sameLength]
    have found := List.mem_zipIdx_iff_getElem?.mp member
    exact (List.getElem?_eq_some_iff.mp found).1
  ext key
  by_cases known : ∃ other ∈ applied.zipIdx, recordKey other = key
  · obtain ⟨other, otherMember, isKey⟩ := known
    rw [← isKey, Finset.mem_erase, mem_activeKeys otherMember, mem_activeKeys otherMember]
    by_cases same : other.2 = candidate.2
    · have sameRecord : other = candidate := by
        rw [List.mem_zipIdx_iff_getElem?] at otherMember member
        rw [same, member] at otherMember
        exact Prod.ext (Option.some.inj otherMember).symm same
      rw [sameRecord]
      simp [List.getD_eq_getElem?_getD, inRange]
    · have differentKey : recordKey other ≠ recordKey candidate := by
        intro sameKey
        exact same (congrArg Prod.snd (eq_of_recordKey_eq otherMember member sameKey))
      simp [List.getD_eq_getElem?_getD, Ne.symm same, differentKey]
  · constructor
    · intro active
      exact absurd (exists_of_mem_activeKeys active) known
    · intro active
      exact absurd (exists_of_mem_activeKeys (Finset.mem_of_mem_erase active)) known

variable [DecidableEq PlanDigest]

/-! ## Filtering the ledger -/

/-- A retirement names the migration and the manifest of a record. -/
def matchesRecord (retirement : JournalEntry (RolledBackRecord Digest PlanDigest))
    (entry : JournalEntry (AppliedRecord Digest PlanDigest)) : Bool :=
  entry.record.migrationId = retirement.record.migrationId &&
    entry.record.manifestDigest = retirement.record.manifestDigest

def matchedPosition (applied : List (JournalEntry (AppliedRecord Digest PlanDigest)))
    (retired : List Bool) (retirement : JournalEntry (RolledBackRecord Digest PlanDigest)) :
    Option Nat :=
  (maxBySequence (applied.zipIdx.filter fun candidate =>
      !(retired.getD candidate.2 false) && candidate.1.sequence.value < retirement.sequence.value &&
        matchesRecord retirement candidate.1)).map Prod.snd

def retireEntry (applied : List (JournalEntry (AppliedRecord Digest PlanDigest)))
    (retired : List Bool) (retirement : JournalEntry (RolledBackRecord Digest PlanDigest)) :
    Except Diagnostic (List Bool) :=
  match matchedPosition applied retired retirement with
  | none => .error ⟨"migration_execution_unmatched_retirement"⟩
  | some position => .ok (retired.set position true)

def activeAppliedEntries (applied : List (JournalEntry (AppliedRecord Digest PlanDigest)))
    (rolledBack : List (JournalEntry (RolledBackRecord Digest PlanDigest))) : Except Diagnostic
      (List (JournalEntry (AppliedRecord Digest PlanDigest))) := do
  let retired ←
    rolledBack.foldlM (retireEntry applied) (List.replicate applied.length false)
  return (applied.zip retired).filterMap fun pair => if pair.2 then none else some pair.1

/-! ## Replaying the journal -/

/--
The active records with their positions, most recent first, and the record
each retirement was assigned, by positions.
-/
structure ReplayState (Digest PlanDigest : Type) where
  active : List (JournalEntry (AppliedRecord Digest PlanDigest) × Nat)
  assigned : List (Nat × Nat)

/-- An apply activates; a retirement deactivates the latest match. -/
def replayEvent (state : ReplayState Digest PlanDigest) :
    JournalEvent Digest PlanDigest → Option (ReplayState Digest PlanDigest)
  | .apply position entry => some { state with active := (entry, position) :: state.active }
  | .retire position retirement =>
      (state.active.find? fun candidate =>
        matchesRecord retirement candidate.1).map fun latest => {
          active := state.active.eraseP fun candidate => matchesRecord retirement candidate.1
          assigned := state.assigned ++ [(position, latest.2)]
        }

def replay (applied : List (JournalEntry (AppliedRecord Digest PlanDigest)))
    (rolledBack : List (JournalEntry (RolledBackRecord Digest PlanDigest))) :
    Option (ReplayState Digest PlanDigest) :=
  (timeline applied rolledBack).foldlM replayEvent ⟨[], []⟩

/-- The records at active positions, in applied order. -/
def ReplayState.remaining (state : ReplayState Digest PlanDigest)
    (applied : List (JournalEntry (AppliedRecord Digest PlanDigest))) :
    List (JournalEntry (AppliedRecord Digest PlanDigest)) :=
  (applied.zipIdx.filter fun pair => pair.2 ∈ state.active.map Prod.snd).map Prod.fst

/--
Every retirement is assigned a record of its own, which is earlier and has the
same migration identity and manifest digest.
-/
structure IsAssignment (applied : List (JournalEntry (AppliedRecord Digest PlanDigest)))
    (rolledBack : List (JournalEntry (RolledBackRecord Digest PlanDigest)))
    (assigned : List (Nat × Nat)) : Prop where
  every : (assigned.map Prod.fst).Perm (List.range rolledBack.length)
  distinct : (assigned.map Prod.snd).Nodup
  earlier : ∀ pair ∈ assigned, ∃ retirement entry,
      rolledBack[pair.1]? = some retirement ∧
        applied[pair.2]? = some entry ∧
        entry.sequence.value < retirement.sequence.value ∧
        entry.record.migrationId = retirement.record.migrationId ∧
        entry.record.manifestDigest = retirement.record.manifestDigest

/-! ## Filtering retires the latest keys -/

def eligible (applied : List (JournalEntry (AppliedRecord Digest PlanDigest)))
    (retirement : JournalEntry (RolledBackRecord Digest PlanDigest)) (key : ℕ ×ₗ ℕ) : Bool :=
  applied.zipIdx.any fun candidate =>
    recordKey candidate = key && (candidate.1.sequence.value < retirement.sequence.value &&
        matchesRecord retirement candidate.1)

theorem eligible_recordKey (member : candidate ∈ applied.zipIdx)
    (retirement : JournalEntry (RolledBackRecord Digest PlanDigest)) :
    eligible applied retirement (recordKey candidate) = (decide
          (candidate.1.sequence.value < retirement.sequence.value) &&
        matchesRecord retirement candidate.1) := by
  rw [Bool.eq_iff_iff]
  simp only [eligible, List.any_eq_true, Bool.and_eq_true, decide_eq_true_eq]
  constructor
  · intro found
    obtain ⟨other, otherMember, sameKey, isEligible⟩ := found
    rw [← eq_of_recordKey_eq otherMember member sameKey]
    exact isEligible
  · intro isEligible
    exact ⟨candidate, member, rfl, isEligible⟩

theorem exists_of_eligible {retirement : JournalEntry (RolledBackRecord Digest PlanDigest)}
    (isEligible : eligible applied retirement key = true) :
    ∃ candidate ∈ applied.zipIdx, recordKey candidate = key ∧
      candidate.1.sequence.value < retirement.sequence.value ∧
      matchesRecord retirement candidate.1 = true := by
  simpa only [eligible, List.any_eq_true, Bool.and_eq_true, decide_eq_true_eq] using isEligible

variable {first second : JournalEntry (RolledBackRecord Digest PlanDigest)}

theorem matchesRecord_eq {entry other : JournalEntry (AppliedRecord Digest PlanDigest)}
    (firstMatches : matchesRecord first entry = true)
    (secondMatches : matchesRecord second entry = true) :
    matchesRecord first other = matchesRecord second other := by
  simp only [matchesRecord, Bool.and_eq_true, decide_eq_true_eq] at firstMatches secondMatches
  simp only [matchesRecord, ← firstMatches.1, ← firstMatches.2,
    ← secondMatches.1, ← secondMatches.2]

theorem olderPart_eligible (applied : List (JournalEntry (AppliedRecord Digest PlanDigest)))
    (sameMatches : ∀ entry, matchesRecord first entry = matchesRecord second entry)
    (older : first.sequence.value ≤ second.sequence.value) :
    OlderPart (eligible applied first) (eligible applied second) := by
  constructor
  · intro key isFirst
    obtain ⟨candidate, member, isKey, isEarlier, isMatch⟩ := exists_of_eligible isFirst
    rw [← isKey, eligible_recordKey member, ← sameMatches, isMatch,
      Bool.and_true, decide_eq_true_eq]
    exact isEarlier.trans_le older
  · intro key other isFirst isSecond notFirst
    obtain ⟨candidate, member, isKey, isEarlier, isMatch⟩ := exists_of_eligible isFirst
    obtain ⟨later, laterMember, isOther, _, otherMatch⟩ := exists_of_eligible isSecond
    rw [← isOther, eligible_recordKey laterMember, sameMatches, otherMatch,
      Bool.and_true, decide_eq_false_iff_not] at notFirst
    rw [← isKey, ← isOther, lt_iff_not_ge, recordKey_le_iff]
    omega

theorem compatible_eligible (applied : List (JournalEntry (AppliedRecord Digest PlanDigest)))
    (first second : JournalEntry (RolledBackRecord Digest PlanDigest)) :
    Compatible (eligible applied first) (eligible applied second) := by
  by_cases shared : ∃ entry, matchesRecord first entry = true ∧ matchesRecord second entry = true
  · obtain ⟨entry, firstMatches, secondMatches⟩ := shared
    have sameMatches : ∀ other, matchesRecord first other = matchesRecord second other :=
      fun other => matchesRecord_eq firstMatches secondMatches
    rcases le_total first.sequence.value second.sequence.value with older | newer
    · exact .inr (.inl (olderPart_eligible applied sameMatches older))
    · exact .inr (.inr (olderPart_eligible applied (fun other => (sameMatches other).symm) newer))
  · refine .inl ?_
    intro key isFirst
    obtain ⟨candidate, member, isKey, _, isMatch⟩ := exists_of_eligible isFirst
    rw [← isKey, eligible_recordKey member]
    by_contra isSecond
    simp only [Bool.not_eq_false, Bool.and_eq_true] at isSecond
    exact shared ⟨candidate.1, isMatch, isSecond.2⟩

theorem retireEntry_cases (sameLength : retired.length = applied.length)
    (retirement : JournalEntry (RolledBackRecord Digest PlanDigest)) :
    (takeLatest (eligible applied retirement) (activeKeys applied retired) = none ∧
      retireEntry applied retired retirement =
        .error ⟨"migration_execution_unmatched_retirement"⟩) ∨ ∃ next : List Bool,
      next.length = applied.length ∧
      takeLatest (eligible applied retirement) (activeKeys applied retired) =
        some (activeKeys applied next) ∧ retireEntry applied retired retirement = .ok next := by
  have increasing := (pairwise_zipIdx applied).filter fun candidate =>
    !(retired.getD candidate.2 false) && candidate.1.sequence.value < retirement.sequence.value &&
      matchesRecord retirement candidate.1
  have isCandidate : ∀ candidate ∈ applied.zipIdx,
        (recordKey candidate ∈ activeKeys applied retired ∧
          eligible applied retirement (recordKey candidate) = true) ↔
        candidate ∈ applied.zipIdx.filter fun candidate =>
          !(retired.getD candidate.2 false) &&
            candidate.1.sequence.value < retirement.sequence.value &&
            matchesRecord retirement candidate.1 := by
    intro candidate member
    rw [mem_activeKeys member, eligible_recordKey member, List.mem_filter]
    simp [member, and_assoc]
  rcases maxBySequence_cases increasing with ⟨empty, notFound⟩ |
    ⟨latest, latestCandidate, found, isLatest⟩
  · refine .inl ⟨?_, by simp only [retireEntry, matchedPosition, notFound, Option.map_none]⟩
    by_contra taken
    obtain ⟨rest, isRest⟩ := Option.ne_none_iff_exists'.mp taken
    obtain ⟨key, active, isEligible, _⟩ := takeLatest_eq_some.mp isRest
    obtain ⟨candidate, member, isKey⟩ := exists_of_mem_activeKeys active
    rw [← isKey] at active isEligible
    have impossible := (isCandidate candidate member).mp ⟨active, isEligible⟩
    rw [empty] at impossible
    exact absurd impossible List.not_mem_nil
  · have member := List.mem_of_mem_filter latestCandidate
    obtain ⟨active, isEligible⟩ := (isCandidate latest member).mpr latestCandidate
    refine .inr ⟨retired.set latest.2 true, by rw [List.length_set, sameLength],
      takeLatest_eq_some.mpr ⟨recordKey latest, active, isEligible, ?_,
        activeKeys_set sameLength member⟩,
      by simp only [retireEntry, matchedPosition, found, Option.map_some]⟩
    intro key otherActive otherEligible
    obtain ⟨candidate, candidateMember, isKey⟩ := exists_of_mem_activeKeys otherActive
    rw [← isKey] at otherActive otherEligible ⊢
    exact isLatest candidate ((isCandidate candidate candidateMember).mp
        ⟨otherActive, otherEligible⟩)

/-- Take the latest eligible key for each retirement. -/
def retireAll (applied : List (JournalEntry (AppliedRecord Digest PlanDigest)))
    (rolledBack : List (JournalEntry (RolledBackRecord Digest PlanDigest)))
    (active : Finset (ℕ ×ₗ ℕ)) : Option (Finset (ℕ ×ₗ ℕ)) :=
  rolledBack.foldlM (fun active retirement => takeLatest (eligible applied retirement) active)
    active

theorem retireAll_perm (applied : List (JournalEntry (AppliedRecord Digest PlanDigest)))
    {left right : List (JournalEntry (RolledBackRecord Digest PlanDigest))}
    (same : left.Perm right) (active : Finset (ℕ ×ₗ ℕ)) :
    retireAll applied left active = retireAll applied right active := by
  refine foldlM_perm same ?_ active
  intro first _ second _ active
  exact takeLatest_comm (compatible_eligible applied first second) active

theorem foldlM_retireEntry_cases
    (rolledBack : List (JournalEntry (RolledBackRecord Digest PlanDigest)))
    (sameLength : retired.length = applied.length) :
    (retireAll applied rolledBack (activeKeys applied retired) = none ∧
      rolledBack.foldlM (retireEntry applied) retired =
        .error ⟨"migration_execution_unmatched_retirement"⟩) ∨ ∃ final : List Bool,
      final.length = applied.length ∧ retireAll applied rolledBack (activeKeys applied retired) =
        some (activeKeys applied final) ∧
      rolledBack.foldlM (retireEntry applied) retired = .ok final := by
  induction rolledBack generalizing retired with
  | nil => exact .inr ⟨retired, sameLength, rfl, rfl⟩
  | cons retirement rolledBack ih =>
    rcases retireEntry_cases sameLength retirement with
      ⟨notTaken, failed⟩ | ⟨next, nextLength, taken, retires⟩
    · refine .inl ⟨?_, ?_⟩
      · simp only [retireAll, List.foldlM_cons, notTaken, Option.bind_eq_bind, Option.bind_none]
      · simp only [List.foldlM_cons, failed, bind, Except.bind]
    · have sameRest : retireAll applied (retirement :: rolledBack) (activeKeys applied retired) =
            retireAll applied rolledBack (activeKeys applied next) := by
        simp only [retireAll, List.foldlM_cons, taken, Option.bind_eq_bind, Option.bind_some]
      have sameLoop : (retirement :: rolledBack).foldlM (retireEntry applied) retired =
            rolledBack.foldlM (retireEntry applied) next := by
        simp only [List.foldlM_cons, retires, bind, Except.bind]
      rw [sameRest, sameLoop]
      exact ih nextLength

/-! ## Replay retires the latest keys -/

def JournalEvent.onKeys : JournalEvent Digest PlanDigest →
      RecordEvent (ℕ ×ₗ ℕ) (JournalEntry (RolledBackRecord Digest PlanDigest))
  | .apply position entry => .activate (recordKey (entry, position))
  | .retire _ retirement => .retire retirement

theorem eraseP_of_find? {α : Type} {accepts : α → Bool} {items : List α} {found : α}
    (isFound : items.find? accepts = some found) :
    accepts found = true ∧ ∃ before after, items = before ++ found :: after ∧
        (∀ item ∈ before, accepts item = false) ∧ items.eraseP accepts = before ++ after := by
  obtain ⟨accepted, before, after, isItems, notBefore⟩ := List.find?_eq_some_iff_append.mp isFound
  have rejected : ∀ item ∈ before, accepts item = false := by
    intro item member
    simpa using notBefore item member
  refine ⟨accepted, before, after, isItems, rejected, ?_⟩
  rw [isItems, List.eraseP_append_right, List.eraseP_cons_of_pos accepted]
  intro item member
  simp [rejected item member]

/-- The keys of the active records. -/
def ReplayState.keys (state : ReplayState Digest PlanDigest) : Finset (ℕ ×ₗ ℕ) :=
  (state.active.map recordKey).toFinset

/-- What holds after a part of the timeline has been replayed. -/
structure Replayed (applied : List (JournalEntry (AppliedRecord Digest PlanDigest)))
    (rolledBack : List (JournalEntry (RolledBackRecord Digest PlanDigest)))
    (past : List (JournalEvent Digest PlanDigest)) (state : ReplayState Digest PlanDigest) :
    Prop where
  activated : ∀ candidate ∈ state.active, JournalEvent.apply candidate.2 candidate.1 ∈ past
  latestFirst : state.active.Pairwise fun later earlier =>
      recordKey earlier < recordKey later
  retired : state.assigned.map Prod.fst = past.filterMap JournalEvent.retiredPosition?
  positions : (state.assigned.map Prod.snd ++ state.active.map Prod.snd).Perm
      (past.filterMap JournalEvent.appliedPosition?)
  earlier : ∀ pair ∈ state.assigned, ∃ retirement entry,
      rolledBack[pair.1]? = some retirement ∧ applied[pair.2]? = some entry ∧
        entry.sequence.value < retirement.sequence.value ∧
        matchesRecord retirement entry = true

section Step

variable {applied : List (JournalEntry (AppliedRecord Digest PlanDigest))}
  {rolledBack : List (JournalEntry (RolledBackRecord Digest PlanDigest))}
  {past future : List (JournalEvent Digest PlanDigest)} {event : JournalEvent Digest PlanDigest}
  {state next : ReplayState Digest PlanDigest}

omit [DecidableEq PlanDigest] in
theorem orderKey_lt_of_past (split : timeline applied rolledBack = past ++ event :: future)
    {earlier : JournalEvent Digest PlanDigest} (member : earlier ∈ past) :
    earlier.orderKey < event.orderKey := by
  have increasing := pairwise_timeline applied rolledBack
  rw [split] at increasing
  exact (List.pairwise_append.mp increasing).2.2 earlier member event List.mem_cons_self

variable {candidate : JournalEntry (AppliedRecord Digest PlanDigest) × Nat}
  (replayed : Replayed applied rolledBack past state)
include replayed

theorem Replayed.mem_zipIdx (split : timeline applied rolledBack = past ++ future)
    (member : candidate ∈ state.active) : candidate ∈ applied.zipIdx := by
  have inTimeline : JournalEvent.apply candidate.2 candidate.1 ∈
        timeline applied rolledBack := by
    rw [split]
    exact List.mem_append_left _ (replayed.activated candidate member)
  exact mem_zipIdx_of_apply inTimeline

theorem Replayed.eligible_iff {position : Nat}
    {retirement : JournalEntry (RolledBackRecord Digest PlanDigest)}
    (split : timeline applied rolledBack = past ++ .retire position retirement :: future)
    (member : candidate ∈ state.active) :
    eligible applied retirement (recordKey candidate) = matchesRecord retirement candidate.1 := by
  have isEarlier : candidate.1.sequence.value < retirement.sequence.value :=
    JournalEvent.sequence_lt_of_orderKey_lt
      (orderKey_lt_of_past split (replayed.activated candidate member))
  rw [eligible_recordKey (replayed.mem_zipIdx split member)]
  simp [isEarlier]

variable (split : timeline applied rolledBack = past ++ event :: future)
include split

theorem Replayed.keys_replayEvent : (replayEvent state event).map ReplayState.keys =
      RecordEvent.step (eligible applied) state.keys event.onKeys := by
  cases event with
  | apply position entry =>
    simp [replayEvent, RecordEvent.step, JournalEvent.onKeys, ReplayState.keys]
  | retire position retirement =>
    simp only [RecordEvent.step, JournalEvent.onKeys, replayEvent, Option.map_map]
    cases found : state.active.find? fun candidate => matchesRecord retirement candidate.1 with
    | none =>
      symm
      by_contra taken
      obtain ⟨rest, isRest⟩ := Option.ne_none_iff_exists'.mp taken
      obtain ⟨key, active, isEligible, _⟩ := takeLatest_eq_some.mp isRest
      simp only [ReplayState.keys, List.mem_toFinset, List.mem_map] at active
      obtain ⟨candidate, member, isKey⟩ := active
      rw [← isKey, replayed.eligible_iff split member] at isEligible
      exact List.find?_eq_none.mp found candidate member isEligible
    | some latest =>
      obtain ⟨isMatch, newer, older, isActive, noNewer, erased⟩ := eraseP_of_find? found
      have member : latest ∈ state.active := by
        rw [isActive]
        simp
      have ordered := replayed.latestFirst
      rw [isActive, List.pairwise_append] at ordered
      obtain ⟨_, latestOlder, newerLatest⟩ := ordered
      symm
      simp only [Option.map_some, Function.comp_apply, takeLatest_eq_some]
      refine ⟨recordKey latest, ?_, ?_, ?_, ?_⟩
      · simp only [ReplayState.keys, List.mem_toFinset]
        exact List.mem_map_of_mem member
      · rw [replayed.eligible_iff split member, isMatch]
      · intro key active isEligible
        simp only [ReplayState.keys, List.mem_toFinset, List.mem_map] at active
        obtain ⟨candidate, candidateMember, isKey⟩ := active
        rw [← isKey, replayed.eligible_iff split candidateMember] at isEligible
        rw [← isKey]
        rw [isActive, List.mem_append, List.mem_cons] at candidateMember
        rcases candidateMember with isNewer | isLatest | isOlder
        · rw [noNewer candidate isNewer] at isEligible
          cases isEligible
        · exact (congrArg recordKey isLatest).le
        · exact ((List.pairwise_cons.mp latestOlder).1 candidate isOlder).le
      · rw [ReplayState.keys, ReplayState.keys, erased, isActive]
        have notNewer : recordKey latest ∉ newer.map recordKey := by
          intro isNewer
          obtain ⟨candidate, candidateMember, sameKey⟩ := List.mem_map.mp isNewer
          have below := newerLatest candidate candidateMember latest
            List.mem_cons_self
          exact absurd sameKey.symm below.ne
        have notOlder : recordKey latest ∉ older.map recordKey := by
          intro isOlder
          obtain ⟨candidate, candidateMember, sameKey⟩ := List.mem_map.mp isOlder
          have below := (List.pairwise_cons.mp latestOlder).1 candidate
            candidateMember
          exact absurd sameKey below.ne
        ext key
        simp only [List.map_append, List.map_cons, List.mem_toFinset,
          List.mem_append, List.mem_cons, Finset.mem_erase]
        constructor
        · intro kept
          refine ⟨?_, ?_⟩
          · intro isLatest
            rw [isLatest] at kept
            exact kept.elim notNewer notOlder
          · exact kept.imp_right .inr
        · intro kept
          obtain ⟨notLatest, member⟩ := kept
          exact member.imp_right fun rest => rest.resolve_left notLatest

theorem Replayed.step (steps : replayEvent state event = some next) :
    Replayed applied rolledBack (past ++ [event]) next := by
  cases event with
  | apply position entry =>
    cases steps
    constructor
    · intro candidate member
      rcases List.mem_cons.mp member with isNew | isOld
      · rw [isNew]
        simp
      · exact List.mem_append_left _ (replayed.activated candidate isOld)
    · refine List.pairwise_cons.mpr ⟨?_, replayed.latestFirst⟩
      intro candidate member
      exact JournalEvent.recordKey_lt_of_orderKey_lt
        (orderKey_lt_of_past split (replayed.activated candidate member))
    · simp only [replayed.retired, List.filterMap_append,
        List.filterMap_cons, JournalEvent.retiredPosition?, List.filterMap_nil, List.append_nil]
    · simp only [List.filterMap_append, List.filterMap_cons,
        JournalEvent.appliedPosition?, List.filterMap_nil, List.map_cons]
      refine (List.perm_middle).trans ?_
      refine (replayed.positions.cons position).trans ?_
      exact (List.perm_append_singleton _ _).symm
    · exact replayed.earlier
  | retire position retirement =>
    obtain ⟨latest, found, isNext⟩ := Option.map_eq_some_iff.mp steps
    subst isNext
    obtain ⟨isMatch, newer, older, isActive, _, erased⟩ := eraseP_of_find? found
    have member : latest ∈ state.active := by
      rw [isActive]
      simp
    have isPast := replayed.activated latest member
    constructor
    · intro candidate candidateMember
      exact List.mem_append_left _ (replayed.activated candidate
        (List.mem_of_mem_eraseP candidateMember))
    · exact replayed.latestFirst.sublist List.eraseP_sublist
    · simp [JournalEvent.retiredPosition?, replayed.retired]
    · simp only [List.filterMap_append, List.filterMap_cons,
        JournalEvent.appliedPosition?, List.filterMap_nil, List.append_nil,
        List.map_append, List.map_cons, List.map_nil, erased]
      refine List.Perm.trans ?_ replayed.positions
      rw [isActive, List.map_append, List.map_cons, List.append_assoc, List.singleton_append]
      exact List.Perm.append_left _ List.perm_middle.symm
    · intro pair pairMember
      rcases List.mem_append.mp pairMember with isOld | isNew
      · exact replayed.earlier pair isOld
      · rw [List.mem_singleton.mp isNew]
        have inTimeline : JournalEvent.retire position retirement ∈
              timeline applied rolledBack := by
          rw [split]
          simp
        refine ⟨retirement, latest.1,
          List.mem_zipIdx_iff_getElem?.mp (mem_zipIdx_of_retire inTimeline),
          List.mem_zipIdx_iff_getElem?.mp (replayed.mem_zipIdx split member), ?_, isMatch⟩
        exact JournalEvent.sequence_lt_of_orderKey_lt (orderKey_lt_of_past split isPast)

omit split

omit replayed

theorem Replayed.start : Replayed applied rolledBack [] ⟨[], []⟩ where
  activated := by
    intro candidate member
    cases member
  latestFirst := List.Pairwise.nil
  retired := rfl
  positions := List.Perm.refl _
  earlier := by
    intro pair member
    cases member

theorem Replayed.keys_foldlM (replayed : Replayed applied rolledBack past state)
    (split : timeline applied rolledBack = past ++ future) :
    (future.foldlM replayEvent state).map ReplayState.keys = (future.map JournalEvent.onKeys).foldlM
        (RecordEvent.step (eligible applied)) state.keys := by
  induction future generalizing past state with
  | nil => rfl
  | cons event future ih =>
    rw [List.foldlM_cons, List.map_cons, List.foldlM_cons, ← replayed.keys_replayEvent split]
    cases steps : replayEvent state event with
    | none => rfl
    | some next =>
      have splitNext : timeline applied rolledBack = (past ++ [event]) ++ future := by
        rw [split, List.append_assoc, List.singleton_append]
      exact ih (replayed.step split steps) splitNext

theorem Replayed.foldlM (replayed : Replayed applied rolledBack past state)
    (split : timeline applied rolledBack = past ++ future)
    (runs : future.foldlM replayEvent state = some next) :
    Replayed applied rolledBack (timeline applied rolledBack) next := by
  induction future generalizing past state with
  | nil =>
    cases runs
    rw [split, List.append_nil]
    exact replayed
  | cons event future ih =>
    rw [List.foldlM_cons] at runs
    obtain ⟨middle, steps, rest⟩ := Option.bind_eq_some_iff.mp runs
    have splitNext : timeline applied rolledBack = (past ++ [event]) ++ future := by
      rw [split, List.append_assoc, List.singleton_append]
    exact ih (replayed.step split steps) splitNext rest

end Step

/-! ## Filtering is replay -/

section Run

variable (applied : List (JournalEntry (AppliedRecord Digest PlanDigest)))
  (rolledBack : List (JournalEntry (RolledBackRecord Digest PlanDigest)))

theorem causal_timeline : RecordEvent.Causal (eligible applied)
      ((timeline applied rolledBack).map JournalEvent.onKeys) := by
  rw [RecordEvent.Causal, List.pairwise_map]
  refine (pairwise_timeline applied rolledBack).imp_of_mem ?_
  intro earlier later _ laterMember before retirement key isRetire isActivate
  cases earlier with
  | apply position entry => cases isRetire
  | retire position other =>
    cases isRetire
    cases later with
    | retire position other => cases isActivate
    | apply position entry =>
      cases isActivate
      rw [eligible_recordKey (mem_zipIdx_of_apply laterMember)]
      have notEarlier := JournalEvent.sequence_le_of_orderKey_lt before
      simp [notEarlier]

omit [DecidableEq PlanDigest] in
theorem retirements_timeline :
    (RecordEvent.retirements ((timeline applied rolledBack).map JournalEvent.onKeys)).Perm
      rolledBack := by
  have listed : RecordEvent.retirements
        ((journalEvents applied rolledBack).map JournalEvent.onKeys) = rolledBack := by
    simp [RecordEvent.retirements, journalEvents, JournalEvent.onKeys, Function.comp_def]
  have sameEvents := (timeline_perm applied rolledBack).map JournalEvent.onKeys
  exact (sameEvents.filterMap _).trans (List.Perm.of_eq listed)

omit [DecidableEq PlanDigest] in
theorem activated_timeline :
    RecordEvent.activated ((timeline applied rolledBack).map JournalEvent.onKeys) =
      activeKeys applied (List.replicate applied.length false) := by
  have listed : RecordEvent.activated ((journalEvents applied rolledBack).map JournalEvent.onKeys) =
          activeKeys applied (List.replicate applied.length false) := by
    simp [RecordEvent.activated, journalEvents, JournalEvent.onKeys, Function.comp_def, activeKeys]
  have sameEvents := (timeline_perm applied rolledBack).map JournalEvent.onKeys
  rw [← listed]
  exact List.toFinset_eq_of_perm _ _ (sameEvents.filterMap _)

theorem keys_replay : (replay applied rolledBack).map ReplayState.keys =
      retireAll applied rolledBack (activeKeys applied (List.replicate applied.length false)) := by
  have start : (⟨[], []⟩ : ReplayState Digest PlanDigest).keys = ∅ := rfl
  rw [replay, Replayed.start.keys_foldlM (List.nil_append _).symm, start,
    RecordEvent.foldlM_step (causal_timeline applied rolledBack),
    Finset.empty_union, activated_timeline]
  exact retireAll_perm applied (retirements_timeline applied rolledBack) _

omit [DecidableEq PlanDigest] in
/-- The entries without a flag, as a filter over positions. -/
theorem filterMap_zip_retired {applied : List (JournalEntry (AppliedRecord Digest PlanDigest))}
    {retired : List Bool} (sameLength : retired.length = applied.length) :
    ((applied.zip retired).filterMap fun pair =>
      if pair.2 then none else some pair.1) =
      (applied.zipIdx.filter fun candidate =>
        recordKey candidate ∈ activeKeys applied retired).map Prod.fst := by
  have zipped : applied.zip retired = applied.zipIdx.map fun candidate =>
          (candidate.1, retired.getD candidate.2 false) := by
    refine List.ext_getElem (by simp [sameLength]) ?_
    intro position left right
    have inRange : position < retired.length := by
      simp only [List.length_zip] at left
      omega
    simp [List.getD_eq_getElem?_getD, inRange]
  have unflagged : ∀ candidates : List (JournalEntry (AppliedRecord Digest PlanDigest) × Nat),
        (∀ candidate ∈ candidates, candidate ∈ applied.zipIdx) →
        (candidates.filterMap fun candidate =>
          if retired.getD candidate.2 false then none
          else some candidate.1) =
          (candidates.filter fun candidate =>
            recordKey candidate ∈ activeKeys applied retired).map
              Prod.fst := by
    intro candidates recorded
    induction candidates with
    | nil => rfl
    | cons candidate candidates ih =>
      have rest := ih fun other member => recorded other (List.mem_cons_of_mem _ member)
      have isActive : recordKey candidate ∈ activeKeys applied retired ↔
            retired.getD candidate.2 false = false :=
        mem_activeKeys (recorded candidate List.mem_cons_self)
      cases flag : retired.getD candidate.2 false <;>
        simp [isActive, flag, rest, -List.getD_eq_getElem?_getD]
  rw [zipped, List.filterMap_map]
  exact unflagged applied.zipIdx fun _ member => member

theorem activeAppliedEntries_eq : activeAppliedEntries applied rolledBack =
      match
        retireAll applied rolledBack (activeKeys applied (List.replicate applied.length false)) with
      | none => .error ⟨"migration_execution_unmatched_retirement"⟩
      | some keys =>
        .ok ((applied.zipIdx.filter fun candidate => recordKey candidate ∈ keys).map Prod.fst) := by
  have noneLength : (List.replicate applied.length false).length = applied.length :=
    List.length_replicate
  rcases foldlM_retireEntry_cases rolledBack noneLength with
    ⟨notRetired, failed⟩ | ⟨final, finalLength, retired, runs⟩
  · rw [notRetired, activeAppliedEntries, failed]
    rfl
  · rw [retired, activeAppliedEntries, runs]
    simp only [bind, Except.bind, pure, Except.pure, filterMap_zip_retired finalLength]

variable {applied rolledBack} {state : ReplayState Digest PlanDigest}
  (replayed : Replayed applied rolledBack (timeline applied rolledBack) state)
include replayed

theorem Replayed.remaining_eq : state.remaining applied = (applied.zipIdx.filter fun candidate =>
        recordKey candidate ∈ state.keys).map Prod.fst := by
  have split : timeline applied rolledBack = timeline applied rolledBack ++ [] :=
    (List.append_nil _).symm
  rw [ReplayState.remaining]
  congr 1
  refine List.filter_congr ?_
  intro candidate member
  rw [decide_eq_decide]
  simp only [ReplayState.keys, List.mem_toFinset, List.mem_map]
  constructor
  · intro found
    obtain ⟨other, isActive, samePosition⟩ := found
    have otherMember := replayed.mem_zipIdx split isActive
    rw [List.mem_zipIdx_iff_getElem?] at member otherMember
    rw [samePosition, member] at otherMember
    have same : other = candidate := Prod.ext (Option.some.inj otherMember).symm samePosition
    exact ⟨other, isActive, congrArg recordKey same⟩
  · intro found
    obtain ⟨other, isActive, sameKey⟩ := found
    have same := eq_of_recordKey_eq (replayed.mem_zipIdx split isActive)
      member sameKey
    exact ⟨other, isActive, congrArg Prod.snd same⟩

theorem Replayed.isAssignment : IsAssignment applied rolledBack state.assigned := by
  refine ⟨?_, ?_, ?_⟩
  · rw [replayed.retired]
    apply filterMap_timeline
    simp [journalEvents, JournalEvent.retiredPosition?, Function.comp_def, List.range_eq_range']
  · have counted : ((timeline applied rolledBack).filterMap
          JournalEvent.appliedPosition?).Perm (List.range applied.length) := by
      apply filterMap_timeline
      simp [journalEvents, JournalEvent.appliedPosition?, Function.comp_def, List.range_eq_range']
    have distinct := (replayed.positions.trans counted).nodup_iff.mpr
      List.nodup_range
    exact (List.nodup_append.mp distinct).1
  · intro pair member
    obtain ⟨retirement, entry, isRetirement, isEntry, before, isMatch⟩ :=
      replayed.earlier pair member
    rw [matchesRecord, Bool.and_eq_true, decide_eq_true_iff, decide_eq_true_iff] at isMatch
    exact ⟨retirement, entry, isRetirement, isEntry, before, isMatch⟩

end Run

/--
The active ledger is what a replay of the journal leaves active: filtering
succeeds exactly when the replay assigns every retirement an earlier record of
its own with the same identity and digest, it then returns the records left
active in applied order, and the order of the retirements does not matter.
-/
theorem active_history_is_replay (applied : List (JournalEntry (AppliedRecord Digest PlanDigest)))
    (rolledBack : List (JournalEntry (RolledBackRecord Digest PlanDigest))) :
    ((∃ active, activeAppliedEntries applied rolledBack = .ok active) ↔
      ∃ state, replay applied rolledBack = some state ∧
        IsAssignment applied rolledBack state.assigned) ∧
    (∀ state, replay applied rolledBack = some state → activeAppliedEntries applied rolledBack =
        .ok (state.remaining applied)) ∧
    ∀ reordered : List (JournalEntry (RolledBackRecord Digest PlanDigest)),
      rolledBack.Perm reordered → activeAppliedEntries applied reordered =
          activeAppliedEntries applied rolledBack := by
  have returned : ∀ state, replay applied rolledBack = some state →
        activeAppliedEntries applied rolledBack = .ok (state.remaining applied) := by
    intro state runs
    have replayed := Replayed.start.foldlM (List.nil_append _).symm runs
    rw [activeAppliedEntries_eq, ← keys_replay, runs, replayed.remaining_eq]
    rfl
  refine ⟨⟨?_, ?_⟩, returned, ?_⟩
  · intro succeeds
    obtain ⟨active, isActive⟩ := succeeds
    rw [activeAppliedEntries_eq, ← keys_replay] at isActive
    cases runs : replay applied rolledBack with
    | none =>
      rw [runs] at isActive
      cases isActive
    | some state =>
      have replayed := Replayed.start.foldlM (List.nil_append _).symm runs
      exact ⟨state, rfl, replayed.isAssignment⟩
  · intro assigned
    obtain ⟨state, runs, _⟩ := assigned
    exact ⟨_, returned state runs⟩
  · intro reordered same
    rw [activeAppliedEntries_eq, activeAppliedEntries_eq, retireAll_perm applied same]

end TypeBridge.Execution
