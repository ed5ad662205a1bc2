import TypeBridge.Execution.Journal

namespace TypeBridge.Execution

/-!
# The journal as a timeline

Applied and retirement records are loaded as two lists. Their sequence
numbers order them in one timeline, in which nothing is earlier than a record
with the same sequence.
-/

variable {Digest PlanDigest : Type}

/-! ## Records -/

/-- Records are keyed by sequence, then by position. -/
def recordKey (candidate : JournalEntry (AppliedRecord Digest PlanDigest) × Nat) : ℕ ×ₗ ℕ :=
  toLex (candidate.1.sequence.value, candidate.2)

variable {left right : JournalEntry (AppliedRecord Digest PlanDigest) × Nat}

theorem recordKey_le_iff :
    recordKey left ≤ recordKey right ↔ left.1.sequence.value < right.1.sequence.value ∨
        left.1.sequence.value = right.1.sequence.value ∧ left.2 ≤ right.2 := by
  simp only [recordKey, Prod.Lex.toLex_le_toLex]

variable {applied : List (JournalEntry (AppliedRecord Digest PlanDigest))}

theorem eq_of_recordKey_eq (leftMember : left ∈ applied.zipIdx)
    (rightMember : right ∈ applied.zipIdx) (same : recordKey left = recordKey right) :
    left = right := by
  have samePosition : left.2 = right.2 := (Prod.ext_iff.mp (toLex.injective same)).2
  rw [List.mem_zipIdx_iff_getElem?] at leftMember rightMember
  rw [samePosition, rightMember] at leftMember
  exact Prod.ext (Option.some.inj leftMember).symm samePosition

theorem pairwise_zipIdx (applied : List (JournalEntry (AppliedRecord Digest PlanDigest))) :
    applied.zipIdx.Pairwise fun earlier later => earlier.2 < later.2 := by
  have increasing : (applied.zipIdx.map Prod.snd).Pairwise (· < ·) := by
    rw [List.zipIdx_map_snd]
    exact List.pairwise_lt_range'
  exact List.pairwise_map.mp increasing

/-! ## Events -/

inductive JournalEvent (Digest PlanDigest : Type) where
  | apply (position : Nat) (entry : JournalEntry (AppliedRecord Digest PlanDigest))
  | retire (position : Nat) (retirement : JournalEntry (RolledBackRecord Digest PlanDigest))

/--
Events are ordered by sequence. On equal sequences nothing is earlier, so
retirements come first, and records of one list keep their order.
-/
def JournalEvent.orderKey : JournalEvent Digest PlanDigest → ℕ ×ₗ ℕ ×ₗ ℕ
  | .apply position entry => toLex (entry.sequence.value, toLex (1, position))
  | .retire position retirement => toLex (retirement.sequence.value, toLex (0, position))

namespace JournalEvent

def appliedPosition? : JournalEvent Digest PlanDigest → Option Nat
  | .apply position _ => some position
  | .retire _ _ => none

def retiredPosition? : JournalEvent Digest PlanDigest → Option Nat
  | .apply _ _ => none
  | .retire position _ => some position

variable {entry : JournalEntry (AppliedRecord Digest PlanDigest)}
  {retirement : JournalEntry (RolledBackRecord Digest PlanDigest)} {position other : Nat}

theorem sequence_lt_of_orderKey_lt
    (before : (apply position entry).orderKey < (retire other retirement).orderKey) :
    entry.sequence.value < retirement.sequence.value := by
  simp only [orderKey, Prod.Lex.toLex_lt_toLex] at before
  omega

theorem sequence_le_of_orderKey_lt
    (before : (retire other retirement).orderKey < (apply position entry).orderKey) :
    retirement.sequence.value ≤ entry.sequence.value := by
  simp only [orderKey, Prod.Lex.toLex_lt_toLex] at before
  omega

theorem recordKey_lt_of_orderKey_lt
    {left right : JournalEntry (AppliedRecord Digest PlanDigest) × Nat}
    (before : (apply left.2 left.1).orderKey < (apply right.2 right.1).orderKey) :
    recordKey left < recordKey right := by
  simp only [orderKey, Prod.Lex.toLex_lt_toLex] at before
  simp only [recordKey, Prod.Lex.toLex_lt_toLex]
  omega

end JournalEvent

def journalEvents (applied : List (JournalEntry (AppliedRecord Digest PlanDigest)))
    (rolledBack : List (JournalEntry (RolledBackRecord Digest PlanDigest))) :
    List (JournalEvent Digest PlanDigest) :=
  applied.zipIdx.map (fun pair => JournalEvent.apply pair.2 pair.1) ++
    rolledBack.zipIdx.map fun pair => JournalEvent.retire pair.2 pair.1

/-- All records in sequence order. -/
def timeline (applied : List (JournalEntry (AppliedRecord Digest PlanDigest)))
    (rolledBack : List (JournalEntry (RolledBackRecord Digest PlanDigest))) :
    List (JournalEvent Digest PlanDigest) :=
  (journalEvents applied rolledBack).insertionSort
    fun left right => left.orderKey ≤ right.orderKey

section

variable (applied : List (JournalEntry (AppliedRecord Digest PlanDigest)))
  (rolledBack : List (JournalEntry (RolledBackRecord Digest PlanDigest)))

theorem pairwise_journalEvents : (journalEvents applied rolledBack).Pairwise fun left right =>
      left.orderKey ≠ right.orderKey := by
  have different : ∀ {α : Type} (entries : List α),
        entries.zipIdx.Pairwise fun left right => left.2 ≠ right.2 := by
    intro α entries
    have distinct := entries.nodup_zipIdx_map_snd
    exact List.pairwise_map.mp distinct
  refine List.pairwise_append.mpr ⟨?_, ?_, ?_⟩
  · rw [List.pairwise_map]
    refine (different applied).imp ?_
    intro left right positions same
    simp only [JournalEvent.orderKey, EmbeddingLike.apply_eq_iff_eq, Prod.mk.injEq] at same
    exact positions same.2.2
  · rw [List.pairwise_map]
    refine (different rolledBack).imp ?_
    intro left right positions same
    simp only [JournalEvent.orderKey, EmbeddingLike.apply_eq_iff_eq, Prod.mk.injEq] at same
    exact positions same.2.2
  · intro left leftMember right rightMember same
    obtain ⟨one, _, isLeft⟩ := List.mem_map.mp leftMember
    obtain ⟨other, _, isRight⟩ := List.mem_map.mp rightMember
    rw [← isLeft, ← isRight] at same
    simp [JournalEvent.orderKey] at same

theorem timeline_perm : (timeline applied rolledBack).Perm (journalEvents applied rolledBack) :=
  List.perm_insertionSort _ _

theorem pairwise_timeline : (timeline applied rolledBack).Pairwise fun earlier later =>
      earlier.orderKey < later.orderKey := by
  have sorted : (timeline applied rolledBack).Pairwise fun earlier later =>
        earlier.orderKey ≤ later.orderKey :=
    List.pairwise_insertionSort _ _
  have distinct : (timeline applied rolledBack).Pairwise fun earlier later =>
        earlier.orderKey ≠ later.orderKey :=
    (timeline_perm applied rolledBack).symm.pairwise
      (pairwise_journalEvents applied rolledBack) fun differs => differs.symm
  refine (sorted.and distinct).imp ?_
  intro earlier later both
  exact lt_of_le_of_ne both.1 both.2

end

variable {rolledBack : List (JournalEntry (RolledBackRecord Digest PlanDigest))} {position : Nat}

theorem mem_zipIdx_of_apply {entry : JournalEntry (AppliedRecord Digest PlanDigest)}
    (member : JournalEvent.apply position entry ∈ timeline applied rolledBack) :
    (entry, position) ∈ applied.zipIdx := by
  rw [(timeline_perm applied rolledBack).mem_iff] at member
  simpa [journalEvents] using member

theorem mem_zipIdx_of_retire {retirement : JournalEntry (RolledBackRecord Digest PlanDigest)}
    (member : JournalEvent.retire position retirement ∈ timeline applied rolledBack) :
    (retirement, position) ∈ rolledBack.zipIdx := by
  rw [(timeline_perm applied rolledBack).mem_iff] at member
  simpa [journalEvents] using member

theorem filterMap_timeline (position? : JournalEvent Digest PlanDigest → Option Nat)
    {positions : List Nat}
    (listed : (journalEvents applied rolledBack).filterMap position? = positions) :
    ((timeline applied rolledBack).filterMap position?).Perm positions := by
  rw [← listed]
  exact (timeline_perm applied rolledBack).filterMap position?

end TypeBridge.Execution
