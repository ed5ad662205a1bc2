import Mathlib

namespace TypeBridge.Library.ChainedLog

/-!
# Chained logs

A log lists entries that each lead from one position to another. It is a
chain when every entry starts where the one before it ended. Undoing entries
in any order that chains backwards ends where the kept entries end, as long as
they still form a chain: an entry counts once as an arrival and once as a
departure, whichever order the entries are taken in.
-/

variable {ι κ : Type*} (source target : ι → κ)

/-- Every entry starts where the one before it ended. -/
inductive Chain : κ → List ι → κ → Prop where
  | nil (position : κ) : Chain position [] position
  | cons {entry : ι} {rest : List ι} {final : κ} : Chain (target entry) rest final →
      Chain (source entry) (entry :: rest) final

variable {source target}

namespace Chain

variable {start final : κ} {earlier later : List ι}

theorem append_iff : Chain source target start (earlier ++ later) final ↔ ∃ middle,
        Chain source target start earlier middle ∧ Chain source target middle later final := by
  induction earlier generalizing start with
  | nil =>
    constructor
    · intro chain
      exact ⟨start, .nil start, chain⟩
    · intro chains
      obtain ⟨middle, empty, chain⟩ := chains
      cases empty
      exact chain
  | cons entry rest ih =>
    constructor
    · intro chain
      cases chain with
      | cons tail =>
        obtain ⟨middle, first, second⟩ := ih.mp tail
        exact ⟨middle, .cons first, second⟩
    · intro chains
      obtain ⟨middle, first, second⟩ := chains
      cases first with
      | cons tail => exact .cons (ih.mpr ⟨middle, tail, second⟩)

variable {log : List ι}

theorem eq_of_unchanging (chain : Chain source target start log final)
    (unchanging : ∀ entry ∈ log, source entry = target entry) : start = final := by
  induction chain with
  | nil position => rfl
  | @cons entry rest final _ ih =>
    rw [unchanging entry (by simp)]
    exact ih (fun other member => unchanging other (by simp [member]))

theorem target_eq {entry : ι} (chain : Chain source target start (earlier ++ entry :: later) final)
    (unchanging : ∀ other ∈ later, source other = target other) : target entry = final := by
  obtain ⟨middle, -, rest⟩ := append_iff.mp chain
  cases rest with
  | cons tail => exact tail.eq_of_unchanging unchanging

variable (chain : Chain source target start log final)
include chain

theorem balance : start ::ₘ Multiset.map target log = final ::ₘ Multiset.map source log := by
  induction chain with
  | nil position => rfl
  | @cons entry rest final _ ih =>
    rw [← Multiset.cons_coe, Multiset.map_cons, Multiset.map_cons, ih, Multiset.cons_swap]

/--
The kept entries still form a chain if no kept entry comes after a dropped
entry that changes the position.
-/
theorem exists_filter  (keep : ι → Bool)
    (keptFirst : ∀ earlier entry later, log = earlier ++ entry :: later → keep entry = false →
        source entry ≠ target entry → ∀ other ∈ later, keep other = false) :
    ∃ reached, Chain source target start (log.filter keep) reached := by
  induction chain with
  | nil position => exact ⟨position, .nil position⟩
  | @cons entry rest final _ ih =>
    have restKeptFirst : ∀ earlier other later, rest = earlier ++ other :: later →
          keep other = false → source other ≠ target other →
          ∀ last ∈ later, keep last = false := by
      intro earlier other later shape
      exact keptFirst (entry :: earlier) other later (by simp [shape])
    obtain ⟨reached, kept⟩ := ih restKeptFirst
    cases keeps : keep entry with
    | true =>
      rw [List.filter_cons_of_pos keeps]
      exact ⟨reached, .cons kept⟩
    | false =>
      rw [List.filter_cons_of_neg (by simp [keeps])]
      by_cases changing : source entry = target entry
      · rw [changing]
        exact ⟨reached, kept⟩
      · have dropped : rest.filter keep = [] := by
          rw [List.filter_eq_nil_iff]
          intro other member
          simp [keptFirst [] entry rest rfl keeps changing other member]
        rw [dropped]
        exact ⟨source entry, .nil _⟩

/--
Undoing the dropped entries, in any order that chains backwards, leads to the
end of the kept ones.
-/
theorem eq_of_undone {restored reached : κ} {dropped : List ι} {keep : ι → Bool}
    (kept : Chain source target start (log.filter keep) reached)
    (permutation : dropped.Perm (log.filter fun entry => !keep entry))
    (undone : Chain target source final dropped restored) : reached = restored := by
  have split : ∀ position : ι → κ, Multiset.map position log =
        Multiset.map position (log.filter keep) + Multiset.map position dropped := by
    intro position
    have parts : (log : Multiset ι) = (log.filter keep : Multiset ι) + (dropped : Multiset ι) := by
      rw [Multiset.coe_add, Multiset.coe_eq_coe]
      exact (List.filter_append_perm keep log).symm.trans (permutation.symm.append_left _)
    rw [parts, Multiset.map_add]
  have whole := chain.balance
  have part := kept.balance
  have back := undone.balance
  rw [split target, split source, ← Multiset.cons_add, ← Multiset.cons_add, part] at whole
  -- Cancel the departures of the kept entries, then those undone.
  have ends : reached ::ₘ Multiset.map target (dropped : Multiset ι) =
        final ::ₘ Multiset.map source (dropped : Multiset ι) := by
    have cancelled : Multiset.map source (log.filter keep : Multiset ι) +
            (reached ::ₘ Multiset.map target (dropped : Multiset ι)) =
          Multiset.map source (log.filter keep : Multiset ι) +
            (final ::ₘ Multiset.map source (dropped : Multiset ι)) := by
      rw [Multiset.add_cons, Multiset.add_cons, ← Multiset.cons_add, ← Multiset.cons_add]
      exact whole
    exact add_left_cancel cancelled
  rw [back] at ends
  exact (Multiset.cons_inj_left _).mp ends

end Chain

end TypeBridge.Library.ChainedLog
