import Mathlib

namespace TypeBridge.Library.Wildcard

/-!
# Matching by a table of rows

A pattern is matched against a list of elements by filling a row of cells for each of its tokens,
from left to right. A cell stands for what is left of the elements after its column, so a row is
described by the remainders at which its cells are set, and no column number occurs in a proof.
-/

variable {Element Token : Type}

/-- A row filled from left to right: each cell from the one to its left, the one above it, the one
above to the left, and the element of its column. -/
def fillRow (cell : Bool → Bool → Bool → Element → Bool) (left diagonal : Bool) :
    List Bool → List Element → List Bool
  | above :: previous, element :: rest =>
      left :: fillRow cell (cell left above diagonal element) above previous rest
  | _, _ => [left]

def firstRow (elements : List Element) : List Bool := true :: List.replicate elements.length false

def Remains : List Bool → List Element → List Element → Prop
  | cell :: _, [], remainder => cell = true ∧ remainder = []
  | cell :: row, element :: rest, remainder =>
      cell = true ∧ remainder = element :: rest ∨ Remains row rest remainder
  | [], _, _ => False

def Matches (Stands : Token → List Element → Prop) (tokens : List Token)
    (elements : List Element) : Prop :=
  ∃ parts, List.Forall₂ Stands tokens parts ∧ parts.flatten = elements

variable {Stands : Token → List Element → Prop} {elements : List Element}

theorem matches_nil : Matches Stands [] elements ↔ elements = [] := by
  constructor
  · rintro ⟨parts, stand, rfl⟩
    cases stand
    rfl
  · rintro rfl
    exact ⟨[], .nil, rfl⟩

theorem matches_cons {token : Token} {tokens : List Token} :
    Matches Stands (token :: tokens) elements ↔
      ∃ part rest, Stands token part ∧ Matches Stands tokens rest ∧ part ++ rest = elements := by
  constructor
  · rintro ⟨parts, stand, rfl⟩
    cases stand with
    | cons stands others => exact ⟨_, _, stands, ⟨_, others, rfl⟩, rfl⟩
  · rintro ⟨part, rest, stands, ⟨parts, others, rfl⟩, rfl⟩
    exact ⟨part :: parts, .cons stands others, rfl⟩

section Rows

variable {cell : Bool → Bool → Bool → Element → Bool} {left diagonal : Bool} {row : List Bool}
  {elements remainder : List Element}

theorem length_fillRow (fits : row.length = elements.length) :
    (fillRow cell left diagonal row elements).length = elements.length + 1 := by
  induction elements generalizing left diagonal row with
  | nil => simp [fillRow]
  | cons element rest ih =>
    obtain ⟨above, previous, rfl⟩ := List.exists_cons_of_length_eq_add_one fits
    simp [fillRow, ih (Nat.succ.inj fits)]

theorem remains_firstRow :
    Remains (firstRow elements) elements remainder ↔ remainder = elements := by
  have unset : ∀ rest : List Element,
      ¬ Remains (List.replicate (rest.length + 1) false) rest remainder := by
    intro rest
    induction rest with
    | nil => simp [Remains]
    | cons element rest ih => simpa [Remains, List.replicate_succ] using ih
  cases elements with
  | nil => simp [firstRow, Remains]
  | cons element rest => simpa [firstRow, Remains] using fun set => absurd set (unset rest)

theorem remains_nil (fits : row.length = elements.length + 1) :
    Remains row elements [] ↔ row.getD elements.length false = true := by
  induction elements generalizing row with
  | nil =>
    obtain ⟨first, rfl⟩ := List.length_eq_one_iff.mp fits
    simp [Remains]
  | cons element rest ih =>
    obtain ⟨first, previous, rfl⟩ := List.exists_cons_of_length_eq_add_one fits
    simp [Remains, ih (Nat.succ.inj fits)]

theorem remains_true (above : Bool) : Remains (true :: row) elements remainder ↔
    remainder = elements ∨ Remains (above :: row) elements remainder := by
  cases elements <;> simp only [Remains] <;> tauto

theorem remains_fillRow_any (fits : row.length = elements.length)
    (isAny : ∀ left above diagonal element, cell left above diagonal element = (above || left)) :
    Remains (fillRow cell left diagonal row elements) elements remainder ↔
      ∃ part, Remains (left :: row) elements (part ++ remainder) := by
  induction elements generalizing left diagonal row with
  | nil => simp [fillRow, Remains]
  | cons element rest ih =>
    obtain ⟨above, previous, rfl⟩ := List.exists_cons_of_length_eq_add_one fits
    rw [fillRow, isAny, Remains]
    simp only [ih (Nat.succ.inj fits), Remains]
    cases left with
    | false => simp
    | true =>
      simp only [Bool.or_true, remains_true above, true_and]
      constructor
      · rintro (rfl | ⟨part, isRest | set⟩)
        · exact ⟨[], .inl rfl⟩
        · exact ⟨element :: part, .inl (congrArg (element :: ·) isRest)⟩
        · exact ⟨part, .inr set⟩
      · rintro ⟨part, isAll | set⟩
        · cases part with
          | nil => exact .inl isAll
          | cons first part => exact .inr ⟨part, .inl (List.cons.inj isAll).2⟩
        · exact .inr ⟨part, .inr set⟩

theorem remains_fillRow_one (fits : row.length = elements.length) {accepts : Element → Bool}
    (isOne : ∀ left above diagonal element,
      cell left above diagonal element = (diagonal && accepts element)) :
    Remains (fillRow cell left diagonal row elements) elements remainder ↔
      left = true ∧ remainder = elements ∨ ∃ element, accepts element = true ∧
          Remains (diagonal :: row) elements (element :: remainder) := by
  induction elements generalizing left diagonal row with
  | nil => simp [fillRow, Remains]
  | cons element rest ih =>
    obtain ⟨above, previous, rfl⟩ := List.exists_cons_of_length_eq_add_one fits
    rw [fillRow, isOne, Remains]
    simp only [ih (Nat.succ.inj fits), Remains, Bool.and_eq_true, List.cons.injEq]
    constructor
    · rintro (first | ⟨⟨set, fit⟩, rfl⟩ | ⟨other, fit, set⟩)
      · exact .inl first
      · exact .inr ⟨element, fit, .inl ⟨set, rfl, rfl⟩⟩
      · exact .inr ⟨other, fit, .inr set⟩
    · rintro (first | ⟨other, fit, ⟨set, rfl, rfl⟩ | set⟩)
      · exact .inl first
      · exact .inr (.inl ⟨⟨set, fit⟩, rfl⟩)
      · exact .inr (.inr ⟨other, fit, set⟩)

end Rows

/-- Filling a row for each token decides whether the tokens match, if each row stands for what its
token stands for. -/
theorem foldl_rows_iff {next : List Bool → Token → List Bool}
    (nextLength : ∀ {row token}, row.length = elements.length + 1 →
      (next row token).length = elements.length + 1)
    (nextRemains : ∀ {row token remainder}, row.length = elements.length + 1 →
      (Remains (next row token) elements remainder ↔
        ∃ part, Stands token part ∧ Remains row elements (part ++ remainder)))
    (tokens : List Token) :
    (tokens.foldl next (firstRow elements)).getD elements.length false = true ↔
      Matches Stands tokens elements := by
  -- from any row on, the tokens match one of its remainders
  have fromRow : ∀ row : List Bool, row.length = elements.length + 1 →
      ((tokens.foldl next row).getD elements.length false = true ↔
        ∃ remainder, Remains row elements remainder ∧ Matches Stands tokens remainder) := by
    induction tokens with
    | nil =>
      intro row fits
      simp only [List.foldl_nil, matches_nil, exists_eq_right]
      exact (remains_nil fits).symm
    | cons token tokens ih =>
      intro row fits
      rw [List.foldl_cons, ih _ (nextLength fits)]
      simp only [nextRemains fits, matches_cons]
      constructor
      · rintro ⟨rest, ⟨part, stands, remains⟩, others⟩
        exact ⟨_, remains, part, rest, stands, others, rfl⟩
      · rintro ⟨_, remains, part, rest, stands, others, rfl⟩
        exact ⟨rest, ⟨part, stands, remains⟩, others⟩
  rw [fromRow _ (by simp [firstRow])]
  simp [remains_firstRow]

end TypeBridge.Library.Wildcard
