import TypeBridge.Core.SourceText
import TypeBridge.Library.Checked
import TypeBridge.Library.Wildcard

namespace TypeBridge.Schema

open Library.Checked Library.Wildcard

/-!
# Patterns of schema sources

A pattern names source files relative to a directory. It is checked segment by segment, and
matched by two tables: one over the segments and components, one over the characters of a
component. NFC normalization is a parameter.
-/

inductive PatternCategory where
  | resourceLimit | invalidContract

/-- Why a pattern is refused. -/
structure PatternDiagnostic where
  category : PatternCategory
  code : String
  message : String
  pattern : List Char
  maximumBytes : Option Nat := none

inductive PatternSegment where
  | recursive
  | component (text : List Char)
  deriving DecidableEq

structure ValidatedSourcePattern where
  original : List Char
  segments : List PatternSegment
  deriving DecidableEq

def isWindowsAbsolute : List Char → Bool
  | drive :: ':' :: '/' :: _ => drive.isAlpha
  | _ => false

def validateSegment (value segment : List Char) : Except PatternDiagnostic PatternSegment :=
  if segment = [] ∨ segment = ['.'] ∨ segment = ['.', '.'] then
    .error ⟨.invalidContract, "invalid_schema_source_path",
      "schema source patterns cannot contain empty, dot, or parent segments", value, none⟩
  else if segment = ['*', '*'] then .ok .recursive
  else if ['*', '*'] <:+: segment ∨ '[' ∈ segment ∨ ']' ∈ segment ∨ '\x7b' ∈ segment ∨
      '\x7d' ∈ segment then
    .error ⟨.invalidContract, "unsupported_schema_glob_syntax",
      "schema source pattern uses syntax outside the portable glob grammar", value, none⟩
  else .ok (.component segment)

/-- Check a pattern and take it apart. -/
def validateSourcePattern (nfc : List Char → List Char) (value : List Char) (maximumBytes : Nat) :
    Except PatternDiagnostic ValidatedSourcePattern :=
  if value = [] ∨ maximumBytes < Core.byteLength value then
    .error ⟨.resourceLimit, "schema_source_pattern_size_limit",
      "schema source pattern size is outside its configured limit", value,
      some (min maximumBytes (2 ^ 63 - 1))⟩
  else if value.head? = some '/' ∨ isWindowsAbsolute value ∨ '\\' ∈ value ∨ '\x00' ∈ value then
    .error ⟨.invalidContract, "invalid_schema_source_path",
      "schema source patterns must be portable relative paths", value, none⟩
  else if nfc value ≠ value then
    .error ⟨.invalidContract, "schema_source_pattern_not_nfc",
      "schema source patterns must use NFC path spelling", value, none⟩
  else do
    let segments ← (value.splitOn '/').mapM (validateSegment value)
    return ⟨value, segments⟩

def componentRow (value : List Char) (previous : List Bool) (token : Char) : List Bool :=
  let cell := fun left above diagonal character =>
    if token = '*' then above || left
    else if token = '?' then diagonal
    else diagonal && decide (token = character)
  fillRow cell (if token = '*' then previous.headD false else false) (previous.headD false)
    previous.tail value

/-- A component matches a pattern of characters. -/
def componentMatches (pattern value : List Char) : Bool :=
  (pattern.foldl (componentRow value) (firstRow value)).getD value.length false

def segmentRow (path : List (List Char)) (previous : List Bool) : PatternSegment → List Bool
  | .recursive =>
      fillRow (fun left above _ _ => above || left) (previous.headD false) (previous.headD false)
        previous.tail path
  | .component component =>
      fillRow (fun _ _ diagonal text => diagonal && componentMatches component text) false
        (previous.headD false) previous.tail path

/-- A path matches the segments of a pattern. -/
def patternMatches (pattern : List PatternSegment) (path : List Char) : Bool :=
  let path := path.splitOn '/'
  (pattern.foldl (segmentRow path) (firstRow path)).getD path.length false

/-! ## What patterns stand for -/

/-- A star stands for any characters, a question mark for one, any other character for itself. -/
def CharacterStands (token : Char) (part : List Char) : Prop :=
  token = '*' ∨ ∃ character, part = [character] ∧ (token = '?' ∨ token = character)

/-- Two stars stand for any components, any other segment for one. -/
def SegmentStands (segment : List Char) (part : List (List Char)) : Prop :=
  segment = ['*', '*'] ∨ segment ≠ ['*', '*'] ∧ ∃ component, part = [component] ∧
      Matches CharacterStands segment component

theorem cons_headD_tail {row : List Bool} {length : Nat} (fits : row.length = length + 1) :
    row.headD false :: row.tail = row ∧ row.tail.length = length := by
  obtain ⟨first, rest, rfl⟩ := List.exists_cons_of_length_eq_add_one fits
  exact ⟨rfl, Nat.succ.inj fits⟩

theorem componentMatches_iff (pattern value : List Char) :
    componentMatches pattern value = true ↔ Matches CharacterStands pattern value := by
  refine foldl_rows_iff (fun fits => length_fillRow (cons_headD_tail fits).2) ?_ pattern
  intro row token remainder fits
  obtain ⟨isRow, tailFits⟩ := cons_headD_tail fits
  by_cases star : token = '*'
  · rw [if_pos star, remains_fillRow_any tailFits fun _ _ _ _ => if_pos star, isRow]
    simp [CharacterStands, star]
  · have isOne : ∀ (left above diagonal : Bool) (character : Char),
        (if token = '*' then above || left
          else if token = '?' then diagonal else diagonal && decide (token = character)) =
          (diagonal && decide (token = '?' ∨ token = character)) := by
      intro left above diagonal character
      by_cases mark : token = '?' <;> simp [star, mark]
    rw [if_neg star, remains_fillRow_one tailFits isOne, isRow]
    simp [CharacterStands, star]

theorem validateSegment_eq_ok {value segment : List Char} {validated : PatternSegment}
    (valid : validateSegment value segment = .ok validated) :
    validated = if segment = ['*', '*'] then .recursive else .component segment := by
  unfold validateSegment at valid
  split_ifs at valid with _ recursive
  · rw [if_pos recursive]
    exact (Except.ok.inj valid).symm
  · rw [if_neg recursive]
    exact (Except.ok.inj valid).symm

theorem validateSourcePattern_segments {nfc : List Char → List Char} {value : List Char}
    {maximumBytes : Nat} {pattern : ValidatedSourcePattern}
    (valid : validateSourcePattern nfc value maximumBytes = .ok pattern) :
    ((value.splitOn '/').map fun segment =>
      if segment = ['*', '*'] then .recursive else .component segment) = pattern.segments := by
  unfold validateSourcePattern at valid
  split_ifs at valid
  simp only [bind_eq_ok, pure_eq_ok, mapM_eq_ok] at valid
  obtain ⟨segments, checked, rfl⟩ := valid
  rw [← List.forall₂_eq_eq_eq, List.forall₂_map_left_iff]
  exact checked.imp fun _ _ isValid => (validateSegment_eq_ok isValid).symm

theorem segmentsMatch_iff (segments : List (List Char)) (path : List Char) :
    patternMatches (segments.map fun segment =>
        if segment = ['*', '*'] then .recursive else .component segment) path = true ↔
      Matches SegmentStands segments (path.splitOn '/') := by
  simp only [patternMatches, List.foldl_map]
  refine foldl_rows_iff ?_ ?_ segments
  · intro row segment fits
    split_ifs
    · exact length_fillRow (cons_headD_tail fits).2
    · exact length_fillRow (cons_headD_tail fits).2
  · intro row segment remainder fits
    obtain ⟨isRow, tailFits⟩ := cons_headD_tail fits
    by_cases recursive : segment = ['*', '*']
    · rw [if_pos recursive, segmentRow, remains_fillRow_any tailFits fun _ _ _ _ => rfl, isRow]
      simp [SegmentStands, recursive]
    · rw [if_neg recursive, segmentRow, remains_fillRow_one tailFits fun _ _ _ _ => rfl, isRow]
      simp [SegmentStands, recursive, componentMatches_iff]

/-- A path matches an accepted pattern exactly if its components can be split into the parts that
the segments of the pattern stand for. -/
theorem patternMatches_iff_stands {nfc : List Char → List Char} {value : List Char}
    {maximumBytes : Nat} {pattern : ValidatedSourcePattern}
    (valid : validateSourcePattern nfc value maximumBytes = .ok pattern) (path : List Char) :
    patternMatches pattern.segments path = true ↔
      Matches SegmentStands (value.splitOn '/') (path.splitOn '/') := by
  rw [← validateSourcePattern_segments valid]
  exact segmentsMatch_iff _ path

/-- Two recursive segments and two stars, matched by a path with components for all of them. -/
theorem nestedStars_match :
    Matches SegmentStands ("**/a/**/*b?*".toList.splitOn '/') ("x/a/a/y/bbc".toList.splitOn '/') :=
  (patternMatches_iff_stands
    (show validateSourcePattern id "**/a/**/*b?*".toList 64 =
      .ok ⟨"**/a/**/*b?*".toList, [.recursive, .component ['a'], .recursive,
        .component "*b?*".toList]⟩ from rfl) "x/a/a/y/bbc".toList).mp (by decide)

end TypeBridge.Schema
