import Mathlib

namespace TypeBridge.Core

/-!
# Source texts of schemas

String literals are written, read back and skipped by three separate loops: the writer escapes
five characters, the reader of the schema parser knows one escape more, and the region scanner
only counts backslashes. Texts are lists of characters; offsets are counted in bytes.
-/

def byteLength (text : List Char) : Nat := (text.map Char.utf8Size).sum

@[simp]
theorem byteLength_append (first second : List Char) :
    byteLength (first ++ second) = byteLength first + byteLength second := by
  simp [byteLength]

/-! ## Regions -/

/-- What a part of a source text is. -/
inductive SourceRegionKind where
  | code | lineComment | stringLiteral
  deriving DecidableEq

/-- A range of bytes of one kind. -/
structure SourceRegion where
  start : Nat
  stop : Nat
  kind : SourceRegionKind
  deriving DecidableEq

structure ScanState where
  regions : List SourceRegion
  regionStart : Nat
  kind : SourceRegionKind
  closeQuote : Char
  escaped : Bool
  blockComment : Bool
  resumeAt : Nat

namespace ScanState

/-- The scanner before the first character. -/
def initial : ScanState := ⟨[], 0, .code, '"', false, false, 0⟩

/-- End the current region, unless it is empty. -/
def push (state : ScanState) (stop : Nat) : ScanState :=
  { state with
    regions :=
      if state.regionStart < stop then state.regions ++ [⟨state.regionStart, stop, state.kind⟩]
      else state.regions
    regionStart := stop }

def stepCode (state : ScanState) (index : Nat) (character : Char) (rest : List Char) : ScanState :=
  if character = '#' ∨ character = '/' ∧ rest.head? = some '/' then
    { state.push index with kind := .lineComment, blockComment := false }
  else if character = '/' ∧ rest.head? = some '*' then
    { state.push index with kind := .lineComment, blockComment := true }
  else if character = '"' ∨ character = '\'' then
    { state.push index with kind := .stringLiteral, closeQuote := character, escaped := false }
  else state

def stepComment (state : ScanState) (index : Nat) (character : Char) (rest : List Char) :
    ScanState :=
  if state.blockComment ∧ character = '*' ∧ rest.head? = some '/' then
    { state.push (index + 2) with kind := .code, blockComment := false, resumeAt := index + 2 }
  else if state.blockComment = false ∧ character = '\n' then { state.push index with kind := .code }
  else state

def stepString (state : ScanState) (index : Nat) (character : Char) : ScanState :=
  if state.escaped then { state with escaped := false }
  else if character = '\\' then { state with escaped := true }
  else if character = state.closeQuote then
    { state.push (index + character.utf8Size) with kind := .code }
  else state

/-- Look at one character, unless it belongs to a delimiter already seen. -/
def step (state : ScanState) (index : Nat) (character : Char) (rest : List Char) : ScanState :=
  if index < state.resumeAt then state
  else
    match state.kind with
    | .code => state.stepCode index character rest
    | .lineComment => state.stepComment index character rest
    | .stringLiteral => state.stepString index character

/-- Scan a text that starts at an offset. -/
def run (state : ScanState) (index : Nat) : List Char → ScanState
  | [] => state
  | character :: rest => (state.step index character rest).run (index + character.utf8Size) rest

end ScanState

def scanSourceRegions (source : List Char) : List SourceRegion :=
  ((ScanState.initial.run 0 source).push (byteLength source)).regions

namespace ScanState

variable (state : ScanState)

theorem regions_push (stop : Nat) : state.regions <+: (state.push stop).regions := by
  unfold push
  dsimp only
  split_ifs
  · exact List.prefix_append _ _
  · exact List.prefix_refl _

theorem regions_step (index : Nat) (character : Char) (rest : List Char) :
    state.regions <+: (state.step index character rest).regions := by
  unfold step
  by_cases skipped : index < state.resumeAt
  · rw [if_pos skipped]
  · rw [if_neg skipped]
    cases state.kind with
    | code =>
      unfold stepCode
      split_ifs
      all_goals first | exact List.prefix_refl _ | exact state.regions_push _
    | lineComment =>
      unfold stepComment
      split_ifs
      all_goals first | exact List.prefix_refl _ | exact state.regions_push _
    | stringLiteral =>
      unfold stepString
      split_ifs
      all_goals first | exact List.prefix_refl _ | exact state.regions_push _

theorem regions_run (index : Nat) (text : List Char) :
    state.regions <+: (state.run index text).regions := by
  induction text generalizing state index with
  | nil => exact List.prefix_refl _
  | cons character rest ih => exact (state.regions_step index character rest).trans (ih _ _)

end ScanState

/-! ## Whitespace and comments -/

/-- The whitespace the parser skips. -/
def isAsciiWhitespace (character : Char) : Bool := character ∈ [' ', '\t', '\n', '\x0c', '\r']

/-- The text after the first occurrence of two characters, if they occur. -/
def afterPair (first second : Char) : List Char → Option (List Char)
  | [] => none
  | [_] => none
  | character :: next :: rest =>
      if character = first ∧ next = second then some rest
      else afterPair first second (next :: rest)

/-- One round of skipping: whitespace, then at most one comment. -/
def skipOnce (text : List Char) : List Char :=
  let trimmed := text.dropWhile isAsciiWhitespace
  match trimmed with
  | '#' :: _ => (trimmed.dropWhile (· ≠ '\n')).tail
  | '/' :: '/' :: _ => (trimmed.dropWhile (· ≠ '\n')).tail
  | '/' :: '*' :: _ => (afterPair '*' '/' trimmed).getD trimmed
  | _ => trimmed

/-- Skip whitespace and comments until a round changes nothing. -/
def wsCommentsWithin : Nat → List Char → List Char
  | 0, text => text
  | fuel + 1, text => if skipOnce text = text then text else wsCommentsWithin fuel (skipOnce text)

/-- Skip whitespace and comments. Every round but the last one shortens the text. -/
def wsComments (text : List Char) : List Char := wsCommentsWithin (text.length + 1) text

/-! ## String literals -/

def replaceCharacter (replaced : Char) (replacement text : List Char) : List Char :=
  text.flatMap fun character => if character = replaced then replacement else [character]

/-- Write a string literal: one replacement after the other, backslashes first. -/
def formatStringLiteral (value : List Char) : List Char :=
  let escaped :=
    replaceCharacter '\t' ['\\', 't'] (replaceCharacter '\r' ['\\', 'r']
      (replaceCharacter '\n' ['\\', 'n'] (replaceCharacter '"' ['\\', '"']
        (replaceCharacter '\\' ['\\', '\\'] value))))
  '"' :: escaped ++ ['"']

/-- What an escaped character stands for; unknown escapes stand for themselves. -/
def unescape : Char → List Char
  | 'n' => ['\n']
  | 't' => ['\t']
  | 'r' => ['\r']
  | '\\' => ['\\']
  | '"' => ['"']
  | '\'' => ['\'']
  | other => ['\\', other]

/-- Read up to the closing quote. -/
def literalBody (close : Char) (result : List Char) : List Char → Option (List Char × List Char)
  | [] => none
  | character :: rest =>
      if character = close then some (result, rest)
      else if character = '\\' then
        match rest with
        | [] => none
        | escaped :: rest => literalBody close (result ++ unescape escaped) rest
      else literalBody close (result ++ [character]) rest

def stringLiteral (text : List Char) : Option (List Char × List Char) :=
  match wsComments text with
  | '"' :: rest => literalBody '"' [] rest
  | '\'' :: rest => literalBody '\'' [] rest
  | _ => none

/-- How one character is written in a literal. -/
def escape (character : Char) : List Char :=
  if character = '\\' then ['\\', '\\']
  else if character = '"' then ['\\', '"']
  else if character = '\n' then ['\\', 'n']
  else if character = '\r' then ['\\', 'r']
  else if character = '\t' then ['\\', 't']
  else [character]

theorem formatStringLiteral_eq (value : List Char) :
    formatStringLiteral value = '"' :: value.flatMap escape ++ ['"'] := by
  unfold formatStringLiteral replaceCharacter
  simp only [List.flatMap_assoc]
  congr 3
  funext character
  unfold escape
  split_ifs with isBackslash isQuote isNewline isReturn isTab
  all_goals simp_all

theorem escape_cases (character : Char) :
    (escape character = [character] ∧ character ≠ '"' ∧ character ≠ '\\') ∨
      ∃ escaped, escape character = ['\\', escaped] ∧ unescape escaped = [character] := by
  unfold escape
  split_ifs with isBackslash isQuote isNewline isReturn isTab
  · exact .inr ⟨'\\', rfl, by rw [isBackslash]; rfl⟩
  · exact .inr ⟨'"', rfl, by rw [isQuote]; rfl⟩
  · exact .inr ⟨'n', rfl, by rw [isNewline]; rfl⟩
  · exact .inr ⟨'r', rfl, by rw [isReturn]; rfl⟩
  · exact .inr ⟨'t', rfl, by rw [isTab]; rfl⟩
  · exact .inl ⟨rfl, isQuote, isBackslash⟩

theorem literalBody_escape (value after result : List Char) :
    literalBody '"' result (value.flatMap escape ++ '"' :: after) =
      some (result ++ value, after) := by
  induction value generalizing result with
  | nil =>
    rw [literalBody.eq_def]
    simp
  | cons character rest ih =>
    rw [List.flatMap_cons, List.append_assoc]
    rcases escape_cases character with ⟨written, notQuote, notBackslash⟩ | ⟨escaped, written, reads⟩
    · rw [written, List.singleton_append, literalBody.eq_def]
      simp only [notQuote, notBackslash, ↓reduceIte]
      rw [ih, List.append_assoc, List.singleton_append]
    · rw [written, List.cons_append, List.singleton_append, literalBody.eq_def]
      simp only [Char.reduceEq, ↓reduceIte]
      rw [ih, reads, List.append_assoc, List.singleton_append]

theorem wsComments_quote (rest : List Char) : wsComments ('"' :: rest) = '"' :: rest := by
  have unchanged : skipOnce ('"' :: rest) = '"' :: rest := rfl
  unfold wsComments
  rw [wsCommentsWithin, if_pos unchanged]

namespace ScanState

theorem run_escape {state : ScanState} (inLiteral : state.kind = .stringLiteral)
    (unescaped : state.escaped = false) (doubleQuote : state.closeQuote = '"')
    {index : Nat} (resumed : state.resumeAt ≤ index) (value after : List Char) :
    state.run index (value.flatMap escape ++ after) =
      state.run (index + byteLength (value.flatMap escape)) after := by
  induction value generalizing index with
  | nil => simp [byteLength]
  | cons character rest ih =>
    rw [List.flatMap_cons, List.append_assoc, byteLength_append, ← Nat.add_assoc,
      ← ih (resumed.trans (Nat.le_add_right _ _))]
    rcases escape_cases character with ⟨written, notQuote, notBackslash⟩ | ⟨escaped, written, -⟩
    · have stays : ∀ others, state.step index character others = state := by
        intro others
        simp [step, stepString, Nat.not_lt.mpr resumed, inLiteral, unescaped, doubleQuote, notQuote,
          notBackslash]
      rw [written, List.singleton_append, run, stays]
      simp [byteLength]
    · have opens : ∀ others, state.step index '\\' others = { state with escaped := true } := by
        intro others
        simp [step, stepString, Nat.not_lt.mpr resumed, inLiteral, unescaped]
      have closes : ∀ others, step { state with escaped := true } (index + '\\'.utf8Size) escaped
          others = state := by
        intro others
        have later : ¬ index + '\\'.utf8Size < state.resumeAt := by omega
        simp only [step, stepString, later, inLiteral, ↓reduceIte]
        rw [← unescaped, ← inLiteral]
      rw [written, List.cons_append, List.singleton_append, run, opens, run, closes]
      simp [byteLength, Nat.add_assoc]

end ScanState

/--
A written literal is read back exactly, whatever follows it, and the scanner ends its first
region at the end of the literal.
-/
theorem string_literal_exact (value after : List Char) :
    stringLiteral (formatStringLiteral value ++ after) = some (value, after) ∧
      (scanSourceRegions (formatStringLiteral value ++ after)).head? =
        some ⟨0, byteLength (formatStringLiteral value), .stringLiteral⟩ := by
  rw [formatStringLiteral_eq, List.cons_append, List.cons_append, List.append_assoc,
    List.singleton_append]
  constructor
  · unfold stringLiteral
    rw [wsComments_quote]
    exact literalBody_escape value after []
  · -- The opening quote ends an empty region, and the closing quote ends the literal.
    let opened : ScanState := ⟨[], 0, .stringLiteral, '"', false, false, 0⟩
    let stop := '"'.utf8Size + byteLength (value.flatMap escape)
    have closed : opened.step stop '"' after =
        ⟨[⟨0, stop + '"'.utf8Size, .stringLiteral⟩], stop + '"'.utf8Size, .code, '"', false, false,
          0⟩ := by
      have wide : '"'.utf8Size = 1 := rfl
      simp [opened, ScanState.step, ScanState.stepString, ScanState.push, stop, wide]
    have scanned : ScanState.initial.run 0 ('"' :: (value.flatMap escape ++ '"' :: after)) =
        (opened.step stop '"' after).run (stop + '"'.utf8Size) after := by
      have first : ScanState.initial.step 0 '"' (value.flatMap escape ++ '"' :: after) = opened :=
        rfl
      rw [ScanState.run, first, ScanState.run_escape rfl rfl rfl (Nat.zero_le _)]
      simp [ScanState.run, stop]
    have kept := ((opened.step stop '"' after).regions_run (stop + '"'.utf8Size) after).trans
      (ScanState.regions_push _ (byteLength ('"' :: (value.flatMap escape ++ '"' :: after))))
    unfold scanSourceRegions
    rw [scanned]
    rw [closed] at kept ⊢
    obtain ⟨others, found⟩ := kept
    rw [← found]
    simp [stop, byteLength, Nat.add_assoc]

end TypeBridge.Core
