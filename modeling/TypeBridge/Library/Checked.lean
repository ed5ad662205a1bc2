import Mathlib

namespace TypeBridge.Library.Checked

/-!
# Successful runs of checked computations

A computation in `Except` succeeds exactly when each of its steps does. The
lemmas below turn the success of a sequence, of a conditional check or of a
checked loop into the success of its parts.
-/

universe u

variable {ε : Type*} {α β : Type u} {result : β}

theorem bind_eq_ok {first : Except ε α} {next : α → Except ε β} :
    (first >>= next) = .ok result ↔ ∃ value, first = .ok value ∧ next value = .ok result := by
  cases first with
  | error failure | ok value => simp [bind, Except.bind]

theorem check_bind_eq_ok {check : Except ε PUnit} {next : PUnit → Except ε β} :
    (check >>= next) = .ok result ↔ check = .ok ⟨⟩ ∧ next ⟨⟩ = .ok result := by
  rw [bind_eq_ok]
  constructor
  · rintro ⟨⟨⟩, passes, succeeds⟩
    exact ⟨passes, succeeds⟩
  · rintro ⟨passes, succeeds⟩
    exact ⟨⟨⟩, passes, succeeds⟩

theorem pure_eq_ok {value result : α} :
    (pure value : Except ε α) = .ok result ↔ value = result := by
  simp [pure, Except.pure]

variable {δ : Type*} {computation : Except ε α}

theorem mapError_eq_ok {reword : ε → δ} {result : α} :
    computation.mapError reword = .ok result ↔ computation = .ok result := by
  cases computation <;> simp [Except.mapError]

variable {condition : Prop} {failure : ε}

theorem unless_eq_ok [Decidable condition] {unreached : α → Except ε β} {next : Except ε β} :
    (if condition then (throw failure : Except ε α) >>= unreached
    else
      next) = .ok result ↔
      ¬ condition ∧ next = .ok result := by
  by_cases holds : condition <;>
    simp [holds, throw, throwThe, MonadExceptOf.throw, bind, Except.bind]

variable {next : Except ε α}

theorem guard_eq_ok [Decidable condition] {result : α} :
    (if condition then .error failure else next) = .ok result ↔
      ¬ condition ∧ next = .ok result := by
  by_cases holds : condition <;> simp [holds]

theorem throw_eq_ok [Decidable condition] {result : α} :
    (if condition then throw failure else next) = .ok result ↔ ¬ condition ∧ next = .ok result := by
  by_cases holds : condition <;> simp [holds, throw, throwThe, MonadExceptOf.throw]

theorem require_eq_ok [Decidable condition] {result : α} :
    (if condition then next else .error failure) = .ok result ↔ condition ∧ next = .ok result := by
  by_cases holds : condition <;> simp [holds]

theorem map_eq_ok {convert : α → β} : computation.map convert = .ok result ↔
      ∃ value, computation = .ok value ∧ convert value = result := by
  cases computation with
  | error failure => simp [Except.map]
  | ok value => simp [Except.map]

def ensure (condition : Prop) [Decidable condition] (failure : ε) : Except ε Unit :=
  if condition then .ok () else .error failure

theorem ensure_eq_ok [Decidable condition] {result : Unit} :
    ensure condition failure = .ok result ↔ condition := by
  unfold ensure
  by_cases holds : condition
  · simp [holds]
  · simp [holds]

variable {step : β → α → Except ε β} {start : β}

theorem foldlM_cons_eq_ok {first : α} {rest : List α} :
    (first :: rest).foldlM step start = .ok result ↔ ∃ middle, step start first = .ok middle ∧
        rest.foldlM step middle = .ok result := by
  rw [List.foldlM_cons, bind_eq_ok]

theorem foldlM_append_eq_ok {left right : List α} :
    (left ++ right).foldlM step start = .ok result ↔ ∃ middle, left.foldlM step start = .ok middle ∧
        right.foldlM step middle = .ok result := by
  rw [List.foldlM_append, bind_eq_ok]

variable {items : List α} {final : β}

theorem exists_step_of_foldlM (run : items.foldlM step start = .ok final) {item : α}
    (member : item ∈ items) : ∃ state next, step state item = .ok next := by
  obtain ⟨before, after, rfl⟩ := List.append_of_mem member
  obtain ⟨state, -, run⟩ := foldlM_append_eq_ok.mp run
  obtain ⟨next, stepped, -⟩ := foldlM_cons_eq_ok.mp run
  exact ⟨state, next, stepped⟩

theorem foldlM_imp {other : β → α → Except ε β}
    (allows : ∀ state item next, step state item = .ok next → other state item = .ok next)
    (run : items.foldlM step start = .ok final) : items.foldlM other start = .ok final := by
  induction items generalizing start with
  | nil => exact run
  | cons first rest ih =>
    obtain ⟨middle, stepped, restRun⟩ := foldlM_cons_eq_ok.mp run
    exact foldlM_cons_eq_ok.mpr ⟨middle, allows start first middle stepped, ih restRun⟩

/-- Steps that follow each other make folds that do. -/
theorem foldlM_simulate {γ : Type u} (related : β → γ → Prop) {other : γ → α → Except δ γ}
    (follows : ∀ item ∈ items, ∀ state mirrored next,
        related state mirrored → step state item = .ok next →
          ∃ nextMirrored, other mirrored item = .ok nextMirrored ∧ related next nextMirrored)
    {mirrored : γ} (starts : related start mirrored) (run : items.foldlM step start = .ok final) :
    ∃ finalMirrored, items.foldlM other mirrored = .ok finalMirrored ∧
      related final finalMirrored := by
  induction items generalizing start mirrored with
  | nil =>
    cases run
    exact ⟨mirrored, rfl, starts⟩
  | cons first rest ih =>
    obtain ⟨middle, stepped, restRun⟩ := foldlM_cons_eq_ok.mp run
    obtain ⟨middleMirrored, steppedMirrored, middleRelated⟩ :=
      follows first List.mem_cons_self start mirrored middle starts stepped
    obtain ⟨finalMirrored, restMirrored, finalRelated⟩ := ih (fun item member =>
          follows item (List.mem_cons_of_mem first member))
        middleRelated restRun
    exact ⟨finalMirrored, foldlM_cons_eq_ok.mpr ⟨middleMirrored, steppedMirrored, restMirrored⟩,
      finalRelated⟩

/-- What every step keeps holds after the fold. -/
theorem foldlM_invariant (invariant : List α → β → Prop) (begins : invariant [] start)
    (extending : ∀ done item state next, invariant done state → step state item = .ok next →
          invariant (done ++ [item]) next)
    (run : items.foldlM step start = .ok final) : invariant items final := by
  have general : ∀ (rest done : List α) (state : β),
        invariant done state → rest.foldlM step state = .ok final →
          invariant (done ++ rest) final := by
    intro rest
    induction rest with
    | nil =>
      intro done state holds ended
      cases ended
      simpa using holds
    | cons first rest ih =>
      intro done state holds ended
      obtain ⟨next, stepped, ended⟩ := foldlM_cons_eq_ok.mp ended
      have result :=
        ih (done ++ [first]) next (extending done first state next holds stepped) ended
      simpa using result
  simpa using general items [] start begins run

variable {compute : α → Except ε β} {results : List β}

theorem mapM_eq_ok :
    items.mapM compute = .ok results ↔ List.Forall₂ (fun item result => compute item = .ok result)
        items results := by
  induction items generalizing results with
  | nil =>
    rw [List.mapM_nil, pure_eq_ok, List.forall₂_nil_left_iff]
    exact eq_comm
  | cons first rest ih =>
    rw [List.mapM_cons, List.forall₂_cons_left_iff]
    simp only [bind_eq_ok, pure_eq_ok, ih]
    constructor
    · rintro ⟨result, computed, others, rest, rfl⟩
      exact ⟨result, others, computed, rest, rfl⟩
    · rintro ⟨result, others, computed, rest, rfl⟩
      exact ⟨result, computed, others, rest, rfl⟩

theorem exists_mapM_eq_ok_iff : (∃ results, items.mapM compute = .ok results) ↔
      ∀ item ∈ items, ∃ result, compute item = .ok result := by
  induction items with
  | nil => simp [List.mapM_nil, pure_eq_ok]
  | cons first rest ih =>
    rw [List.forall_mem_cons, ← ih]
    simp only [mapM_eq_ok, List.forall₂_cons_left_iff]
    constructor
    · rintro ⟨_, result, results, computed, others, rfl⟩
      exact ⟨⟨result, computed⟩, results, others⟩
    · rintro ⟨⟨result, computed⟩, results, others⟩
      exact ⟨_, result, results, computed, others, rfl⟩

theorem mem_of_mapM_eq_ok (run : items.mapM compute = .ok results) :
    result ∈ results ↔ ∃ item ∈ items, compute item = .ok result := by
  rw [mapM_eq_ok] at run
  induction run with
  | nil => simp
  | @cons item value items values computed _ ih =>
    rw [List.mem_cons, ih]
    simp only [List.mem_cons, exists_eq_or_imp, computed, Except.ok.injEq]
    rw [eq_comm]

/-- The value of a computation that succeeds. -/
def get (computation : Except ε α) (succeeds : computation.isOk = true) : α :=
  match computation, succeeds with
  | .ok value, _ => value

theorem eq_ok_get (computation : Except ε α) (succeeds : computation.isOk = true) :
    computation = .ok (get computation succeeds) := by
  cases computation with
  | error failure => cases succeeds
  | ok value => rfl

/-- It succeeds with a value that passes a test. -/
def succeedsWith (computation : Except ε α) (test : α → Bool) : Bool :=
  match computation with
  | .error _ => false
  | .ok value => test value

theorem exists_of_succeedsWith {test : α → Bool} (succeeds : succeedsWith computation test = true) :
    ∃ value, computation = .ok value ∧ test value = true := by
  cases computation with
  | error failure => cases succeeds
  | ok value => exact ⟨value, rfl, succeeds⟩

def failure? : Except ε α → Option ε
  | .error failure => some failure
  | .ok _ => none

theorem failure?_eq_some : failure? computation = some failure ↔ computation = .error failure := by
  cases computation <;> simp [failure?]

end TypeBridge.Library.Checked
