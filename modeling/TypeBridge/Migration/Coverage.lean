import TypeBridge.Migration.Lowering

namespace TypeBridge.Migration

open Library Schema
open Library.Checked hiding get

/-!
# What assertion coverage guarantees

The verifier scans the operations of a delta in order, collects the conditions
they need and notes which operations are resolved. The invariant of the scan
says, for every operation scanned so far, which of the collected conditions
are its own: all of them if it is conditional, and none of another operation.

Together with the derivation this gives what the lowering gate relies on. A
resolved operation is conditional with all its conditions asserted, or it is
proven condition-free.
-/

variable {Bytes Digest Body : Type} {codec : Codec Bytes Digest}

def schemaSafetyRules (compareSameDomain : CanonicalValue → CanonicalValue → Option Ordering)
    (lower : RequiredSafetyCondition OperationCondition → DeclaredSchema codec →
        ManagedSchemaState Digest → Except Diagnostic (MigrationAssertionPlan Body)) :
    SafetyRules codec OperationCondition Body where
  classify := classifySchemaOperationSafety
  derive := deriveSafetyConditions compareSameDomain
  lower := lower

/-! ## Derived conditions -/

structure DerivedFor (operationIndex : Nat) (operation : SchemaOperation)
    (derived : DerivedSafetyConditions OperationCondition) : Prop where
  policy : derived.policy = classifySchemaOperationSafety operation
  uniform : ∀ condition ∈ derived.conditions, condition.policy = derived.policy
  index : ∀ condition ∈ derived.conditions, condition.condition.operationIndex = operationIndex
  resolvable : ∀ condition ∈ derived.conditions,
      condition.isResolvable = condition.condition.condition.isResolvable
  free : derived.isConditionFree = true → derived.conditions = []
  complete : derived.policy = .conditional → derived.conditions = [] →
      derived.isConditionFree = true

variable {policy : SafetyClass} {conditions : List SafetyCondition}

theorem completeConditions_of_free : completeConditions policy true conditions = conditions := by
  simp [completeConditions]

theorem completeConditions_eq_nil {conditionFree : Bool}
    (empty : completeConditions .conditional conditionFree conditions = []) :
    conditionFree = true := by
  unfold completeConditions at empty
  split at empty
  · cases empty
  · rename_i complete
    cases conditionFree with
    | true => rfl
    | false => exact (complete ⟨rfl, empty, rfl⟩).elim

variable {compareSameDomain : CanonicalValue → CanonicalValue → Option Ordering}
  {operationIndex : Nat} {operation : SchemaOperation} {source target : DeclaredSchema codec}
  {profile : SemanticProfileId} {derived : DerivedSafetyConditions OperationCondition}

variable (run : deriveSafetyConditions compareSameDomain operationIndex operation source target
  profile = .ok derived)
include run

theorem deriveSafetyConditions_eq_ok : ∃ semantic conditions conditionFree,
      deriveOperationConditions compareSameDomain source.facts target.facts
          semantic
          (SafetyConditionDomainIndex.new source.facts target.facts)
          operation = .ok conditions ∧
        isConditionFree compareSameDomain (SafetyConditionDomainIndex.new source.facts target.facts)
          operation conditions = .ok conditionFree ∧
        derived = {
          policy := classifySchemaOperationSafety operation
          conditions :=
            (completeConditions (classifySchemaOperationSafety operation)
              conditionFree conditions).map (requiredCondition operationIndex
                  (classifySchemaOperationSafety operation))
          isConditionFree := conditionFree } := by
  unfold deriveSafetyConditions at run
  obtain ⟨_, -, run⟩ := bind_eq_ok.mp run
  obtain ⟨_, -, run⟩ := bind_eq_ok.mp run
  obtain ⟨semantic, -, run⟩ := bind_eq_ok.mp run
  obtain ⟨conditions, derivedConditions, run⟩ := bind_eq_ok.mp run
  obtain ⟨conditionFree, proven, run⟩ := bind_eq_ok.mp run
  rw [pure_eq_ok] at run
  exact ⟨semantic, conditions, conditionFree, derivedConditions, proven, run.symm⟩

theorem derivedFor_of_deriveSafetyConditions : DerivedFor operationIndex operation derived := by
  obtain ⟨semantic, conditions, conditionFree, -, proven, same⟩ := deriveSafetyConditions_eq_ok run
  subst same
  refine ⟨rfl, List.forall_mem_map.mpr fun _ _ => rfl, List.forall_mem_map.mpr fun _ _ => rfl,
    List.forall_mem_map.mpr fun _ _ => rfl, ?_, ?_⟩
  · intro isFree
    change conditionFree = true at isFree
    subst isFree
    unfold isConditionFree at proven
    split at proven
    · rename_i empty
      simp only [empty, completeConditions_of_free, List.map_nil]
    · cases proven
  · intro conditional empty
    change classifySchemaOperationSafety operation = .conditional at conditional
    simp only [conditional, List.map_eq_nil_iff] at empty
    exact completeConditions_eq_nil empty

omit run

/-! ## The scan -/

/-- The conditions that must be asserted. -/
def requiredOf (policy : SafetyClass)
    (conditions : List (RequiredSafetyCondition OperationCondition)) :
    List (RequiredSafetyCondition OperationCondition) :=
  if policy = .conditional then conditions else []

/-- The conditions that are asserted when destructive work is guarded too. -/
def guardsOf (policy : SafetyClass)
    (conditions : List (RequiredSafetyCondition OperationCondition)) :
    List (RequiredSafetyCondition OperationCondition) :=
  if policy = .conditional then conditions
  else if policy = .destructive then conditions.filter (·.isResolvable)
  else []

/-- Conditions of one class extend the scan by what the class asks for. -/
theorem scanConditions_eq_ok {scan next : CoverageScan OperationCondition}
    {requiresAssertion : Bool} {conditions : List (RequiredSafetyCondition OperationCondition)}
    (uniform : ∀ condition ∈ conditions, condition.policy = policy)
    (scanned : scanConditions scan conditions = .ok (next, requiresAssertion)) : next = { scan with
          required := scan.required ++ requiredOf policy conditions
          withDestructiveGuards := scan.withDestructiveGuards ++ guardsOf policy conditions } ∧
      (requiresAssertion = true → policy = .conditional ∧ conditions ≠ []) ∧
      (policy = .conditional → ∀ condition ∈ conditions, condition.isResolvable = true) := by
  induction conditions generalizing scan requiresAssertion with
  | nil =>
    cases scanned
    simp [requiredOf, guardsOf]
  | cons first rest ih =>
    have firstPolicy := uniform first (by simp)
    have restUniform : ∀ condition ∈ rest, condition.policy = policy :=
      fun condition member => uniform condition (by simp [member])
    unfold scanConditions at scanned
    rw [firstPolicy] at scanned
    cases policy with
    | conditional =>
      obtain ⟨resolvable, scanned⟩ := require_eq_ok.mp scanned
      obtain ⟨⟨reached, _⟩, restScanned, ended⟩ := bind_eq_ok.mp scanned
      cases ended
      obtain ⟨extended, -, allResolvable⟩ := ih restUniform restScanned
      refine ⟨?_, by simp, ?_⟩
      · rw [extended]
        simp [requiredOf, guardsOf]
      · intro _ condition member
        rcases List.mem_cons.mp member with isFirst | inRest
        · subst isFirst
          exact resolvable
        · exact allResolvable rfl condition inRest
    | destructive =>
      cases resolvable : first.isResolvable with
      | false | true =>
        simp only [resolvable, Bool.false_eq_true, ↓reduceIte] at scanned
        obtain ⟨extended, requires, -⟩ := ih restUniform scanned
        refine ⟨?_, fun required => ?_, by simp⟩
        · rw [extended]
          simp [requiredOf, guardsOf, resolvable]
        · cases (requires required).1
    | _ =>
      obtain ⟨extended, requires, -⟩ := ih restUniform scanned
      refine ⟨?_, fun required => ?_, by simp⟩
      · rw [extended]
        simp [requiredOf, guardsOf]
      · cases (requires required).1

def Resolves (derived : DerivedSafetyConditions OperationCondition) : Prop :=
  derived.policy = .conditional ∨
    derived.policy = .backfillRequired ∧ derived.isConditionFree = true

def ofOperation (operationIndex : Nat)
    (conditions : List (RequiredSafetyCondition OperationCondition)) :
    List (RequiredSafetyCondition OperationCondition) :=
  conditions.filter (·.condition.operationIndex = operationIndex)

section Scan

variable {rules : SafetyRules codec OperationCondition Body} {source target : DeclaredSchema codec}
  {profile : SemanticProfileId}

structure Scanned (rules : SafetyRules codec OperationCondition Body)
    (source target : DeclaredSchema codec) (profile : SemanticProfileId)
    (scannedEntries : List (SchemaOperation × Nat)) (scan : CoverageScan OperationCondition) :
    Prop where
  operations : ∀ entry ∈ scannedEntries, ∃ derived,
      rules.derive entry.2 entry.1 source target profile = .ok derived ∧
        (entry.2 ∈ scan.dischargedOperationIndices → Resolves derived) ∧
        (∃ safety, verifiedForwardSafety (rules.classify entry.1)
            (entry.2 ∈ scan.dischargedOperationIndices) = .ok safety) ∧
        (derived.policy = .conditional → (∀ condition ∈ derived.conditions,
            condition.isResolvable = true) ∧
          ofOperation entry.2 scan.required = derived.conditions ∧
          ofOperation entry.2 scan.withDestructiveGuards = derived.conditions)
  requiredBelow : ∀ condition ∈ scan.required,
      condition.condition.operationIndex ∈ scannedEntries.map Prod.snd
  guardsBelow : ∀ condition ∈ scan.withDestructiveGuards,
      condition.condition.operationIndex ∈ scannedEntries.map Prod.snd
  dischargedBelow : ∀ index ∈ scan.dischargedOperationIndices, index ∈ scannedEntries.map Prod.snd

variable {operationIndex : Nat}

theorem ofOperation_append_own {others own : List (RequiredSafetyCondition OperationCondition)}
    (fresh : ∀ condition ∈ others, condition.condition.operationIndex ≠ operationIndex)
    (indexed : ∀ condition ∈ own, condition.condition.operationIndex = operationIndex) :
    ofOperation operationIndex (others ++ own) = own := by
  unfold ofOperation
  rw [List.filter_append, List.filter_eq_nil_iff.mpr, List.nil_append, List.filter_eq_self.mpr]
  · simpa using indexed
  · simpa using fresh

theorem ofOperation_append_other {kept other : List (RequiredSafetyCondition OperationCondition)}
    (foreign : ∀ condition ∈ other, condition.condition.operationIndex ≠ operationIndex) :
    ofOperation operationIndex (kept ++ other) = ofOperation operationIndex kept := by
  have noneOwn : ofOperation operationIndex other = [] := by
    apply List.filter_eq_nil_iff.mpr
    simpa using foreign
  unfold ofOperation at noneOwn ⊢
  rw [List.filter_append, noneOwn, List.append_nil]

variable {policy : SafetyClass} {conditions : List (RequiredSafetyCondition OperationCondition)}
  {condition : RequiredSafetyCondition OperationCondition}

theorem mem_of_mem_requiredOf (member : condition ∈ requiredOf policy conditions) :
    condition ∈ conditions := by
  unfold requiredOf at member
  split at member
  · exact member
  · cases member

theorem mem_of_mem_guardsOf (member : condition ∈ guardsOf policy conditions) :
    condition ∈ conditions := by
  unfold guardsOf at member
  split at member
  · exact member
  · split at member
    · exact List.mem_of_mem_filter member
    · cases member

variable {scan next : CoverageScan OperationCondition} {entry : SchemaOperation × Nat}

theorem scanOperation_eq_ok (derives : ∀ derived,
        rules.derive entry.2 entry.1 source target profile = .ok derived →
          DerivedFor entry.2 entry.1 derived)
    (scanned : scanOperation rules source target profile scan entry = .ok next) :
    ∃ derived discharged safety, rules.derive entry.2 entry.1 source target profile = .ok derived ∧
        DerivedFor entry.2 entry.1 derived ∧
        (discharged = true → Resolves derived) ∧
        verifiedForwardSafety (rules.classify entry.1) discharged = .ok safety ∧
        (derived.policy = .conditional → ∀ condition ∈ derived.conditions,
            condition.isResolvable = true) ∧
        next.required = scan.required ++ requiredOf derived.policy derived.conditions ∧
        next.withDestructiveGuards = scan.withDestructiveGuards ++
            guardsOf derived.policy derived.conditions ∧
        next.dischargedOperationIndices = if discharged then
            scan.dischargedOperationIndices ++ [entry.2]
          else scan.dischargedOperationIndices := by
  obtain ⟨derived, derivation, scanned⟩ := bind_eq_ok.mp scanned
  obtain ⟨⟨reached, requiresAssertion⟩, conditionsScanned, scanned⟩ := bind_eq_ok.mp scanned
  obtain ⟨safety, forward, ended⟩ := bind_eq_ok.mp scanned
  rw [pure_eq_ok] at ended
  subst ended
  have known := derives derived derivation
  obtain ⟨extended, requires, resolvable⟩ := scanConditions_eq_ok known.uniform conditionsScanned
  subst extended
  refine ⟨derived, _, safety, derivation, known, ?_, forward, resolvable, rfl, rfl, rfl⟩
  intro discharged
  simp only [Bool.or_eq_true, decide_eq_true_eq, Bool.and_eq_true] at discharged
  rcases discharged with (required | conditional) | conditionFree
  · exact Or.inl (requires required).1
  · exact Or.inl conditional
  · exact Or.inr conditionFree

variable {scannedEntries : List (SchemaOperation × Nat)}

theorem Scanned.step
    (derives : ∀ derived, rules.derive entry.2 entry.1 source target profile = .ok derived →
          DerivedFor entry.2 entry.1 derived)
    (invariant : Scanned rules source target profile scannedEntries scan)
    (fresh : entry.2 ∉ scannedEntries.map Prod.snd)
    (scanned : scanOperation rules source target profile scan entry = .ok next) :
    Scanned rules source target profile (scannedEntries ++ [entry]) next := by
  obtain ⟨derived, discharged, safety, derivation, known, resolves, forward,
    resolvable, required, guards, indices⟩ := scanOperation_eq_ok derives scanned
  have ownRequired : ∀ condition ∈ requiredOf derived.policy derived.conditions,
        condition.condition.operationIndex = entry.2 := fun condition member =>
      known.index condition (mem_of_mem_requiredOf member)
  have ownGuards : ∀ condition ∈ guardsOf derived.policy derived.conditions,
        condition.condition.operationIndex = entry.2 := fun condition member =>
      known.index condition (mem_of_mem_guardsOf member)
  have dischargedIff : ∀ index, index ∈ next.dischargedOperationIndices ↔
          index ∈ scan.dischargedOperationIndices ∨ discharged = true ∧ index = entry.2 := by
    intro index
    rw [indices]
    cases discharged with
    | true => simp
    | false => simp
  have notYet : entry.2 ∉ scan.dischargedOperationIndices :=
    fun member => fresh (invariant.dischargedBelow _ member)
  refine ⟨?_, ?_, ?_, ?_⟩
  · intro other member
    rcases List.mem_append.mp member with earlier | isEntry
    · -- An earlier operation keeps its conditions and its discharge.
      obtain ⟨otherDerived, otherDerivation, otherResolves, otherForward,
        otherConditions⟩ := invariant.operations other earlier
      have different : other.2 ≠ entry.2 := by
        intro same
        exact fresh (same ▸ List.mem_map_of_mem earlier)
      have sameDischarge : other.2 ∈ next.dischargedOperationIndices ↔
            other.2 ∈ scan.dischargedOperationIndices := by
        rw [dischargedIff]
        simp [different]
      refine ⟨otherDerived, otherDerivation, ?_, ?_, ?_⟩
      · intro isDischarged
        exact otherResolves (sameDischarge.mp isDischarged)
      · simp only [sameDischarge]
        exact otherForward
      · intro conditional
        obtain ⟨allResolvable, ofRequired, ofGuards⟩ := otherConditions conditional
        refine ⟨allResolvable, ?_, ?_⟩
        · rw [required, ofOperation_append_other, ofRequired]
          intro condition isOwn same
          exact different (same.symm.trans (ownRequired condition isOwn))
        · rw [guards, ofOperation_append_other, ofGuards]
          intro condition isOwn same
          exact different (same.symm.trans (ownGuards condition isOwn))
    · rw [List.mem_singleton] at isEntry
      subst isEntry
      have sameDischarge : other.2 ∈ next.dischargedOperationIndices ↔ discharged = true := by
        rw [dischargedIff]
        simp [notYet]
      refine ⟨derived, derivation, ?_, ⟨safety, ?_⟩, ?_⟩
      · intro isDischarged
        exact resolves (sameDischarge.mp isDischarged)
      · simp only [sameDischarge, Bool.decide_eq_true]
        exact forward
      · intro conditional
        refine ⟨resolvable conditional, ?_, ?_⟩
        · rw [required, ofOperation_append_own ?_ ownRequired]
          · simp [requiredOf, conditional]
          · intro condition earlier same
            exact fresh (same ▸ invariant.requiredBelow condition earlier)
        · rw [guards, ofOperation_append_own ?_ ownGuards]
          · simp [guardsOf, conditional]
          · intro condition earlier same
            exact fresh (same ▸ invariant.guardsBelow condition earlier)
  · intro condition member
    rw [required] at member
    rw [List.map_append, List.mem_append]
    rcases List.mem_append.mp member with earlier | isOwn
    · exact Or.inl (invariant.requiredBelow condition earlier)
    · exact Or.inr (by simp [ownRequired condition isOwn])
  · intro condition member
    rw [guards] at member
    rw [List.map_append, List.mem_append]
    rcases List.mem_append.mp member with earlier | isOwn
    · exact Or.inl (invariant.guardsBelow condition earlier)
    · exact Or.inr (by simp [ownGuards condition isOwn])
  · intro index member
    rw [List.map_append, List.mem_append]
    rcases (dischargedIff index).mp member with earlier | isOwn
    · exact Or.inl (invariant.dischargedBelow index earlier)
    · exact Or.inr (by simp [isOwn.2])

theorem scanned_of_foldlM {entries : List (SchemaOperation × Nat)}
    {result : CoverageScan OperationCondition} (derives : ∀ entry ∈ entries, ∀ derived,
        rules.derive entry.2 entry.1 source target profile = .ok derived →
          DerivedFor entry.2 entry.1 derived)
    (distinct : ((scannedEntries ++ entries).map Prod.snd).Nodup)
    (invariant : Scanned rules source target profile scannedEntries scan)
    (run : entries.foldlM (scanOperation rules source target profile) scan = .ok result) :
    Scanned rules source target profile (scannedEntries ++ entries) result := by
  induction entries generalizing scannedEntries scan with
  | nil =>
    cases run
    rw [List.append_nil]
    exact invariant
  | cons first rest ih =>
    obtain ⟨middle, scanned, run⟩ := foldlM_cons_eq_ok.mp run
    have fresh : first.2 ∉ scannedEntries.map Prod.snd := by
      rw [List.map_append, List.nodup_append] at distinct
      intro member
      exact distinct.2.2 first.2 member first.2 (by simp) rfl
    have stepped := invariant.step (derives first (by simp)) fresh scanned
    have shape : scannedEntries ++ first :: rest = (scannedEntries ++ [first]) ++ rest := by simp
    rw [shape] at distinct ⊢
    exact ih (fun entry member => derives entry (by simp [member]))
      distinct stepped run

end Scan

/-! ## Verified coverage -/

section Verified

variable [DecidableEq Digest] [DecidableEq Body] {source target : DeclaredSchema codec}
  {profile : SemanticProfileId} {assertions : List (MigrationAssertionPlan Body)}
  {delta : SchemaDelta Digest} {coverage : VerifiedAssertionCoverage Body} {Condition : Type}
  {rules : SafetyRules codec Condition Body}

theorem verifyAssertionCoverage_eq_ok
    (covered : verifyAssertionCoverage rules assertions delta source target profile = .ok coverage) :
    ∃ scan expected, delta.operations.zipIdx.foldlM (scanOperation rules source target profile)
          ⟨[], [], [], .formalOnly⟩ = .ok scan ∧ expected.length = assertions.length ∧
        (expected = scan.required ∨ expected = scan.withDestructiveGuards) ∧
        validateAssertions rules source delta.source assertions expected = .ok coverage.validated ∧
        coverage.dischargedOperationIndices = scan.dischargedOperationIndices := by
  unfold verifyAssertionCoverage at covered
  obtain ⟨scan, scanned, covered⟩ := bind_eq_ok.mp covered
  refine ⟨scan, ?_⟩
  -- All accepted branches validate the assertions the same way.
  have finish : ∀ expected : List (RequiredSafetyCondition Condition), (do
          let _ ← resolveSchemaWithCapabilities source profile builtinSchemaCapabilities
          let validated ← validateAssertions rules source delta.source assertions expected
          return (⟨scan.dischargedOperationIndices, scan.effectiveSafety,
            validated⟩ : VerifiedAssertionCoverage Body)) = .ok coverage →
          validateAssertions rules source delta.source assertions expected =
              .ok coverage.validated ∧ coverage.dischargedOperationIndices =
              scan.dischargedOperationIndices := by
    intro expected run
    obtain ⟨_, -, run⟩ := bind_eq_ok.mp run
    obtain ⟨validated, isValidated, run⟩ := bind_eq_ok.mp run
    cases run
    exact ⟨isValidated, rfl⟩
  split at covered
  · rename_i noAssertions
    split at covered
    · rename_i nothingRequired
      rw [List.isEmpty_iff] at nothingRequired
      exact ⟨[], scanned, by rw [noAssertions]; rfl, Or.inl nothingRequired.symm, finish [] covered⟩
    · cases covered
  · split at covered
    · rename_i sameLength
      exact ⟨_, scanned, sameLength.symm, Or.inl rfl, finish _ covered⟩
    · split at covered
      · rename_i sameLength
        exact ⟨_, scanned, sameLength.symm, Or.inr rfl, finish _ covered⟩
      · split at covered
        · cases covered
        · cases covered

omit [DecidableEq Digest] in
theorem validateAssertions_eq_ok {state : ManagedSchemaState Digest}
    {expected : List (RequiredSafetyCondition Condition)}
    {validated : List (MigrationAssertionPlan Body)}
    (run : validateAssertions rules source state assertions expected = .ok validated)
    (sameLength : expected.length = assertions.length) :
    validated = assertions ∧ List.Forall₂ (fun condition assertion =>
          rules.lower condition source state = .ok assertion) expected assertions := by
  induction assertions generalizing expected validated with
  | nil =>
    rw [List.length_nil, List.length_eq_zero_iff] at sameLength
    subst sameLength
    cases run
    exact ⟨rfl, .nil⟩
  | cons first rest ih =>
    cases expected with
    | nil => cases sameLength
    | cons condition others =>
      obtain ⟨plan, plans, compared, restRun, rfl⟩ :=
        List.forall₂_cons_left_iff.mp (mapM_eq_ok.mp run)
      obtain ⟨lowered, lowers, compared⟩ := bind_eq_ok.mp compared
      obtain ⟨sameRest, lowersRest⟩ := ih (mapM_eq_ok.mpr restRun) (Nat.succ.inj sameLength)
      split at compared
      · cases compared
      · rename_i same
        rw [not_ne_iff] at same
        cases compared
        change first = plan at same
        subst same
        exact ⟨by rw [sameRest], .cons lowers lowersRest⟩

theorem length_validated
    (covered : verifyAssertionCoverage rules assertions delta source target profile = .ok coverage) :
    coverage.validated.length = assertions.length := by
  obtain ⟨_, expected, -, sameLength, -, validated, -⟩ := verifyAssertionCoverage_eq_ok covered
  rw [(validateAssertions_eq_ok validated sameLength).1]

variable {compareSameDomain : CanonicalValue → CanonicalValue → Option Ordering}
  {lower : RequiredSafetyCondition OperationCondition → DeclaredSchema codec →
    ManagedSchemaState Digest → Except Diagnostic (MigrationAssertionPlan Body)}

/-- What coverage says about the operation at one position. -/
structure CoveredOperation (discharged : List Nat)
    (expected : List (RequiredSafetyCondition OperationCondition)) (operationIndex : Nat)
    (operation : SchemaOperation) (derived : DerivedSafetyConditions OperationCondition) :
    Prop where
  derivedFor : DerivedFor operationIndex operation derived
  resolves : operationIndex ∈ discharged → Resolves derived
  forward : ∃ safety, verifiedForwardSafety (classifySchemaOperationSafety operation)
        (operationIndex ∈ discharged) = .ok safety
  asserted : derived.policy = .conditional →
      (∀ condition ∈ derived.conditions, condition.isResolvable = true) ∧
        ofOperation operationIndex expected = derived.conditions

theorem exists_coveredOperations
    (covered : verifyAssertionCoverage (schemaSafetyRules compareSameDomain lower)
        assertions delta source target profile = .ok coverage) :
    ∃ expected, List.Forall₂ (fun condition assertion =>
            lower condition source delta.source = .ok assertion) expected assertions ∧
        ∀ operationIndex operation, delta.operations[operationIndex]? = some operation → ∃ derived,
            deriveSafetyConditions compareSameDomain operationIndex operation
                source target profile = .ok derived ∧
              CoveredOperation coverage.dischargedOperationIndices expected
                operationIndex operation derived := by
  obtain ⟨scan, expected, run, sameLength, isExpected, validated, indices⟩ :=
    verifyAssertionCoverage_eq_ok covered
  refine ⟨expected, (validateAssertions_eq_ok validated sameLength).2, ?_⟩
  have started : Scanned (schemaSafetyRules compareSameDomain lower) source target
        profile [] ⟨[], [], [], .formalOnly⟩ := ⟨by simp, by simp, by simp, by simp⟩
  have derives : ∀ entry ∈ delta.operations.zipIdx, ∀ derived,
        (schemaSafetyRules compareSameDomain lower).derive entry.2 entry.1
            source target profile = .ok derived → DerivedFor entry.2 entry.1 derived :=
    fun entry _ derived derivation => derivedFor_of_deriveSafetyConditions derivation
  have distinct : (([] ++ delta.operations.zipIdx).map Prod.snd).Nodup := by
    rw [List.nil_append, List.zipIdx_map_snd]
    exact List.nodup_range'
  have finished := scanned_of_foldlM derives distinct started run
  intro operationIndex operation found
  obtain ⟨derived, derivation, resolves, forward, conditions⟩ :=
    finished.operations (operation, operationIndex) (by
      rw [List.nil_append]
      exact List.mem_zipIdx_iff_getElem?.mpr found)
  refine ⟨derived, derivation, derivedFor_of_deriveSafetyConditions derivation, ?_, ?_, ?_⟩
  · rw [indices]
    exact resolves
  · rw [indices]
    exact forward
  · intro conditional
    obtain ⟨resolvable, ofRequired, ofGuards⟩ := conditions conditional
    refine ⟨resolvable, ?_⟩
    rcases isExpected with isRequired | isGuards
    · rw [isRequired]
      exact ofRequired
    · rw [isGuards]
      exact ofGuards

end Verified

end TypeBridge.Migration
