import TypeBridge.Library.Checked
import TypeBridge.Library.Worklist

namespace TypeBridge.Orm

open Library

/-!
# Topology of match requests

A match request is refused if its bindings are not connected by the atoms that hold whichever
branch of each disjunction is taken, or by a permitted cross join. The validator never takes a
branch: it intersects the edges of the branches on the way up.

Only what the topology depends on is kept of an atom, namely the bindings it mentions. The checks
of versions, limits, descriptors and operations are the three parameters of `MatchChecks`.
-/

/-- The position of a binding in its plan. -/
abbrev BindingId := Nat

/-- Two bindings that must hold together, the smaller first. -/
abbrev Edge := BindingId × BindingId

inductive MatchFunctionArgument where
  | binding (binding : BindingId)
  | value
  | call (arguments : List MatchFunctionArgument)

inductive MatchScalarOperand where
  | field (binding : BindingId)
  | value
  | function (arguments : List MatchFunctionArgument)

/-- The leaves of match expressions. -/
inductive MatchAtom where
  | fieldValue (binding : BindingId)
  | fieldPresence (binding : BindingId)
  | bindingIid (binding : BindingId)
  | fieldComparison (left right : BindingId)
  | scalarComparison (left right : MatchScalarOperand)
  | roleEdge (relation player : BindingId)
  | reachable (source target : BindingId)

inductive MatchExpr where
  | atom (atom : MatchAtom)
  | and (expressions : List MatchExpr)
  | or (expressions : List MatchExpr)
  | not (expression : MatchExpr)

/-! ## Edges -/

def canonicalEdge (left right : BindingId) : Edge :=
  if left ≤ right then (left, right) else (right, left)

mutual

def collectFunctionCallBindings : List MatchFunctionArgument → Finset BindingId
  | [] => ∅
  | argument :: rest => collectArgumentBindings argument ∪ collectFunctionCallBindings rest

def collectArgumentBindings : MatchFunctionArgument → Finset BindingId
  | .binding binding => {binding}
  | .value => ∅
  | .call arguments => collectFunctionCallBindings arguments

end

def collectScalarOperandBindings : MatchScalarOperand → Finset BindingId
  | .field binding => {binding}
  | .value => ∅
  | .function arguments => collectFunctionCallBindings arguments

namespace MatchAtom

def bindings : MatchAtom → Finset BindingId
  | .fieldValue binding | .fieldPresence binding | .bindingIid binding => {binding}
  | .fieldComparison left right => {left, right}
  | .scalarComparison left right =>
      collectScalarOperandBindings left ∪ collectScalarOperandBindings right
  | .roleEdge relation player => {relation, player}
  | .reachable source target => {source, target}

def edges : MatchAtom → Finset Edge
  | .fieldValue _ | .fieldPresence _ | .bindingIid _ => ∅
  | .fieldComparison left right => {canonicalEdge left right}
  | .scalarComparison left right =>
      let bindings := collectScalarOperandBindings left ∪ collectScalarOperandBindings right
      (bindings ×ˢ bindings).filter fun edge => edge.1 < edge.2
  | .roleEdge relation player => {canonicalEdge relation player}
  | .reachable source target => {canonicalEdge source target}

end MatchAtom

mutual

/-- The edges that hold whichever branches are taken. -/
def definitePositiveEdges : MatchExpr → Bool → Finset Edge
  | _, true => ∅
  | .atom atom, false => atom.edges
  | .and expressions, false => definiteUnion expressions
  | .or expressions, false => definiteCommon none expressions
  | .not expression, false => definitePositiveEdges expression true

/-- A conjunction has the edges of all its parts. -/
def definiteUnion : List MatchExpr → Finset Edge
  | [] => ∅
  | expression :: rest => definitePositiveEdges expression false ∪ definiteUnion rest

def definiteCommon : Option (Finset Edge) → List MatchExpr → Finset Edge
  | none, [] => ∅
  | some common, [] => common
  | none, first :: rest => definiteCommon (some (definitePositiveEdges first false)) rest
  | some common, expression :: rest =>
      definiteCommon (some (common ∩ definitePositiveEdges expression false)) rest

end

/-! ## Validation -/

/-- Why a request is refused. -/
inductive MatchError where
  | disconnectedPlan (unreachable : List BindingId)
  | other (code : String)

structure MatchRequest where
  bindings : List BindingId
  predicate : Option MatchExpr
  allowedCrossJoins : List Edge

structure MatchChecks where
  structural : MatchRequest → Except String Unit
  expression : MatchRequest → Except String Unit
  operation : MatchRequest → Except String Unit

mutual

/-- Conjunctions and disjunctions are not empty. -/
def inspectPredicateStructure : MatchExpr → Bool
  | .atom _ => true
  | .and expressions | .or expressions => !expressions.isEmpty && inspectExpressions expressions
  | .not expression => inspectPredicateStructure expression

/-- The same of every part. -/
def inspectExpressions : List MatchExpr → Bool
  | [] => true
  | expression :: rest => inspectPredicateStructure expression && inspectExpressions rest

end

mutual

def validateExprNode (declared : Finset BindingId) : MatchExpr → Bool
  | .atom atom => atom.bindings ⊆ declared
  | .and expressions | .or expressions => validateExprNodes declared expressions
  | .not expression => validateExprNode declared expression

/-- The same of every part. -/
def validateExprNodes (declared : Finset BindingId) : List MatchExpr → Bool
  | [] => true
  | expression :: rest => validateExprNode declared expression && validateExprNodes declared rest

end

def neighbors (edges : Finset Edge) (binding : BindingId) : List BindingId :=
  (List.range ((edges.sup fun edge => max edge.1 edge.2) + 1)).filter fun other =>
    (binding, other) ∈ edges ∨ (other, binding) ∈ edges

namespace MatchRequest

/-- The edges the validator searches along. -/
def positiveEdges (request : MatchRequest) : Finset Edge :=
  (request.predicate.elim ∅ (definitePositiveEdges · false)) ∪ request.allowedCrossJoins.toFinset

/-- Everything an edge or the plan mentions. -/
def knownBindings (request : MatchRequest) : Finset BindingId :=
  request.bindings.toFinset ∪ request.positiveEdges.image Prod.fst ∪
    request.positiveEdges.image Prod.snd

/-- The bindings found from the first one. The order in which they are taken does not matter. -/
def visited (request : MatchRequest) : Except MatchError (Finset BindingId) :=
  Worklist.closure (fun binding => .ok (neighbors request.positiveEdges binding))
    (Worklist.rounds (neighbors request.positiveEdges) request.knownBindings
      request.bindings.head?.toList ∅ + 1) request.bindings.head?.toList ∅

/-- Refuse a plan whose bindings are not all found from the first one. -/
def validateTopology (request : MatchRequest) : Except MatchError Unit := do
  if request.bindings.length ≤ 1 then pure ()
  else
    let visited ← request.visited
    if visited.card ≠ request.bindings.length then
      throw (.disconnectedPlan (request.bindings.filter (· ∉ visited)))
    else pure ()

def crossJoinFailure (request : MatchRequest) (pair : Edge) : Option String :=
  if pair.2 ≤ pair.1 then some "non_canonical_cross_join"
  else if pair.1 ∈ request.bindings ∧ pair.2 ∈ request.bindings then none
  else some "unknown_binding"

/-- Check identities, cross joins and the shape of the predicate. -/
def validateVersionAndStructure (checks : MatchChecks) (request : MatchRequest) :
    Except String Unit := do
  checks.structural request
  Checked.ensure (request.bindings ≠ []) "empty_bindings"
  Checked.ensure (request.bindings = List.range request.bindings.length)
    "non_canonical_binding_id"
  (request.allowedCrossJoins.findSome? request.crossJoinFailure).elim (.ok ()) .error
  Checked.ensure (request.predicate.all inspectPredicateStructure) "empty_boolean_expression"

/-- Check the predicate against the descriptors of the bindings. -/
def validateExpression (checks : MatchChecks) (request : MatchRequest) : Except String Unit := do
  checks.expression request
  Checked.ensure (request.predicate.all (validateExprNode request.bindings.toFinset))
    "unknown_binding"

def validate (checks : MatchChecks) (request : MatchRequest) : Except MatchError Unit := do
  (request.validateVersionAndStructure checks).mapError .other
  (request.validateExpression checks).mapError .other
  request.validateTopology
  (checks.operation request).mapError .other

end MatchRequest

/-! ## Choices of branches -/

mutual

/-- The edges of every way to take one branch of each positive disjunction. -/
def choices : MatchExpr → List (Finset Edge)
  | .atom atom => [atom.edges]
  | .and expressions => choicesOfAll expressions
  | .or expressions => choicesOfAny expressions
  | .not _ => [∅]

/-- The choices of a conjunction: one for every part. -/
def choicesOfAll : List MatchExpr → List (Finset Edge)
  | [] => [∅]
  | expression :: rest =>
      (choices expression).flatMap fun chosen => (choicesOfAll rest).map (chosen ∪ ·)

/-- The choices of a disjunction: those of its branches. -/
def choicesOfAny : List MatchExpr → List (Finset Edge)
  | [] => []
  | expression :: rest => choices expression ++ choicesOfAny rest

end

def MatchRequest.choices (request : MatchRequest) : List (Finset Edge) :=
  request.predicate.elim [∅] Orm.choices

mutual

theorem mem_definitePositiveEdges : ∀ expression : MatchExpr,
    inspectPredicateStructure expression = true →
      choices expression ≠ [] ∧ ∀ edge, edge ∈ definitePositiveEdges expression false ↔
        ∀ chosen ∈ choices expression, edge ∈ chosen
  | .atom atom, _ => by simp [choices, definitePositiveEdges]
  | .and expressions, inspected => by
    simp only [inspectPredicateStructure, Bool.and_eq_true] at inspected
    simpa only [choices, definitePositiveEdges] using mem_definiteUnion expressions inspected.2
  | .or [], inspected => by simp [inspectPredicateStructure] at inspected
  | .or (first :: rest), inspected => by
    simp only [inspectPredicateStructure, inspectExpressions, Bool.and_eq_true] at inspected
    obtain ⟨nonempty, definite⟩ := mem_definitePositiveEdges first inspected.2.1
    refine ⟨by simp [choices, choicesOfAny, nonempty], fun edge => ?_⟩
    simp only [definitePositiveEdges, definiteCommon, choices, choicesOfAny,
      mem_definiteCommon rest inspected.2.2, definite, List.mem_append, or_imp, forall_and]
  | .not _, _ => by simp [choices, definitePositiveEdges]

theorem mem_definiteUnion : ∀ expressions : List MatchExpr, inspectExpressions expressions = true →
      choicesOfAll expressions ≠ [] ∧ ∀ edge, edge ∈ definiteUnion expressions ↔
        ∀ chosen ∈ choicesOfAll expressions, edge ∈ chosen
  | [], _ => by simp [choicesOfAll, definiteUnion]
  | expression :: rest, inspected => by
    rw [inspectExpressions, Bool.and_eq_true] at inspected
    obtain ⟨firstNonempty, first⟩ := mem_definitePositiveEdges expression inspected.1
    obtain ⟨restNonempty, others⟩ := mem_definiteUnion rest inspected.2
    constructor
    · simp only [choicesOfAll, ne_eq, List.flatMap_eq_nil_iff, List.map_eq_nil_iff,
        restNonempty, imp_false, not_forall, not_not]
      exact List.exists_mem_of_ne_nil _ firstNonempty
    · intro edge
      simp only [definiteUnion, choicesOfAll, Finset.mem_union, first, others,
        List.mem_flatMap, List.mem_map]
      constructor
      · rintro holds _ ⟨chosen, isChosen, other, isOther, rfl⟩
        exact Finset.mem_union.mpr (holds.imp (· chosen isChosen) (· other isOther))
      · intro holds
        -- If some choice of the first part lacks the edge, every choice of the rest has it.
        by_contra neither
        push Not at neither
        obtain ⟨⟨chosen, isChosen, lacks⟩, other, isOther, otherLacks⟩ := neither
        have either := holds _ ⟨chosen, isChosen, other, isOther, rfl⟩
        exact (Finset.mem_union.mp either).elim lacks otherLacks

theorem mem_definiteCommon : ∀ expressions : List MatchExpr,
    inspectExpressions expressions = true → ∀ (common : Finset Edge) (edge : Edge),
      edge ∈ definiteCommon (some common) expressions ↔
        edge ∈ common ∧ ∀ chosen ∈ choicesOfAny expressions, edge ∈ chosen
  | [], _ => by simp [choicesOfAny, definiteCommon]
  | expression :: rest, inspected => by
    rw [inspectExpressions, Bool.and_eq_true] at inspected
    intro common edge
    simp only [definiteCommon, choicesOfAny, mem_definiteCommon rest inspected.2,
      Finset.mem_inter, (mem_definitePositiveEdges expression inspected.1).2, List.mem_append,
      or_imp, forall_and, and_assoc]

end

/-! ## The bindings an operand mentions -/

/-- A binding stands in an argument, at any depth of calls. -/
inductive MatchFunctionArgument.Mentions (binding : BindingId) : MatchFunctionArgument → Prop where
  | here : Mentions binding (.binding binding)
  | within {argument : MatchFunctionArgument} {arguments : List MatchFunctionArgument}
      (listed : argument ∈ arguments) (inside : argument.Mentions binding) :
      Mentions binding (.call arguments)

def MatchScalarOperand.Mentions (binding : BindingId) : MatchScalarOperand → Prop
  | .field other => binding = other
  | .value => False
  | .function arguments => ∃ argument ∈ arguments, argument.Mentions binding

mutual

theorem mem_collectFunctionCallBindings {binding : BindingId} :
    ∀ arguments, binding ∈ collectFunctionCallBindings arguments ↔
      ∃ argument ∈ arguments, argument.Mentions binding
  | [] => by simp [collectFunctionCallBindings]
  | argument :: rest => by
    simp [collectFunctionCallBindings, mem_collectArgumentBindings argument,
      mem_collectFunctionCallBindings rest]

theorem mem_collectArgumentBindings {binding : BindingId} :
    ∀ argument, binding ∈ collectArgumentBindings argument ↔ argument.Mentions binding
  | .binding other => by
    rw [collectArgumentBindings, Finset.mem_singleton]
    exact ⟨fun same => same ▸ .here, fun mentions => by cases mentions; rfl⟩
  | .value => by
    simp only [collectArgumentBindings, Finset.notMem_empty, false_iff]
    nofun
  | .call arguments => by
    rw [collectArgumentBindings, mem_collectFunctionCallBindings arguments]
    constructor
    · rintro ⟨argument, listed, inside⟩
      exact .within listed inside
    · rintro (_ | ⟨listed, inside⟩)
      exact ⟨_, listed, inside⟩

end

theorem mem_collectScalarOperandBindings {binding : BindingId} {operand : MatchScalarOperand} :
    binding ∈ collectScalarOperandBindings operand ↔ operand.Mentions binding := by
  cases operand <;> simp [collectScalarOperandBindings, MatchScalarOperand.Mentions,
    mem_collectFunctionCallBindings]

/-- A scalar comparison links every two bindings that its operands mention. -/
theorem mem_edges_scalarComparison {left right : MatchScalarOperand} {edge : Edge} :
    edge ∈ (MatchAtom.scalarComparison left right).edges ↔
      edge.1 < edge.2 ∧
        (left.Mentions edge.1 ∨ right.Mentions edge.1) ∧
        (left.Mentions edge.2 ∨ right.Mentions edge.2) := by
  simp only [MatchAtom.edges, Finset.mem_filter, Finset.mem_product, Finset.mem_union,
    mem_collectScalarOperandBindings]
  exact and_comm

theorem MatchAtom.edges_spec {atom : MatchAtom} {edge : Edge} (isEdge : edge ∈ atom.edges) :
    edge.1 ∈ atom.bindings ∧ edge.2 ∈ atom.bindings := by
  have canonical : ∀ left right : BindingId,
      (canonicalEdge left right).1 ∈ ({left, right} : Finset BindingId) ∧
        (canonicalEdge left right).2 ∈ ({left, right} : Finset BindingId) := by
    intro left right
    unfold canonicalEdge
    split_ifs <;> simp
  cases atom with
  | fieldValue _ | fieldPresence _ | bindingIid _ => simp [edges] at isEdge
  | scalarComparison left right =>
    simp only [bindings, Finset.mem_union, mem_collectScalarOperandBindings]
    exact (mem_edges_scalarComparison.mp isEdge).2
  | fieldComparison left right | roleEdge left right | reachable left right =>
    rw [edges, Finset.mem_singleton] at isEdge
    exact isEdge ▸ canonical left right

mutual

variable {declared : Finset BindingId}

theorem choices_spec : ∀ expression : MatchExpr,
    validateExprNode declared expression = true → ∀ chosen ∈ choices expression,
      ∀ edge ∈ chosen, edge.1 ∈ declared ∧ edge.2 ∈ declared
  | .atom atom, validated => by
    simp only [choices, List.mem_singleton, forall_eq]
    intro edge isEdge
    simp only [validateExprNode, decide_eq_true_eq] at validated
    exact (MatchAtom.edges_spec isEdge).imp (@validated _) (@validated _)
  | .and expressions, validated => by
    simp only [validateExprNode] at validated
    simpa only [choices] using choicesOfAll_spec expressions validated
  | .or expressions, validated => by
    simp only [validateExprNode] at validated
    simpa only [choices] using choicesOfAny_spec expressions validated
  | .not _, _ => by simp [choices]

theorem choicesOfAll_spec : ∀ expressions : List MatchExpr,
    validateExprNodes declared expressions = true → ∀ chosen ∈ choicesOfAll expressions,
      ∀ edge ∈ chosen, edge.1 ∈ declared ∧ edge.2 ∈ declared
  | [], _ => by simp [choicesOfAll]
  | expression :: rest, validated => by
    rw [validateExprNodes, Bool.and_eq_true] at validated
    simp only [choicesOfAll, List.mem_flatMap, List.mem_map]
    rintro _ ⟨chosen, isChosen, other, isOther, rfl⟩ edge isEdge
    rcases Finset.mem_union.mp isEdge with inFirst | inRest
    · exact choices_spec expression validated.1 chosen isChosen edge inFirst
    · exact choicesOfAll_spec rest validated.2 other isOther edge inRest

theorem choicesOfAny_spec : ∀ expressions : List MatchExpr,
    validateExprNodes declared expressions = true → ∀ chosen ∈ choicesOfAny expressions,
      ∀ edge ∈ chosen, edge.1 ∈ declared ∧ edge.2 ∈ declared
  | [], _ => by simp [choicesOfAny]
  | expression :: rest, validated => by
    rw [validateExprNodes, Bool.and_eq_true] at validated
    simp only [choicesOfAny, List.mem_append]
    rintro chosen (isFirst | inRest)
    · exact choices_spec expression validated.1 chosen isFirst
    · exact choicesOfAny_spec rest validated.2 chosen inRest

end

/-! ## Connected requests -/

def Linked (edges : Finset Edge) (left right : BindingId) : Prop :=
  (left, right) ∈ edges ∨ (right, left) ∈ edges

/-- Any two of the bindings are joined by a chain of edges. -/
def Connected (bindings : List BindingId) (edges : Finset Edge) : Prop :=
  ∀ left ∈ bindings, ∀ right ∈ bindings, Relation.ReflTransGen (Linked edges) left right

namespace MatchRequest

variable {checks : MatchChecks} {request : MatchRequest}

/-- Joined by an edge of every choice, or permitted as a cross join. -/
def Joined (request : MatchRequest) (left right : BindingId) : Prop :=
  (∀ chosen ∈ request.choices, canonicalEdge left right ∈ chosen) ∨
    canonicalEdge left right ∈ request.allowedCrossJoins

/-- What the checks before the topology establish. -/
structure WellFormed (request : MatchRequest) : Prop where
  dense : request.bindings = List.range request.bindings.length
  nonempty : request.bindings ≠ []
  joins : ∀ pair ∈ request.allowedCrossJoins, pair.1 ∈ request.bindings ∧ pair.2 ∈ request.bindings
  inspected : ∀ predicate ∈ request.predicate, inspectPredicateStructure predicate = true
  declared : ∀ predicate ∈ request.predicate,
    validateExprNode request.bindings.toFinset predicate = true

theorem wellFormed_of_validated (structural : request.validateVersionAndStructure checks = .ok ())
    (expression : request.validateExpression checks = .ok ()) : request.WellFormed := by
  obtain ⟨_, -, structural⟩ := Checked.bind_eq_ok.mp structural
  obtain ⟨_, nonempty, structural⟩ := Checked.bind_eq_ok.mp structural
  obtain ⟨_, dense, structural⟩ := Checked.bind_eq_ok.mp structural
  obtain ⟨_, joins, inspected⟩ := Checked.bind_eq_ok.mp structural
  obtain ⟨_, -, declared⟩ := Checked.bind_eq_ok.mp expression
  rw [Checked.ensure_eq_ok, Option.all_eq_true] at inspected declared
  have permitted : request.allowedCrossJoins.findSome? request.crossJoinFailure = none := by
    cases found : request.allowedCrossJoins.findSome? request.crossJoinFailure with
    | none => rfl
    | some code => simp [found] at joins
  refine ⟨Checked.ensure_eq_ok.mp dense, Checked.ensure_eq_ok.mp nonempty, ?_,
    fun predicate isPredicate => inspected predicate isPredicate,
    fun predicate isPredicate => declared predicate isPredicate⟩
  intro pair isPair
  have passed := List.findSome?_eq_none_iff.mp permitted pair isPair
  unfold crossJoinFailure at passed
  split_ifs at passed with ordered inside
  exact inside

theorem validate_eq_validateTopology
    (decided : ∀ code, request.validate checks ≠ .error (.other code)) :
    request.WellFormed ∧ request.validate checks = request.validateTopology := by
  unfold validate at decided ⊢
  cases structural : request.validateVersionAndStructure checks with
  | error code => exact absurd (by rw [structural]; rfl) (decided code)
  | ok _ =>
    cases expression : request.validateExpression checks with
    | error code => exact absurd (by rw [structural, expression]; rfl) (decided code)
    | ok _ =>
      refine ⟨wellFormed_of_validated structural expression, ?_⟩
      rw [structural, expression] at decided
      cases topology : request.validateTopology with
      | error _ => rfl
      | ok _ =>
        rw [topology] at decided
        cases operation : checks.operation request with
        | error code => exact absurd (by rw [operation]; rfl) (decided code)
        | ok _ => rfl

variable {left right : BindingId}

theorem mem_neighbors {edges : Finset Edge} :
    right ∈ neighbors edges left ↔ Linked edges left right := by
  have bounded : ∀ edge ∈ edges, max edge.1 edge.2 ≤ edges.sup fun edge => max edge.1 edge.2 :=
    fun _ isEdge => Finset.le_sup isEdge (f := fun edge : Edge => max edge.1 edge.2)
  simp only [neighbors, List.mem_filter, List.mem_range, decide_eq_true_eq, Linked,
    and_iff_right_iff_imp]
  rintro (forth | back)
  · exact Nat.lt_succ_of_le ((le_max_right _ _).trans (bounded _ forth))
  · exact Nat.lt_succ_of_le ((le_max_left _ _).trans (bounded _ back))

variable (wellFormed : request.WellFormed)
include wellFormed

theorem WellFormed.choices_spec : ∀ chosen ∈ request.choices, ∀ edge ∈ chosen,
      edge.1 ∈ request.bindings ∧ edge.2 ∈ request.bindings := by
  unfold MatchRequest.choices
  cases given : request.predicate with
  | none => simp
  | some predicate => simpa using Orm.choices_spec predicate (wellFormed.declared predicate given)

theorem WellFormed.mem_positiveEdges : request.choices ≠ [] ∧ ∀ edge, edge ∈ request.positiveEdges ↔
      (∀ chosen ∈ request.choices, edge ∈ chosen) ∨ edge ∈ request.allowedCrossJoins := by
  unfold positiveEdges MatchRequest.choices
  cases given : request.predicate with
  | none => simp
  | some predicate =>
    obtain ⟨nonempty, definite⟩ :=
      mem_definitePositiveEdges predicate (wellFormed.inspected predicate given)
    simp [nonempty, definite]

theorem WellFormed.positiveEdges_spec {edge : Edge} (isEdge : edge ∈ request.positiveEdges) :
    edge.1 ∈ request.bindings ∧ edge.2 ∈ request.bindings := by
  obtain ⟨nonempty, edges⟩ := wellFormed.mem_positiveEdges
  rcases (edges edge).mp isEdge with everywhere | permitted
  · obtain ⟨chosen, isChosen⟩ := List.exists_mem_of_ne_nil _ nonempty
    exact wellFormed.choices_spec chosen isChosen edge (everywhere chosen isChosen)
  · exact wellFormed.joins edge permitted

theorem WellFormed.linked_of_joined (joined : request.Joined left right) :
    Linked request.positiveEdges left right := by
  have isEdge := (wellFormed.mem_positiveEdges.2 _).mpr joined
  unfold canonicalEdge at isEdge
  split_ifs at isEdge
  · exact .inl isEdge
  · exact .inr isEdge

omit wellFormed

theorem visited_spec (request : MatchRequest) :
    ∃ visited, request.visited = .ok visited ∧ ∀ binding, binding ∈ visited ↔
      ∃ start ∈ request.bindings.head?,
        Relation.ReflTransGen (Linked request.positiveEdges) start binding := by
  have inside : ∀ element ∈ request.knownBindings,
      ∀ next ∈ neighbors request.positiveEdges element, next ∈ request.knownBindings := by
    intro element _ next isNext
    simp only [knownBindings, Finset.mem_union, Finset.mem_image]
    rcases mem_neighbors.mp isNext with forth | back
    · exact .inr ⟨_, forth, rfl⟩
    · exact .inl (.inr ⟨_, back, rfl⟩)
  have known : ∀ element ∈ request.bindings.head?.toList, element ∈ request.knownBindings := by
    intro element isFirst
    have isBinding := List.mem_of_mem_head? (Option.mem_toList.mp isFirst)
    exact Finset.mem_union_left _ (Finset.mem_union_left _ (List.mem_toFinset.mpr isBinding))
  obtain ⟨visited, found, spec⟩ := Worklist.closure_spec
    (fun element _ => (rfl : (Except.ok (neighbors request.positiveEdges element) :
      Except MatchError _) = _)) inside _ request.bindings.head?.toList ∅ known (Nat.lt_succ_self _)
  refine ⟨visited, found, fun binding => ?_⟩
  constructor
  · intro isVisited
    obtain ⟨start, isStart, chain⟩ := spec.reachable binding isVisited (Finset.notMem_empty _)
    exact ⟨start, Option.mem_toList.mp isStart, chain.lift id fun _ _ => mem_neighbors.mp⟩
  · rintro ⟨start, isStart, chain⟩
    induction chain with
    | refl => exact spec.pendingTaken start (Option.mem_toList.mpr isStart)
    | tail _ linked ih =>
      exact spec.closed _ ih (Finset.notMem_empty _) _ (mem_neighbors.mpr linked)

theorem WellFormed.mem_bindings_of_chain (wellFormed : request.WellFormed)
    {start binding : BindingId} (isStart : start ∈ request.bindings)
    (chain : Relation.ReflTransGen (Linked request.positiveEdges) start binding) :
    binding ∈ request.bindings := by
  induction chain with
  | refl => exact isStart
  | tail _ linked _ =>
    rcases linked with forth | back
    · exact (wellFormed.positiveEdges_spec forth).2
    · exact (wellFormed.positiveEdges_spec back).1

theorem WellFormed.validateTopology_cases (wellFormed : request.WellFormed) :
    request.validateTopology = .ok () ∧ Connected request.bindings request.positiveEdges ∨
      ∃ unreachable, request.validateTopology = .error (.disconnectedPlan unreachable) ∧
        unreachable ≠ [] ∧ ∀ binding ∈ unreachable, binding ∈ request.bindings ∧
          ∀ start ∈ request.bindings.head?,
            ¬ Relation.ReflTransGen (Linked request.positiveEdges) start binding := by
  obtain ⟨first, rest, shape⟩ := List.exists_cons_of_ne_nil wellFormed.nonempty
  obtain ⟨visited, found, spec⟩ := request.visited_spec
  simp only [shape, List.head?_cons, Option.mem_some_iff, exists_eq_left'] at spec
  have symmetric : Std.Symm (Linked request.positiveEdges) := ⟨fun _ _ linked => linked.symm⟩
  have contained : visited ⊆ request.bindings.toFinset := by
    intro binding isVisited
    refine List.mem_toFinset.mpr (wellFormed.mem_bindings_of_chain ?_ ((spec binding).mp isVisited))
    simp [shape]
  have distinct : request.bindings.Nodup := wellFormed.dense ▸ List.nodup_range
  have connected : (∀ binding ∈ request.bindings, binding ∈ visited) →
      Connected request.bindings request.positiveEdges := by
    intro everything left isLeft right isRight
    have back := (spec left).mp (everything left isLeft)
    exact (Std.Symm.symm _ _ back).trans ((spec right).mp (everything right isRight))
  unfold validateTopology
  split_ifs with short
  · refine .inl ⟨rfl, connected fun binding isBinding => (spec binding).mpr ?_⟩
    have alone : rest = [] := by
      rw [shape, List.length_cons] at short
      exact List.length_eq_zero_iff.mp (by omega)
    rw [shape, alone, List.mem_singleton] at isBinding
    rw [isBinding]
  · by_cases complete : visited.card = request.bindings.length
    · refine .inl ⟨?_, connected fun binding isBinding => ?_⟩
      · rw [found]
        exact if_neg (not_not.mpr complete)
      · have same : visited = request.bindings.toFinset :=
          Finset.eq_of_subset_of_card_le contained
            (by rw [List.toFinset_card_of_nodup distinct, complete])
        rw [same]
        exact List.mem_toFinset.mpr isBinding
    · refine .inr ⟨request.bindings.filter (· ∉ visited), ?_, ?_, ?_⟩
      · rw [found]
        exact if_pos complete
      · intro empty
        refine complete ((Finset.card_le_card contained).antisymm ?_ |>.trans
          (List.toFinset_card_of_nodup distinct))
        refine Finset.card_le_card fun binding isBinding => ?_
        by_contra missing
        have listed : binding ∈ request.bindings.filter (· ∉ visited) :=
          List.mem_filter.mpr ⟨List.mem_toFinset.mp isBinding, by simpa using missing⟩
        exact List.not_mem_nil (empty ▸ listed)
      · intro binding listed
        obtain ⟨isBinding, missing⟩ := List.mem_filter.mp listed
        refine ⟨isBinding, fun start isStart chain => ?_⟩
        rw [shape, List.head?_cons, Option.mem_some_iff] at isStart
        subst isStart
        exact of_decide_eq_true missing ((spec binding).mpr chain)

/--
An accepted request without cross joins is connected whichever branches are taken, and a request
is refused as disconnected only if the edges common to all choices and the cross joins leave the
named bindings unreachable from the first one.
-/
theorem match_topology_exact (checks : MatchChecks) (request : MatchRequest) :
    (request.validate checks = .ok () → request.allowedCrossJoins = [] →
      ∀ chosen ∈ request.choices, Connected request.bindings chosen) ∧
    ∀ unreachable, request.validate checks = .error (.disconnectedPlan unreachable) →
      unreachable ≠ [] ∧ ∀ binding ∈ unreachable, binding ∈ request.bindings ∧
        ∀ start ∈ request.bindings.head?,
          ¬ Relation.ReflTransGen request.Joined start binding := by
  constructor
  · intro accepted noJoins chosen isChosen left isLeft right isRight
    obtain ⟨wellFormed, decides⟩ : request.WellFormed ∧ request.validate checks = _ :=
      validate_eq_validateTopology (by simp [accepted])
    rcases wellFormed.validateTopology_cases with ⟨-, connected⟩ | ⟨_, refused, -⟩
    · have inChoice : ∀ edge ∈ request.positiveEdges, edge ∈ chosen := by
        intro edge isEdge
        have either := (wellFormed.mem_positiveEdges.2 edge).mp isEdge
        simp only [noJoins, List.not_mem_nil, or_false] at either
        exact either chosen isChosen
      exact (connected left isLeft right isRight).lift id fun _ _ linked =>
        linked.imp (inChoice _) (inChoice _)
    · rw [← decides, accepted] at refused
      cases refused
  · intro unreachable rejected
    obtain ⟨wellFormed, decides⟩ : request.WellFormed ∧ request.validate checks = _ :=
      validate_eq_validateTopology (by simp [rejected])
    rcases wellFormed.validateTopology_cases with ⟨passed, -⟩ | ⟨listed, refused, nonempty, far⟩
    · rw [← decides, rejected] at passed
      cases passed
    · rw [← decides, rejected] at refused
      cases refused
      refine ⟨nonempty, fun binding isListed => ⟨(far binding isListed).1, ?_⟩⟩
      intro start isStart chain
      exact (far binding isListed).2 start isStart
        (chain.lift id fun _ _ => wellFormed.linked_of_joined)

/-- Two bindings under a disjunction whose branches both join them. -/
def joinedByEitherBranch : MatchRequest where
  bindings := [0, 1]
  predicate := some (.or [.atom (.roleEdge 1 0), .atom (.fieldComparison 0 1)])
  allowedCrossJoins := []

/-- Either branch connects the two bindings. -/
theorem either_branch_connects :
    ∀ chosen ∈ joinedByEitherBranch.choices, Connected joinedByEitherBranch.bindings chosen :=
  (match_topology_exact ⟨fun _ => .ok (), fun _ => .ok (), fun _ => .ok ()⟩
    joinedByEitherBranch).1 (by rfl) rfl

end MatchRequest
end TypeBridge.Orm
