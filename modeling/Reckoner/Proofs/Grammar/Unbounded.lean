import Reckoner.Proofs.Grammar.Progress

/-!
# The rules without a bound

A bound on the nesting is not what makes the rules end. A call on `k` tokens weighs `11 * k` plus the
rank of its rule. Down the layers on the same tokens the ranks fall, and a call on fewer tokens weighs
less whatever its rule, since no rank is more than eleven. So a rule needs no more levels of nesting than
its call weighs (`within_ends`), and the equations of the grammar have a solution that no bound has a part
in, `Layers.unbounded`. It is the only one.

The loops end for another reason: each of their steps takes a token (`Loop`), so the fuel that a loop is
given never runs out.

## Results

* `within_ends`         — a bound that is not below the weight of a call does not stop it.
* `within_eq_unbounded` — from there on the bound makes no difference.
* `loop_of_extend`      — a loop ends by itself, with an answer or in a step that is stopped.
* `rules_end`           — progress, the end of all rules and loops, and the only solution.
* `parse_eq_unbounded`  — short sequences are parsed as if there were no bound.
-/

namespace Reckoner

-- ---------------------------------------------------------------------------
-- Attempts that end
-- ---------------------------------------------------------------------------

namespace Attempt

variable {α β : Type} {x : Attempt α}

/-- The attempt comes to an end before the bound on the nesting stops it. -/
def Ends (x : Attempt α) : Prop :=
  x.result ≠ .error .tooDeep

namespace Ends

theorem pure (a : α) : Ends (Pure.pure a : Attempt α) :=
  nofun

theorem reject (e : ParseError) : Ends (.reject e : Attempt α) :=
  nofun

theorem shape (r : Except Node.ShapeFault α) : Ends (.shape r) := by
  cases r <;> exact nofun

theorem bind {f : α → Attempt β} (hx : x.Ends) (hf : ∀ a, x.result = .ok a → (f a).Ends) :
    (x >>= f).Ends := by
  intro h
  rcases bind_error.mp h with h | ⟨a, ha, h⟩
  · exact hx h
  · exact hf a ha h

theorem recover {handle : ParseError → Attempt α} (hx : x.Ends) (hHandle : ∀ e, (handle e).Ends) :
    (x.recover handle).Ends := by
  unfold Attempt.recover
  split
  · exact hHandle _
  · exact hx

theorem found (hx : x.Ends) : (Attempt.found x).Ends :=
  hx.bind fun _ _ => .pure _

theorem candidate (name : Candidate) (left : Nat) (hx : x.Ends) : (x.candidate name left).Ends :=
  hx.found.recover fun _ => nofun

end Ends

end Attempt

namespace Cursor

theorem next_ends (ts : List Token) : (next ts).Ends := by
  unfold next
  split
  · exact .pure _
  · exact .reject _

theorem nextRaw_ends (ts : List Token) : (nextRaw ts).Ends := by
  cases ts with
  | nil => exact .reject _
  | cons t ts => exact .pure _

theorem take_ends (y : Symbol) (ts : List Token) : (take y ts).Ends := by
  refine .bind (next_ends ts) fun ⟨t, rest⟩ _ => ?_
  dsimp only
  split
  · split
    · exact .pure _
    · exact .reject _
  · exact .reject _

end Cursor

namespace Grammar

variable {units : List String} {L : Layers} {ts rest : List Token} {n : Node} {bound d : Nat}

-- ---------------------------------------------------------------------------
-- Weights
-- ---------------------------------------------------------------------------

/-- The layers in order: a rule calls only rules of lower rank on the tokens that it was given. -/
def RuleName.rank : RuleName → Nat
  | number | ident | parens | lambda => 1
  | primary => 2
  | factorial => 3
  | power _ => 4
  | mixedFraction _ | juxtaposition _ | multiplicative => 5
  | continuation _ | implicitSum => 6
  | additive => 7
  | function => 8
  | assignment => 9
  | statements => 10
  | expression => 11

/-- The weight of a call: fewer tokens weigh less, and so does a lower rule on as many tokens. -/
def RuleName.weight (r : RuleName) (ts : List Token) : Nat :=
  11 * ts.length + r.rank

theorem RuleName.rank_le (r : RuleName) : r.rank ≤ 11 := by
  cases r <;> simp [rank]

/-- The rules of `L` come to an end on calls that weigh no more than the bound. -/
structure Layers.EndsWithin (L : Layers) (bound : Nat) : Prop where
  expression : ∀ {ts}, 11 * ts.length + 11 ≤ bound → (L.expression ts).Ends
  statements : ∀ {ts}, 11 * ts.length + 10 ≤ bound → (L.statements ts).Ends
  assignment : ∀ {ts}, 11 * ts.length + 9 ≤ bound → (L.assignment ts).Ends
  function : ∀ {ts}, 11 * ts.length + 8 ≤ bound → (L.function ts).Ends
  additive : ∀ {ts}, 11 * ts.length + 7 ≤ bound → (L.additive ts).Ends
  implicitSum : ∀ {ts}, 11 * ts.length + 6 ≤ bound → (L.implicitSum ts).Ends
  multiplicative : ∀ {ts}, 11 * ts.length + 5 ≤ bound → (L.multiplicative ts).Ends
  continuation : ∀ {lhs ts}, 11 * ts.length + 6 ≤ bound → (L.continuation lhs ts).Ends
  mixedFraction : ∀ {lhs ts}, 11 * ts.length + 5 ≤ bound → (L.mixedFraction lhs ts).Ends
  juxtaposition : ∀ {lhs ts}, 11 * ts.length + 5 ≤ bound → (L.juxtaposition lhs ts).Ends
  power : ∀ {allowed ts}, 11 * ts.length + 4 ≤ bound → (L.power allowed ts).Ends
  factorial : ∀ {ts}, 11 * ts.length + 3 ≤ bound → (L.factorial ts).Ends
  primary : ∀ {ts}, 11 * ts.length + 2 ≤ bound → (L.primary ts).Ends
  number : ∀ {ts}, 11 * ts.length + 1 ≤ bound → (L.number ts).Ends
  ident : ∀ {ts}, 11 * ts.length + 1 ≤ bound → (L.ident ts).Ends
  parens : ∀ {ts}, 11 * ts.length + 1 ≤ bound → (L.parens ts).Ends
  lambda : ∀ {ts}, 11 * ts.length + 1 ≤ bound → (L.lambda ts).Ends

/-- Every call weighs something. -/
theorem exhausted_ends : Layers.exhausted.EndsWithin 0 := by
  constructor <;> intros <;> omega

theorem Layers.EndsWithin.call (h : L.EndsWithin bound) (r : RuleName) {ts : List Token}
    (hWeight : r.weight ts ≤ bound) : (L.call r ts).Ends := by
  cases r with
  | expression => exact (h.expression hWeight).found
  | statements => exact (h.statements hWeight).found
  | assignment => exact (h.assignment hWeight).found
  | function => exact (h.function hWeight).found
  | additive => exact (h.additive hWeight).found
  | implicitSum => exact (h.implicitSum hWeight).found
  | multiplicative => exact (h.multiplicative hWeight).found
  | continuation lhs => exact h.continuation hWeight
  | mixedFraction lhs => exact (h.mixedFraction hWeight).found
  | juxtaposition lhs => exact (h.juxtaposition hWeight).found
  | power allowed => exact (h.power hWeight).found
  | factorial => exact (h.factorial hWeight).found
  | primary => exact (h.primary hWeight).found
  | number => exact (h.number hWeight).found
  | ident => exact (h.ident hWeight).found
  | parens => exact (h.parens hWeight).found
  | lambda => exact (h.lambda hWeight).found

-- ---------------------------------------------------------------------------
-- Operands, bindings and loops
-- ---------------------------------------------------------------------------

/-- An operand is read on fewer tokens. -/
theorem operand_ends {α : Type} {table : List (Symbol × α)} {read : Rule} (build : α → Node → Node)
    (hRead : ∀ {after}, after.length < ts.length → (read after).Ends) :
    (operand table read build ts).Ends := by
  unfold operand
  split
  · rename_i hSelect
    have hAfter := hRead (Cursor.length_of_select? hSelect)
    exact .candidate _ _ (hAfter.bind fun _ _ => .pure _)
  · exact .pure _

theorem binding_ends {y : Symbol} {k : Kind} {refuse : Token → ParseError} {read : Rule}
    (hRead : ∀ {after}, after.length < ts.length → (read after).Ends) :
    (binding y k refuse read n ts).Ends := by
  unfold binding
  split
  · rename_i t after hNext
    split
    · have hAfter : Cursor.after? y ts = some after := by
        rw [← nextIs?_after, hNext]
        rfl
      exact (hRead (Cursor.length_of_after? hAfter)).bind fun _ _ => .pure _
    · exact .reject _
  · exact .pure _

section Loops

variable {step : Node → List Token → Attempt (Option (Node × List Token))}

/-- A loop whose steps take tokens calls its step on no more tokens than it was given. -/
theorem extend_ends (hTakes : Takes step)
    (hStep : ∀ {m us}, us.length ≤ ts.length → (step m us).Ends) : (extend step n ts).Ends := by
  have hChain : ∀ fuel {m us}, us.length ≤ ts.length → (chain step fuel m us).Ends := by
    intro fuel
    induction fuel with
    | zero => exact fun _ => .pure _
    | succ fuel ih =>
      intro m us hLength
      refine (hStep hLength).bind fun found hFound => ?_
      cases found with
      | none => exact .pure _
      | some next =>
        have hLess := (hTakes hFound).2
        exact ih (by omega)
  exact hChain _ (Nat.le_refl _)

end Loops

-- ---------------------------------------------------------------------------
-- Rules
-- ---------------------------------------------------------------------------

theorem number_ends (ts : List Token) : (number ts).Ends := by
  refine (Cursor.next_ends ts).bind fun ⟨t, rest⟩ _ => ?_
  dsimp only
  split
  · exact .pure _
  · exact .reject _

section Rules

variable (hEnds : L.EndsWithin bound)
include hEnds

theorem ident_ends (h : 11 * ts.length + 1 ≤ bound + 1) : (ident L ts).Ends := by
  refine (Cursor.next_ends ts).bind fun ⟨t, mid⟩ hNext => ?_
  have hMid := Cursor.length_of_next? (Cursor.next_ok.mp hNext)
  dsimp only
  split
  · split
    · rename_i after hOf
      have hAfter := Cursor.length_of_after? hOf
      exact (hEnds.primary (by omega)).bind fun _ _ => .pure _
    · exact .pure _
  · exact .reject _

theorem parens_ends (h : 11 * ts.length + 1 ≤ bound + 1) : (parens L ts).Ends := by
  refine (Cursor.next_ends ts).bind fun ⟨t, _⟩ _ => ?_
  refine (Cursor.take_ends _ ts).bind fun after hOpen => ?_
  have hAfter := Cursor.length_of_after? (Cursor.take_ok.mp hOpen)
  dsimp only
  split
  · exact .pure _
  · refine (hEnds.expression (by omega)).bind fun ⟨inner, rest⟩ _ => ?_
    dsimp only
    split
    · exact .pure _
    · exact (Cursor.take_ends _ rest).bind fun _ _ => .pure _

theorem lambda_ends (h : 11 * ts.length + 1 ≤ bound + 1) : (lambda L ts).Ends := by
  refine (Cursor.next_ends ts).bind fun ⟨t, _⟩ _ => ?_
  refine (Cursor.take_ends _ ts).bind fun after hSlash => ?_
  have hAfter := Cursor.length_of_after? (Cursor.take_ok.mp hSlash)
  refine (Cursor.nextRaw_ends after).bind fun ⟨parameter, mid⟩ hParameter => ?_
  rw [Cursor.nextRaw_ok.mp hParameter, List.length_cons] at hAfter
  dsimp only
  split
  · exact .reject _
  · refine ((Cursor.take_ends _ mid).recover fun _ => .reject _).bind fun behind hDot => ?_
    have hBehind : behind.length < mid.length := by
      rcases Attempt.recover_ok.mp hDot with hDot | ⟨e, -, hDot⟩
      · exact Cursor.length_of_after? (Cursor.take_ok.mp hDot)
      · cases hDot
    exact (hEnds.function (by omega)).bind fun _ _ => .pure _
  · exact .reject _

theorem primary_ends (h : 11 * ts.length + 2 ≤ bound + 1) : (primary L ts).Ends := by
  refine (Cursor.next_ends ts).bind fun ⟨t, _⟩ _ => ?_
  dsimp only
  split
  · exact hEnds.number (by omega)
  · exact hEnds.ident (by omega)
  · exact .pure _
  · exact hEnds.parens (by omega)
  · exact hEnds.lambda (by omega)
  · exact .reject _
  · exact .reject _

theorem factorial_ends (h : 11 * ts.length + 3 ≤ bound + 1) : (factorial L ts).Ends :=
  (hEnds.primary (by omega)).bind fun _ _ => extend_ends factorialStep_takes fun _ => .pure _

theorem fractionTerm_ends (h : 11 * ts.length + 4 ≤ bound) : (fractionTerm L ts).Ends := by
  refine (hEnds.power h).bind fun ⟨n, rest⟩ _ => ?_
  dsimp only
  split
  · exact .pure _
  · exact .reject _

theorem juxtaposition_ends {lhs : Node} (h : 11 * ts.length + 5 ≤ bound + 1) :
    (juxtaposition units L lhs ts).Ends := by
  refine (hEnds.power (by omega)).bind fun ⟨rhs, rest⟩ _ => ?_
  refine (Attempt.Ends.shape _).bind fun found _ => ?_
  cases found with
  | none => exact .reject _
  | some k => exact .pure _

theorem continuedProduct_ends {lhs : Node} (h : 11 * ts.length + 6 ≤ bound + 1) :
    (continuation L lhs ts).Ends := by
  have hFactor : (operatorFactor L lhs ts).Ends := by
    rw [operatorFactor_eq]
    exact operand_ends _ fun _ => hEnds.power (by omega)
  refine hFactor.bind fun found _ => ?_
  split
  · exact .pure _
  · refine (Attempt.Ends.candidate _ _ (hEnds.mixedFraction (by omega))).bind fun found _ => ?_
    split
    · exact .pure _
    · exact .candidate _ _ (hEnds.juxtaposition (by omega))

end Rules

/-- The sign of a whole part is looked at without reading. -/
theorem wholeIsNegated_ends (whole : Node) : (wholeIsNegated whole).Ends := by
  unfold wholeIsNegated
  split
  · exact .pure _
  · refine (Attempt.Ends.shape _).bind fun negated _ => ?_
    cases negated with
    | false => exact .reject _
    | true => exact .pure _

section Rules

variable (hL : L.Advances) (hEnds : L.EndsWithin bound)
include hL hEnds

theorem plainPower_ends (h : 11 * ts.length + 4 ≤ bound + 1) : (plainPower L ts).Ends := by
  refine (hEnds.factorial (by omega)).bind fun ⟨base, rest⟩ hBase => ?_
  have hRest := (hL.takes (r := .factorial) rfl (Attempt.found_some.mpr hBase)).2
  dsimp only
  split
  · rename_i after hPow
    have hAfter := Cursor.length_of_after? hPow
    exact (hEnds.power (by omega)).bind fun _ _ => .pure _
  · exact .pure _

theorem power_ends {allowed : Bool} (h : 11 * ts.length + 4 ≤ bound + 1) :
    (power L allowed ts).Ends := by
  unfold power
  split
  · rename_i hSelect
    split at hSelect
    · have hAfter := Cursor.length_of_select? hSelect
      exact (hEnds.power (by omega)).bind fun _ _ => .pure _
    · cases hSelect
  · exact plainPower_ends hL hEnds h

theorem mixedFraction_ends {lhs : Node} (h : 11 * ts.length + 5 ≤ bound + 1) :
    (mixedFraction L lhs ts).Ends := by
  refine (Attempt.Ends.shape _).bind fun ⟨outer, whole⟩ _ => ?_
  refine (wholeIsNegated_ends whole).bind fun negated _ => ?_
  dsimp only
  split
  · refine (fractionTerm_ends hEnds (by omega)).bind fun ⟨top, mid⟩ hTop => ?_
    have hTop := (fractionTerm_ok.mp hTop).1
    have hMid := (hL.takes (r := .power false) rfl (Attempt.found_some.mpr hTop)).2
    refine (Cursor.take_ends _ mid).bind fun after hDiv => ?_
    have hAfter := Cursor.length_of_after? (Cursor.take_ok.mp hDiv)
    exact (fractionTerm_ends hEnds (by omega)).bind fun _ _ => .pure _
  · exact .reject _

theorem multiplicative_ends (h : 11 * ts.length + 5 ≤ bound + 1) : (multiplicative L ts).Ends := by
  refine (hEnds.power (by omega)).bind fun ⟨n, rest⟩ hFirst => ?_
  have hRest := (hL.takes (r := .power true) rfl (Attempt.found_some.mpr hFirst)).2
  exact extend_ends hL.continuation_takes fun _ => hEnds.continuation (by omega)

theorem implicitSum_ends (h : 11 * ts.length + 6 ≤ bound + 1) : (implicitSum L ts).Ends := by
  refine (hEnds.multiplicative (by omega)).bind fun ⟨n, rest⟩ hFirst => ?_
  have hRest := (hL.takes (r := .multiplicative) rfl (Attempt.found_some.mpr hFirst)).2
  dsimp only
  split
  · have hMore : (L.implicitSum rest).Ends := hEnds.implicitSum (by omega)
    refine (hMore.found.recover fun _ => .pure _).bind fun more _ => ?_
    split
    · split
      · exact .pure _
      · exact .pure _
    · exact .pure _
  · exact .pure _

theorem additive_ends (h : 11 * ts.length + 7 ≤ bound + 1) : (additive L ts).Ends := by
  refine (hEnds.implicitSum (by omega)).bind fun ⟨n, rest⟩ hFirst => ?_
  have hRest := (hL.takes (r := .implicitSum) rfl (Attempt.found_some.mpr hFirst)).2
  refine extend_ends hL.leaves.sumStep_takes fun {m us} hLength => ?_
  rw [sumStep_eq]
  exact operand_ends _ fun _ => hEnds.implicitSum (by omega)

theorem function_ends (h : 11 * ts.length + 8 ≤ bound + 1) : (function L ts).Ends := by
  rw [function_eq]
  refine (hEnds.additive (by omega)).bind fun ⟨n, rest⟩ hFirst => ?_
  have hRest := (hL.takes (r := .additive) rfl (Attempt.found_some.mpr hFirst)).2
  exact binding_ends fun _ => hEnds.function (by omega)

theorem assignment_ends (h : 11 * ts.length + 9 ≤ bound + 1) : (assignment L ts).Ends := by
  rw [assignment_eq]
  refine (hEnds.function (by omega)).bind fun ⟨n, rest⟩ hFirst => ?_
  have hRest := (hL.takes (r := .function) rfl (Attempt.found_some.mpr hFirst)).2
  exact binding_ends fun _ => hEnds.assignment (by omega)

theorem statements_ends (h : 11 * ts.length + 10 ≤ bound + 1) : (statements L ts).Ends := by
  have hSkip := (Cursor.skipSeparators_suffix ts).length_le
  unfold statements
  dsimp only
  split
  · exact .pure _
  · refine (hEnds.assignment (by omega)).bind fun ⟨n, rest⟩ hFirst => ?_
    have hRest := (hL.takes (r := .assignment) rfl (Attempt.found_some.mpr hFirst)).2
    refine extend_ends hL.leaves.statementStep_takes fun {m us} (hLength : us.length ≤ rest.length) => ?_
    unfold statementStep
    split
    · rename_i after hSeparator
      have hAfter := Cursor.length_of_after? hSeparator
      split
      · exact .pure _
      · exact (hEnds.assignment (by omega)).bind fun _ _ => .pure _
    · exact .pure _

/-- One more level of nesting is enough for calls that weigh one more. -/
theorem step_ends (units : List String) : (Layers.step units L).EndsWithin (bound + 1) where
  expression h := hEnds.statements (by omega)
  statements := statements_ends hL hEnds
  assignment := assignment_ends hL hEnds
  function := function_ends hL hEnds
  additive := additive_ends hL hEnds
  implicitSum := implicitSum_ends hL hEnds
  multiplicative := multiplicative_ends hL hEnds
  continuation := continuedProduct_ends hEnds
  mixedFraction := mixedFraction_ends hL hEnds
  juxtaposition := juxtaposition_ends hEnds
  power := power_ends hL hEnds
  factorial := factorial_ends hEnds
  primary := primary_ends hEnds
  number _ := number_ends _
  ident := ident_ends hEnds
  parens := parens_ends hEnds
  lambda := lambda_ends hEnds

end Rules

-- ---------------------------------------------------------------------------
-- Bounds
-- ---------------------------------------------------------------------------

/-- **A bound that is not below the weight of a call does not stop it.** -/
theorem within_ends (units : List String) (d : Nat) : (Layers.within units d).EndsWithin d := by
  induction d with
  | zero => exact exhausted_ends
  | succ d ih => exact step_ends (within_advances units d) ih units

-- ---------------------------------------------------------------------------
-- No bound
-- ---------------------------------------------------------------------------

/-- As many levels of nesting as a call on some tokens can weigh. -/
def levels (ts : List Token) : Nat :=
  11 * ts.length + 11

theorem weight_le_levels (r : RuleName) (ts : List Token) : r.weight ts ≤ levels ts :=
  Nat.add_le_add_left r.rank_le _

/-- The rules without a bound: each is given as many levels as its tokens may need. -/
def Layers.unbounded (units : List String) : Layers :=
  let enough (ts : List Token) : Layers := Layers.within units (levels ts)
  { expression := fun ts => (enough ts).expression ts
    statements := fun ts => (enough ts).statements ts
    assignment := fun ts => (enough ts).assignment ts
    function := fun ts => (enough ts).function ts
    additive := fun ts => (enough ts).additive ts
    implicitSum := fun ts => (enough ts).implicitSum ts
    multiplicative := fun ts => (enough ts).multiplicative ts
    continuation := fun lhs ts => (enough ts).continuation lhs ts
    mixedFraction := fun lhs ts => (enough ts).mixedFraction lhs ts
    juxtaposition := fun lhs ts => (enough ts).juxtaposition lhs ts
    power := fun allowed ts => (enough ts).power allowed ts
    factorial := fun ts => (enough ts).factorial ts
    primary := fun ts => (enough ts).primary ts
    number := fun ts => (enough ts).number ts
    ident := fun ts => (enough ts).ident ts
    parens := fun ts => (enough ts).parens ts
    lambda := fun ts => (enough ts).lambda ts }

theorem unbounded_call (units : List String) (r : RuleName) (ts : List Token) :
    (Layers.unbounded units).call r ts = (Layers.within units (levels ts)).call r ts := by
  cases r <;> simp only [Layers.call, Layers.unbounded]

/-- The rules without a bound come to an end. -/
theorem unbounded_ends (units : List String) (r : RuleName) (ts : List Token) :
    ((Layers.unbounded units).call r ts).Ends := by
  rw [unbounded_call]
  exact (within_ends units _).call r (weight_le_levels r ts)

/-- A bound that is not below the weight of a call makes no difference. -/
theorem within_eq_unbounded (r : RuleName) (hWeight : r.weight ts ≤ d) :
    ((Layers.within units d).call r ts).result = ((Layers.unbounded units).call r ts).result := by
  rw [unbounded_call]
  have hEnds := (within_ends units d).call r hWeight
  have hEnds' := (within_ends units (levels ts)).call r (weight_le_levels r ts)
  rcases Nat.le_total d (levels ts) with hd | hd
  · exact ((Layers.below_iff.mp (within_below units hd) r ts).result_eq hEnds).symm
  · exact (Layers.below_iff.mp (within_below units hd) r ts).result_eq hEnds'

/-- What any bound allows is what is read without one. -/
theorem within_below_unbounded (units : List String) (d : Nat) :
    (Layers.within units d).Below (Layers.unbounded units) := by
  refine Layers.below_iff.mpr fun r ts => ?_
  have hLarge : r.weight ts ≤ max d (levels ts) :=
    Nat.le_trans (weight_le_levels r ts) (Nat.le_max_right _ _)
  have hBelow := Layers.below_iff.mp (within_below units (Nat.le_max_left d (levels ts))) r ts
  unfold Attempt.Below at hBelow ⊢
  rwa [within_eq_unbounded r hLarge] at hBelow

/-- Every rule of `L` answers as it does when the rules that it calls are those of `L`. -/
def Layers.Solves (units : List String) (L : Layers) : Prop :=
  ∀ r ts, (L.call r ts).result = ((Layers.step units L).call r ts).result

/-- The rules without a bound solve their equations. -/
theorem unbounded_solves (units : List String) : (Layers.unbounded units).Solves units := by
  intro r ts
  have hWeight : r.weight ts ≤ levels ts + 1 := Nat.le_succ_of_le (weight_le_levels r ts)
  have hEnds := (within_ends units (levels ts + 1)).call r hWeight
  have hStep : ((Layers.within units (levels ts + 1)).call r ts).Below
      ((Layers.step units (Layers.unbounded units)).call r ts) :=
    Layers.below_iff.mp (step_below (within_below_unbounded units (levels ts)) units) r ts
  rw [← within_eq_unbounded r hWeight]
  exact (hStep.result_eq hEnds).symm

/-- Rules under a bound are below every solution. -/
theorem within_below_solution {units : List String} {L : Layers} (hL : L.Solves units) (d : Nat) :
    (Layers.within units d).Below L := by
  induction d with
  | zero => exact exhausted_below L
  | succ d ih =>
    refine Layers.below_iff.mpr fun r ts => ?_
    have hStep := Layers.below_iff.mp (step_below ih units) r ts
    unfold Attempt.Below at hStep ⊢
    rwa [hL r ts]

/-- The equations have no other solution. -/
theorem solution_eq_unbounded {units : List String} {L : Layers} (hL : L.Solves units) (r : RuleName)
    (ts : List Token) : (L.call r ts).result = ((Layers.unbounded units).call r ts).result := by
  rw [unbounded_call]
  have hEnds := (within_ends units (levels ts)).call r (weight_le_levels r ts)
  exact (Layers.below_iff.mp (within_below_solution hL _) r ts).result_eq hEnds

theorem unbounded_advances (units : List String) : (Layers.unbounded units).Advances := by
  intro r ts n rest h
  rw [unbounded_call] at h
  exact within_advances units _ h

-- ---------------------------------------------------------------------------
-- Loops
-- ---------------------------------------------------------------------------

/-- How a loop goes: step after step, each on fewer tokens, until a step finds nothing or is stopped. -/
inductive Loop (step : Node → List Token → Attempt (Option (Node × List Token))) :
    Node → List Token → Except Stop (Node × List Token) → Prop where
  | done {n : Node} {ts : List Token} (h : (step n ts).result = .ok none) : Loop step n ts (.ok (n, ts))
  | stopped {n : Node} {ts : List Token} {stop : Stop} (h : (step n ts).result = .error stop) :
      Loop step n ts (.error stop)
  | more {n n' : Node} {ts ts' : List Token} {outcome : Except Stop (Node × List Token)}
      (h : (step n ts).result = .ok (some (n', ts'))) (hLess : ts'.length < ts.length)
      (hLoop : Loop step n' ts' outcome) : Loop step n ts outcome

/-- **A loop ends by itself**: it is never its fuel that ends it. -/
theorem loop_of_extend {step : Node → List Token → Attempt (Option (Node × List Token))}
    (hTakes : Takes step) (n : Node) (ts : List Token) : Loop step n ts (extend step n ts).result := by
  have hChain : ∀ fuel {m us}, us.length < fuel → Loop step m us (chain step fuel m us).result := by
    intro fuel
    induction fuel with
    | zero => exact fun hFuel => absurd hFuel (Nat.not_lt_zero _)
    | succ fuel ih =>
      intro m us hFuel
      unfold chain
      cases hStep : (step m us).result with
      | error stop =>
        rw [Attempt.result_bind_of_error hStep]
        exact .stopped hStep
      | ok found =>
        rw [Attempt.result_bind_of_ok hStep]
        cases found with
        | none => exact .done hStep
        | some next =>
          have hLess := (hTakes hStep).2
          exact .more hStep hLess (ih (by omega))
  exact hChain _ (Nat.lt_succ_self _)

/-- The four loops of the rules of `L` end by themselves. -/
structure Layers.Loops (L : Layers) : Prop where
  factorial : ∀ n ts, Loop factorialStep n ts (extend factorialStep n ts).result
  multiplicative : ∀ n ts, Loop L.continuation n ts (extend L.continuation n ts).result
  additive : ∀ n ts, Loop (sumStep L) n ts (extend (sumStep L) n ts).result
  statements : ∀ n ts, Loop (statementStep L) n ts (extend (statementStep L) n ts).result

theorem Layers.Advances.loops (hL : L.Advances) : L.Loops where
  factorial := loop_of_extend factorialStep_takes
  multiplicative := loop_of_extend hL.continuation_takes
  additive := loop_of_extend hL.leaves.sumStep_takes
  statements := loop_of_extend hL.leaves.statementStep_takes

-- ---------------------------------------------------------------------------
-- All rules
-- ---------------------------------------------------------------------------

/-- **Every rule makes progress and stays in range, so all loops and recursions end.** Without a bound, a
rule that answers at a cursor of the tokens leaves what stands from a later cursor on, which is not
beyond the end; only a list of statements may stay where it is, where nothing but blanks is left. Every
loop ends by itself and every rule comes to an end, so any bound that is not below the weight of a call
changes nothing, and a smaller one only stops it. And the equations by which the rules call each other
have the rules without a bound as their only solution. -/
theorem rules_end (units : List String) :
    (∀ (r : RuleName) (tokens : List Token) (pos : Nat) (n : Node) (rest : List Token),
      pos ≤ tokens.length →
      ((Layers.unbounded units).call r (tokens.drop pos)).result = .ok (some (n, rest)) →
      ∃ pos', rest = tokens.drop pos' ∧ pos ≤ pos' ∧ pos' ≤ tokens.length ∧
        (pos < pos' ∨ r.isList = true ∧ Cursor.atEnd (tokens.drop pos) = true)) ∧
    (Layers.unbounded units).Loops ∧
    (∀ r ts, ((Layers.unbounded units).call r ts).Ends) ∧
    (∀ r ts d, r.weight ts ≤ d →
      ((Layers.within units d).call r ts).result = ((Layers.unbounded units).call r ts).result) ∧
    (∀ d, (Layers.within units d).Below (Layers.unbounded units)) ∧
    (Layers.unbounded units).Solves units ∧
    ∀ L : Layers, L.Solves units → ∀ r ts,
      (L.call r ts).result = ((Layers.unbounded units).call r ts).result := by
  have hForward : (Layers.unbounded units).Advances := unbounded_advances units
  refine ⟨?_, hForward.loops, unbounded_ends units, ?_, within_below_unbounded units,
    unbounded_solves units, fun L hL => solution_eq_unbounded hL⟩
  · intro r tokens pos n rest hPos h
    exact hForward.at_cursor hPos h
  · intro r ts d hWeight
    exact within_eq_unbounded r hWeight

/-- `2 m`: the product is read from the start of the tokens to their end, and the cursor moves behind
them. -/
theorem rules_end_of_product :
    let tokens : List Token :=
      [⟨.number (.fraction 2), ⟨1, 1⟩⟩, ⟨.blank " ", ⟨1, 2⟩⟩, ⟨.ident "m", ⟨1, 3⟩⟩]
    let t : Node := .pair .product (.number (.fraction 2) ⟨1, 1⟩) (.ident "m" ⟨1, 3⟩)
    0 ≤ tokens.length ∧
      ((Layers.unbounded []).call .multiplicative (tokens.drop 0)).result = .ok (some (t, [])) ∧
      ∃ pos', [] = tokens.drop pos' ∧ 0 < pos' ∧ pos' ≤ 3 := by
  intro tokens t
  have hRead : ((Layers.unbounded []).call .multiplicative (tokens.drop 0)).result = .ok (some (t, [])) :=
    rfl
  obtain ⟨pos', hRest, -, hRange, hMoved | ⟨hList, -⟩⟩ :=
    (rules_end []).1 .multiplicative tokens 0 t [] (Nat.zero_le _) hRead
  · exact ⟨Nat.zero_le _, hRead, pos', hRest, hMoved, hRange⟩
  · cases hList

-- ---------------------------------------------------------------------------
-- Whole sequences of tokens
-- ---------------------------------------------------------------------------

/-- A bound that leaves enough levels for all tokens makes no difference to what is parsed. -/
theorem parseWithin_eq_unbounded {tokens : List Token} (h : levels (significant tokens) ≤ d) :
    (parseWithin d units tokens).result = (parseBy (Layers.unbounded units) tokens).result := by
  have hWeight := Nat.le_trans (weight_le_levels .expression (significant tokens)) h
  have hSame : ((Layers.within units d).expression (significant tokens)).result =
      ((Layers.unbounded units).expression (significant tokens)).result :=
    Attempt.result_found_inj.mp (within_eq_unbounded .expression hWeight)
  have hEnds := (within_ends units d).expression hWeight
  rw [parseWithin_eq]
  unfold parseBy
  rw [Attempt.result_bind, Attempt.result_bind, reportDepth_result hEnds, hSame,
    reportDepth_result (hSame ▸ hEnds)]

/-- **A short expression is parsed as if there were no bound**: up to eighty-seven tokens never exhaust
it. -/
theorem parse_eq_unbounded {tokens : List Token} (h : (significant tokens).length ≤ 87) :
    (parse units tokens).result = (parseBy (Layers.unbounded units) tokens).result := by
  apply parseWithin_eq_unbounded
  unfold levels maxNesting
  omega

end Grammar

end Reckoner
