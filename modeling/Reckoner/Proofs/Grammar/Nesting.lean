import Reckoner.Grammar.Parse
import Reckoner.Proofs.Attempt
import Reckoner.Proofs.Grammar.Rules

/-!
# Nesting bounds

A larger bound on the nesting of rules changes nothing but attempts that the smaller bound stopped:
whatever a rule answers under one bound, be it a tree or a parse error, it answers under every
larger one. So the bound is never mistaken for the end of an operand, however deep in a candidate
it is met.

The proof goes rule by rule. Each is monotone in the rules it calls (`Layers.Below`), and the
records under two bounds are compared by induction on the smaller one.

What is called beyond a bound may even be answered by anything at all (`Layers.above`): an outcome
other than a report of too deep a nesting was reached without such a call, in any candidate.

## Results

* `within_below`              — the rules under a bound are below those under every larger bound.
* `parseWithin_below`         — so is parsing as a whole.
* `parseWithin_ok_or_tooDeep` — a tree that one bound allows is the only tree under any bound.
* `parseWithin_unexhausted`   — an outcome other than the bound's own depends on nothing beyond the
  bound.
-/

namespace Reckoner

namespace Grammar

-- ---------------------------------------------------------------------------
-- Records of rules in order
-- ---------------------------------------------------------------------------

/-- Every rule of `M` has the outcomes of the same rule of `L`, unless the bound stopped those. -/
structure Layers.Below (L M : Layers) : Prop where
  expression : ∀ ts, (L.expression ts).Below (M.expression ts)
  statements : ∀ ts, (L.statements ts).Below (M.statements ts)
  assignment : ∀ ts, (L.assignment ts).Below (M.assignment ts)
  function : ∀ ts, (L.function ts).Below (M.function ts)
  additive : ∀ ts, (L.additive ts).Below (M.additive ts)
  implicitSum : ∀ ts, (L.implicitSum ts).Below (M.implicitSum ts)
  multiplicative : ∀ ts, (L.multiplicative ts).Below (M.multiplicative ts)
  continuation : ∀ n ts, (L.continuation n ts).Below (M.continuation n ts)
  mixedFraction : ∀ n ts, (L.mixedFraction n ts).Below (M.mixedFraction n ts)
  juxtaposition : ∀ n ts, (L.juxtaposition n ts).Below (M.juxtaposition n ts)
  power : ∀ allowed ts, (L.power allowed ts).Below (M.power allowed ts)
  factorial : ∀ ts, (L.factorial ts).Below (M.factorial ts)
  primary : ∀ ts, (L.primary ts).Below (M.primary ts)
  number : ∀ ts, (L.number ts).Below (M.number ts)
  ident : ∀ ts, (L.ident ts).Below (M.ident ts)
  parens : ∀ ts, (L.parens ts).Below (M.parens ts)
  lambda : ∀ ts, (L.lambda ts).Below (M.lambda ts)

/-- The rules in which no call is allowed are below all others. -/
theorem exhausted_below (L : Layers) : Layers.exhausted.Below L := by
  constructor <;> intros <;> exact Attempt.below_of_tooDeep rfl

-- ---------------------------------------------------------------------------
-- Loops
-- ---------------------------------------------------------------------------

section Loops

variable {step step' : Node → List Token → Attempt (Option (Node × List Token))}

theorem chain_below (h : ∀ n ts, (step n ts).Below (step' n ts)) (fuel : Nat) (n : Node)
    (ts : List Token) : (chain step fuel n ts).Below (chain step' fuel n ts) := by
  induction fuel generalizing n ts with
  | zero => exact .refl _
  | succ fuel ih =>
    refine .bind (h n ts) fun found => ?_
    cases found with
    | none => exact .refl _
    | some next => exact ih next.1 next.2

theorem extend_below (h : ∀ n ts, (step n ts).Below (step' n ts)) (n : Node) (ts : List Token) :
    (extend step n ts).Below (extend step' n ts) :=
  chain_below h _ n ts

end Loops

-- ---------------------------------------------------------------------------
-- Operands and bindings
-- ---------------------------------------------------------------------------

section Operands

variable {read read' : Rule} (hRead : ∀ ts, (read ts).Below (read' ts))
include hRead

theorem operand_below {α : Type} {table : List (Symbol × α)} (build : α → Node → Node)
    (ts : List Token) :
    (operand table read build ts).Below (operand table read' build ts) := by
  unfold operand
  split
  · exact .candidate _ _ (.bind (hRead _) fun _ => .refl _)
  · exact .refl _

theorem binding_below (y : Symbol) (k : Kind) (refuse : Token → ParseError) (n : Node)
    (ts : List Token) :
    (binding y k refuse read n ts).Below (binding y k refuse read' n ts) := by
  unfold binding
  split
  · split
    · exact .bind (hRead _) fun _ => .refl _
    · exact .refl _
  · exact .refl _

end Operands

-- ---------------------------------------------------------------------------
-- Rules
-- ---------------------------------------------------------------------------

section Rules

variable {L M : Layers} (h : L.Below M)
include h

theorem ident_below (ts : List Token) : (ident L ts).Below (ident M ts) := by
  refine .bind (.refl _) fun ⟨t, rest⟩ => ?_
  dsimp only
  split
  · split
    · exact .bind (h.primary _) fun _ => .refl _
    · exact .refl _
  · exact .refl _

theorem parens_below (ts : List Token) : (parens L ts).Below (parens M ts) := by
  refine .bind (.refl _) fun _ => .bind (.refl _) fun rest => ?_
  dsimp only
  split
  · exact .refl _
  · exact .bind (h.expression _) fun _ => .refl _

theorem lambda_below (ts : List Token) : (lambda L ts).Below (lambda M ts) := by
  refine .bind (.refl _) fun _ => .bind (.refl _) fun _ => .bind (.refl _) fun ⟨parameter, rest⟩ => ?_
  dsimp only
  split
  · exact .refl _
  · exact .bind (.refl _) fun _ => .bind (h.function _) fun _ => .refl _
  · exact .refl _

theorem primary_below (ts : List Token) : (primary L ts).Below (primary M ts) := by
  refine .bind (.refl _) fun ⟨t, rest⟩ => ?_
  dsimp only
  split
  · exact h.number ts
  · exact h.ident ts
  · exact .refl _
  · exact h.parens ts
  · exact h.lambda ts
  · exact .refl _
  · exact .refl _

theorem factorial_below (ts : List Token) : (factorial L ts).Below (factorial M ts) :=
  .bind (h.primary ts) fun _ => .refl _

theorem plainPower_below (ts : List Token) : (plainPower L ts).Below (plainPower M ts) := by
  refine .bind (h.factorial ts) fun ⟨base, rest⟩ => ?_
  dsimp only
  split
  · exact .bind (h.power true _) fun _ => .refl _
  · exact .refl _

theorem power_below (allowed : Bool) (ts : List Token) :
    (power L allowed ts).Below (power M allowed ts) := by
  unfold power
  split
  · exact .bind (h.power true _) fun _ => .refl _
  · exact plainPower_below h ts

theorem juxtaposition_below (units : List String) (lhs : Node) (ts : List Token) :
    (juxtaposition units L lhs ts).Below (juxtaposition units M lhs ts) :=
  .bind (h.power false ts) fun _ => .refl _

theorem fractionTerm_below (ts : List Token) : (fractionTerm L ts).Below (fractionTerm M ts) :=
  .bind (h.power false ts) fun _ => .refl _

theorem mixedFraction_below (lhs : Node) (ts : List Token) :
    (mixedFraction L lhs ts).Below (mixedFraction M lhs ts) := by
  refine .bind (.refl _) fun ⟨outer, whole⟩ => ?_
  refine .bind (.refl _) fun negated => ?_
  dsimp only
  split
  · refine .bind (fractionTerm_below h ts) fun _ => .bind (.refl _) fun rest => ?_
    exact .bind (fractionTerm_below h rest) fun _ => .refl _
  · exact .refl _

theorem operatorFactor_below (lhs : Node) (ts : List Token) :
    (operatorFactor L lhs ts).Below (operatorFactor M lhs ts) := by
  rw [operatorFactor_eq, operatorFactor_eq]
  exact operand_below (h.power true) _ ts

theorem continuation_below (lhs : Node) (ts : List Token) :
    (continuation L lhs ts).Below (continuation M lhs ts) := by
  refine .bind (operatorFactor_below h lhs ts) fun found => ?_
  split
  · exact .refl _
  · refine .bind (.candidate _ _ (h.mixedFraction lhs ts)) fun found => ?_
    split
    · exact .refl _
    · exact .candidate _ _ (h.juxtaposition lhs ts)

theorem multiplicative_below (ts : List Token) : (multiplicative L ts).Below (multiplicative M ts) :=
  .bind (h.power true ts) fun _ => extend_below h.continuation _ _

theorem implicitSum_below (ts : List Token) : (implicitSum L ts).Below (implicitSum M ts) := by
  refine .bind (h.multiplicative ts) fun ⟨n, rest⟩ => ?_
  dsimp only
  split
  · exact .bind (.recover (.bind (h.implicitSum rest) fun _ => .refl _) fun _ => .refl _)
      fun _ => .refl _
  · exact .refl _

theorem sumStep_below (lhs : Node) (ts : List Token) :
    (sumStep L lhs ts).Below (sumStep M lhs ts) := by
  rw [sumStep_eq, sumStep_eq]
  exact operand_below h.implicitSum _ ts

theorem additive_below (ts : List Token) : (additive L ts).Below (additive M ts) :=
  .bind (h.implicitSum ts) fun _ => extend_below (sumStep_below h) _ _

theorem function_below (ts : List Token) : (function L ts).Below (function M ts) :=
  .bind (h.additive ts) fun _ => binding_below h.function _ _ _ _ _

theorem assignment_below (ts : List Token) : (assignment L ts).Below (assignment M ts) :=
  .bind (h.function ts) fun _ => binding_below h.assignment _ _ _ _ _

theorem statementStep_below (n : Node) (ts : List Token) :
    (statementStep L n ts).Below (statementStep M n ts) := by
  unfold statementStep
  split
  · split
    · exact .refl _
    · exact .bind (h.assignment _) fun _ => .refl _
  · exact .refl _

theorem statements_below (ts : List Token) : (statements L ts).Below (statements M ts) := by
  unfold statements
  dsimp only
  split
  · exact .refl _
  · exact .bind (h.assignment _) fun _ => extend_below (statementStep_below h) _ _

/-- Allowing one more call keeps the order. -/
theorem step_below (units : List String) :
    (Layers.step units L).Below (Layers.step units M) where
  expression := h.statements
  statements := statements_below h
  assignment := assignment_below h
  function := function_below h
  additive := additive_below h
  implicitSum := implicitSum_below h
  multiplicative := multiplicative_below h
  continuation := continuation_below h
  mixedFraction := mixedFraction_below h
  juxtaposition := juxtaposition_below h units
  power := power_below h
  factorial := factorial_below h
  primary := primary_below h
  number _ := .refl _
  ident := ident_below h
  parens := parens_below h
  lambda := lambda_below h

end Rules

-- ---------------------------------------------------------------------------
-- Bounds
-- ---------------------------------------------------------------------------

/-- **The nesting bound is monotone.** What a rule answers under one bound it answers under every
larger bound. -/
theorem within_below (units : List String) {d d' : Nat} (hd : d ≤ d') :
    (Layers.within units d).Below (Layers.within units d') := by
  induction d generalizing d' with
  | zero => exact exhausted_below _
  | succ d ih =>
    obtain ⟨k, rfl⟩ : ∃ k, d' = k + 1 := ⟨d' - 1, by omega⟩
    exact step_below (ih (by omega)) units

-- ---------------------------------------------------------------------------
-- Whole sequences of tokens
-- ---------------------------------------------------------------------------

theorem reportDepth_tooDeep {α : Type} {x : Attempt α} (h : x.result = .error .tooDeep) :
    (reportDepth x).result = .error (.error .tooDeep) := by
  unfold reportDepth
  rw [h]

theorem reportDepth_result {α : Type} {x : Attempt α} (h : x.result ≠ .error .tooDeep) :
    (reportDepth x).result = x.result := by
  unfold reportDepth
  split
  · contradiction
  · rfl

theorem reportDepth_ok {α : Type} {x : Attempt α} {a : α} (h : (reportDepth x).result = .ok a) :
    x.result = .ok a := by
  unfold reportDepth at h
  split at h
  · cases h
  · exact h

/-- What is parsed is an expression that leaves nothing but blanks. -/
theorem parseWithin_ok {units : List String} {tokens : List Token} {d : Nat} {n : Node} :
    (parseWithin d units tokens).result = .ok n ↔
      ∃ rest, ((Layers.within units d).expression (significant tokens)).result = .ok (n, rest) ∧
        Cursor.next? rest = none := by
  constructor
  · intro h
    obtain ⟨⟨m, rest⟩, hRead, h⟩ := Attempt.bind_ok.mp h
    dsimp only at h
    split at h
    · cases h
    · rename_i hEnd
      obtain rfl := Except.ok.inj h
      exact ⟨rest, reportDepth_ok hRead, Option.map_eq_none_iff.mp hEnd⟩
  · rintro ⟨rest, hRead, hEnd⟩
    have hReport : (reportDepth ((Layers.within units d).expression (significant tokens))).result =
        .ok (n, rest) := by
      rw [reportDepth_result (by simp [hRead]), hRead]
    refine Attempt.bind_ok.mpr ⟨_, hReport, ?_⟩
    unfold Cursor.peek?
    dsimp only
    rw [hEnd]
    rfl

/-- A whole sequence of tokens read by the rules of a record. -/
def parseBy (L : Layers) (tokens : List Token) : Attempt Node := do
  let (n, rest) ← reportDepth (L.expression (significant tokens))
  match Cursor.peek? rest with
  | some t => .reject (.unexpectedInput t)
  | none => pure n

theorem parseWithin_eq (d : Nat) (units : List String) (tokens : List Token) :
    parseWithin d units tokens = parseBy (Layers.within units d) tokens := rfl

/-- Records of rules in order read whole sequences of tokens alike, unless the lower one reports too
deep a nesting. -/
theorem parseBy_below {L M : Layers} (h : L.Below M) (tokens : List Token) :
    (parseBy L tokens).result = .error (.error .tooDeep) ∨
      (parseBy M tokens).result = (parseBy L tokens).result := by
  have hBelow := h.expression (significant tokens)
  by_cases hDeep : (L.expression (significant tokens)).result = .error .tooDeep
  · left
    exact Attempt.result_bind_of_error (reportDepth_tooDeep hDeep) _
  · right
    have hSame := hBelow.result_eq hDeep
    have hReport : (reportDepth (M.expression (significant tokens))).result =
        (reportDepth (L.expression (significant tokens))).result := by
      rw [reportDepth_result hDeep, reportDepth_result (hSame ▸ hDeep), hSame]
    unfold parseBy
    rw [Attempt.result_bind, Attempt.result_bind, hReport]

/-- A larger bound changes nothing but a report of too deep a nesting. -/
theorem parseWithin_below (units : List String) (tokens : List Token) {d d' : Nat} (hd : d ≤ d') :
    (parseWithin d units tokens).result = .error (.error .tooDeep) ∨
      (parseWithin d' units tokens).result = (parseWithin d units tokens).result := by
  rw [parseWithin_eq, parseWithin_eq]
  exact parseBy_below (within_below units hd) tokens

/-- A tree that some bound allows is what every bound gives that is not exhausted. -/
theorem parseWithin_ok_or_tooDeep {units : List String} {tokens : List Token} {d : Nat} {n : Node}
    (h : (parseWithin d units tokens).result = .ok n) (d' : Nat) :
    (parseWithin d' units tokens).result = .ok n ∨
      (parseWithin d' units tokens).result = .error (.error .tooDeep) := by
  rcases Nat.le_total d d' with hd | hd
  · rcases parseWithin_below units tokens hd with hDeep | hSame
    · simp [h] at hDeep
    · exact Or.inl (hSame.trans h)
  · rcases parseWithin_below units tokens hd with hDeep | hSame
    · exact Or.inr hDeep
    · exact Or.inl (hSame.symm.trans h)

/-- An outcome that does not come from the bound is that of every larger bound, and of every other bound
that is not exhausted. -/
theorem parseWithin_settled {units : List String} {tokens : List Token} {d : Nat}
    {outcome : Except Stop Node} (h : (parseWithin d units tokens).result = outcome)
    (hOther : outcome ≠ .error (.error .tooDeep)) (d' : Nat) :
    (d ≤ d' → (parseWithin d' units tokens).result = outcome) ∧
      ((parseWithin d' units tokens).result = outcome ∨
        (parseWithin d' units tokens).result = .error (.error .tooDeep)) := by
  have hLarger : d ≤ d' → (parseWithin d' units tokens).result = outcome := by
    intro hd
    rcases parseWithin_below units tokens hd with hDeep | hSame
    · exact absurd (h.symm.trans hDeep) hOther
    · exact hSame.trans h
  refine ⟨hLarger, ?_⟩
  rcases Nat.le_total d d' with hd | hd
  · exact Or.inl (hLarger hd)
  · rcases parseWithin_below units tokens hd with hDeep | hSame
    · exact Or.inr hDeep
    · exact Or.inl (hSame.symm.trans h)

/-- A tree that some bound allows is what every larger bound gives, and every other bound that is not
exhausted. -/
theorem parseWithin_allowed {units : List String} {tokens : List Token} {d : Nat} {n : Node}
    (h : (parseWithin d units tokens).result = .ok n) (d' : Nat) :
    (d ≤ d' → (parseWithin d' units tokens).result = .ok n) ∧
      ((parseWithin d' units tokens).result = .ok n ∨
        (parseWithin d' units tokens).result = .error (.error .tooDeep)) :=
  parseWithin_settled h nofun d'

-- ---------------------------------------------------------------------------
-- What lies beyond a bound
-- ---------------------------------------------------------------------------

/-- The rules where the calls beyond a bound are answered by the rules of `beyond`. -/
def Layers.above (units : List String) (beyond : Layers) : Nat → Layers
  | 0 => beyond
  | depth + 1 => step units (above units beyond depth)

/-- The rules under a bound are below those that go on beyond it, in whatever way. -/
theorem within_below_above (units : List String) (beyond : Layers) (d : Nat) :
    (Layers.within units d).Below (Layers.above units beyond d) := by
  induction d with
  | zero => exact exhausted_below _
  | succ d ih => exact step_below ih units

/-- **An exhausted bound is never swallowed by backtracking**: what is reported under a bound, unless
it is too deep a nesting, is reported under every larger bound, and whatever answered the calls
beyond the bound. So no candidate has made such a call, discarded or not. -/
theorem parseWithin_unexhausted (units : List String) (tokens : List Token) {d d' : Nat}
    (hd : d ≤ d') (h : (parseWithin d units tokens).result ≠ .error (.error .tooDeep)) :
    (parseWithin d' units tokens).result = (parseWithin d units tokens).result ∧
      ∀ beyond : Layers, (parseBy (Layers.above units beyond d) tokens).result =
        (parseWithin d units tokens).result := by
  refine ⟨(parseWithin_below units tokens hd).resolve_left h, fun beyond => ?_⟩
  exact (parseBy_below (within_below_above units beyond d) tokens).resolve_left h

/-- `6 feet - - - inch`: the compound quantity that is tried behind `feet` and discarded nests more
deeply than the difference that is read, and a bound that only the candidate exhausts is reported. -/
theorem discarded_quantity_unexhausted :
    let tokens : List Token :=
      [⟨.number (.fraction 6), ⟨1, 1⟩⟩, ⟨.ident "feet", ⟨1, 3⟩⟩, ⟨.symbol .sub, ⟨1, 8⟩⟩,
       ⟨.symbol .sub, ⟨1, 10⟩⟩, ⟨.symbol .sub, ⟨1, 12⟩⟩, ⟨.ident "inch", ⟨1, 14⟩⟩]
    let t : Node :=
      .binary .minus (.pair .product (.number (.fraction 6) ⟨1, 1⟩) (.ident "feet" ⟨1, 3⟩))
        (.wrap .negation (.wrap .negation (.ident "inch" ⟨1, 14⟩) ⟨1, 12⟩) ⟨1, 10⟩)
    (parseWithin 14 [] tokens).result = .error (.error .tooDeep) ∧
      (parseWithin 15 [] tokens).result = .ok t ∧
      (parseWithin 15 [] tokens).result ≠ .error (.error .tooDeep) ∧ 15 ≤ maxNesting ∧
      (parseWithin maxNesting [] tokens).result = .ok t ∧
      ∀ beyond : Layers, (parseBy (Layers.above [] beyond 15) tokens).result = .ok t := by
  intro tokens t
  have hParsed : (parseWithin 15 [] tokens).result = .ok t := rfl
  have hOther : (parseWithin 15 [] tokens).result ≠ .error (.error .tooDeep) := by simp [hParsed]
  have hBound : 15 ≤ maxNesting := by decide
  obtain ⟨hLarger, hBeyond⟩ := parseWithin_unexhausted [] tokens hBound hOther
  exact ⟨rfl, hParsed, hOther, hBound, hLarger.trans hParsed,
    fun beyond => (hBeyond beyond).trans hParsed⟩

end Grammar

end Reckoner
