import Reckoner.Proofs.Grammar.Candidates

/-!
# The end of a valid expression

When an expression is read and tokens are left over, the first of them is reported. The tokens before
it are an expression by themselves, and the same tree is read from them.

The rules that have led to the tree are followed without the tokens left over. On the way through to
them (`Passes`) every rule reads what it has read (`Layers.Curtailed`), by induction on the bound: the
rules that were called have ended in front of what is left over, and those candidates that were not
taken do not come alive without it.

## Results

* `within_curtailed`     — on a way to the tail, the rules read the same without the tail.
* `expression_leftover`  — an expression is read without what it leaves.
* `parseWithin_leftover` — the token that is reported as left over ends a valid expression.
-/

namespace Reckoner

namespace Grammar

open Cursor (next? after? select? solid)

variable {units : List String} {tail p q r ts rest : List Token} {n m lhs : Node} {t : Token}
variable {d : Nat}

-- ---------------------------------------------------------------------------
-- Rules without the tail
-- ---------------------------------------------------------------------------

/-- The rules of `L` read on a way to the tail what they read without the tail. -/
structure Layers.Curtailed (units : List String) (tail : List Token) (L : Layers) : Prop where
  expression : Curtails units tail L.expression
  statements : Curtails units tail L.statements
  assignment : Curtails units tail L.assignment
  function : Curtails units tail L.function
  additive : Curtails units tail L.additive
  implicitSum : Curtails units tail L.implicitSum
  multiplicative : Curtails units tail L.multiplicative
  power : ∀ allowed, Curtails units tail (L.power allowed)
  factorial : Curtails units tail L.factorial
  primary : Curtails units tail L.primary
  number : Curtails units tail L.number
  ident : Curtails units tail L.ident
  parens : Curtails units tail L.parens
  lambda : Curtails units tail L.lambda

/-- A symbol that begins neither an operand nor a factor or summand. -/
theorem Passes.of_after? {y : Symbol} (h : after? y p = some r)
    (hy : ∀ place, Token.isOperator ⟨.symbol y, place⟩ = false ∧
      Token.isOperand ⟨.symbol y, place⟩ = false) : Passes units tail p := by
  obtain ⟨place, hNext⟩ := Cursor.after?_eq_some.mp h
  exact .other hNext (hy place).1 (hy place).2

theorem number_curtails : Curtails units tail number := by
  intro p n q h _
  obtain ⟨v, place, hNext, rfl⟩ := number_ok.mp h
  exact number_ok.mpr ⟨v, place, Cursor.next?_cut hNext, rfl⟩

/-- A node and what is bound to it are read without the tail. -/
theorem binding_curtails {y : Symbol} {k : Kind} {refuse : Token → ParseError} {first read : Rule}
    {m : Node} {mid : List Token} (hFirst : Curtails units tail first)
    (hRead : Curtails units tail read)
    (hLeaves : ∀ {ts n rest}, (read ts).result = .ok (n, rest) → rest <:+ ts)
    (hy : ∀ place, Token.isOperator ⟨.symbol y, place⟩ = false ∧
      Token.isOperand ⟨.symbol y, place⟩ = false)
    (h : (first (p ++ tail)).result = .ok (m, mid))
    (hBound : (binding y k refuse read m mid).result = .ok (n, q ++ tail))
    (hq : Passes units tail q) :
    ∃ r, (first p).result = .ok (m, r) ∧ (binding y k refuse read m r).result = .ok (n, q) := by
  rcases binding_ok.mp hBound with ⟨after, body, hNext, hIdentifier, hBody, rfl⟩ | ⟨hNone, rfl, rfl⟩
  · obtain ⟨r', rfl⟩ := front_of_suffix (hLeaves hBody)
    obtain ⟨r, rfl, hCut⟩ := front_of_after? hNext
    refine ⟨r, hFirst h (.of_after? hCut hy), binding_ok.mpr (Or.inl ?_)⟩
    exact ⟨r', body, hCut, hIdentifier, hRead hBody hq, rfl⟩
  · exact ⟨q, hFirst h hq, binding_ok.mpr (Or.inr ⟨Cursor.after?_cut_none hNone, rfl, rfl⟩)⟩

section Rules

variable (hL : (Layers.within units d).Curtailed units tail)
include hL

theorem ident_curtails : Curtails units tail (ident (Layers.within units d)) := by
  intro p n q h hq
  obtain ⟨x, place, mid, hNext, ⟨after, m, hOf, hInner, rfl⟩ | ⟨hNone, rfl, rfl⟩⟩ := ident_ok.mp h
  · obtain ⟨r', rfl⟩ := front_of_suffix ((within_leaves units d).primary hInner)
    obtain ⟨r, rfl, hOfCut⟩ := front_of_after? hOf
    exact ident_ok.mpr ⟨x, place, r, Cursor.next?_cut hNext,
      Or.inl ⟨r', m, hOfCut, hL.primary hInner hq, rfl⟩⟩
  · exact ident_ok.mpr ⟨x, place, q, Cursor.next?_cut hNext,
      Or.inr ⟨Cursor.after?_cut_none hNone, rfl, rfl⟩⟩

theorem lambda_curtails : Curtails units tail (lambda (Layers.within units d)) := by
  intro p n q h hq
  obtain ⟨place, x, place', mid, after, m, hNext, hDot, hBody, rfl⟩ := lambda_ok.mp h
  -- back from the body to the backslash, all in front of the tail
  obtain ⟨r', rfl⟩ := front_of_suffix ((within_leaves units d).function hBody)
  obtain ⟨r, rfl, hDotCut⟩ := front_of_after? hDot
  have hNextCut : next? p = some (⟨.symbol .backslash, place⟩, ⟨.ident x, place'⟩ :: r) :=
    Cursor.next?_cut hNext
  exact lambda_ok.mpr ⟨place, x, place', r, r', m, hNextCut, hDotCut, hL.function hBody hq, rfl⟩

omit hL in
/-- The tokens do not end in front of the tail. -/
theorem atEnd_in_front (hTail : next? tail ≠ none) (q : List Token) :
    Cursor.atEnd (q ++ tail) = false := by
  rw [Bool.eq_false_iff, ne_eq, Cursor.atEnd_iff]
  intro hNone
  cases hNext : next? q with
  | none => exact hTail ((Cursor.next?_append_of_none hNext tail).symm.trans hNone)
  | some found =>
    rw [Cursor.next?_append (t := found.1) (r := found.2) hNext] at hNone
    cases hNone

theorem parens_curtails (hTail : next? tail ≠ none) :
    Curtails units tail (parens (Layers.within units d)) := by
  intro p n q h hq
  obtain ⟨place, after, hNext, ⟨hClose, rfl⟩ | ⟨hNone, m, mid, hInner, rfl, hEnd⟩⟩ := parens_ok.mp h
  · obtain ⟨r, rfl, hCloseCut⟩ := front_of_after? hClose
    exact parens_ok.mpr ⟨place, r, Cursor.next?_cut hNext, Or.inl ⟨hCloseCut, rfl⟩⟩
  rcases hEnd with ⟨hEnd, rfl⟩ | ⟨-, hClose⟩
  · -- an open parenthesis ends with the tokens, so behind the tail
    rw [atEnd_in_front hTail] at hEnd
    cases hEnd
  · obtain ⟨r', rfl, hCloseCut⟩ := front_of_after? hClose
    obtain ⟨r, rfl⟩ := front_of_suffix ((within_leaves units d).expression hInner)
    have hInnerCut := hL.expression hInner (.of_after? hCloseCut fun _ => ⟨rfl, rfl⟩)
    obtain ⟨_, hSymbol⟩ := Cursor.after?_eq_some.mp hCloseCut
    exact parens_ok.mpr ⟨place, r, Cursor.next?_cut hNext, Or.inr ⟨Cursor.after?_cut_none hNone, m, r',
      hInnerCut, rfl, Or.inr ⟨Cursor.atEnd_of_next? hSymbol, hCloseCut⟩⟩⟩

theorem primary_curtails : Curtails units tail (primary (Layers.within units d)) := by
  intro p n q h hq
  have hReads : Reads units .primary (p ++ tail) n (q ++ tail) :=
    primary_sound (within_sound units d) h
  obtain ⟨t, r, hNext⟩ := next?_of_shorter (hReads.shorter rfl)
  obtain ⟨found, hFound, h⟩ := Attempt.bind_ok.mp h
  obtain rfl := Cursor.next_eq (Cursor.next?_append hNext tail) hFound
  refine Attempt.bind_ok.mpr ⟨_, Cursor.next_ok.mpr hNext, ?_⟩
  obtain ⟨content, place⟩ := t
  cases content with
  | number _ => exact hL.number h hq
  | ident _ => exact hL.ident h hq
  | string x =>
    obtain ⟨rfl, hSame⟩ := Prod.mk.inj (Except.ok.inj h)
    rw [List.append_cancel_right hSame]
    rfl
  | symbol y =>
    cases y <;> first | exact hL.parens h hq | exact hL.lambda h hq | cases h
  | _ => cases h

omit hL in
theorem bangs_curtail (h : Runs factorialStep n ts m rest) (hEnd : rest = q ++ tail)
    (hq : Passes units tail q) :
    ∃ r, ts = r ++ tail ∧ Passes units tail r ∧ Runs factorialStep n r m q := by
  induction h with
  | @done n ts hNone =>
    subst hEnd
    have hNone := Option.map_eq_none_iff.mp (factorialStep_ok.mp hNone).symm
    refine ⟨q, rfl, hq, .done (factorialStep_ok.mpr ?_)⟩
    rw [Cursor.after?_cut_none hNone]
    rfl
  | @more n n' m ts ts' rest hMore hLess hRuns ih =>
    obtain ⟨r', rfl, -, hRuns'⟩ := ih hEnd
    obtain ⟨after, hBang, hNode⟩ := Option.map_eq_some_iff.mp (factorialStep_ok.mp hMore).symm
    obtain ⟨rfl, rfl⟩ := Prod.mk.inj hNode
    obtain ⟨r, rfl, hBangCut⟩ := front_of_after? hBang
    refine ⟨r, rfl, .of_after? hBangCut fun _ => ⟨rfl, rfl⟩, .more (factorialStep_ok.mpr ?_) ?_ hRuns'⟩
    · rw [hBangCut]
      rfl
    · simp only [List.length_append] at hLess
      omega

theorem factorial_curtails : Curtails units tail (factorial (Layers.within units d)) := by
  intro p n q h hq
  obtain ⟨⟨base, mid⟩, hBase, h⟩ := Attempt.bind_ok.mp h
  obtain ⟨r, rfl, hr, hRuns⟩ := bangs_curtail (runs_of_extend factorialStep_takes h) rfl hq
  exact Attempt.bind_ok.mpr ⟨_, hL.primary hBase hr, extend_of_runs hRuns⟩

theorem plainPower_curtails : Curtails units tail (plainPower (Layers.within units d)) := by
  intro p n q h hq
  obtain ⟨base, mid, hBase, ⟨after, m, hPow, hExponent, rfl⟩ | ⟨hNone, rfl, rfl⟩⟩ := plainPower_ok.mp h
  · obtain ⟨r', rfl⟩ := front_of_suffix ((within_leaves units d).power hExponent)
    obtain ⟨r, rfl, hPowCut⟩ := front_of_after? hPow
    have hr : Passes units tail r := .of_after? hPowCut fun _ => ⟨rfl, rfl⟩
    exact plainPower_ok.mpr ⟨base, r, hL.factorial hBase hr,
      Or.inl ⟨r', m, hPowCut, hL.power true hExponent hq, rfl⟩⟩
  · exact plainPower_ok.mpr ⟨n, q, hL.factorial hBase hq,
      Or.inr ⟨Cursor.after?_cut_none hNone, rfl, rfl⟩⟩

theorem power_curtails (allowed : Bool) :
    Curtails units tail (power (Layers.within units d) allowed) := by
  intro p n q h hq
  cases allowed with
  | false => exact plainPower_curtails hL h hq
  | true =>
    rcases power_ok.mp h with ⟨entry, t, after, m, hSelect, hInner, rfl⟩ | ⟨hNone, hPlain⟩
    · obtain ⟨r, rfl⟩ := front_of_suffix ((within_leaves units d).power hInner)
      exact power_ok.mpr (Or.inl ⟨entry, t, r, m, Cursor.select?_cut hSelect,
        hL.power true hInner hq, rfl⟩)
    · exact power_ok.mpr (Or.inr ⟨Cursor.select?_cut_none hNone, plainPower_curtails hL hPlain hq⟩)

/-- A product ends in front of the tail without the tail as well: its loop cannot have reached the
tail. -/
theorem multiplicative_curtails (hStuck : Stuck units tail)
    (hPower : ∀ e < d, ∀ allowed, Curtails units tail ((Layers.within units e).power allowed)) :
    Curtails units tail (multiplicative (Layers.within units d)) := by
  intro p n q h hq
  obtain ⟨⟨base, mid⟩, hBase, h⟩ := Attempt.bind_ok.mp h
  have hRuns := runs_of_extend (continuation_takes units d) h
  obtain ⟨used, -, hDerives⟩ := (within_sound units d).power hBase
  obtain ⟨r, rfl, hr, -⟩ := passes_of_runs (.widen (by decide) hDerives) hRuns rfl hq
  obtain ⟨m, q', hRuns', ⟨rfl, hSame, -⟩ | ⟨-, hShort, -⟩⟩ := runs_in_step hPower hStuck hRuns rfl hr
  · obtain rfl := List.append_cancel_right hSame
    exact multiplicative_of_runs (hL.power true hBase hr) hRuns'
  · simp only [solid, List.filter_append, List.length_append] at hShort
    omega

theorem implicitSum_curtails (hStuck : Stuck units tail)
    (hPower : ∀ e < d, ∀ allowed, Curtails units tail ((Layers.within units e).power allowed)) :
    Curtails units tail (implicitSum (Layers.within units d)) := by
  intro p n q h hq
  rcases implicitSum_ok.mp h with ⟨l, mid, m, hLeft, hProduct, hRight, hPart, rfl⟩ | ⟨hLeft, hDeclined⟩
  · obtain ⟨r, rfl⟩ := front_of_suffix ((within_leaves units d).implicitSum hRight)
    have hr := (opens_of_implicitSum hRight hq).passes
    exact implicitSum_ok.mpr (Or.inl ⟨l, r, m, hL.multiplicative hLeft hr, hProduct,
      hL.implicitSum hRight hq, hPart, rfl⟩)
  · refine implicitSum_ok.mpr (Or.inr ⟨hL.multiplicative hLeft hq, fun hProduct => ?_⟩)
    have hHere := (within_halts units d).multiplicative hLeft
    exact declined_without_tail hPower hStuck hHere hq (hDeclined hProduct)

theorem sums_curtail (h : Runs (sumStep (Layers.within units d)) n ts m rest)
    (hEnd : rest = q ++ tail) (hq : Passes units tail q) :
    ∃ r, ts = r ++ tail ∧ Passes units tail r ∧
      Runs (sumStep (Layers.within units d)) n r m q := by
  induction h with
  | @done n ts hNone =>
    subst hEnd
    refine ⟨q, rfl, hq, .done (sumStep_none_iff.mpr fun entry t r hSelect => ?_)⟩
    obtain ⟨e, he⟩ := sumStep_none_iff.mp hNone _ _ _ (Cursor.select?_append hSelect tail)
    obtain ⟨m, q', hRead, -⟩ := hq.operator_inv (Cursor.select?_eq_some.mp hSelect).1
      (isOperator_of_select? sumOperators_isOperator hSelect)
    exact absurd he hRead.not_implicitSum_error
  | @more n n' m ts ts' rest hMore hLess hRuns ih =>
    obtain ⟨r', rfl, hr', hRuns'⟩ := ih hEnd
    obtain ⟨entry, t, after, summand, hSelect, hRead, rfl⟩ := sumStep_some.mp hMore
    obtain ⟨r₁, rfl⟩ := front_of_suffix ((within_leaves units d).implicitSum hRead)
    obtain ⟨r, rfl⟩ := front_of_suffix (sumStep_takes units d hMore).1
    have hSelectCut := Cursor.select?_cut hSelect
    obtain ⟨base, q', hPower, hq', -⟩ := opens_of_implicitSum hRead hr'
    refine ⟨r, rfl, .operator (Cursor.select?_eq_some.mp hSelectCut).1
      (isOperator_of_select? sumOperators_isOperator hSelect) hPower hq', .more ?_ ?_ hRuns'⟩
    · exact sumStep_some.mpr ⟨entry, t, r₁, summand, hSelectCut, hL.implicitSum hRead hr', rfl⟩
    · simp only [List.length_append] at hLess
      omega

theorem additive_curtails : Curtails units tail (additive (Layers.within units d)) := by
  intro p n q h hq
  obtain ⟨⟨first, mid⟩, hFirst, h⟩ := Attempt.bind_ok.mp h
  obtain ⟨r, rfl, hr, hRuns⟩ := sums_curtail hL (runs_of_extend (sumStep_takes units d) h) rfl hq
  exact additive_of_runs (hL.implicitSum hFirst hr) hRuns

theorem function_curtails : Curtails units tail (function (Layers.within units d)) := by
  intro p n q h hq
  obtain ⟨⟨m, mid⟩, hFirst, hBound⟩ := Attempt.bind_ok.mp h
  obtain ⟨r, hCut, hBoundCut⟩ := binding_curtails hL.additive hL.function
    (within_leaves units d).function (fun _ => ⟨rfl, rfl⟩) hFirst hBound hq
  exact Attempt.bind_ok.mpr ⟨(m, r), hCut, hBoundCut⟩

theorem assignment_curtails : Curtails units tail (assignment (Layers.within units d)) := by
  intro p n q h hq
  obtain ⟨⟨m, mid⟩, hFirst, hBound⟩ := Attempt.bind_ok.mp h
  obtain ⟨r, hCut, hBoundCut⟩ := binding_curtails hL.function hL.assignment
    (within_leaves units d).assignment (fun _ => ⟨rfl, rfl⟩) hFirst hBound hq
  exact Attempt.bind_ok.mpr ⟨(m, r), hCut, hBoundCut⟩

theorem statementRuns_curtail (hTail : next? tail ≠ none)
    (h : Runs (statementStep (Layers.within units d)) n ts m rest) (hEnd : rest = q ++ tail)
    (hq : Passes units tail q) :
    ∃ r, ts = r ++ tail ∧ Passes units tail r ∧ (next? r = none → after? .semicolon ts = none) ∧
      Runs (statementStep (Layers.within units d)) n r m q := by
  induction h with
  | @done n ts hNone =>
    subst hEnd
    have hNone := statementStep_none_iff.mp hNone
    exact ⟨q, rfl, hq, fun _ => hNone, .done (statementStep_none_iff.mpr (Cursor.after?_cut_none hNone))⟩
  | @more n n' m ts ts' rest hMore hLess hRuns ih =>
    obtain ⟨r', rfl, hr', hEnd', hRuns'⟩ := ih hEnd
    obtain ⟨r, rfl⟩ := front_of_suffix (statementStep_takes units d hMore).1
    have hShort : r'.length < r.length := by
      simp only [List.length_append] at hLess
      omega
    obtain ⟨after, hSeparator, hCases⟩ := statementStep_some.mp hMore
    have hAfter : ∃ r₁, after = r₁ ++ tail := by
      rcases hCases with ⟨-, -, rfl⟩ | ⟨-, next, hRead, -⟩
      · exact ⟨r', rfl⟩
      · exact front_of_suffix ((within_leaves units d).assignment hRead)
    obtain ⟨r₁, rfl⟩ := hAfter
    have hCut := Cursor.after?_cut hSeparator
    refine ⟨r, rfl, .of_after? hCut fun _ => ⟨rfl, rfl⟩, fun hNone => ?_, .more ?_ hShort hRuns'⟩
    · obtain ⟨_, hNext⟩ := Cursor.after?_eq_some.mp hCut
      simp [hNone] at hNext
    refine statementStep_some.mpr ⟨r₁, hCut, ?_⟩
    rcases hCases with ⟨hOr, hSame, hRest⟩ | ⟨hOr, next, hRead, hSame⟩
    · -- two separators in a row, the second one also in front of the tail
      obtain rfl := List.append_cancel_right hRest
      rw [atEnd_in_front hTail, Bool.false_or] at hOr
      refine Or.inl ⟨?_, hSame, rfl⟩
      rw [after?_isSome_cut hEnd' hOr, Bool.or_true]
    · obtain ⟨t, mid, hNext⟩ := next?_of_shorter
        (((within_sound units d).assignment hRead).shorter rfl)
      rw [atEnd_in_front hTail, Bool.false_or, Option.isSome_eq_false_iff, Option.isNone_iff_eq_none] at hOr
      refine Or.inr ⟨?_, next, hL.assignment hRead hr', hSame⟩
      rw [Cursor.atEnd_of_next? hNext, Cursor.after?_cut_none hOr]
      rfl

omit hL in
/-- A list of statements reads all tokens, or some of those behind the separators at its start. -/
theorem statements_shorter (h : (statements (Layers.within units d) ts).result = .ok (n, rest)) :
    rest = [] ∨ (solid rest).length < (solid (Cursor.skipSeparators ts)).length := by
  rcases statements_ok.mp h with ⟨-, -, rfl⟩ | ⟨-, first, mid, hFirst, h⟩
  · exact Or.inl rfl
  · have hRuns := runs_of_extend (statementStep_takes units d) h
    have hShort := ((within_sound units d).assignment hFirst).shorter rfl
    have hLength := solid_length_le (hRuns.suffix (statementStep_takes units d))
    exact Or.inr (Nat.lt_of_le_of_lt hLength hShort)

theorem statements_curtails (hTail : next? tail ≠ none) :
    Curtails units tail (statements (Layers.within units d)) := by
  intro p n q h hq
  have hEnd := atEnd_in_front hTail
  rcases Cursor.skipSeparators_append p tail with hSkip | hSkip
  · -- nothing but separators stands in front of the tail, so what is read is read from the tail
    exfalso
    rcases statements_shorter h with hNil | hShort
    · have hEmpty := hEnd q
      rw [hNil] at hEmpty
      cases hEmpty
    · have hLength := solid_length_le (Cursor.skipSeparators_suffix tail)
      have hLength' := solid_length_le (List.suffix_append q tail)
      rw [hSkip] at hShort
      omega
  · have hEnded := hEnd (Cursor.skipSeparators p)
    rw [← hSkip] at hEnded
    rcases statements_ok.mp h with ⟨hNot, -⟩ | ⟨-, first, mid, hFirst, h⟩
    · cases hEnded.symm.trans hNot
    rw [hSkip] at hFirst
    obtain ⟨r, rfl, hr, -, hRuns⟩ := statementRuns_curtail hL hTail
      (runs_of_extend (statementStep_takes units d) h) rfl hq
    obtain ⟨t, after, hNext⟩ := next?_of_shorter
      (((within_sound units d).assignment hFirst).shorter rfl)
    exact statements_ok.mpr (Or.inr ⟨Cursor.atEnd_of_next? hNext, first, r, hL.assignment hFirst hr,
      extend_of_runs hRuns⟩)

end Rules

theorem exhausted_curtailed : Layers.exhausted.Curtailed units tail := by
  constructor
  case power =>
    intro _ p n q h _
    cases h
  all_goals
    intro p n q h _
    cases h

/-- **What is read on a way to the tail is read without the tail**, by every rule under every bound on
the nesting. -/
theorem within_curtailed (hTail : next? tail ≠ none) (hStuck : Stuck units tail) (d : Nat) :
    (Layers.within units d).Curtailed units tail := by
  induction d using Nat.strongRecOn with
  | ind d ih =>
    cases d with
    | zero => exact exhausted_curtailed
    | succ d =>
      have hL := ih d (by omega)
      have hPower : ∀ e < d, ∀ allowed, Curtails units tail ((Layers.within units e).power allowed) :=
        fun e he => (ih e (by omega)).power
      exact {
        expression := hL.statements
        statements := statements_curtails hL hTail
        assignment := assignment_curtails hL
        function := function_curtails hL
        additive := additive_curtails hL
        implicitSum := implicitSum_curtails hL hStuck hPower
        multiplicative := multiplicative_curtails hL hStuck hPower
        power := power_curtails hL
        factorial := factorial_curtails hL
        primary := primary_curtails hL
        number := number_curtails
        ident := ident_curtails hL
        parens := parens_curtails hL hTail
        lambda := lambda_curtails hL }

-- ---------------------------------------------------------------------------
-- Whole sequences of tokens
-- ---------------------------------------------------------------------------

/-- An expression that leaves some token has read some. -/
theorem expression_shorter
    (h : ((Layers.within units d).expression ts).result = .ok (n, rest)) (hRest : rest ≠ []) :
    (solid rest).length < (solid ts).length := by
  match d with
  | 0 => cases h
  | 1 => cases h
  | d + 2 =>
    have hShort := (statements_shorter h).resolve_left hRest
    exact Nat.lt_of_lt_of_le hShort (solid_length_le (Cursor.skipSeparators_suffix ts))

theorem significant_of_ordinary {tokens : List Token} (h : ∀ t ∈ tokens, t.isOrdinary = true) :
    significant tokens = tokens := by
  refine List.filter_eq_self.mpr fun t ht => ?_
  have ht := h t ht
  obtain ⟨content, place⟩ := t
  cases content <;> first | rfl | cases ht

/-- An expression that is followed by blanks alone is what is parsed. -/
theorem parseWithin_of_ended {tokens : List Token} (hSignificant : significant tokens = tokens)
    (h : ((Layers.within units d).expression tokens).result = .ok (n, rest))
    (hEnd : next? rest = none) : (parseWithin d units tokens).result = .ok n := by
  rw [← hSignificant] at h
  exact parseWithin_ok.mpr ⟨rest, h, hEnd⟩

/-- **An expression is read without what it leaves.** -/
theorem expression_leftover {after : List Token}
    (h : ((Layers.within units d).expression ts).result = .ok (n, rest))
    (hNext : next? rest = some (t, after)) :
    t.isBlank = false ∧ ∃ p q, p ≠ [] ∧ ts = p ++ t :: after ∧ next? q = none ∧
      ((Layers.within units d).expression p).result = .ok (n, q) := by
  obtain ⟨q, rfl, hBlanks, ht⟩ := Cursor.next?_split hNext
  obtain ⟨r, rfl⟩ := (within_leaves units d).expression h
  have hTail : next? (t :: after) ≠ none := by
    rw [Cursor.next?_append_of_none hBlanks] at hNext
    simp [hNext]
  have hStuck : Stuck units (t :: after) := by
    rcases (within_halts units d).expression h with hStuck | hEnd
    · exact hStuck.congr (Cursor.next?_append_of_none hBlanks _)
    · simp [hNext] at hEnd
  have hShort := expression_shorter h (by simp)
  rw [← List.append_assoc] at h hShort
  refine ⟨ht, r ++ q, q, ?_, (List.append_assoc ..).symm, hBlanks,
    (within_curtailed hTail hStuck d).expression h (.ended hBlanks)⟩
  intro hNil
  obtain ⟨rfl, rfl⟩ := List.append_eq_nil_iff.mp hNil
  exact Nat.lt_irrefl _ hShort

/-- Of tokens that expressions are written with, none but those left over are unexpected input. -/
theorem leftover_of_unexpectedInput {tokens : List Token}
    (hOrdinary : ∀ t ∈ tokens, t.isOrdinary = true)
    (h : (parseWithin d units tokens).result = .error (.error (.unexpectedInput t))) :
    ∃ n rest after, ((Layers.within units d).expression tokens).result = .ok (n, rest) ∧
      next? rest = some (t, after) := by
  have hAll := significant_of_ordinary hOrdinary
  have hSolid : AllSolid (fun t => t.isOrdinary = true) (significant tokens) := by
    rw [hAll]
    exact fun t ht => hOrdinary t (List.mem_filter.mp ht).1
  rcases parseWithin_reports d units hSolid with ⟨n, hOk⟩ | ⟨e, he, hCase⟩
  · cases hOk.symm.trans h
  obtain rfl := Stop.error.inj (Except.error.inj (he.symm.trans h))
  rcases hCase with hReported | hDeep | ⟨n, rest, u, hRead, hPeek, hSame⟩
  · cases hReported with
    | unexpectedInput ht hNot => simp [ht] at hNot
  · cases hDeep
  · obtain rfl := ParseError.unexpectedInput.inj hSame
    obtain ⟨⟨_, after⟩, hNext, rfl⟩ := Option.map_eq_some_iff.mp hPeek
    rw [hAll] at hRead
    exact ⟨n, rest, after, hRead, hNext⟩

/-- **The error for input that is left over marks the end of a valid expression.** -/
theorem parseWithin_leftover (depth : Nat) (units : List String) {tokens : List Token}
    (hOrdinary : ∀ t ∈ tokens, t.isOrdinary = true) {t : Token}
    (h : (parseWithin depth units tokens).result = .error (.error (.unexpectedInput t))) :
    t.isBlank = false ∧ ∃ k n rest, 1 ≤ k ∧ tokens[k]? = some t ∧
      ((Layers.within units depth).expression tokens).result = .ok (n, rest) ∧
        next? rest = some (t, tokens.drop (k + 1)) ∧
          (parseWithin depth units (tokens.take k)).result = .ok n := by
  obtain ⟨n, rest, after, hRead, hNext⟩ := leftover_of_unexpectedInput hOrdinary h
  obtain ⟨ht, p, q, hp, rfl, hEnd, hFront⟩ := expression_leftover hRead hNext
  refine ⟨ht, p.length, n, rest, List.length_pos_iff.mpr hp, by simp, hRead, ?_, ?_⟩
  · rw [hNext, List.drop_append]
    simp
  · rw [List.take_left]
    have hFirst := significant_of_ordinary fun t ht => hOrdinary t (List.mem_append_left _ ht)
    exact parseWithin_of_ended hFirst hFront hEnd

/-- `6 feet - 3 / )`: the `-` begins no inches, and behind it `3` is no quotient. -/
theorem unfinished_quotient_leftover :
    let tokens : List Token :=
      [⟨.number (.fraction 6), ⟨1, 1⟩⟩, ⟨.ident "feet", ⟨1, 3⟩⟩, ⟨.symbol .sub, ⟨1, 8⟩⟩,
       ⟨.number (.fraction 3), ⟨1, 10⟩⟩, ⟨.symbol .div, ⟨1, 12⟩⟩, ⟨.symbol .closeParens, ⟨1, 14⟩⟩]
    let t : Token := ⟨.symbol .div, ⟨1, 12⟩⟩
    (∀ u ∈ tokens, u.isOrdinary = true) ∧
      (parse [] tokens).result = .error (.error (.unexpectedInput t)) ∧
      t.isBlank = false ∧ ∃ k n rest, 1 ≤ k ∧ tokens[k]? = some t ∧
        ((Layers.within [] maxNesting).expression tokens).result = .ok (n, rest) ∧
          next? rest = some (t, tokens.drop (k + 1)) ∧
            (parse [] (tokens.take k)).result = .ok n := by
  intro tokens t
  have hOrdinary : ∀ u ∈ tokens, u.isOrdinary = true := by decide
  have hLeft : (parse [] tokens).result = .error (.error (.unexpectedInput t)) := rfl
  exact ⟨hOrdinary, hLeft, parseWithin_leftover maxNesting [] hOrdinary hLeft⟩

end Grammar

end Reckoner
