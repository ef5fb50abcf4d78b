import Reckoner.Proofs.Grammar.Alone
import Reckoner.Proofs.Grammar.Phrases

/-!
# Two notations of a function

`\x.body` and `x => body` are the same function, and its body extends to the same place: one rule
reads it in both notations. But the first one is a primary expression, and the second one is none. So
the first one may go on behind its body, with what the body could not take in: `\x.2 3` is the function
applied to `3`, while in `x => 2 3` the `3` is left over. This is the only difference. A tree that begins
with the function itself is parsed from one notation if it is parsed from the other.

From the arrow to the backslash, nothing goes on from `\x.body` in front of a separator or at the end
(`assignment_of_primary`). From the backslash to the arrow, all rules between a statement and `\x.body`
have left it as it is, since it is a function still (`primary_of_statement`).

## Results

* `primary_backslashed`, `function_arrowed` — the body is read by the same rule.
* `same_body`              — so it extends to the same place.
* `backslashed_of_arrowed` — what an arrow is parsed into, a backslash is parsed into.
* `arrowed_of_backslashed` — and the other way round, if nothing is built on the function.
* `parseWithin_notations`  — all three.
-/

namespace Reckoner

namespace Grammar

open Cursor (next? after? Meets)

variable {units : List String} {depth d d' : Nat} {n m : Node} {ts rest : List Token} {t : Token}

-- ---------------------------------------------------------------------------
-- Both notations
-- ---------------------------------------------------------------------------

/-- `\x.` and the tokens behind it. -/
def backslashed (x : String) (p q r : Place) (ts : List Token) : List Token :=
  ⟨.symbol .backslash, p⟩ :: ⟨.ident x, q⟩ :: ⟨.symbol .dot, r⟩ :: ts

/-- `x =>` and the tokens behind it. -/
def arrowed (x : String) (p q : Place) (ts : List Token) : List Token :=
  ⟨.ident x, p⟩ :: ⟨.symbol .arrow, q⟩ :: ts

theorem significant_backslashed (x : String) (p q r : Place) (ts : List Token) :
    significant (backslashed x p q r ts) = backslashed x p q r (significant ts) := rfl

theorem significant_arrowed (x : String) (p q : Place) (ts : List Token) :
    significant (arrowed x p q ts) = arrowed x p q (significant ts) := rfl

/-- Behind `\x.` a function body is read. -/
theorem primary_backslashed (x : String) (p q r : Place) :
    ((Layers.within units (d + 2)).primary (backslashed x p q r ts)).result = .ok (n, rest) ↔
      ∃ body, ((Layers.within units d).function ts).result = .ok (body, rest) ∧
        n = .named .function (.text x) body p := by
  constructor
  · intro h
    obtain ⟨_, _, _, mid, after, body, hNext, hDot, hBody, rfl⟩ := lambda_ok.mp h
    cases hNext
    cases hDot
    exact ⟨body, hBody, rfl⟩
  · rintro ⟨body, hBody, rfl⟩
    exact primary_lambda x p q r hBody

/-- In front of an arrow a sum is the identifier there. -/
theorem additive_arrowed (x : String) (p q : Place) (ts : List Token) :
    ((Layers.within units 8).additive (arrowed x p q ts)).result =
      .ok (.ident x p, ⟨.symbol .arrow, q⟩ :: ts) :=
  Phrase.additive_ident x p (Cursor.closes_cons (by decide) q ts)

/-- Behind `x =>` a function body is read. -/
theorem function_arrowed (x : String) (p q : Place)
    (h : ((Layers.within units (d + 1)).function (arrowed x p q ts)).result = .ok (n, rest)) :
    ∃ body, ((Layers.within units d).function ts).result = .ok (body, rest) ∧
      n = .named .function (.text x) body p := by
  obtain ⟨name, mid, hName, hCases⟩ := function_ok.mp h
  have hSame := ((within_below units (Nat.le_max_right 8 d)).additive _).ok hName
  rw [((within_below units (Nat.le_max_left 8 d)).additive _).ok (additive_arrowed x p q ts)] at hSame
  obtain ⟨rfl, rfl⟩ := Prod.mk.inj (Except.ok.inj hSame)
  rcases hCases with ⟨after, body, hAfter, -, hBody, rfl⟩ | ⟨hNone, -⟩
  · cases hAfter
    exact ⟨body, hBody, rfl⟩
  · cases hNone

theorem function_of_body (x : String) (p q : Place) (hd : 8 ≤ d)
    (h : ((Layers.within units d).function ts).result = .ok (n, rest)) :
    ((Layers.within units (d + 1)).function (arrowed x p q ts)).result =
      .ok (.named .function (.text x) n p, rest) :=
  function_arrow (((within_below units hd).additive _).ok (additive_arrowed x p q ts)) h

/-- **The body extends to the same place in both notations.** -/
theorem same_body (units : List String) (x : String) (p q r p' q' : Place) (ts : List Token)
    (body : Node) (rest : List Token) :
    (∃ d, ((Layers.within units d).primary (backslashed x p q r ts)).result =
        .ok (.named .function (.text x) body p, rest)) ↔
      ∃ d, ((Layers.within units d).function (arrowed x p' q' ts)).result =
        .ok (.named .function (.text x) body p', rest) := by
  constructor
  · rintro ⟨d, h⟩
    obtain ⟨n, hBody, hSame⟩ := (primary_backslashed x p q r).mp
      (((within_below units (Nat.le_add_right d 2)).primary _).ok h)
    obtain rfl : body = n := (List.cons.inj (congrArg Node.children hSame)).1
    have hBody := ((within_below units (Nat.le_add_right d 8)).function _).ok hBody
    exact ⟨d + 9, function_of_body x p' q' (Nat.le_add_left 8 d) hBody⟩
  · rintro ⟨d, h⟩
    obtain ⟨n, hBody, hSame⟩ := function_arrowed x p' q'
      (((within_below units (Nat.le_succ d)).function _).ok h)
    obtain rfl : body = n := (List.cons.inj (congrArg Node.children hSame)).1
    exact ⟨d + 2, (primary_backslashed x p q r).mpr ⟨body, hBody, rfl⟩⟩

-- ---------------------------------------------------------------------------
-- The statements behind a first one
-- ---------------------------------------------------------------------------

/-- The tree is a function, or statements of which the first one is. -/
inductive OpensWithFunction : Node → Prop
  | function {n : Node} (h : n.kind = .function) : OpensWithFunction n
  | statements {n m : Node} (h : OpensWithFunction n) : OpensWithFunction (.pair .statements n m)

theorem opensWithFunction_pair : OpensWithFunction (.pair .statements n m) ↔ OpensWithFunction n := by
  constructor
  · intro h
    generalize hPair : Node.pair .statements n m = whole at h
    cases h with
    | function h =>
      rw [← hPair] at h
      cases h
    | @statements n' m' h =>
      obtain rfl : n = n' := (List.cons.inj (congrArg Node.children hPair)).1
      exact h
  · exact .statements

theorem withoutPlaces_pair {n' : Node} (k : Kind) (h : n'.withoutPlaces = n.withoutPlaces) (m : Node) :
    (Node.pair k n' m).withoutPlaces = (Node.pair k n m).withoutPlaces := by
  simp [Node.pair, Node.withoutPlaces, Node.allWithoutPlaces, h]

/-- The first statement stays the first one. -/
theorem Runs.opens {L : Layers} (h : Runs (statementStep L) n ts m rest) :
    OpensWithFunction m ↔ OpensWithFunction n := by
  induction h with
  | done _ => exact .rfl
  | more hStep _ _ ih =>
    obtain ⟨after, -, ⟨-, rfl, -⟩ | ⟨-, l, -, rfl⟩⟩ := statementStep_some.mp hStep
    · exact ih
    · exact ih.trans opensWithFunction_pair

/-- The first statement is not looked at by those behind it. -/
theorem Runs.replaced {L : Layers} (h : Runs (statementStep L) n ts m rest) (n' : Node)
    (hSame : n'.withoutPlaces = n.withoutPlaces) :
    ∃ m', Runs (statementStep L) n' ts m' rest ∧ m'.withoutPlaces = m.withoutPlaces := by
  induction h generalizing n' with
  | done hNone =>
    exact ⟨n', .done (statementStep_none_iff.mpr (statementStep_none_iff.mp hNone)), hSame⟩
  | more hStep hLess _ ih =>
    obtain ⟨after, hAfter, ⟨hIdle, rfl, rfl⟩ | ⟨hNext, l, hRead, rfl⟩⟩ := statementStep_some.mp hStep
    · obtain ⟨m', hRuns, hSame⟩ := ih n' hSame
      refine ⟨m', .more (statementStep_some.mpr ?_) hLess hRuns, hSame⟩
      exact ⟨_, hAfter, Or.inl ⟨hIdle, rfl, rfl⟩⟩
    · obtain ⟨m', hRuns, hSame⟩ := ih _ (withoutPlaces_pair .statements hSame l)
      refine ⟨m', .more (statementStep_some.mpr ?_) hLess hRuns, hSame⟩
      exact ⟨after, hAfter, Or.inr ⟨hNext, l, hRead, rfl⟩⟩

/-- Statements go on behind a separator, or not at all. -/
theorem Runs.meets {L : Layers} (h : Runs (statementStep L) n ts m rest) (hEnd : next? rest = none) :
    Meets (followers .assignment) ts := by
  cases h with
  | done _ => exact Cursor.meets_of_none hEnd
  | more hStep _ _ =>
    obtain ⟨after, hAfter, -⟩ := statementStep_some.mp hStep
    obtain ⟨p, hNext⟩ := Cursor.after?_eq_some.mp hAfter
    exact Cursor.meets_of_next? hNext (by decide)

theorem Runs.above (hd : d ≤ d') (h : Runs (statementStep (Layers.within units d)) n ts m rest) :
    Runs (statementStep (Layers.within units d')) n ts m rest := by
  have hBelow := extend_below (statementStep_below (within_below units hd)) n ts
  exact runs_of_extend (statementStep_takes units d') (hBelow.ok (extend_of_runs h))

/-- Statements begin with the first one, and the loop takes those behind it. -/
theorem statements_begin (ht : t.canBegin = true) :
    (statements (Layers.within units d) (t :: ts)).result = .ok (n, rest) ↔
      ∃ first mid, ((Layers.within units d).assignment (t :: ts)).result = .ok (first, mid) ∧
        Runs (statementStep (Layers.within units d)) first mid n rest := by
  rw [statements_of_canBegin ht]
  constructor
  · rintro ⟨first, mid, hFirst, hLoop⟩
    exact ⟨first, mid, hFirst, runs_of_extend (statementStep_takes units d) hLoop⟩
  · rintro ⟨first, mid, hFirst, hRuns⟩
    exact ⟨first, mid, hFirst, extend_of_runs hRuns⟩

-- ---------------------------------------------------------------------------
-- Whole sequences of tokens
-- ---------------------------------------------------------------------------

/-- **What an arrow is parsed into, a backslash is parsed into**, eight rules more deeply. -/
theorem backslashed_of_arrowed (x : String) (p q r p' q' : Place)
    (h : (parseWithin depth units (arrowed x p' q' ts)).result = .ok n) :
    ∃ m, OpensWithFunction m ∧ m.withoutPlaces = n.withoutPlaces ∧
      (parseWithin (depth + 8) units (backslashed x p q r ts)).result = .ok m := by
  obtain ⟨rest, hRead, hEnd⟩ := parseWithin_ok.mp h
  rw [significant_arrowed] at hRead
  obtain ⟨d, rfl, hRead⟩ := expression_deep hRead
  obtain ⟨first, mid, hFirst, hRuns⟩ := (statements_begin rfl).mp hRead
  -- the first statement is the function
  obtain _ | _ | d := d
  · cases hFirst
  · obtain ⟨_, _, hFirst, -⟩ := assignment_ok.mp hFirst
    cases hFirst
  obtain ⟨m, mid', hFunction, hCases⟩ := assignment_ok.mp hFirst
  obtain ⟨body, hBody, rfl⟩ := function_arrowed x p' q' hFunction
  obtain ⟨rfl, rfl⟩ : first = .named .function (.text x) body p' ∧ mid = mid' := by
    rcases hCases with ⟨_, _, -, hKind, -⟩ | ⟨-, hSame⟩
    · cases hKind
    · exact hSame
  -- and so is the primary expression, which nothing goes on from
  have hPrimary := (primary_backslashed x p q r).mpr ⟨body, hBody, rfl⟩
  have hStatement := assignment_of_primary hPrimary (hRuns.meets hEnd)
  obtain ⟨m, hRuns', hSame⟩ := hRuns.replaced (.named .function (.text x) body p) rfl
  refine ⟨m, hRuns'.opens.mpr (.function rfl), hSame, parseWithin_ok.mpr ⟨rest, ?_, hEnd⟩⟩
  rw [significant_backslashed]
  exact (statements_begin rfl).mpr ⟨_, mid, hStatement, hRuns'.above (by omega)⟩

/-- **What a backslash is parsed into, an arrow is parsed into**, if nothing is built on the
function. -/
theorem arrowed_of_backslashed (x : String) (p q r p' q' : Place)
    (h : (parseWithin depth units (backslashed x p q r ts)).result = .ok n)
    (hOpens : OpensWithFunction n) :
    ∃ m, m.withoutPlaces = n.withoutPlaces ∧
      (parseWithin depth units (arrowed x p' q' ts)).result = .ok m := by
  obtain ⟨rest, hRead, hEnd⟩ := parseWithin_ok.mp h
  rw [significant_backslashed] at hRead
  obtain ⟨d, rfl, hRead⟩ := expression_deep hRead
  obtain ⟨first, mid, hFirst, hRuns⟩ := (statements_begin rfl).mp hRead
  have hFunction : first.kind = .function := by
    obtain ⟨_, _, hDerives⟩ := (within_sound units d).assignment hFirst
    cases hRuns.opens.mp hOpens with
    | function hKind => exact hKind
    | statements _ => exact absurd rfl (hDerives.kind_ne_statements rfl)
  -- nothing is built on the primary expression
  obtain ⟨e, rfl, hPrimary, hEquals⟩ := primary_of_statement rfl hFirst hFunction
  obtain _ | _ | e := e
  · cases hPrimary
  · cases hPrimary
  obtain ⟨body, hBody, rfl⟩ := (primary_backslashed x p q r).mp hPrimary
  obtain _ | e := e
  · cases hBody
  have hBody := ((within_below units (Nat.le_add_right (e + 1) 7)).function _).ok hBody
  have hFunction := function_of_body x p' q' (by omega) hBody
  have hStatement : ((Layers.within units (e + 10)).assignment
      (arrowed x p' q' (significant ts))).result = .ok (.named .function (.text x) body p', mid) :=
    assignment_ok.mpr ⟨_, mid, hFunction, Or.inr ⟨hEquals, rfl, rfl⟩⟩
  obtain ⟨m, hRuns', hSame⟩ := hRuns.replaced (.named .function (.text x) body p') rfl
  refine ⟨m, hSame, parseWithin_ok.mpr ⟨rest, ?_, hEnd⟩⟩
  rw [significant_arrowed]
  exact (statements_begin rfl).mpr ⟨_, mid, hStatement, hRuns'⟩

/-- **The two notations of a function are parsed alike**, unless something is built on the function,
which only a backslash allows. The body extends to the same place in both of them. A backslash nests up
to eight rules more deeply. -/
theorem parseWithin_notations (depth : Nat) (units : List String) (x : String) (p q r p' q' : Place)
    (tokens : List Token) :
    (∀ n, (parseWithin depth units (arrowed x p' q' tokens)).result = .ok n →
      ∃ m, OpensWithFunction m ∧ m.withoutPlaces = n.withoutPlaces ∧ ∀ depth',
        (depth + 8 ≤ depth' → (parseWithin depth' units (backslashed x p q r tokens)).result = .ok m) ∧
          ((parseWithin depth' units (backslashed x p q r tokens)).result = .ok m ∨
            (parseWithin depth' units (backslashed x p q r tokens)).result = .error (.error .tooDeep))) ∧
    (∀ m, (parseWithin depth units (backslashed x p q r tokens)).result = .ok m →
      (OpensWithFunction m → ∃ n, n.withoutPlaces = m.withoutPlaces ∧ ∀ depth',
        (depth ≤ depth' → (parseWithin depth' units (arrowed x p' q' tokens)).result = .ok n) ∧
          ((parseWithin depth' units (arrowed x p' q' tokens)).result = .ok n ∨
            (parseWithin depth' units (arrowed x p' q' tokens)).result = .error (.error .tooDeep))) ∧
      (¬ OpensWithFunction m → ∀ depth' n,
        (parseWithin depth' units (arrowed x p' q' tokens)).result ≠ .ok n)) ∧
    ∀ body rest,
      (∃ d, ((Layers.within units d).primary (backslashed x p q r tokens)).result =
          .ok (.named .function (.text x) body p, rest)) ↔
        ∃ d, ((Layers.within units d).function (arrowed x p' q' tokens)).result =
          .ok (.named .function (.text x) body p', rest) := by
  refine ⟨fun n h => ?_, fun m h => ⟨fun hOpens => ?_, fun hOther depth' n h' => ?_⟩,
    fun body rest => same_body units x p q r p' q' tokens body rest⟩
  · obtain ⟨m, hOpens, hSame, hParsed⟩ := backslashed_of_arrowed x p q r p' q' h
    exact ⟨m, hOpens, hSame, parseWithin_allowed hParsed⟩
  · obtain ⟨n, hSame, hParsed⟩ := arrowed_of_backslashed x p q r p' q' h hOpens
    exact ⟨n, hSame, parseWithin_allowed hParsed⟩
  · obtain ⟨m', hOpens, -, hParsed⟩ := backslashed_of_arrowed x p q r p' q' h'
    rcases parseWithin_ok_or_tooDeep hParsed depth with hSame | hDeep
    · obtain rfl := Except.ok.inj (h.symm.trans hSame)
      exact hOther hOpens
    · rw [h] at hDeep
      cases hDeep

/-- `x => 2 a; 3` and `\x.2 a; 3`, and `\x.2 3`, which no arrow is parsed into. -/
theorem functions_in_both_notations :
    let quantity : List Token :=
      [⟨.number (.fraction 2), ⟨1, 6⟩⟩, ⟨.ident "a", ⟨1, 8⟩⟩, ⟨.symbol .semicolon, ⟨1, 9⟩⟩,
       ⟨.number (.fraction 3), ⟨1, 11⟩⟩]
    let tree (p : Place) : Node :=
      .pair .statements
        (.named .function (.text "x")
          (.pair .product (.number (.fraction 2) ⟨1, 6⟩) (.ident "a" ⟨1, 8⟩)) p)
        (.number (.fraction 3) ⟨1, 11⟩)
    let numbers : List Token := [⟨.number (.fraction 2), ⟨1, 6⟩⟩, ⟨.number (.fraction 3), ⟨1, 8⟩⟩]
    let call : Node :=
      .pair .call (.named .function (.text "x") (.number (.fraction 2) ⟨1, 6⟩) ⟨1, 1⟩)
        (.number (.fraction 3) ⟨1, 8⟩)
    (parseWithin 40 [] (arrowed "x" ⟨1, 1⟩ ⟨1, 3⟩ quantity)).result = .ok (tree ⟨1, 1⟩) ∧
      40 + 8 ≤ maxNesting ∧
      (∃ m, m.withoutPlaces = (tree ⟨1, 1⟩).withoutPlaces ∧
        (parse [] (backslashed "x" ⟨1, 1⟩ ⟨1, 2⟩ ⟨1, 3⟩ quantity)).result = .ok m) ∧
      (parseWithin 40 [] (backslashed "x" ⟨1, 1⟩ ⟨1, 2⟩ ⟨1, 3⟩ quantity)).result = .ok (tree ⟨1, 1⟩) ∧
      OpensWithFunction (tree ⟨1, 1⟩) ∧
      (∃ n, n.withoutPlaces = (tree ⟨1, 1⟩).withoutPlaces ∧
        (parse [] (arrowed "x" ⟨1, 1⟩ ⟨1, 3⟩ quantity)).result = .ok n) ∧
      (parseWithin 40 [] (backslashed "x" ⟨1, 1⟩ ⟨1, 2⟩ ⟨1, 3⟩ numbers)).result = .ok call ∧
      ¬ OpensWithFunction call ∧
      ∀ n, (parse [] (arrowed "x" ⟨1, 1⟩ ⟨1, 3⟩ numbers)).result ≠ .ok n := by
  intro quantity tree numbers call
  have hArrow : (parseWithin 40 [] (arrowed "x" ⟨1, 1⟩ ⟨1, 3⟩ quantity)).result =
      .ok (tree ⟨1, 1⟩) := rfl
  have hSlash : (parseWithin 40 [] (backslashed "x" ⟨1, 1⟩ ⟨1, 2⟩ ⟨1, 3⟩ quantity)).result =
      .ok (tree ⟨1, 1⟩) := rfl
  have hOpens : OpensWithFunction (tree ⟨1, 1⟩) := .statements (.function rfl)
  have hCall : (parseWithin 40 [] (backslashed "x" ⟨1, 1⟩ ⟨1, 2⟩ ⟨1, 3⟩ numbers)).result =
      .ok call := rfl
  have hOther : ¬ OpensWithFunction call := by
    intro h
    generalize hEq : call = n at h
    cases h with
    | function hKind => cases (congrArg Node.kind hEq).trans hKind
    | statements _ => cases congrArg Node.kind hEq
  obtain ⟨hThere, hBack, -⟩ :=
    parseWithin_notations 40 [] "x" ⟨1, 1⟩ ⟨1, 2⟩ ⟨1, 3⟩ ⟨1, 1⟩ ⟨1, 3⟩ quantity
  obtain ⟨m, -, hSame, hParsed⟩ := hThere _ hArrow
  obtain ⟨n, hSame', hParsed'⟩ := (hBack _ hSlash).1 hOpens
  obtain ⟨-, hNone, -⟩ := parseWithin_notations 40 [] "x" ⟨1, 1⟩ ⟨1, 2⟩ ⟨1, 3⟩ ⟨1, 1⟩ ⟨1, 3⟩ numbers
  exact ⟨hArrow, by decide, ⟨m, hSame, (hParsed maxNesting).1 (by decide)⟩, hSlash, hOpens,
    ⟨n, hSame', (hParsed' maxNesting).1 (by decide)⟩, hCall, hOther, (hNone _ hCall).2 hOther maxNesting⟩

/-- `\x.2 3` is a function applied to `3`, and `x => 2 3` has a number left over. -/
theorem applied_function_not_arrowed :
    let body : List Token :=
      [⟨.number (.fraction 2), ⟨1, 6⟩⟩, ⟨.blank " ", ⟨1, 7⟩⟩, ⟨.number (.fraction 3), ⟨1, 8⟩⟩]
    (parse [] (backslashed "x" ⟨1, 1⟩ ⟨1, 2⟩ ⟨1, 3⟩ body)).result =
        .ok (.pair .call (.named .function (.text "x") (.number (.fraction 2) ⟨1, 6⟩) ⟨1, 1⟩)
          (.number (.fraction 3) ⟨1, 8⟩)) ∧
      (parse [] (arrowed "x" ⟨1, 1⟩ ⟨1, 3⟩ body)).result =
        .error (.error (.unexpectedInput ⟨.number (.fraction 3), ⟨1, 8⟩⟩)) :=
  ⟨rfl, rfl⟩

end Grammar

end Reckoner
