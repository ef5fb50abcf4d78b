import Reckoner.Proofs.Grammar.Alone
import Reckoner.Proofs.Grammar.Inventory
import Reckoner.Proofs.Grammar.Ranges
import Reckoner.Proofs.Grammar.Unclosed

/-!
# Expressions in parentheses

Whatever is parsed may be put in parentheses, and the tree is that of the expression in parentheses,
unless the expression ends in `(` or in a separator: `(` and `)` together are the empty value, and behind
a separator in parentheses a statement has to follow.

An expression may leave parentheses open at its end, and then the `)` around it closes the innermost of
them, and the `(` around it is left open in its place. So all the closing parentheses that are missing
are written out first. With them the expression is read inside of the parentheses as by itself, side by
side, up to the last `)`; then those that were not there are taken away again, side by side once more.

## Results

* `primary_enclosed`       — with every closing parenthesis, the expression in parentheses is read.
* `parseWithin_of_primary` — a primary expression and blanks are what is parsed.
* `parseWithin_enclosed`   — an expression is parsed in parentheses as by itself.
-/

namespace Reckoner

namespace Grammar

open Cursor (next? after? solid Meets)

variable {units : List String} {depth d : Nat} {n : Node} {ts rest closers : List Token} {t : Token}

-- ---------------------------------------------------------------------------
-- The tokens of a whole expression
-- ---------------------------------------------------------------------------

/-- What is parsed opens the parentheses that it closes. -/
theorem closed_le_opened {tokens : List Token} (h : (parseWithin depth units tokens).result = .ok n) :
    (tokens.countP fun t => t.isSymbol .closeParens) ≤
      tokens.countP fun t => t.isSymbol .openParens := by
  have hClosed := (parseWithin_derives h).accounted.closeParens
  rw [tally_solid_significant] at hClosed
  exact hClosed

/-- An expression does not begin with a `)`. -/
theorem not_closed_at_start (h : ((Layers.within units d).expression ts).result = .ok (n, rest)) :
    after? .closeParens ts = none := by
  obtain ⟨d, rfl, h⟩ := expression_deep h
  cases hClose : after? .closeParens ts with
  | none => rfl
  | some after =>
    exfalso
    obtain ⟨p, hNext⟩ := Cursor.after?_eq_some.mp hClose
    have hSkip := Cursor.skipSeparators_of_next? hNext (by rfl)
    rcases statements_ok.mp h with ⟨hEnd, -⟩ | ⟨-, first, mid, hFirst, -⟩
    · rw [hSkip] at hEnd
      cases hEnd
    · rw [hSkip] at hFirst
      obtain ⟨used, hUsed, hDerives⟩ := (within_sound units d).assignment hFirst
      obtain ⟨t, us, rfl, ht⟩ := hDerives.begins rfl
      obtain ⟨rfl, -⟩ := List.cons.inj hUsed
      cases ht

-- ---------------------------------------------------------------------------
-- Inside of parentheses
-- ---------------------------------------------------------------------------

/-- **With every closing parenthesis, an expression in parentheses is read**, and nothing but blanks is
left of it. -/
theorem primary_enclosed (p : Place) (hSome : next? ts ≠ none) (hOpen : LeavesOpen 1 ts closers)
    (h : ((Layers.within units d).expression ts).result = .ok (n, rest)) (hEnd : next? rest = none) :
    ∃ after, ((Layers.within units (d + 2)).primary
        (⟨.symbol .openParens, p⟩ :: (ts ++ closers))).result = .ok (.wrap .parens n p, after) ∧
      next? after = none := by
  have hSqueeze := squeeze_append_closers hOpen.closing false ts
  have hFresh : closersAside.Fresh 1 ts (ts ++ closers) :=
    ⟨⟨closers, hSqueeze, hOpen⟩, fun hNone => absurd hNone hSome⟩
  have hAgrees := (within_paired closersAside_lawful.toCoherent
    (same_trees closersAside_lawful units) d).expression trivial hFresh
  obtain ⟨hBuilds, hSame⟩ := hAgrees.built
  obtain ⟨⟨m, mid⟩, hRead⟩ := hBuilds.mp ⟨_, h⟩
  obtain ⟨rfl, owed, hMid, hOwed⟩ := hSame _ _ h hRead
  -- one `)` is left, and nothing behind it
  rw [squeeze_of_next?_none hEnd, List.nil_append] at hMid
  obtain ⟨c, hOne⟩ := List.length_eq_one_iff.mp (hOwed.owes.eq_of_none hEnd)
  obtain ⟨q, rfl⟩ := closer_eq (hOwed.closing c (by simp [hOne]))
  rw [hOne] at hMid
  obtain ⟨after, hNext, hAfter⟩ := next?_of_squeeze_cons hMid
  refine ⟨after, parens_ok.mpr ⟨p, ts ++ closers, rfl, Or.inr ⟨?_, _, mid, hRead, rfl, Or.inr ?_⟩⟩,
    next?_none_of_squeeze hAfter⟩
  · obtain ⟨found, hFound⟩ := Option.ne_none_iff_exists'.mp hSome
    exact Cursor.after?_append_none (t := found.1) (r := found.2) hFound (not_closed_at_start h) closers
  · exact ⟨Cursor.atEnd_of_next? hNext, Cursor.after?_eq_some.mpr ⟨q, hNext⟩⟩

-- ---------------------------------------------------------------------------
-- Whole sequences of tokens
-- ---------------------------------------------------------------------------

/-- A token that is not idle is among those that are parsed. -/
theorem next?_significant_ne_none {tokens : List Token} (h : ∃ t ∈ tokens, isIdle t = false) :
    next? (significant tokens) ≠ none := by
  obtain ⟨t, hMem, hIdle⟩ := h
  simp only [isIdle, Bool.or_eq_false_iff] at hIdle
  exact Cursor.next?_ne_none ⟨t, List.mem_filter.mpr ⟨hMem, by simp [hIdle]⟩, hIdle.1.1⟩

/-- **A primary expression that leaves nothing but blanks is what is parsed.** -/
theorem parseWithin_of_primary {tokens : List Token} {after : List Token} (ht : t.canBegin = true)
    (hTokens : significant tokens = t :: ts)
    (h : ((Layers.within units (d + 2)).primary (t :: ts)).result = .ok (n, after))
    (hEnd : next? after = none) : (parseWithin (d + 12) units tokens).result = .ok n := by
  have hStatement := assignment_of_primary h (Cursor.meets_of_none hEnd)
  have hNone : after? .semicolon after = none := by simp [Cursor.after?, hEnd]
  refine parseWithin_ok.mpr ⟨after, ?_, hEnd⟩
  rw [hTokens]
  exact (statements_of_canBegin ht).mpr
    ⟨n, after, hStatement, extend_of_runs (.done (statementStep_none_iff.mpr hNone))⟩

/-- Behind a `)` no expression is left to start. -/
theorem settled_enclosed (p q : Place) (tokens : List Token) :
    Settled (significant (⟨.symbol .openParens, p⟩ :: (tokens ++ [⟨.symbol .closeParens, q⟩]))) := by
  intro u hu
  have hSolid : solid (significant
      (⟨.symbol .openParens, p⟩ :: (tokens ++ [⟨.symbol .closeParens, q⟩]))) =
      ⟨.symbol .openParens, p⟩ :: (solid (significant tokens) ++ [⟨.symbol .closeParens, q⟩]) := by
    simp [solid, significant, Token.isFinish, Token.isBlank]
  rw [hSolid, ← List.cons_append, List.getLast?_concat] at hu
  obtain rfl := Option.some.inj hu
  exact ⟨rfl, rfl⟩

/-- **An expression in parentheses is parsed as by itself**, if it does not end in `(` or in a separator.
It nests twelve rules more deeply. -/
theorem parseWithin_enclosed (p q : Place) {tokens : List Token}
    (hSome : ∃ t ∈ tokens, isIdle t = false) (hLast : Settled (significant tokens))
    (h : (parseWithin depth units tokens).result = .ok n) (depth' : Nat) :
    let enclosed := ⟨.symbol .openParens, p⟩ :: (tokens ++ [⟨.symbol .closeParens, q⟩])
    (depth + 12 ≤ depth' → (parseWithin depth' units enclosed).result = .ok (.wrap .parens n p)) ∧
      ((parseWithin depth' units enclosed).result = .ok (.wrap .parens n p) ∨
        (parseWithin depth' units enclosed).result = .error (.error .tooDeep)) := by
  intro enclosed
  refine parseWithin_allowed ?_ depth'
  -- the closing parentheses that the expression lacks by itself
  have hOpened := closed_le_opened h
  generalize hOwed : (tokens.countP fun t => t.isSymbol .openParens) -
    (tokens.countP fun t => t.isSymbol .closeParens) = owed
  let missing : List Token := List.replicate owed ⟨.symbol .closeParens, q⟩
  have hMissing : ∀ c ∈ missing, c.isSymbol .closeParens = true := by
    intro c hc
    rw [List.eq_of_mem_replicate hc]
    rfl
  let closers : List Token := ⟨.symbol .closeParens, q⟩ :: missing
  have hClosers : ∀ c ∈ closers, c.isSymbol .closeParens = true :=
    List.forall_mem_cons.mpr ⟨rfl, hMissing⟩
  have hOpen : LeavesOpen 1 (significant tokens) closers := by
    refine ⟨hClosers, ?_, hLast⟩
    rw [occurrences_significant, occurrences_significant, List.length_cons, List.length_replicate]
    omega
  -- with all of them the expression is read in parentheses
  obtain ⟨rest, hRead, hEnd⟩ := parseWithin_ok.mp h
  obtain ⟨after, hPrimary, hAfter⟩ :=
    primary_enclosed p (next?_significant_ne_none hSome) hOpen hRead hEnd
  have hTokens : significant (enclosed ++ missing) =
      ⟨.symbol .openParens, p⟩ :: (significant tokens ++ closers) := by
    rw [← significant_append_closers hClosers]
    simp [enclosed, closers, significant, Token.isFinish]
  have hParsed := parseWithin_of_primary rfl hTokens hPrimary hAfter
  -- and so it is without those that are missing
  have hCount : (enclosed.countP fun t => t.isSymbol .closeParens) + missing.length =
      enclosed.countP fun t => t.isSymbol .openParens := by
    simp [enclosed, missing]
    omega
  have hAgrees := closers_agree (depth + 12) units hMissing hCount (settled_enclosed p q tokens)
  exact (hAgrees.ok_iff _).mpr hParsed

/-- `; a = (1`, with a separator in front and a parenthesis left open, and `(; a = (1)`. -/
theorem open_assignment_enclosed :
    let tokens : List Token :=
      [⟨.symbol .semicolon, ⟨1, 2⟩⟩, ⟨.blank " ", ⟨1, 3⟩⟩, ⟨.ident "a", ⟨1, 4⟩⟩,
       ⟨.symbol .equals, ⟨1, 6⟩⟩, ⟨.symbol .openParens, ⟨1, 8⟩⟩, ⟨.number (.fraction 1), ⟨1, 9⟩⟩]
    let t : Node :=
      .named .assignment (.text "a") (.wrap .parens (.number (.fraction 1) ⟨1, 9⟩) ⟨1, 8⟩) ⟨1, 4⟩
    let enclosed : List Token :=
      ⟨.symbol .openParens, ⟨1, 1⟩⟩ :: (tokens ++ [⟨.symbol .closeParens, ⟨1, 10⟩⟩])
    (∃ t ∈ tokens, isIdle t = false) ∧ Settled (significant tokens) ∧
      (parseWithin 40 [] tokens).result = .ok t ∧ 40 + 12 ≤ maxNesting ∧
      (parse [] enclosed).result = .ok (.wrap .parens t ⟨1, 1⟩) := by
  intro tokens t enclosed
  have hSome : ∃ t ∈ tokens, isIdle t = false := by decide
  have hLast : Settled (significant tokens) := by
    intro u hu
    obtain rfl : ⟨.number (.fraction 1), ⟨1, 9⟩⟩ = u := Option.some.inj hu
    exact ⟨rfl, rfl⟩
  have hParsed : (parseWithin 40 [] tokens).result = .ok t := rfl
  have hBound : 40 + 12 ≤ maxNesting := by decide
  exact ⟨hSome, hLast, hParsed, hBound,
    (parseWithin_enclosed ⟨1, 1⟩ ⟨1, 10⟩ hSome hLast hParsed maxNesting).1 hBound⟩

/-- `(` by itself is the empty statements in parentheses, but in parentheses it is the empty value in
parentheses that are left open: a `)` right behind a `(` makes the two of them one value. So it is behind
a mark of the end of the text, which is dropped. And `1;` by itself is `1`, but in parentheses a statement
has to follow the separator. -/
theorem open_ends_not_enclosed :
    let opened : Token := ⟨.symbol .openParens, ⟨1, 2⟩⟩
    let mark : Token := ⟨.finish "EOF", ⟨1, 2⟩⟩
    let one : List Token := [⟨.number (.fraction 1), ⟨1, 2⟩⟩, ⟨.symbol .semicolon, ⟨1, 3⟩⟩]
    let front : Token := ⟨.symbol .openParens, ⟨1, 1⟩⟩
    let back : Token := ⟨.symbol .closeParens, ⟨1, 4⟩⟩
    isIdle opened = false ∧
      (parse [] [opened]).result = .ok (.wrap .parens (.unit .unknown) ⟨1, 2⟩) ∧
      (parse [] (front :: ([opened] ++ [back]))).result = .ok (.wrap .parens (.unit ⟨1, 2⟩) ⟨1, 1⟩) ∧
      (∀ p, Node.wrap .parens (.unit ⟨1, 2⟩) ⟨1, 1⟩ ≠
        .wrap .parens (.wrap .parens (.unit .unknown) ⟨1, 2⟩) p) ∧
      (mark.isBlank = false ∧ mark.isSymbol .semicolon = false) ∧
      (parse [] [mark]).result = .ok (.unit .unknown) ∧
      (parse [] (front :: ([mark] ++ [back]))).result = .ok (.unit ⟨1, 1⟩) ∧
      (∀ p, Node.unit ⟨1, 1⟩ ≠ .wrap .parens (.unit .unknown) p) ∧
      (parse [] one).result = .ok (.number (.fraction 1) ⟨1, 2⟩) ∧
      (parse [] (front :: (one ++ [back]))).result =
        .error (.error (.unexpectedSymbol .closeParens back)) := by
  intro opened mark one front back
  refine ⟨rfl, rfl, rfl, fun p hSame => ?_, ⟨rfl, rfl⟩, rfl, rfl, fun p hSame => ?_, rfl, rfl⟩
  · have hKinds : [Kind.literal] = [Kind.parens] :=
      congrArg (fun n => n.children.map Node.kind) hSame
    cases hKinds
  · cases congrArg Node.kind hSame

end Grammar

end Reckoner
