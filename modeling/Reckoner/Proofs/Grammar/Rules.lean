import Reckoner.Proofs.Cursor

/-!
# What a rule answers

Each rule of the grammar, taken apart once: a rule reads a node exactly when the rules below it have
read its parts, and the node is what it builds of them. The equivalences speak of answers alone, for
any rules below, so soundness reads them from left to right, and what is read again on other tokens is
put together from right to left. No other proof has to unfold a rule to know what it has read.

A candidate may also decline, and then the tokens are read in another way; for the rules with
candidates there is a lemma that says when.

Two shapes recur among the rules: an operand behind an operator of some table (`operand`), and what is
bound to a name behind a symbol (`binding`). What holds of either is proved of the shape.

## Results

* `continuation_ok` — one more factor, by the candidate that finds it, or none.
* `implicitSum_ok`  — a compound quantity, or the product before a part that is declined.
-/

namespace Reckoner

namespace Grammar

open Cursor (after? next? select?)

variable {units : List String} {L : Layers} {n lhs : Node} {ts rest : List Token}

-- ---------------------------------------------------------------------------
-- Primary expressions
-- ---------------------------------------------------------------------------

theorem number_ok :
    (number ts).result = .ok (n, rest) ↔
      ∃ v p, next? ts = some (⟨.number v, p⟩, rest) ∧ n = .number v p := by
  constructor
  · intro h
    obtain ⟨⟨⟨content, p⟩, after⟩, hNext, h⟩ := Attempt.bind_ok.mp h
    rw [Cursor.next_ok] at hNext
    cases content with
    | number v =>
      obtain ⟨rfl, rfl⟩ := Prod.mk.inj (Except.ok.inj h)
      exact ⟨v, p, hNext, rfl⟩
    | _ => cases h
  · rintro ⟨v, p, hNext, rfl⟩
    exact Attempt.bind_ok.mpr ⟨_, Cursor.next_ok.mpr hNext, rfl⟩

theorem ident_ok :
    (ident L ts).result = .ok (n, rest) ↔
      ∃ x p mid, next? ts = some (⟨.ident x, p⟩, mid) ∧
        ((∃ after m, after? .of mid = some after ∧ (L.primary after).result = .ok (m, rest) ∧
            n = .named .member (.text x) m p) ∨
          after? .of mid = none ∧ n = .ident x p ∧ rest = mid) := by
  constructor
  · intro h
    obtain ⟨⟨⟨content, p⟩, mid⟩, hNext, h⟩ := Attempt.bind_ok.mp h
    rw [Cursor.next_ok] at hNext
    cases content with
    | ident x =>
      refine ⟨x, p, mid, hNext, ?_⟩
      dsimp only at h
      split at h
      · rename_i after hOf
        obtain ⟨⟨m, rest'⟩, hRead, h⟩ := Attempt.bind_ok.mp h
        obtain ⟨rfl, rfl⟩ := Prod.mk.inj (Except.ok.inj h)
        exact Or.inl ⟨after, m, hOf, hRead, rfl⟩
      · rename_i hNone
        obtain ⟨rfl, rfl⟩ := Prod.mk.inj (Except.ok.inj h)
        exact Or.inr ⟨hNone, rfl, rfl⟩
    | _ => cases h
  · rintro ⟨x, p, mid, hNext, hCases⟩
    refine Attempt.bind_ok.mpr ⟨_, Cursor.next_ok.mpr hNext, ?_⟩
    dsimp only
    rcases hCases with ⟨after, m, hOf, hRead, rfl⟩ | ⟨hNone, rfl, rfl⟩
    · rw [hOf]
      exact Attempt.bind_ok.mpr ⟨_, hRead, rfl⟩
    · rw [hNone]
      rfl

/-- The symbol that opens an expression is looked at before it is taken. -/
theorem opening_ok {y : Symbol} {t : Token} {mid after : List Token}
    (hNext : (Cursor.next ts).result = .ok (t, mid)) (hTake : (Cursor.take y ts).result = .ok after) :
    ∃ p, next? ts = some (⟨.symbol y, p⟩, after) ∧ t.place = p := by
  obtain ⟨p, hSymbol⟩ := Cursor.after?_eq_some.mp (Cursor.take_ok.mp hTake)
  obtain ⟨rfl, -⟩ := Prod.mk.inj (Cursor.next_eq hSymbol hNext)
  exact ⟨p, hSymbol, rfl⟩

/-- Parentheses around an expression end with the tokens or with a closing parenthesis. -/
theorem parens_ok :
    (parens L ts).result = .ok (n, rest) ↔
      ∃ p after, next? ts = some (⟨.symbol .openParens, p⟩, after) ∧
        (after? .closeParens after = some rest ∧ n = .unit p ∨
          after? .closeParens after = none ∧
            ∃ m mid, (L.expression after).result = .ok (m, mid) ∧ n = .wrap .parens m p ∧
              (Cursor.atEnd mid = true ∧ rest = mid ∨
                Cursor.atEnd mid = false ∧ after? .closeParens mid = some rest)) := by
  constructor
  · intro h
    obtain ⟨⟨t, mid⟩, hNext, h⟩ := Attempt.bind_ok.mp h
    obtain ⟨after, hOpen, h⟩ := Attempt.bind_ok.mp h
    obtain ⟨p, hOpen, rfl⟩ := opening_ok hNext hOpen
    refine ⟨_, after, hOpen, ?_⟩
    dsimp only at h
    split at h
    · rename_i rest' hClose
      obtain ⟨rfl, rfl⟩ := Prod.mk.inj (Except.ok.inj h)
      exact Or.inl ⟨hClose, rfl⟩
    · rename_i hNone
      obtain ⟨⟨m, mid⟩, hRead, h⟩ := Attempt.bind_ok.mp h
      refine Or.inr ⟨hNone, m, mid, hRead, ?_⟩
      dsimp only at h
      split at h
      · rename_i hEnd
        obtain ⟨rfl, rfl⟩ := Prod.mk.inj (Except.ok.inj h)
        exact ⟨rfl, Or.inl ⟨hEnd, rfl⟩⟩
      · rename_i hMore
        obtain ⟨rest', hClose, h⟩ := Attempt.bind_ok.mp h
        obtain ⟨rfl, rfl⟩ := Prod.mk.inj (Except.ok.inj h)
        exact ⟨rfl, Or.inr ⟨by simpa using hMore, Cursor.take_ok.mp hClose⟩⟩
  · rintro ⟨p, after, hNext, hCases⟩
    refine Attempt.bind_ok.mpr ⟨_, Cursor.next_ok.mpr hNext, ?_⟩
    have hOpen := Cursor.take_ok.mpr (Cursor.after?_eq_some.mpr ⟨p, hNext⟩)
    refine Attempt.bind_ok.mpr ⟨_, hOpen, ?_⟩
    dsimp only
    rcases hCases with ⟨hClose, rfl⟩ | ⟨hNone, m, mid, hRead, rfl, hEnd⟩
    · rw [hClose]
      rfl
    · rw [hNone]
      refine Attempt.bind_ok.mpr ⟨_, hRead, ?_⟩
      dsimp only
      rcases hEnd with ⟨hEnd, rfl⟩ | ⟨hMore, hClose⟩
      · rw [if_pos hEnd]
        rfl
      · rw [if_neg (by simp [hMore])]
        exact Attempt.bind_ok.mpr ⟨_, Cursor.take_ok.mpr hClose, rfl⟩

/-- The parameter of `\x.body` is the very next token. -/
theorem lambda_ok :
    (lambda L ts).result = .ok (n, rest) ↔
      ∃ p x q mid after m, next? ts = some (⟨.symbol .backslash, p⟩, ⟨.ident x, q⟩ :: mid) ∧
        after? .dot mid = some after ∧ (L.function after).result = .ok (m, rest) ∧
          n = .named .function (.text x) m p := by
  constructor
  · intro h
    obtain ⟨⟨t, _⟩, hNext, h⟩ := Attempt.bind_ok.mp h
    obtain ⟨behind, hSlash, h⟩ := Attempt.bind_ok.mp h
    obtain ⟨p, hSlash, rfl⟩ := opening_ok hNext hSlash
    obtain ⟨⟨⟨content, q⟩, mid⟩, hParameter, h⟩ := Attempt.bind_ok.mp h
    rw [Cursor.nextRaw_ok.mp hParameter] at hSlash
    cases content with
    | ident x =>
      obtain ⟨after, hDot, h⟩ := Attempt.bind_ok.mp h
      have hDot : (Cursor.take .dot mid).result = .ok after := by
        rcases Attempt.recover_ok.mp hDot with hDot | ⟨e, -, hDot⟩
        · exact hDot
        · cases hDot
      obtain ⟨⟨m, rest'⟩, hBody, h⟩ := Attempt.bind_ok.mp h
      obtain ⟨rfl, rfl⟩ := Prod.mk.inj (Except.ok.inj h)
      exact ⟨_, x, q, mid, after, m, hSlash, Cursor.take_ok.mp hDot, hBody, rfl⟩
    | _ => cases h
  · rintro ⟨p, x, q, mid, after, m, hNext, hDot, hBody, rfl⟩
    have hSlash := Cursor.take_ok.mpr (Cursor.after?_eq_some.mpr ⟨p, hNext⟩)
    refine Attempt.bind_ok.mpr ⟨_, Cursor.next_ok.mpr hNext, ?_⟩
    refine Attempt.bind_ok.mpr ⟨_, hSlash, ?_⟩
    refine Attempt.bind_ok.mpr ⟨_, Cursor.nextRaw_ok.mpr rfl, ?_⟩
    refine Attempt.bind_ok.mpr ⟨after, Attempt.recover_ok.mpr (Or.inl (Cursor.take_ok.mpr hDot)), ?_⟩
    exact Attempt.bind_ok.mpr ⟨_, hBody, rfl⟩

-- ---------------------------------------------------------------------------
-- Powers
-- ---------------------------------------------------------------------------

/-- One more `!`, or none. -/
theorem factorialStep_ok {found : Option (Node × List Token)} :
    (factorialStep lhs ts).result = .ok found ↔
      found = (after? .factorial ts).map fun rest => (.wrap .factorial lhs .unknown, rest) := by
  show Except.ok _ = _ ↔ _
  rw [Except.ok.injEq]
  exact eq_comm

theorem plainPower_ok :
    (plainPower L ts).result = .ok (n, rest) ↔
      ∃ base mid, (L.factorial ts).result = .ok (base, mid) ∧
        ((∃ after m, after? .pow mid = some after ∧ (L.power true after).result = .ok (m, rest) ∧
            n = .binary .pow base m) ∨
          after? .pow mid = none ∧ n = base ∧ rest = mid) := by
  constructor
  · intro h
    obtain ⟨⟨base, mid⟩, hBase, h⟩ := Attempt.bind_ok.mp h
    refine ⟨base, mid, hBase, ?_⟩
    dsimp only at h
    split at h
    · rename_i after hPow
      obtain ⟨⟨m, rest'⟩, hRead, h⟩ := Attempt.bind_ok.mp h
      obtain ⟨rfl, rfl⟩ := Prod.mk.inj (Except.ok.inj h)
      exact Or.inl ⟨after, m, hPow, hRead, rfl⟩
    · rename_i hNone
      obtain ⟨rfl, rfl⟩ := Prod.mk.inj (Except.ok.inj h)
      exact Or.inr ⟨hNone, rfl, rfl⟩
  · rintro ⟨base, mid, hBase, hCases⟩
    refine Attempt.bind_ok.mpr ⟨_, hBase, ?_⟩
    dsimp only
    rcases hCases with ⟨after, m, hPow, hRead, rfl⟩ | ⟨hNone, rfl, rfl⟩
    · rw [hPow]
      exact Attempt.bind_ok.mpr ⟨_, hRead, rfl⟩
    · rw [hNone]
      rfl

/-- A prefix operator wraps the power behind it. -/
theorem power_ok :
    (power L true ts).result = .ok (n, rest) ↔
      (∃ entry t after m, select? prefixes ts = some (entry, t, after) ∧
        (L.power true after).result = .ok (m, rest) ∧ n = .wrap entry.2 m t.place) ∨
      select? prefixes ts = none ∧ (plainPower L ts).result = .ok (n, rest) := by
  unfold power
  rw [if_pos rfl]
  constructor
  · intro h
    split at h
    · rename_i y k t after hSelect
      obtain ⟨⟨m, rest'⟩, hRead, h⟩ := Attempt.bind_ok.mp h
      obtain ⟨rfl, rfl⟩ := Prod.mk.inj (Except.ok.inj h)
      exact Or.inl ⟨(y, k), t, after, m, hSelect, hRead, rfl⟩
    · rename_i hNone
      exact Or.inr ⟨hNone, h⟩
  · rintro (⟨entry, t, after, m, hSelect, hRead, rfl⟩ | ⟨hNone, h⟩)
    · rw [hSelect]
      exact Attempt.bind_ok.mpr ⟨_, hRead, rfl⟩
    · rw [hNone]
      exact h

-- ---------------------------------------------------------------------------
-- Operators
-- ---------------------------------------------------------------------------

section Operand

variable {α : Type} {table : List (Symbol × α)} {read : Rule} {build : α → Node → Node}

/-- A candidate behind the operators of a table: what `read` reads there, put together by `build`. -/
def operand (table : List (Symbol × α)) (read : Rule) (build : α → Node → Node) (ts : List Token) :
    Attempt (Option (Node × List Token)) :=
  match select? table ts with
  | some ((y, a), _, after) =>
    Attempt.candidate (.operand y) ts.length do
      let (m, after) ← read after
      pure (build a m, after)
  | none => pure none

theorem operatorFactor_eq (L : Layers) (lhs : Node) (ts : List Token) :
    operatorFactor L lhs ts =
      operand productOperators (L.power true) (fun op => .binary op lhs) ts := by
  unfold operatorFactor operand
  cases select? productOperators ts <;> rfl

theorem sumStep_eq (L : Layers) (lhs : Node) (ts : List Token) :
    sumStep L lhs ts = operand sumOperators L.implicitSum (fun build => build lhs) ts := by
  unfold sumStep operand
  cases select? sumOperators ts <;> rfl

theorem operand_some :
    (operand table read build ts).result = .ok (some (n, rest)) ↔
      ∃ entry t after m, select? table ts = some (entry, t, after) ∧
        (read after).result = .ok (m, rest) ∧ n = build entry.2 m := by
  unfold operand
  constructor
  · intro h
    split at h
    · rename_i y a t after hSelect
      obtain ⟨⟨m, rest'⟩, hRead, h⟩ := Attempt.bind_ok.mp (Attempt.candidate_some.mp h)
      obtain ⟨rfl, rfl⟩ := Prod.mk.inj (Except.ok.inj h)
      exact ⟨(y, a), t, after, m, hSelect, hRead, rfl⟩
    · cases h
  · rintro ⟨entry, t, after, m, hSelect, hRead, rfl⟩
    rw [hSelect]
    exact Attempt.candidate_some.mpr (Attempt.bind_ok.mpr ⟨(m, rest), hRead, rfl⟩)

/-- The candidate declines where no operator comes next or its operand is rejected. -/
theorem operand_none :
    (operand table read build ts).result = .ok none ↔
      ∀ entry t after, select? table ts = some (entry, t, after) →
        ∃ e, (read after).result = .error (.error e) := by
  unfold operand
  cases hSelect : select? table ts with
  | none => simp
  | some found =>
    obtain ⟨⟨y, a⟩, t, after⟩ := found
    dsimp only
    rw [Attempt.candidate_none]
    constructor
    · rintro ⟨e, he⟩ _ _ _ hSame
      cases hSame
      rcases Attempt.bind_error.mp he with he | ⟨_, -, he⟩
      · exact ⟨e, he⟩
      · cases he
    · intro h
      obtain ⟨e, he⟩ := h _ t after rfl
      exact ⟨e, Attempt.result_bind_of_error he _⟩

theorem operand_error (e : ParseError) : (operand table read build ts).result ≠ .error (.error e) := by
  unfold operand
  intro h
  split at h
  · exact Attempt.candidate_error h
  · cases h

end Operand

-- ---------------------------------------------------------------------------
-- Products
-- ---------------------------------------------------------------------------

theorem juxtaposition_ok :
    (juxtaposition units L lhs ts).result = .ok (n, rest) ↔
      ∃ k rhs, (L.power false ts).result = .ok (rhs, rest) ∧
        juxtapositionKind units lhs rhs = .ok (some k) ∧ n = .pair k lhs rhs := by
  constructor
  · intro h
    obtain ⟨⟨rhs, rest'⟩, hRead, h⟩ := Attempt.bind_ok.mp h
    obtain ⟨found, hKind, h⟩ := Attempt.bind_ok.mp h
    cases found with
    | none => cases h
    | some k =>
      obtain ⟨rfl, rfl⟩ := Prod.mk.inj (Except.ok.inj h)
      exact ⟨k, rhs, hRead, Attempt.shape_ok.mp hKind, rfl⟩
  · rintro ⟨k, rhs, hRead, hKind, rfl⟩
    refine Attempt.bind_ok.mpr ⟨(rhs, rest), hRead, ?_⟩
    exact Attempt.bind_ok.mpr ⟨some k, Attempt.shape_ok.mpr hKind, rfl⟩

/-- Juxtaposition is rejected with its right side, or since the table refuses both sides. -/
theorem juxtaposition_rejected {e : ParseError}
    (h : (juxtaposition units L lhs ts).result = .error (.error e)) :
    (L.power false ts).result = .error (.error e) ∨
      ∃ rhs rest, (L.power false ts).result = .ok (rhs, rest) ∧
        ∀ k, juxtapositionKind units lhs rhs ≠ .ok (some k) := by
  rcases Attempt.bind_error.mp h with h' | ⟨⟨rhs, rest⟩, hRead, -⟩
  · exact Or.inl h'
  · refine Or.inr ⟨rhs, rest, hRead, fun k hKind => ?_⟩
    rw [juxtaposition_ok.mpr ⟨k, rhs, hRead, hKind, rfl⟩] at h
    cases h

theorem fractionTerm_ok :
    (fractionTerm L ts).result = .ok (n, rest) ↔
      (L.power false ts).result = .ok (n, rest) ∧ n.isNumber = true := by
  constructor
  · intro h
    obtain ⟨⟨m, rest'⟩, hRead, h⟩ := Attempt.bind_ok.mp h
    dsimp only at h
    split at h
    · rename_i hNumber
      obtain ⟨rfl, rfl⟩ := Prod.mk.inj (Except.ok.inj h)
      exact ⟨hRead, hNumber⟩
    · cases h
  · rintro ⟨hRead, hNumber⟩
    refine Attempt.bind_ok.mpr ⟨_, hRead, ?_⟩
    dsimp only
    rw [if_pos hNumber]
    rfl

/-- A mixed fraction has a number, a `/` and a number behind its whole part. -/
theorem mixedFraction_ok :
    (mixedFraction L lhs ts).result = .ok (n, rest) ↔
      ∃ outer whole negated top mid after bottom, wholePart lhs = .ok (outer, whole) ∧
        (wholeIsNegated whole).result = .ok negated ∧
          (Cursor.peek? ts).any Token.isNumber = true ∧ (fractionTerm L ts).result = .ok (top, mid) ∧
            after? .div mid = some after ∧ (fractionTerm L after).result = .ok (bottom, rest) ∧
              n = mixedSum outer negated whole top bottom := by
  constructor
  · intro h
    obtain ⟨⟨outer, whole⟩, hPart, h⟩ := Attempt.bind_ok.mp h
    obtain ⟨negated, hSign, h⟩ := Attempt.bind_ok.mp h
    dsimp only at h
    split at h
    · rename_i hNumber
      obtain ⟨⟨top, mid⟩, hTop, h⟩ := Attempt.bind_ok.mp h
      obtain ⟨after, hDiv, h⟩ := Attempt.bind_ok.mp h
      obtain ⟨⟨bottom, rest'⟩, hBottom, h⟩ := Attempt.bind_ok.mp h
      obtain ⟨rfl, rfl⟩ := Prod.mk.inj (Except.ok.inj h)
      exact ⟨outer, whole, negated, top, mid, after, bottom, Attempt.shape_ok.mp hPart, hSign, hNumber,
        hTop, Cursor.take_ok.mp hDiv, hBottom, rfl⟩
    · cases h
  · rintro ⟨outer, whole, negated, top, mid, after, bottom, hPart, hSign, hNumber, hTop, hDiv, hBottom,
      rfl⟩
    refine Attempt.bind_ok.mpr ⟨_, Attempt.shape_ok.mpr hPart, ?_⟩
    refine Attempt.bind_ok.mpr ⟨_, hSign, ?_⟩
    dsimp only
    rw [if_pos hNumber]
    refine Attempt.bind_ok.mpr ⟨_, hTop, ?_⟩
    refine Attempt.bind_ok.mpr ⟨_, Cursor.take_ok.mpr hDiv, ?_⟩
    exact Attempt.bind_ok.mpr ⟨_, hBottom, rfl⟩

/-- A factor behind an operator is the power that is read there. -/
theorem operatorFactor_some :
    (operatorFactor L lhs ts).result = .ok (some (n, rest)) ↔
      ∃ entry t after m, select? productOperators ts = some (entry, t, after) ∧
        (L.power true after).result = .ok (m, rest) ∧ n = .binary entry.2 lhs m := by
  rw [operatorFactor_eq]
  exact operand_some

/-- There is no factor behind an operator where none comes next or its operand is rejected. -/
theorem operatorFactor_none_iff :
    (operatorFactor L lhs ts).result = .ok none ↔
      ∀ entry t after, select? productOperators ts = some (entry, t, after) →
        ∃ e, (L.power true after).result = .error (.error e) := by
  rw [operatorFactor_eq]
  exact operand_none

/-- What the search for one more factor finds, by the candidate that finds it. -/
theorem continuation_ok {found : Option (Node × List Token)} :
    (continuation L lhs ts).result = .ok found ↔
      (∃ x, found = some x ∧ (operatorFactor L lhs ts).result = .ok (some x)) ∨
        (operatorFactor L lhs ts).result = .ok none ∧
          ((∃ x, found = some x ∧ (L.mixedFraction lhs ts).result = .ok x) ∨
            (∃ e, (L.mixedFraction lhs ts).result = .error (.error e)) ∧
              (Attempt.candidate .juxtaposition ts.length (L.juxtaposition lhs ts)).result =
                .ok found) := by
  constructor
  · intro h
    obtain ⟨factor, hFactor, h⟩ := Attempt.bind_ok.mp h
    cases factor with
    | some x => exact Or.inl ⟨x, (Except.ok.inj h).symm, hFactor⟩
    | none =>
      obtain ⟨mixed, hMixed, h⟩ := Attempt.bind_ok.mp h
      refine Or.inr ⟨hFactor, ?_⟩
      cases mixed with
      | some x => exact Or.inl ⟨x, (Except.ok.inj h).symm, Attempt.candidate_some.mp hMixed⟩
      | none => exact Or.inr ⟨Attempt.candidate_none.mp hMixed, h⟩
  · rintro (⟨x, rfl, h⟩ | ⟨hFactor, ⟨x, rfl, hMixed⟩ | ⟨hMixed, hPair⟩⟩)
    · exact Attempt.bind_ok.mpr ⟨some x, h, rfl⟩
    · refine Attempt.bind_ok.mpr ⟨none, hFactor, ?_⟩
      exact Attempt.bind_ok.mpr ⟨some x, Attempt.candidate_some.mpr hMixed, rfl⟩
    · refine Attempt.bind_ok.mpr ⟨none, hFactor, ?_⟩
      exact Attempt.bind_ok.mpr ⟨none, Attempt.candidate_none.mpr hMixed, hPair⟩

-- ---------------------------------------------------------------------------
-- Sums
-- ---------------------------------------------------------------------------

/-- A candidate for the right part of a compound quantity that is declined: it is rejected, or what it
reads is no part of one. -/
def Declined (x : Attempt (Node × List Token)) : Prop :=
  (∃ e, x.result = .error (.error e)) ∨
    ∃ m after, x.result = .ok (m, after) ∧ isQuantityPart m = false

/-- A compound quantity, or the product that is read before a part that is declined. -/
theorem implicitSum_ok :
    (implicitSum L ts).result = .ok (n, rest) ↔
      (∃ l mid m, (L.multiplicative ts).result = .ok (l, mid) ∧ l.kind = .product ∧
        (L.implicitSum mid).result = .ok (m, rest) ∧ isQuantityPart m = true ∧
          n = .binary .implicitPlus l m) ∨
        (L.multiplicative ts).result = .ok (n, rest) ∧
          (n.kind = .product → Declined (L.implicitSum rest)) := by
  constructor
  · intro h
    obtain ⟨⟨l, mid⟩, hLeft, h⟩ := Attempt.bind_ok.mp h
    dsimp only at h
    split at h
    · rename_i hProduct
      obtain ⟨more, hMore, h⟩ := Attempt.bind_ok.mp h
      split at h
      · rename_i m after
        have hRight : (L.implicitSum mid).result = .ok (m, after) := by
          rcases Attempt.recover_ok.mp hMore with hMore | ⟨e, -, hMore⟩
          · obtain ⟨found, hFound, hMore⟩ := Attempt.bind_ok.mp hMore
            rw [← Option.some.inj (Except.ok.inj hMore)]
            exact hFound
          · cases hMore
        split at h
        · rename_i hPart
          obtain ⟨rfl, rfl⟩ := Prod.mk.inj (Except.ok.inj h)
          exact Or.inl ⟨l, mid, m, hLeft, hProduct, hRight, hPart, rfl⟩
        · rename_i hOther
          obtain ⟨rfl, rfl⟩ := Prod.mk.inj (Except.ok.inj h)
          exact Or.inr ⟨hLeft, fun _ => Or.inr ⟨m, after, hRight, by simpa using hOther⟩⟩
      · obtain ⟨rfl, rfl⟩ := Prod.mk.inj (Except.ok.inj h)
        refine Or.inr ⟨hLeft, fun _ => Or.inl ?_⟩
        rcases Attempt.recover_ok.mp hMore with hMore | ⟨e, he, -⟩
        · obtain ⟨found, -, hMore⟩ := Attempt.bind_ok.mp hMore
          cases hMore
        · rcases Attempt.bind_error.mp he with he | ⟨_, -, he⟩
          · exact ⟨e, he⟩
          · cases he
    · rename_i hOther
      obtain ⟨rfl, rfl⟩ := Prod.mk.inj (Except.ok.inj h)
      exact Or.inr ⟨hLeft, fun hProduct => absurd hProduct hOther⟩
  · rintro (⟨l, mid, m, hLeft, hProduct, hRight, hPart, rfl⟩ | ⟨hLeft, hDeclined⟩)
    · refine Attempt.bind_ok.mpr ⟨_, hLeft, ?_⟩
      dsimp only
      rw [if_pos hProduct]
      refine Attempt.bind_ok.mpr ⟨some (m, rest), ?_, ?_⟩
      · exact Attempt.recover_ok.mpr (Or.inl (Attempt.bind_ok.mpr ⟨_, hRight, rfl⟩))
      · dsimp only
        rw [if_pos hPart]
        rfl
    · refine Attempt.bind_ok.mpr ⟨_, hLeft, ?_⟩
      dsimp only
      split
      · rename_i hProduct
        rcases hDeclined hProduct with ⟨e, he⟩ | ⟨m, after, hRight, hOther⟩
        · refine Attempt.bind_ok.mpr ⟨none, ?_, rfl⟩
          exact Attempt.recover_ok.mpr (Or.inr ⟨e, Attempt.result_bind_of_error he _, rfl⟩)
        · refine Attempt.bind_ok.mpr ⟨some (m, after), ?_, ?_⟩
          · exact Attempt.recover_ok.mpr (Or.inl (Attempt.bind_ok.mpr ⟨_, hRight, rfl⟩))
          · dsimp only
            rw [if_neg (by simp [hOther])]
            rfl
      · rfl

/-- A parse error of a compound quantity is one of its first product. -/
theorem implicitSum_error {e : ParseError} (h : (implicitSum L ts).result = .error (.error e)) :
    (L.multiplicative ts).result = .error (.error e) := by
  rcases Attempt.bind_error.mp h with h | ⟨⟨l, mid⟩, -, h⟩
  · exact h
  exfalso
  dsimp only at h
  split at h
  · rcases Attempt.bind_error.mp h with h | ⟨more, -, h⟩
    · unfold Attempt.recover at h
      split at h
      · cases h
      · rename_i hOther
        exact hOther e h
    · split at h
      · split at h
        · cases h
        · cases h
      · cases h
  · cases h

/-- One more summand behind an operator. -/
theorem sumStep_some :
    (sumStep L lhs ts).result = .ok (some (n, rest)) ↔
      ∃ entry t after m, select? sumOperators ts = some (entry, t, after) ∧
        (L.implicitSum after).result = .ok (m, rest) ∧ n = entry.2 lhs m := by
  rw [sumStep_eq]
  exact operand_some

/-- There is no summand where no operator comes next or its operand is rejected. -/
theorem sumStep_none_iff :
    (sumStep L lhs ts).result = .ok none ↔
      ∀ entry t after, select? sumOperators ts = some (entry, t, after) →
        ∃ e, (L.implicitSum after).result = .error (.error e) := by
  rw [sumStep_eq]
  exact operand_none

-- ---------------------------------------------------------------------------
-- Functions, assignments and statements
-- ---------------------------------------------------------------------------

/-- Where a symbol decides whether a rule goes on, its token matters for errors alone. -/
theorem nextIs?_after (y : Symbol) (ts : List Token) :
    (nextIs? y ts).map Prod.snd = after? y ts := by
  unfold nextIs? Cursor.after?
  cases next? ts with
  | none => rfl
  | some found =>
    obtain ⟨t, rest⟩ := found
    rw [Option.filter_some]
    dsimp only
    split <;> rfl

section Binding

variable {y : Symbol} {k : Kind} {refuse : Token → ParseError} {read : Rule} {m : Node} {mid : List Token}

/-- What is bound to an identifier behind a symbol, or the node by itself where the symbol does not come
next. -/
def binding (y : Symbol) (k : Kind) (refuse : Token → ParseError) (read : Rule) (m : Node)
    (mid : List Token) : Attempt (Node × List Token) :=
  match nextIs? y mid with
  | some (t, after) =>
    if m.kind = .identifier then do
      let (body, after) ← read after
      pure (.named k m.value body m.place, after)
    else .reject (refuse t)
  | none => pure (m, mid)

theorem function_eq (L : Layers) (ts : List Token) :
    function L ts = (do
      let (m, mid) ← L.additive ts
      binding .arrow .function .expectedParameter L.function m mid) := rfl

theorem assignment_eq (L : Layers) (ts : List Token) :
    assignment L ts = (do
      let (m, mid) ← L.function ts
      binding .equals .assignment .expectedAssignee L.assignment m mid) := rfl

theorem binding_ok :
    (binding y k refuse read m mid).result = .ok (n, rest) ↔
      (∃ after body, after? y mid = some after ∧ m.kind = .identifier ∧
          (read after).result = .ok (body, rest) ∧ n = .named k m.value body m.place) ∨
        after? y mid = none ∧ n = m ∧ rest = mid := by
  unfold binding
  rw [← nextIs?_after]
  cases nextIs? y mid with
  | none =>
    constructor
    · intro h
      obtain ⟨rfl, rfl⟩ := Prod.mk.inj (Except.ok.inj h)
      exact Or.inr ⟨rfl, rfl, rfl⟩
    · rintro (⟨_, _, h, -⟩ | ⟨-, rfl, rfl⟩)
      · cases h
      · rfl
  | some found =>
    obtain ⟨t, after⟩ := found
    dsimp only
    constructor
    · intro h
      split at h
      · rename_i hIdentifier
        obtain ⟨⟨body, rest'⟩, hBody, h⟩ := Attempt.bind_ok.mp h
        obtain ⟨rfl, rfl⟩ := Prod.mk.inj (Except.ok.inj h)
        exact Or.inl ⟨after, body, rfl, hIdentifier, hBody, rfl⟩
      · cases h
    · rintro (⟨_, body, hAfter, hIdentifier, hBody, rfl⟩ | ⟨h, -⟩)
      · obtain rfl := Option.some.inj hAfter
        rw [if_pos hIdentifier]
        exact Attempt.bind_ok.mpr ⟨_, hBody, rfl⟩
      · cases h

end Binding

theorem function_ok :
    (function L ts).result = .ok (n, rest) ↔
      ∃ m mid, (L.additive ts).result = .ok (m, mid) ∧
        ((∃ after body, after? .arrow mid = some after ∧ m.kind = .identifier ∧
            (L.function after).result = .ok (body, rest) ∧
              n = .named .function m.value body m.place) ∨
          after? .arrow mid = none ∧ n = m ∧ rest = mid) := by
  rw [function_eq, Attempt.bind_ok, Prod.exists]
  exact exists_congr fun m => exists_congr fun mid => and_congr_right fun _ => binding_ok

theorem assignment_ok :
    (assignment L ts).result = .ok (n, rest) ↔
      ∃ m mid, (L.function ts).result = .ok (m, mid) ∧
        ((∃ after value, after? .equals mid = some after ∧ m.kind = .identifier ∧
            (L.assignment after).result = .ok (value, rest) ∧
              n = .named .assignment m.value value m.place) ∨
          after? .equals mid = none ∧ n = m ∧ rest = mid) := by
  rw [assignment_eq, Attempt.bind_ok, Prod.exists]
  exact exists_congr fun m => exists_congr fun mid => and_congr_right fun _ => binding_ok

/-- A separator, with the statement after it if there is one. -/
theorem statementStep_some :
    (statementStep L lhs ts).result = .ok (some (n, rest)) ↔
      ∃ after, after? .semicolon ts = some after ∧
        ((Cursor.atEnd after || (after? .semicolon after).isSome) = true ∧ n = lhs ∧ rest = after ∨
          (Cursor.atEnd after || (after? .semicolon after).isSome) = false ∧
            ∃ m, (L.assignment after).result = .ok (m, rest) ∧ n = .pair .statements lhs m) := by
  unfold statementStep
  constructor
  · intro h
    split at h
    · rename_i after hSeparator
      refine ⟨after, hSeparator, ?_⟩
      split at h
      · rename_i hMore
        obtain ⟨rfl, rfl⟩ := Prod.mk.inj (Option.some.inj (Except.ok.inj h))
        exact Or.inl ⟨hMore, rfl, rfl⟩
      · rename_i hNext
        obtain ⟨⟨m, rest'⟩, hRead, h⟩ := Attempt.bind_ok.mp h
        obtain ⟨rfl, rfl⟩ := Prod.mk.inj (Option.some.inj (Except.ok.inj h))
        exact Or.inr ⟨by simpa using hNext, m, hRead, rfl⟩
    · cases h
  · rintro ⟨after, hSeparator, ⟨hMore, rfl, rfl⟩ | ⟨hNext, m, hRead, rfl⟩⟩
    · rw [hSeparator]
      dsimp only
      rw [if_pos hMore]
      rfl
    · rw [hSeparator]
      dsimp only
      rw [if_neg (by simp [hNext])]
      exact Attempt.bind_ok.mpr ⟨(m, rest), hRead, rfl⟩

/-- A list of statements goes on at every separator. -/
theorem statementStep_none_iff :
    (statementStep L lhs ts).result = .ok none ↔ after? .semicolon ts = none := by
  unfold statementStep
  constructor
  · intro h
    split at h
    · split at h
      · cases h
      · obtain ⟨_, -, h⟩ := Attempt.bind_ok.mp h
        cases h
    · assumption
  · intro h
    rw [h]
    rfl

/-- Statements are read behind the separators at the start, if anything is left there. -/
theorem statements_ok :
    (statements L ts).result = .ok (n, rest) ↔
      Cursor.atEnd (Cursor.skipSeparators ts) = true ∧ n = .unit .unknown ∧ rest = [] ∨
        Cursor.atEnd (Cursor.skipSeparators ts) = false ∧
          ∃ first mid, (L.assignment (Cursor.skipSeparators ts)).result = .ok (first, mid) ∧
            (extend (statementStep L) first mid).result = .ok (n, rest) := by
  unfold statements
  dsimp only
  cases Cursor.atEnd (Cursor.skipSeparators ts) with
  | true =>
    constructor
    · intro h
      obtain ⟨rfl, rfl⟩ := Prod.mk.inj (Except.ok.inj h)
      exact Or.inl ⟨rfl, rfl, rfl⟩
    · rintro (⟨-, rfl, rfl⟩ | ⟨h, -⟩)
      · rfl
      · cases h
  | false =>
    constructor
    · intro h
      obtain ⟨⟨first, mid⟩, hFirst, h⟩ := Attempt.bind_ok.mp h
      exact Or.inr ⟨rfl, first, mid, hFirst, h⟩
    · rintro (⟨h, -⟩ | ⟨-, first, mid, hFirst, h⟩)
      · cases h
      · exact Attempt.bind_ok.mpr ⟨_, hFirst, h⟩

end Grammar

end Reckoner
