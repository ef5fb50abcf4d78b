import Reckoner.Proofs.Grammar.Powers
import Reckoner.Proofs.Grammar.Reports

/-!
# Where expressions stop

An expression stops where the loop of its last product finds no factor. Two things can then be said of
the tokens that stand there, and neither of them mentions a bound on the nesting: behind an operator of
products no power can be read; and if a power can be read at once, juxtaposition has refused it, so it
is a number or a power of a number. They are kept in `Stuck`. It follows that other products stop there
as well: those that end with a juxtaposition, and numbers that no fraction follows.

## Results

* `Stuck.of_none`  — what is known of the tokens where a product stops.
* `Stuck.not_some` — where one product stops, others do.
* `within_halts`   — an expression stops where a product stops, or at the end of the tokens.
-/

namespace Reckoner

namespace Grammar

open Cursor (next? solid)

variable {units : List String} {ts rest : List Token} {n : Node} {d : Nat}

-- ---------------------------------------------------------------------------
-- One more factor
-- ---------------------------------------------------------------------------

section Factors

variable {L : Layers} {lhs : Node}

/-- The search for one more factor needs two levels of nesting. -/
theorem continuation_deep {found : Option (Node × List Token)}
    (h : ((Layers.within units d).continuation lhs ts).result = .ok found) : ∃ e, d = e + 2 := by
  match d with
  | 0 => cases h
  | 1 =>
    rcases continuation_ok.mp h with ⟨⟨m, mid⟩, -, hFactor⟩ | ⟨-, ⟨x, -, hMixed⟩ | ⟨⟨e, he⟩, -⟩⟩
    · obtain ⟨entry, t, after, m, -, hRead, -⟩ := operatorFactor_some.mp hFactor
      cases hRead
    · cases hMixed
    · cases he
  | e + 2 => exact ⟨e, rfl⟩

theorem peek?_of_fractionTerm {L : Layers} (hL : L.Sound units)
    (h : (fractionTerm L ts).result = .ok (n, rest)) :
    (Cursor.peek? ts).any Token.isNumber = true := by
  obtain ⟨v, p, hSolid, -⟩ := fractionTerm_sound hL h
  unfold Cursor.peek?
  cases hNext : next? ts with
  | none =>
    rw [Cursor.solid_of_next?_none hNext] at hSolid
    cases hSolid
  | some found =>
    rw [Cursor.solid_of_next? hNext] at hSolid
    rw [Option.map_some, (List.cons.inj hSolid).1]
    rfl

/-- After a number a mixed fraction is read wherever a fraction is. -/
theorem mixedFraction_of_number {top bottom : Node} {mid after : List Token} (hL : L.Sound units)
    (hLeft : lhs.isNumber = true) (hTop : (fractionTerm L ts).result = .ok (top, mid))
    (hDiv : Cursor.after? .div mid = some after)
    (hBottom : (fractionTerm L after).result = .ok (bottom, rest)) :
    (mixedFraction L lhs ts).result = .ok (mixedSum none false lhs top bottom, rest) := by
  have hPart : wholePart lhs = .ok (none, lhs) := by
    unfold wholePart
    rw [Node.isBinary_of_kind_ne (by simp [Node.kind_of_isNumber hLeft])]
    rfl
  have hSign : (wholeIsNegated lhs).result = .ok false := by
    unfold wholeIsNegated
    rw [if_pos hLeft]
    rfl
  exact mixedFraction_ok.mpr ⟨none, lhs, false, top, mid, after, bottom, hPart, hSign,
    peek?_of_fractionTerm hL hTop, hTop, hDiv, hBottom, rfl⟩

end Factors

-- ---------------------------------------------------------------------------
-- Where no factor goes on
-- ---------------------------------------------------------------------------

/-- A fraction is read under some bounds on the nesting. -/
def ReadsFraction (units : List String) (ts : List Token) : Prop :=
  ∃ top mid after bottom rest, (ReadsPower units false ts top mid ∧ top.isNumber = true) ∧
    Cursor.after? .div mid = some after ∧
      ReadsPower units false after bottom rest ∧ bottom.isNumber = true

theorem ReadsFraction.of_mixedFraction {lhs : Node}
    (h : (mixedFraction (Layers.within units d) lhs ts).result = .ok (n, rest)) :
    ReadsFraction units ts := by
  obtain ⟨_, _, _, top, mid, after, bottom, -, -, -, hTop, hDiv, hBottom, -⟩ := mixedFraction_ok.mp h
  obtain ⟨hTop, hNumber⟩ := fractionTerm_ok.mp hTop
  obtain ⟨hBottom, hNumber'⟩ := fractionTerm_ok.mp hBottom
  exact ⟨top, mid, after, bottom, rest, ⟨⟨d, hTop⟩, hNumber⟩, hDiv, ⟨d, hBottom⟩, hNumber'⟩

/-- Where a fraction is read, no bound rejects it after a number. -/
theorem ReadsFraction.not_rejected {lhs : Node} {e : ParseError} (h : ReadsFraction units ts)
    (hLeft : lhs.isNumber = true) :
    ((Layers.within units d).mixedFraction lhs ts).result ≠ .error (.error e) := by
  intro he
  obtain ⟨top, mid, after, bottom, rest, ⟨⟨g, hTop⟩, hNumber⟩, hDiv, ⟨g', hBottom⟩, hNumber'⟩ := h
  -- a bound that is large enough for both terms and for the rejection
  have hTop := ((within_below units (by omega : g ≤ g + g' + d)).power false ts).ok hTop
  have hBottom := ((within_below units (by omega : g' ≤ g + g' + d)).power false after).ok hBottom
  have hRead := mixedFraction_of_number (within_sound units (g + g' + d)) hLeft
    (fractionTerm_ok.mpr ⟨hTop, hNumber⟩) hDiv (fractionTerm_ok.mpr ⟨hBottom, hNumber'⟩)
  have hSame := ((within_below units (by omega : d ≤ g + g' + d + 1)).mixedFraction lhs ts).error he
  change (mixedFraction _ lhs ts).result = _ at hSame
  rw [hRead] at hSame
  cases hSame

/-- What is known of the tokens where the loop of a product stops. -/
structure Stuck (units : List String) (ts : List Token) : Prop where
  operator : ∀ {entry t after n rest}, Cursor.select? productOperators ts = some (entry, t, after) →
    ¬ ReadsPower units true after n rest
  operand : ∀ {n rest}, ReadsPower units false ts n rest →
    n.isNumber = true ∨ isPowerOfNumber n = .ok true

/-- A side that the table refuses is a number or a power of a number. -/
theorem refused_side {lhs rhs : Node} (hLeft : lhs.Formed) (hRight : rhs.Formed)
    (h : ∀ k, juxtapositionKind units lhs rhs ≠ .ok (some k)) :
    (rhs.isNumber = true ∨ isPowerOfNumber rhs = .ok true) ∧
      (lhs.isNumber = true ∨ lhs.kind = .negation ∨ lhs.kind = .product) := by
  obtain ⟨negated, hNegated⟩ := hLeft.isNegatedNumber_ok
  obtain ⟨power, hPower⟩ := isPowerOfNumber_formed hRight
  have hKind := juxtapositionKind_eq units hNegated hPower
  rw [hKind] at h
  have hReserved : ((lhs.isNumber || negated || lhs.kind = .product) &&
      (rhs.isNumber || power)) = true := by
    by_cases hReserved : ((lhs.isNumber || negated || lhs.kind = .product) &&
        (rhs.isNumber || power)) = true
    · exact hReserved
    · rw [if_neg hReserved] at h
      split at h
      · exact absurd rfl (h _)
      · exact absurd rfl (h _)
  obtain ⟨hLike, hSide⟩ := (Bool.and_eq_true _ _).mp hReserved
  constructor
  · rcases (Bool.or_eq_true _ _).mp hSide with hSide | rfl
    · exact Or.inl hSide
    · exact Or.inr hPower
  · rcases (Bool.or_eq_true _ _).mp hLike with hLike | hLike
    · rcases (Bool.or_eq_true _ _).mp hLike with hLike | rfl
      · exact Or.inl hLike
      · exact Or.inr (Or.inl (Node.kind_of_isNegatedNumber hNegated))
    · exact Or.inr (Or.inr (of_decide_eq_true hLike))

section Stuck

variable {lhs : Node}

/-- Where no factor goes on, a power that can be read is refused by the table. -/
theorem refused_of_none {rhs : Node}
    (h : ((Layers.within units d).continuation lhs ts).result = .ok none)
    (hRead : ReadsPower units false ts rhs rest) :
    ∀ k, juxtapositionKind units lhs rhs ≠ .ok (some k) := by
  obtain ⟨d, rfl⟩ := continuation_deep h
  obtain ⟨e, he⟩ := juxtaposition_of_continuation h
  rcases juxtaposition_rejected he with he | ⟨rhs', rest', hRead', hRefused⟩
  · exact absurd he hRead.not_error
  · obtain ⟨rfl, rfl⟩ := hRead.unique ⟨d, hRead'⟩
    exact hRefused

/-- **What is known where no factor goes on.** -/
theorem Stuck.of_none (hLeft : lhs.Formed)
    (h : ((Layers.within units d).continuation lhs ts).result = .ok none) : Stuck units ts where
  operator hSelect hRead := by
    obtain ⟨d, rfl⟩ := continuation_deep h
    rcases continuation_ok.mp h with ⟨x, hx, -⟩ | ⟨hFactor, -⟩
    · cases hx
    · obtain ⟨e, he⟩ := operatorFactor_none_iff.mp hFactor _ _ _ hSelect
      exact hRead.not_error he
  operand hRead := (refused_side hLeft hRead.reads.formed (refused_of_none h hRead)).1

theorem Stuck.congr {ts' : List Token} (h : Stuck units ts) (hNext : next? ts = next? ts') :
    Stuck units ts' where
  operator hSelect := h.operator ((select?_congr hNext _).trans hSelect)
  operand hRead := h.operand (hRead.congr hNext.symm)

/-- No fraction is read where no factor goes on from a number, a call or an application. -/
theorem no_fraction_of_none (hLeft : lhs.Formed)
    (hKind : lhs.isNumber = true ∨ lhs.kind = .apply ∨ lhs.kind = .call)
    (h : ((Layers.within units d).continuation lhs ts).result = .ok none) :
    ¬ ReadsFraction units ts := by
  intro hFraction
  rcases hKind with hNumber | hKind
  · obtain ⟨d, rfl⟩ := continuation_deep h
    rcases continuation_ok.mp h with ⟨x, hx, -⟩ | ⟨-, ⟨x, hx, -⟩ | ⟨⟨e, he⟩, -⟩⟩
    · cases hx
    · cases hx
    · exact hFraction.not_rejected hNumber he
  · obtain ⟨top, mid, -, -, -, ⟨hTop, -⟩, -⟩ := hFraction
    rcases (refused_side hLeft hTop.reads.formed (refused_of_none h hTop)).2 with hLike | hLike
    · have hLiteral := Node.kind_of_isNumber hLike
      rcases hKind with hKind | hKind <;> simp [hKind] at hLiteral
    · rcases hKind with hKind | hKind <;> simp [hKind] at hLike

/-- What can be read where a product stops is refused after every number and every product. -/
theorem Stuck.not_juxtaposed {x : Node × List Token} (h : Stuck units ts)
    (hLeft : lhs.kind = .product ∨ lhs.isNumber = true) :
    (juxtaposition units (Layers.within units d) lhs ts).result ≠ .ok x := by
  intro hPair
  obtain ⟨k, rhs, hRead, hKind, -⟩ := juxtaposition_ok.mp hPair
  obtain ⟨negated, power, hNegated, hPower⟩ := juxtapositionKind_ok hKind
  rw [juxtapositionKind_eq units hNegated hPower] at hKind
  have hLike : (lhs.isNumber || negated || lhs.kind = .product) = true := by
    rcases hLeft with hProduct | hNumber
    · simp [hProduct]
    · simp [hNumber]
  have hSide : (rhs.isNumber || power) = true := by
    rcases h.operand ⟨d, hRead⟩ with hNumber | hTrue
    · simp [hNumber]
    · obtain rfl := Except.ok.inj (hPower.symm.trans hTrue)
      simp
  rw [if_pos (by rw [hLike, hSide]; rfl)] at hKind
  cases hKind

/-- **Where one product stops, others do**: those that end with a juxtaposition, and those that are a
number, if no fraction follows. -/
theorem Stuck.not_some {x : Node × List Token} (h : Stuck units ts)
    (hLeft : lhs.kind = .product ∨ lhs.isNumber = true ∧ ¬ ReadsFraction units ts) :
    ((Layers.within units d).continuation lhs ts).result ≠ .ok (some x) := by
  intro hFound
  obtain ⟨d, rfl⟩ := continuation_deep hFound
  rcases continuation_ok.mp hFound with ⟨x, hx, hFactor⟩ | ⟨-, ⟨x, hx, hMixed⟩ | ⟨-, hPair⟩⟩
  · obtain ⟨entry, t, after, m, hSelect, hRead, -⟩ := operatorFactor_some.mp hFactor
    exact h.operator hSelect ⟨d + 1, hRead⟩
  · rcases hLeft with hProduct | ⟨-, hNone⟩
    · -- a product of juxtaposition is no whole part
      have hRejects : ∃ e, (mixedFraction (Layers.within units d) lhs ts).result =
          .error (.error e) := by
        refine mixedFraction_rejects_whole ?_ (Node.isNumber_of_kind_ne ?_)
          (Node.isNegatedNumber_of_kind_ne ?_) <;> simp [hProduct]
      obtain ⟨e, he⟩ := hRejects
      cases he.symm.trans hMixed
    · exact hNone (.of_mixedFraction hMixed)
  · exact h.not_juxtaposed (hLeft.imp_right And.left) (Attempt.candidate_some.mp hPair)

end Stuck

-- ---------------------------------------------------------------------------
-- Where expressions stop
-- ---------------------------------------------------------------------------

section Halting

/-- The rules of `L` that end with the loop of a product stop where it stops. Statements may also
stop at the end of the tokens. -/
structure Layers.Halting (units : List String) (L : Layers) : Prop where
  expression : ∀ {ts n rest}, (L.expression ts).result = .ok (n, rest) →
    Stuck units rest ∨ next? rest = none
  statements : ∀ {ts n rest}, (L.statements ts).result = .ok (n, rest) →
    Stuck units rest ∨ next? rest = none
  assignment : ∀ {ts n rest}, (L.assignment ts).result = .ok (n, rest) → Stuck units rest
  function : ∀ {ts n rest}, (L.function ts).result = .ok (n, rest) → Stuck units rest
  additive : ∀ {ts n rest}, (L.additive ts).result = .ok (n, rest) → Stuck units rest
  implicitSum : ∀ {ts n rest}, (L.implicitSum ts).result = .ok (n, rest) → Stuck units rest
  multiplicative : ∀ {ts n rest}, (L.multiplicative ts).result = .ok (n, rest) → Stuck units rest

theorem multiplicative_halts {ts rest : List Token} {n : Node}
    (h : (multiplicative (Layers.within units d) ts).result = .ok (n, rest)) : Stuck units rest := by
  obtain ⟨hReads, hEnd⟩ := multiplicative_ok (within_sound units d) h
  exact .of_none hReads.formed hEnd

variable {L : Layers}

/-- A parse error of a product is one of its first power, for its loop has none. -/
theorem multiplicative_error {e : ParseError}
    (h : ((Layers.within units (d + 1)).multiplicative ts).result = .error (.error e)) :
    ((Layers.within units d).power true ts).result = .error (.error e) := by
  rcases Attempt.bind_error.mp h with h | ⟨⟨base, mid⟩, -, h⟩
  · exact h
  · obtain ⟨m, rest, h⟩ := extend_error h
    exact absurd h (continuation_error units d m rest e)

theorem Declined.answers {x : Attempt (Node × List Token)} (h : Declined x) :
    x.result ≠ .error .tooDeep := by
  rcases h with ⟨e, he⟩ | ⟨m, after, hOk, -⟩
  · simp [he]
  · simp [hOk]

/-- Why the right part of a compound quantity is declined: no power can be read, or what its product
comes to is no part of one. -/
theorem Declined.cases (h : Declined ((Layers.within units d).implicitSum ts)) :
    ∃ e, d = e + 2 ∧
      ((∃ error, ((Layers.within units e).power true ts).result = .error (.error error)) ∨
        ∃ base mid m rest, ((Layers.within units e).power true ts).result = .ok (base, mid) ∧
          Runs (Layers.within units e).continuation base mid m rest ∧ isQuantityPart m = false) := by
  match d with
  | 0 => exact absurd rfl h.answers
  | 1 => exact absurd rfl h.answers
  | d + 2 =>
    refine ⟨d, rfl, ?_⟩
    rcases h with ⟨e, he⟩ | ⟨m, after, hRead, hPart⟩
    · exact Or.inl ⟨e, multiplicative_error (implicitSum_error he)⟩
    · rcases implicitSum_ok.mp hRead with ⟨l, mid, m', -, -, -, -, rfl⟩ | ⟨hLeft, -⟩
      · simp [isQuantityPart] at hPart
      · obtain ⟨⟨base, mid⟩, hBase, hRuns⟩ := Attempt.bind_ok.mp hLeft
        exact Or.inr ⟨base, mid, m, after, hBase, runs_of_extend (continuation_takes units d) hRuns,
          hPart⟩

/-- Where a power is read, a compound quantity is not rejected. -/
theorem ReadsPower.not_implicitSum_error {e : ParseError} (h : ReadsPower units true ts n rest) :
    ((Layers.within units d).implicitSum ts).result ≠ .error (.error e) := by
  intro he
  match d with
  | 0 => cases he
  | 1 => cases he
  | d + 2 => exact h.not_error (multiplicative_error (implicitSum_error he))

section Rules

variable (hL : L.Halting units)
include hL

theorem implicitSum_halts (h : (implicitSum L ts).result = .ok (n, rest)) : Stuck units rest := by
  rcases implicitSum_ok.mp h with ⟨l, mid, m, -, -, hRight, -, -⟩ | ⟨hLeft, -⟩
  · exact hL.implicitSum hRight
  · exact hL.multiplicative hLeft

theorem sumRuns_halts {m : Node} (hRuns : Runs (sumStep L) n ts m rest) (h : Stuck units ts) :
    Stuck units rest := by
  induction hRuns with
  | done _ => exact h
  | more hMore _ _ ih =>
    obtain ⟨entry, t, after, m, -, hRead, -⟩ := sumStep_some.mp hMore
    exact ih (hL.implicitSum hRead)

theorem additive_halts (hStep : Takes (sumStep L)) (h : (additive L ts).result = .ok (n, rest)) :
    Stuck units rest := by
  obtain ⟨⟨first, mid⟩, hFirst, h⟩ := Attempt.bind_ok.mp h
  exact sumRuns_halts hL (runs_of_extend hStep h) (hL.implicitSum hFirst)

theorem function_halts (h : (function L ts).result = .ok (n, rest)) : Stuck units rest := by
  obtain ⟨m, mid, hRead, ⟨after, body, -, -, hBody, -⟩ | ⟨-, -, rfl⟩⟩ := function_ok.mp h
  · exact hL.function hBody
  · exact hL.additive hRead

theorem assignment_halts (h : (assignment L ts).result = .ok (n, rest)) : Stuck units rest := by
  obtain ⟨m, mid, hRead, ⟨after, value, -, -, hValue, -⟩ | ⟨-, -, rfl⟩⟩ := assignment_ok.mp h
  · exact hL.assignment hValue
  · exact hL.function hRead

/-- Between two steps of a list of statements a separator may be left, which the next step takes. -/
theorem statementRuns_halts {m : Node} (hRuns : Runs (statementStep L) n ts m rest)
    (h : (Stuck units ts ∨ next? ts = none) ∨ (Cursor.after? .semicolon ts).isSome = true) :
    Stuck units rest ∨ next? rest = none := by
  induction hRuns with
  | done hEnd =>
    refine h.resolve_right fun hSeparator => ?_
    rw [statementStep_none_iff.mp hEnd] at hSeparator
    cases hSeparator
  | more hMore _ _ ih =>
    refine ih ?_
    obtain ⟨after, -, ⟨hOr, -, rfl⟩ | ⟨-, m, hRead, -⟩⟩ := statementStep_some.mp hMore
    · rcases (Bool.or_eq_true _ _).mp hOr with hEnd | hSeparator
      · exact Or.inl (Or.inr (Cursor.atEnd_iff.mp hEnd))
      · exact Or.inr hSeparator
    · exact Or.inl (Or.inl (hL.assignment hRead))

theorem statements_halts (hStep : Takes (statementStep L))
    (h : (statements L ts).result = .ok (n, rest)) : Stuck units rest ∨ next? rest = none := by
  rcases statements_ok.mp h with ⟨-, -, rfl⟩ | ⟨-, first, mid, hFirst, h⟩
  · exact Or.inr rfl
  · exact statementRuns_halts hL (runs_of_extend hStep h) (Or.inl (Or.inl (hL.assignment hFirst)))

end Rules

/-- **An expression stops where a product stops**, or at the end of the tokens. -/
theorem within_halts (units : List String) (d : Nat) : (Layers.within units d).Halting units := by
  induction d with
  | zero => constructor <;> intros <;> rename_i h <;> cases h
  | succ d ih =>
    exact {
      expression := ih.statements
      statements := statements_halts ih (statementStep_takes units d)
      assignment := assignment_halts ih
      function := function_halts ih
      additive := additive_halts ih (sumStep_takes units d)
      implicitSum := implicitSum_halts ih
      multiplicative := multiplicative_halts }

end Halting

end Grammar

end Reckoner
