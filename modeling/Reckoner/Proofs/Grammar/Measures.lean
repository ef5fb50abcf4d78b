import Reckoner.Proofs.Grammar.Fractions
import Reckoner.Proofs.Grammar.Quantities

/-!
# Mixed fractions in compound quantities

A compound quantity with a mixed fraction in it, such as `5 feet 2 1/2 inches`, is no sum of its
components. The name behind a mixed fraction is the argument of the fraction (`apply`), where the name
behind a number is a further factor of it (`product`), and only products and numbers are added up side by
side. So the sum ends in front of the first component with a mixed fraction, and the whole number of that
component is an unexpected input.

Where the first component is a mixed fraction, nothing is there to be added to. But what is not like a
number takes up a number behind it (`continuation_called`). So every further component is swallowed token
by token, the quotient of a mixed fraction included, and the result is one product (`runs_measures`).

## Results

* `runs_measures`            — components are swallowed by what is not like a number.
* `parsed_behind_components` — what is parsed, by the components in front of the first mixed fraction.
* `parseWithin_measures`     — a quantity with a mixed fraction is never the sum of its components.
-/

namespace Reckoner

namespace Grammar

open Cursor (Avoids Closes solid)

variable {units : List String} {d : Nat} {lhs n : Node} {left ts rest : List Token}

-- ---------------------------------------------------------------------------
-- Measures
-- ---------------------------------------------------------------------------

/-- A number or a mixed fraction, with the name of a unit behind it. -/
inductive Measure where
  | plain (amount : Payload × Place) (unit : String × Place)
  | mixed (amount : Fraction) (unit : String × Place)

namespace Measure

def isMixed : Measure → Bool
  | plain _ _ => false
  | mixed _ _ => true

def tokens : Measure → List Token
  | plain amount unit => [⟨.number amount.1, amount.2⟩, ⟨.ident unit.1, unit.2⟩]
  | mixed f unit => f.tokens ++ [⟨.ident unit.1, unit.2⟩]

/-- The tree of a measure by itself. -/
def node : Measure → Node
  | plain amount unit => .pair .product (.number amount.1 amount.2) (.ident unit.1 unit.2)
  | mixed f unit => .pair .apply f.sum (.ident unit.1 unit.2)

/-- What becomes of an expression that is not like a number when a measure stands behind it. -/
def swallowed (n : Node) : Measure → Node
  | plain amount unit => .pair .apply (.pair .call n (.number amount.1 amount.2)) (.ident unit.1 unit.2)
  | mixed f unit =>
    .pair .apply (.binary .div (.pair .call (.pair .call n f.wholeNode) f.topNode) f.bottomNode)
      (.ident unit.1 unit.2)

end Measure

-- ---------------------------------------------------------------------------
-- Swallowed measures
-- ---------------------------------------------------------------------------

/-- An application takes up a number as one more argument. -/
theorem continuation_called (hKind : lhs.kind = .apply ∨ lhs.kind = .call) (v : Payload) (p : Place)
    (hRest : Avoids tightSymbols rest) :
    ((Layers.within units (d + 6)).continuation lhs (⟨.number v, p⟩ :: rest)).result =
      .ok (some (.pair .call lhs (.number v p), rest)) := by
  have hNot : lhs.kind ∉ [.literal, .identifier, .product, .binary, .negation] := by
    rcases hKind with h | h <;> rw [h] <;> decide
  simp only [List.mem_cons, List.not_mem_nil, or_false, not_or] at hNot
  obtain ⟨hLiteral, hName, hProduct, hBinary, hNegation⟩ := hNot
  have hNumber : lhs.isNumber = false := Node.isNumber_of_kind_ne hLiteral
  have hNegated : lhs.isNegatedNumber = .ok false := Node.isNegatedNumber_of_kind_ne hNegation
  have hKind : juxtapositionKind units lhs (.number v p) = .ok (some .call) := by
    rw [juxtapositionKind_eq units hNegated (isPowerOfNumber_of_kind_ne (by simp))]
    simp [hNumber, hProduct, isPrefixUnit, hName]
  have hPower : ((Layers.within units (d + 4)).power false (⟨.number v, p⟩ :: rest)).result =
      .ok (.number v p, rest) := power_of_primary false (primary_number v p) hRest
  have hAvoids : Avoids [.mul, .div, .mod] (⟨.number v, p⟩ :: rest) :=
    Cursor.avoids_number rest
  exact continuation_juxtaposed (Cursor.select?_of_avoids hAvoids (by decide))
    (mixedFraction_rejects_whole hBinary hNumber hNegated)
    (juxtaposition_ok.mpr ⟨.call, _, hPower, hKind, rfl⟩)

/-- **A measure is swallowed** by what is not like a number, token by token. -/
theorem runs_measure (m : Measure) (hLeft : Derives units .multiplicative left lhs)
    (hKind : lhs.kind = .apply) (hRest : Avoids tightSymbols ts) :
    (∃ used, Derives units .multiplicative used (m.swallowed lhs)) ∧ ∀ {n rest},
      Runs (Layers.within units (d + 6)).continuation (m.swallowed lhs) ts n rest →
        Runs (Layers.within units (d + 6)).continuation lhs (m.tokens ++ ts) n rest := by
  cases m with
  | plain amount unit =>
    have hName : Avoids tightSymbols (⟨.ident unit.1, unit.2⟩ :: ts) :=
      Cursor.avoids_ident ts
    obtain ⟨⟨_, hCalled⟩, hFirst⟩ := runs_step hLeft
      (continuation_called (d := d) (Or.inl hKind) amount.1 amount.2 hName) (Nat.lt_succ_self _)
    obtain ⟨hApplied, hSecond⟩ := runs_step hCalled
      (continuation_name (d := d) hCalled unit.1 unit.2 hRest) (Nat.lt_succ_self _)
    exact ⟨hApplied, fun hRuns => hFirst (hSecond hRuns)⟩
  | mixed f unit =>
    have hTop : Avoids tightSymbols (f.proper ++ ⟨.ident unit.1, unit.2⟩ :: ts) :=
      Cursor.avoids_number _
    have hSlash : Avoids tightSymbols (⟨.symbol .div, f.slash⟩ :: ⟨.number f.bottom.1, f.bottom.2⟩ ::
        ⟨.ident unit.1, unit.2⟩ :: ts) := Cursor.avoids_cons rfl (by simp [tightSymbols]) _
    have hName : Avoids tightSymbols (⟨.ident unit.1, unit.2⟩ :: ts) :=
      Cursor.avoids_ident ts
    have hBottom : ((Layers.within units (d + 5)).power true
        (⟨.number f.bottom.1, f.bottom.2⟩ :: ⟨.ident unit.1, unit.2⟩ :: ts)).result =
        .ok (f.bottomNode, ⟨.ident unit.1, unit.2⟩ :: ts) :=
      power_of_primary (d := d + 3) true (primary_number _ _) hName
    obtain ⟨⟨_, hWhole⟩, hFirst⟩ := runs_step hLeft
      (continuation_called (d := d) (Or.inl hKind) f.whole.1 f.whole.2 hTop) (Nat.lt_succ_self _)
    obtain ⟨⟨_, hCalled⟩, hSecond⟩ := runs_step hWhole
      (continuation_called (d := d) (Or.inr rfl) f.top.1 f.top.2 hSlash) (Nat.lt_succ_self _)
    obtain ⟨⟨_, hDivided⟩, hThird⟩ := runs_step (d := d + 6) hCalled
      (continuation_operator (show (.div, .div) ∈ productOperators by decide) _ f.slash hBottom)
      (by simp)
    obtain ⟨hApplied, hFourth⟩ := runs_step hDivided
      (continuation_name (d := d) hDivided unit.1 unit.2 hRest) (Nat.lt_succ_self _)
    exact ⟨hApplied, fun hRuns => hFirst (hSecond (hThird (hFourth hRuns)))⟩

theorem Measure.avoids (m : Measure) (ts : List Token) : Avoids tightSymbols (m.tokens ++ ts) := by
  cases m <;> exact Cursor.avoids_number _

theorem avoids_measures (ms : List Measure) (hRest : Closes (followers .multiplicative) rest) :
    Avoids tightSymbols (ms.flatMap Measure.tokens ++ rest) := by
  cases ms with
  | nil => exact hRest.avoids (by decide)
  | cons m ms =>
    rw [List.flatMap_cons, List.append_assoc]
    exact m.avoids _

/-- **Measures are swallowed** by what is not like a number, one after the other. -/
theorem runs_measures (ms : List Measure) (hLeft : Derives units .multiplicative left lhs)
    (hKind : lhs.kind = .apply) (hRest : Closes (followers .multiplicative) rest) :
    Runs (Layers.within units (d + 6)).continuation lhs (ms.flatMap Measure.tokens ++ rest)
      (ms.foldl Measure.swallowed lhs) rest ∧ (ms.foldl Measure.swallowed lhs).kind = .apply := by
  induction ms generalizing left lhs with
  | nil => exact ⟨.done (continuation_none (d := d + 1) hLeft hRest), hKind⟩
  | cons m ms ih =>
    obtain ⟨⟨used, hDerives⟩, hMeasure⟩ :=
      runs_measure (d := d) m hLeft hKind (avoids_measures ms hRest)
    have hApply : (m.swallowed lhs).kind = .apply := by cases m <;> rfl
    obtain ⟨hRuns, hLast⟩ := ih hDerives hApply
    rw [List.flatMap_cons, List.append_assoc]
    exact ⟨hMeasure hRuns, hLast⟩

/-- **A mixed fraction swallows what is behind its unit.** -/
theorem swallowing_reads (units : List String) (f : Fraction) (unit : String × Place)
    (behind : List Measure) (hRest : Closes (followers .multiplicative) rest) :
    ((Layers.within units (d + 7)).multiplicative
        ((Measure.mixed f unit).tokens ++ (behind.flatMap Measure.tokens ++ rest))).result =
      .ok (behind.foldl Measure.swallowed (Measure.mixed f unit).node, rest) ∧
      (behind.foldl Measure.swallowed (Measure.mixed f unit).node).kind = .apply := by
  have hBehind := avoids_measures behind hRest
  generalize hTs : behind.flatMap Measure.tokens ++ rest = ts at hBehind
  have hName : Avoids tightSymbols (⟨.ident unit.1, unit.2⟩ :: ts) :=
    Cursor.avoids_ident ts
  have hProper : Avoids tightSymbols (f.proper ++ ⟨.ident unit.1, unit.2⟩ :: ts) :=
    Cursor.avoids_number _
  have hPower : ((Layers.within units (d + 6)).power true
      (⟨.number f.whole.1, f.whole.2⟩ :: (f.proper ++ ⟨.ident unit.1, unit.2⟩ :: ts))).result =
      .ok (f.wholeNode, f.proper ++ ⟨.ident unit.1, unit.2⟩ :: ts) :=
    power_of_primary (d := d + 4) true (primary_number _ _) hProper
  obtain ⟨_, -, hWhole⟩ := (within_sound units (d + 6)).power hPower
  have hPart : wholePart f.wholeNode = .ok (none, f.wholeNode) := rfl
  have hSign : (wholeIsNegated f.wholeNode).result = .ok false := rfl
  obtain ⟨⟨_, hSum⟩, hFirst⟩ := runs_step (d := d + 6) (.widen (by decide) hWhole)
    (continuation_fraction f hPart hSign hName) (by simp [Fraction.proper])
  obtain ⟨⟨_, hApplied⟩, hSecond⟩ := runs_step hSum
    (continuation_name (d := d) hSum unit.1 unit.2 hBehind) (Nat.lt_succ_self _)
  obtain ⟨hRuns, hKind⟩ := runs_measures (d := d) behind hApplied rfl hRest
  rw [hTs] at hRuns
  refine ⟨?_, hKind⟩
  have hTokens : (Measure.mixed f unit).tokens ++ ts =
      ⟨.number f.whole.1, f.whole.2⟩ :: (f.proper ++ ⟨.ident unit.1, unit.2⟩ :: ts) := by
    simp [Measure.tokens, Fraction.tokens]
  rw [hTokens]
  exact multiplicative_of_runs hPower (hFirst (hSecond hRuns))

/-- What is left behind an expression is an unexpected input. -/
theorem parseWithin_of_leftover {tokens : List Token} {t : Token} (hPlain : Plain tokens)
    (ht : t.isBlank = false)
    (h : ((Layers.within units d).expression tokens).result = .ok (n, t :: rest)) :
    (parseWithin d units tokens).result = .error (.error (.unexpectedInput t)) := by
  rw [← significant_of_plain hPlain] at h
  have hReport := reportDepth_result (x := (Layers.within units d).expression (significant tokens))
    (by simp [h])
  have hPeek : Cursor.peek? (t :: rest) = some t := by
    simp [Cursor.peek?, Cursor.next?, ht]
  refine (Attempt.result_bind_of_ok (hReport.trans h) _).trans ?_
  dsimp only
  rw [hPeek]
  rfl

-- ---------------------------------------------------------------------------
-- Whole sequences of tokens
-- ---------------------------------------------------------------------------

/-- There are only numbers, names and `/` in a measure. -/
theorem Measure.mem_tokens {m : Measure} {t : Token} (h : t ∈ m.tokens) :
    t.isBlank = false ∧ t.isFinish = false ∧ t.isSymbol .backslash = false := by
  cases m <;> simp only [tokens, Fraction.tokens, Fraction.proper, List.mem_cons, List.mem_append,
    List.not_mem_nil, or_false] at h <;> grind [Token.isBlank, Token.isFinish, Token.isSymbol_symbol,
      Token.isSymbol_number, Token.isSymbol_ident]

/-- Numbers with units are components. -/
theorem exists_components {front : List Measure} (h : ∀ m ∈ front, m.isMixed = false) :
    ∃ components : List Component, components.length = front.length ∧
      front.flatMap Measure.tokens = components.flatMap Component.tokens := by
  induction front with
  | nil => exact ⟨[], rfl, rfl⟩
  | cons m front ih =>
    obtain ⟨hm, hFront⟩ := List.forall_mem_cons.mp h
    obtain ⟨components, hLength, hTokens⟩ := ih hFront
    cases m with
    | plain amount unit =>
      refine ⟨⟨amount.1, amount.2, unit, []⟩ :: components, by simp [hLength], ?_⟩
      rw [List.flatMap_cons, List.flatMap_cons, hTokens]
      rfl
    | mixed f unit => cases hm

/-- What is parsed where some components stand in front of the first mixed fraction: without them the
fraction swallows what is behind it, and otherwise its whole number is an unexpected input. -/
def Measure.outcome (f : Fraction) (unit : String × Place) (behind : List Measure) :
    List Measure → Except Stop Node
  | [] => .ok (behind.foldl swallowed (mixed f unit).node)
  | _ :: _ => .error (.error (.unexpectedInput ⟨.number f.whole.1, f.whole.2⟩))

theorem Measure.outcome_ne_tooDeep {f : Fraction} {unit : String × Place} {behind front : List Measure} :
    outcome f unit behind front ≠ .error (.error .tooDeep) := by
  cases front <;> exact nofun

/-- **What is parsed, by the components in front of the first mixed fraction.** -/
theorem parsed_behind_components (units : List String) {front : List Measure}
    (hFront : ∀ m ∈ front, m.isMixed = false) (f : Fraction) (unit : String × Place)
    (behind : List Measure) :
    (parseWithin (front.length + 13) units
        ((front ++ .mixed f unit :: behind).flatMap Measure.tokens)).result =
      Measure.outcome f unit behind front := by
  have hPlain : Plain ((front ++ .mixed f unit :: behind).flatMap Measure.tokens) := by
    intro t ht
    obtain ⟨m, -, hm⟩ := List.mem_flatMap.mp ht
    exact ⟨(Measure.mem_tokens hm).1, (Measure.mem_tokens hm).2.1⟩
  obtain ⟨hSwallowed, hKind⟩ :=
    swallowing_reads (d := 0) units f unit behind (Cursor.closes_nil _)
  have hSum := implicitSum_of_multiplicative hSwallowed (by rw [hKind]; decide)
  rw [List.append_nil] at hSum
  obtain ⟨components, hLength, hComponents⟩ := exists_components hFront
  rw [List.flatMap_append, List.flatMap_cons, hComponents] at hPlain ⊢
  cases front with
  | nil =>
    obtain rfl : components = [] := List.eq_nil_of_length_eq_zero hLength
    exact parseWithin_of_expression hPlain (expression_of_sum rfl hSum (fun _ h => nomatch h))
  | cons m front =>
    obtain ⟨first, more, rfl⟩ := List.exists_cons_of_length_eq_add_one hLength
    have hLength : front.length = more.length := (Nat.succ.inj hLength).symm
    rw [List.length_cons, hLength]
    -- what the fraction has become is no part of a sum
    have hDeclined : Declined ((Layers.within units 8).implicitSum
        ((Measure.mixed f unit).tokens ++ behind.flatMap Measure.tokens)) :=
      Or.inr ⟨_, _, hSum, by
        obtain ⟨n, hn⟩ : ∃ n, behind.foldl Measure.swallowed (Measure.mixed f unit).node = n := ⟨_, rfl⟩
        rw [hn] at hKind ⊢
        simp [isQuantityPart, hKind, Node.isBinary_of_kind_ne]⟩
    have hEnds : EndsComponent ((Measure.mixed f unit).tokens ++ behind.flatMap Measure.tokens) :=
      Or.inl ⟨f.whole.1, f.whole.2, _, rfl, Cursor.avoids_number _⟩
    have hRead := (components_read units first more hEnds (.declined hDeclined)).1
    refine parseWithin_of_leftover hPlain rfl (expression_of_sum rfl hRead ?_)
    exact Cursor.avoids_number _

/-- A measure by itself is parsed to its tree. -/
theorem Measure.parsed (units : List String) (m : Measure) :
    (parseWithin 14 units m.tokens).result = .ok m.node := by
  cases m with
  | plain amount unit =>
    exact (Quantity.parsed ⟨⟨amount.1, amount.2, unit, []⟩, [], none⟩ 14 units).1 (Nat.le_refl 14)
  | mixed f unit =>
    have hFront : ∀ m ∈ ([] : List Measure), m.isMixed = false := by simp
    have hParsed := parsed_behind_components units hFront f unit []
    rw [List.nil_append, List.flatMap_singleton] at hParsed
    have hAlone : (parseWithin 13 units (mixed f unit).tokens).result = .ok (mixed f unit).node :=
      hParsed
    exact (parseWithin_allowed hAlone 14).1 (by decide)

/-- The first mixed fraction among some measures. -/
theorem exists_first_mixed {ms : List Measure} (h : ∃ m ∈ ms, m.isMixed = true) :
    ∃ front f unit behind, ms = front ++ .mixed f unit :: behind ∧ ∀ m ∈ front, m.isMixed = false := by
  obtain ⟨m, hFind⟩ := Option.isSome_iff_exists.mp (List.find?_isSome.mpr h)
  obtain ⟨hm, front, behind, rfl, hFront⟩ := List.find?_eq_some_iff_append.mp hFind
  cases m with
  | plain amount unit => cases hm
  | mixed f unit => exact ⟨front, f, unit, behind, rfl, by simpa using hFront⟩

theorem Measure.outcome_ne_sum {f : Fraction} {unit : String × Place} {behind front : List Measure}
    {n m : Node} {more : List Node} :
    outcome f unit behind front ≠ .ok (rightSum n (m :: more)) := by
  cases front with
  | nil =>
    intro h
    have hKind := (swallowing_reads (d := 0) [] f unit behind (Cursor.closes_nil _)).2
    rw [Except.ok.inj h] at hKind
    cases hKind
  | cons _ _ => exact nofun

/-- **A compound quantity with a mixed fraction is never the sum of its components**, each of which is
parsed by itself. With components in front of the first mixed fraction, its whole number is an unexpected
input; without them, the mixed fraction is applied to all that is behind it. A smaller bound on the nesting
can do no more than to be exhausted. -/
theorem parseWithin_measures (depth : Nat) (units : List String) {ms : List Measure}
    (hMany : 2 ≤ ms.length) (hMixed : ∃ m ∈ ms, m.isMixed = true) {tokens : List Token}
    (hTokens : solid (significant tokens) = ms.flatMap Measure.tokens) :
    (∀ m ∈ ms, 14 ≤ depth → (parseWithin depth units m.tokens).result = .ok m.node) ∧
      (∀ n more, ms.map Measure.node = n :: more →
        (parseWithin depth units tokens).result ≠ .ok (rightSum n more)) ∧
      ∃ front f unit behind, ms = front ++ .mixed f unit :: behind ∧
        (∀ m ∈ front, m.isMixed = false) ∧
        (front.length + 13 ≤ depth →
          (parseWithin depth units tokens).result = Measure.outcome f unit behind front) ∧
        ((parseWithin depth units tokens).result = Measure.outcome f unit behind front ∨
          (parseWithin depth units tokens).result = .error (.error .tooDeep)) := by
  obtain ⟨front, f, unit, behind, hSplit, hFront⟩ := exists_first_mixed hMixed
  have hPlain : ∀ t ∈ ms.flatMap Measure.tokens,
      t.isBlank = false ∧ t.isFinish = false ∧ t.isSymbol .backslash = false := by
    intro t ht
    obtain ⟨m, -, hm⟩ := List.mem_flatMap.mp ht
    exact Measure.mem_tokens hm
  have hParsed := parsed_behind_components units hFront f unit behind
  rw [← hSplit] at hParsed
  obtain ⟨hLarge, hAny⟩ := parseWithin_settled hParsed Measure.outcome_ne_tooDeep depth
  rw [← parseWithin_of_solid depth units hPlain hTokens] at hLarge hAny
  refine ⟨fun m _ hDepth => (parseWithin_allowed (Measure.parsed units m) depth).1 hDepth, ?_,
    front, f, unit, behind, hSplit, hFront, hLarge, hAny⟩
  intro n more hNodes hSum
  obtain ⟨m, more, rfl⟩ : ∃ m more', more = m :: more' := by
    have hLength := congrArg List.length hNodes
    rw [List.length_map, List.length_cons] at hLength
    exact List.exists_cons_of_length_pos (by omega)
  rcases hAny with h | h
  · exact Measure.outcome_ne_sum (h.symm.trans hSum)
  · cases h.symm.trans hSum

/-- `2 1/2 feet 3 inches`: the fraction is applied to `feet`, and what comes out of that to `3`. -/
theorem half_feet_and_inches_swallowed :
    let ms : List Measure :=
      [.mixed ⟨(.fraction 2, ⟨1, 1⟩), (.fraction 1, ⟨1, 3⟩), ⟨1, 4⟩, (.fraction 2, ⟨1, 5⟩)⟩ ("feet", ⟨1, 7⟩),
       .plain (.fraction 3, ⟨1, 12⟩) ("inches", ⟨1, 14⟩)]
    let tokens : List Token :=
      [⟨.number (.fraction 2), ⟨1, 1⟩⟩, ⟨.blank " ", ⟨1, 2⟩⟩, ⟨.number (.fraction 1), ⟨1, 3⟩⟩,
       ⟨.symbol .div, ⟨1, 4⟩⟩, ⟨.number (.fraction 2), ⟨1, 5⟩⟩, ⟨.blank " ", ⟨1, 6⟩⟩,
       ⟨.ident "feet", ⟨1, 7⟩⟩, ⟨.blank " ", ⟨1, 11⟩⟩, ⟨.number (.fraction 3), ⟨1, 12⟩⟩,
       ⟨.blank " ", ⟨1, 13⟩⟩, ⟨.ident "inches", ⟨1, 14⟩⟩]
    2 ≤ ms.length ∧ (∃ m ∈ ms, m.isMixed = true) ∧
      solid (significant tokens) = ms.flatMap Measure.tokens ∧
      (parse [] tokens).result = .ok
        (.pair .apply
          (.pair .call
            (.pair .apply
              (.binary .plus (.number (.fraction 2) ⟨1, 1⟩)
                (.binary .div (.number (.fraction 1) ⟨1, 3⟩) (.number (.fraction 2) ⟨1, 5⟩)))
              (.ident "feet" ⟨1, 7⟩))
            (.number (.fraction 3) ⟨1, 12⟩))
          (.ident "inches" ⟨1, 14⟩)) ∧
      ∀ n more, ms.map Measure.node = n :: more → (parse [] tokens).result ≠ .ok (rightSum n more) := by
  intro ms tokens
  have hMany : 2 ≤ ms.length := by decide
  have hMixed : ∃ m ∈ ms, m.isMixed = true := ⟨_, List.mem_cons_self, rfl⟩
  have hTokens : solid (significant tokens) = ms.flatMap Measure.tokens := rfl
  exact ⟨hMany, hMixed, hTokens, rfl, (parseWithin_measures maxNesting [] hMany hMixed hTokens).2.1⟩

/-- `5 feet 2 1/2 inches`: each component is parsed by itself, but the two of them are not parsed, since
the `2` is unexpected. -/
theorem feet_and_half_inches_refused :
    let feet : Measure := .plain (.fraction 5, ⟨1, 1⟩) ("feet", ⟨1, 3⟩)
    let inches : Measure :=
      .mixed ⟨(.fraction 2, ⟨1, 8⟩), (.fraction 1, ⟨1, 10⟩), ⟨1, 11⟩, (.fraction 2, ⟨1, 12⟩)⟩
        ("inches", ⟨1, 14⟩)
    let tokens : List Token :=
      [⟨.number (.fraction 5), ⟨1, 1⟩⟩, ⟨.blank " ", ⟨1, 2⟩⟩, ⟨.ident "feet", ⟨1, 3⟩⟩,
       ⟨.blank " ", ⟨1, 7⟩⟩, ⟨.number (.fraction 2), ⟨1, 8⟩⟩, ⟨.blank " ", ⟨1, 9⟩⟩,
       ⟨.number (.fraction 1), ⟨1, 10⟩⟩, ⟨.symbol .div, ⟨1, 11⟩⟩, ⟨.number (.fraction 2), ⟨1, 12⟩⟩,
       ⟨.blank " ", ⟨1, 13⟩⟩, ⟨.ident "inches", ⟨1, 14⟩⟩]
    solid (significant tokens) = [feet, inches].flatMap Measure.tokens ∧
      (parse [] feet.tokens).result = .ok feet.node ∧
      (parse [] inches.tokens).result = .ok inches.node ∧
      (parse [] tokens).result =
        .error (.error (.unexpectedInput ⟨.number (.fraction 2), ⟨1, 8⟩⟩)) ∧
      (parse [] tokens).result ≠ .ok (rightSum feet.node [inches.node]) := by
  intro feet inches tokens
  exact ⟨rfl, rfl, rfl, rfl, nofun⟩

end Grammar

end Reckoner
