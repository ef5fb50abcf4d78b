import Reckoner.Proofs.Grammar.Derivation
import Reckoner.Proofs.Grammar.Nesting
import Reckoner.Proofs.Grammar.Rules

/-!
# Whatever is read is derived

Each rule of the grammar, under any bound on the nesting, reads only what `Derives` allows: when it
builds a node, the tokens it has taken derive that node, and those left over are untouched. So a
failed candidate leaves nothing behind, and a mixed fraction that takes a product apart puts it
together again from the same tokens.

Most rules need only what the rules below them read (`Layers.Sound`). A compound quantity needs more:
that a literal on its right is a number. There the loop of the left side has ended since it would
not take that literal as a factor, and two bounds on the nesting have to be compared.

## Results

* `within_sound`    — every rule under every bound reads only what is derived.
* `parseWithin_derives` — a tree that is parsed is derived from all tokens that are not blank.
-/

namespace Reckoner

namespace Grammar

open Cursor (solid)

-- ---------------------------------------------------------------------------
-- What a rule has read
-- ---------------------------------------------------------------------------

/-- The tokens between `ts` and `rest` derive `n`. -/
def Reads (units : List String) (s : Stratum) (ts : List Token) (n : Node) (rest : List Token) :
    Prop :=
  ∃ used, solid ts = used ++ solid rest ∧ Derives units s used n

/-- The tokens between `ts` and `rest`, of which there are some, go on from a left operand that
`left` derives. -/
def Continues (units : List String) (left ts : List Token) (n : Node) (rest : List Token) : Prop :=
  ∃ used, solid ts = used ++ solid rest ∧ used ≠ [] ∧ n.kind.isPrimary = false ∧
    Derives units .multiplicative (left ++ used) n

variable {units : List String} {ts rest : List Token} {n : Node}

theorem Reads.widen {s s' : Stratum} (h : Reads units s ts n rest) (hs : (s, s') ∈ inclusions) :
    Reads units s' ts n rest := by
  obtain ⟨used, hUsed, hDerives⟩ := h
  exact ⟨used, hUsed, .widen hs hDerives⟩

/-- Below the statements, what is read is some token. -/
theorem Reads.shorter {s : Stratum} (h : Reads units s ts n rest) (hs : s.isList = false) :
    (solid rest).length < (solid ts).length := by
  obtain ⟨used, hUsed, hDerives⟩ := h
  have hSome := List.length_pos_iff.mpr (hDerives.ne_nil hs)
  simp only [hUsed, List.length_append]
  omega

/-- The rules of `L` read only what is derived. -/
structure Layers.Sound (units : List String) (L : Layers) : Prop where
  expression : ∀ {ts n rest}, (L.expression ts).result = .ok (n, rest) →
    Reads units .statements ts n rest
  statements : ∀ {ts n rest}, (L.statements ts).result = .ok (n, rest) →
    Reads units .statements ts n rest
  assignment : ∀ {ts n rest}, (L.assignment ts).result = .ok (n, rest) →
    Reads units .assignment ts n rest
  function : ∀ {ts n rest}, (L.function ts).result = .ok (n, rest) →
    Reads units .function ts n rest
  additive : ∀ {ts n rest}, (L.additive ts).result = .ok (n, rest) →
    Reads units .additive ts n rest
  implicitSum : ∀ {ts n rest}, (L.implicitSum ts).result = .ok (n, rest) →
    Reads units .implicitSum ts n rest
  multiplicative : ∀ {ts n rest}, (L.multiplicative ts).result = .ok (n, rest) →
    Reads units .multiplicative ts n rest
  continuation : ∀ {left lhs ts n rest}, Derives units .multiplicative left lhs →
    (L.continuation lhs ts).result = .ok (some (n, rest)) → Continues units left ts n rest
  mixedFraction : ∀ {left lhs ts n rest}, Derives units .multiplicative left lhs →
    (L.mixedFraction lhs ts).result = .ok (n, rest) → Continues units left ts n rest
  juxtaposition : ∀ {left lhs ts n rest}, Derives units .multiplicative left lhs →
    (L.juxtaposition lhs ts).result = .ok (n, rest) → Continues units left ts n rest
  power : ∀ {allowed ts n rest}, (L.power allowed ts).result = .ok (n, rest) →
    Reads units (if allowed then .power else .plainPower) ts n rest
  factorial : ∀ {ts n rest}, (L.factorial ts).result = .ok (n, rest) →
    Reads units .factorial ts n rest
  primary : ∀ {ts n rest}, (L.primary ts).result = .ok (n, rest) →
    Reads units .primary ts n rest
  number : ∀ {ts n rest}, (L.number ts).result = .ok (n, rest) →
    Reads units .primary ts n rest
  ident : ∀ {ts n rest}, (L.ident ts).result = .ok (n, rest) →
    Reads units .primary ts n rest
  parens : ∀ {ts n rest}, (L.parens ts).result = .ok (n, rest) →
    Reads units .primary ts n rest
  lambda : ∀ {ts n rest}, (L.lambda ts).result = .ok (n, rest) →
    Reads units .primary ts n rest

/-- The rules in which no call is allowed read nothing. -/
theorem exhausted_sound : Layers.exhausted.Sound units := by
  constructor <;> intros <;> rename_i h <;> cases h

-- ---------------------------------------------------------------------------
-- Loops
-- ---------------------------------------------------------------------------

/-- A loop keeps what each of its steps keeps, and it ends where no step applies: its fuel does not
run out, since every step takes a token that is not blank. -/
theorem chain_ok {step : Node → List Token → Attempt (Option (Node × List Token))}
    {P : Node → List Token → Prop}
    (hStep : ∀ {n ts n' ts'}, P n ts → (step n ts).result = .ok (some (n', ts')) →
      P n' ts' ∧ (solid ts').length < (solid ts).length)
    {fuel : Nat} {n m : Node} {ts rest : List Token} (hFuel : (solid ts).length < fuel)
    (hStart : P n ts) (h : (chain step fuel n ts).result = .ok (m, rest)) :
    P m rest ∧ (step m rest).result = .ok none := by
  induction fuel generalizing n ts with
  | zero => omega
  | succ fuel ih =>
    obtain ⟨found, hFound, h⟩ := Attempt.bind_ok.mp h
    cases found with
    | none =>
      obtain ⟨rfl, rfl⟩ : n = m ∧ ts = rest := by simpa using h
      exact ⟨hStart, hFound⟩
    | some next =>
      obtain ⟨hNext, hLess⟩ := hStep hStart hFound
      exact ih (by omega) hNext h

theorem extend_ok {step : Node → List Token → Attempt (Option (Node × List Token))}
    {P : Node → List Token → Prop}
    (hStep : ∀ {n ts n' ts'}, P n ts → (step n ts).result = .ok (some (n', ts')) →
      P n' ts' ∧ (solid ts').length < (solid ts).length)
    {n m : Node} {ts rest : List Token} (hStart : P n ts)
    (h : (extend step n ts).result = .ok (m, rest)) :
    P m rest ∧ (step m rest).result = .ok none := by
  refine chain_ok hStep ?_ hStart h
  have hLength : (solid ts).length ≤ ts.length := List.length_filter_le _ _
  omega

-- ---------------------------------------------------------------------------
-- Primary expressions
-- ---------------------------------------------------------------------------

theorem number_sound (h : (number ts).result = .ok (n, rest)) : Reads units .primary ts n rest := by
  obtain ⟨v, p, hNext, rfl⟩ := number_ok.mp h
  exact ⟨_, Cursor.solid_of_next? hNext, .number v p⟩

section Rules

variable {L : Layers} (hL : L.Sound units)
include hL

theorem ident_sound (h : (ident L ts).result = .ok (n, rest)) : Reads units .primary ts n rest := by
  obtain ⟨x, p, mid, hNext, ⟨after, m, hOf, hInner, rfl⟩ | ⟨-, rfl, rfl⟩⟩ := ident_ok.mp h
  · obtain ⟨q, hOf⟩ := Cursor.solid_of_after? hOf
    obtain ⟨used, hUsed, hDerives⟩ := hL.primary hInner
    refine ⟨_, ?_, .member x p q hDerives⟩
    rw [Cursor.solid_of_next? hNext, hOf, hUsed]
    rfl
  · exact ⟨_, Cursor.solid_of_next? hNext, .ident x p⟩

theorem parens_sound (h : (parens L ts).result = .ok (n, rest)) :
    Reads units .primary ts n rest := by
  obtain ⟨p, after, hNext, ⟨hClose, rfl⟩ | ⟨-, m, mid, hInner, rfl, hEnd⟩⟩ := parens_ok.mp h
  · obtain ⟨q, hClose⟩ := Cursor.solid_of_after? hClose
    refine ⟨_, ?_, .unit p q⟩
    rw [Cursor.solid_of_next? hNext, hClose]
    rfl
  · obtain ⟨used, hUsed, hDerives⟩ := hL.expression hInner
    rcases hEnd with ⟨-, rfl⟩ | ⟨-, hClose⟩
    · refine ⟨_, ?_, .unclosed p hDerives⟩
      rw [Cursor.solid_of_next? hNext, hUsed]
      rfl
    · obtain ⟨q, hClose⟩ := Cursor.solid_of_after? hClose
      refine ⟨_, ?_, .parens p q hDerives⟩
      rw [Cursor.solid_of_next? hNext, hUsed, hClose]
      simp

theorem lambda_sound (h : (lambda L ts).result = .ok (n, rest)) :
    Reads units .primary ts n rest := by
  obtain ⟨p, x, q, mid, after, m, hNext, hDot, hBody, rfl⟩ := lambda_ok.mp h
  obtain ⟨r, hDot⟩ := Cursor.solid_of_after? hDot
  obtain ⟨used, hUsed, hDerives⟩ := hL.function hBody
  refine ⟨_, ?_, .lambda x p q r hDerives⟩
  have hSolid : solid (⟨.ident x, q⟩ :: mid) = ⟨.ident x, q⟩ :: solid mid := rfl
  rw [Cursor.solid_of_next? hNext, hSolid, hDot, hUsed]
  rfl

theorem primary_sound (h : (primary L ts).result = .ok (n, rest)) :
    Reads units .primary ts n rest := by
  obtain ⟨⟨⟨content, place⟩, after⟩, hNext, h⟩ := Attempt.bind_ok.mp h
  rw [Cursor.next_ok] at hNext
  dsimp only at h
  split at h
  · exact hL.number h
  · exact hL.ident h
  · rename_i x
    obtain ⟨rfl, rfl⟩ : Node.string x place = n ∧ after = rest := by simpa using h
    exact ⟨_, Cursor.solid_of_next? hNext, .string x place⟩
  · exact hL.parens h
  · exact hL.lambda h
  · simp at h
  · simp at h

-- ---------------------------------------------------------------------------
-- Factorials and powers
-- ---------------------------------------------------------------------------

theorem factorial_sound (h : (factorial L ts).result = .ok (n, rest)) :
    Reads units .factorial ts n rest := by
  obtain ⟨⟨base, rest₁⟩, hBase, h⟩ := Attempt.bind_ok.mp h
  refine (extend_ok (P := Reads units .factorial ts) ?_ ?_ h).1
  · -- one more `!`
    intro m us m' us' hReads hStep
    obtain ⟨rest₂, hBang, hNode⟩ := Option.map_eq_some_iff.mp (Except.ok.inj hStep)
    obtain ⟨rfl, rfl⟩ : Node.wrap .factorial m .unknown = m' ∧ rest₂ = us' := by simpa using hNode
    obtain ⟨p, hBang⟩ := Cursor.solid_of_after? hBang
    obtain ⟨used, hUsed, hDerives⟩ := hReads
    refine ⟨⟨_, ?_, .factorial p hDerives⟩, by simp [hBang]⟩
    rw [hUsed, hBang]
    simp
  · exact (hL.primary hBase).widen (by decide)

theorem plainPower_sound (h : (plainPower L ts).result = .ok (n, rest)) :
    Reads units .plainPower ts n rest := by
  obtain ⟨base, mid, hBase, ⟨after, m, hPow, hExponent, rfl⟩ | ⟨-, rfl, rfl⟩⟩ := plainPower_ok.mp h
  · obtain ⟨used, hUsed, hDerives⟩ := hL.factorial hBase
    obtain ⟨p, hPow⟩ := Cursor.solid_of_after? hPow
    obtain ⟨used', hUsed', hDerives'⟩ := hL.power hExponent
    refine ⟨_, ?_, .pow p hDerives hDerives'⟩
    rw [hUsed, hPow, hUsed']
    simp
  · exact (hL.factorial hBase).widen (by decide)

theorem power_sound {allowed : Bool} (h : (power L allowed ts).result = .ok (n, rest)) :
    Reads units (if allowed then .power else .plainPower) ts n rest := by
  cases allowed with
  | false => exact plainPower_sound hL h
  | true =>
    rcases power_ok.mp h with ⟨⟨y, k⟩, t, after, m, hSelect, hInner, rfl⟩ | ⟨-, hPlain⟩
    · obtain ⟨hy, ht, hSolid⟩ := Cursor.solid_of_select? hSelect
      obtain ⟨used, hUsed, hDerives⟩ := hL.power hInner
      refine ⟨_, ?_, .prefixed t.place hy hDerives⟩
      rw [hSolid, hUsed, ← ht]
      rfl
    · exact (plainPower_sound hL hPlain).widen (by decide)

-- ---------------------------------------------------------------------------
-- Products
-- ---------------------------------------------------------------------------

theorem juxtaposition_sound {left : List Token} {lhs : Node}
    (hLeft : Derives units .multiplicative left lhs)
    (h : (juxtaposition units L lhs ts).result = .ok (n, rest)) : Continues units left ts n rest := by
  obtain ⟨k, rhs, hRight, hKind, rfl⟩ := juxtaposition_ok.mp h
  obtain ⟨used, hUsed, hDerives⟩ := hL.power hRight
  refine ⟨used, hUsed, hDerives.ne_nil rfl, ?_, .juxtaposed hLeft hDerives hKind⟩
  rcases juxtapositionKind_mem hKind with rfl | rfl | rfl <;> rfl

theorem fractionTerm_sound (h : (fractionTerm L ts).result = .ok (n, rest)) :
    ∃ v p, solid ts = ⟨.number v, p⟩ :: solid rest ∧ n = .number v p := by
  obtain ⟨hRead, hNumber⟩ := fractionTerm_ok.mp h
  obtain ⟨used, hUsed, hDerives⟩ := hL.power hRead
  obtain ⟨v, p, rfl, rfl⟩ := hDerives.eq_number rfl hNumber
  exact ⟨v, p, hUsed, rfl⟩

omit hL in
/-- The whole part of a mixed fraction is derived as a power, and the tokens before it are those of
the other factor and its `*`. -/
theorem wholePart_sound {left : List Token} {lhs whole : Node} {outer : Option Node}
    (hLeft : Derives units .multiplicative left lhs) (hPart : wholePart lhs = .ok (outer, whole))
    (hWhole : whole.kind = .literal ∨ whole.kind = .negation) :
    ∃ before used, left = before ++ used ∧ Derives units .power used whole ∧
      ∀ {fraction m}, Derives units .mixedFraction fraction m →
        Derives units .multiplicative (before ++ fraction)
          (outer.elim m fun factor => .binary .mul factor m) := by
  unfold wholePart at hPart
  split at hPart
  · rename_i hMul
    obtain ⟨before, used, l, r, p, rfl, rfl, hl, hr⟩ := hLeft.eq_times hMul
    obtain ⟨rfl, rfl⟩ := Prod.mk.inj (Except.ok.inj hPart)
    rcases hr with hr | hr
    · refine ⟨before ++ [⟨.symbol .mul, p⟩], used, by simp, hr, ?_⟩
      intro fraction m hm
      have hTimes := Derives.timesMixed p hl hm
      simpa using hTimes
    · -- a mixed fraction is no whole part
      simp [hr.mixedFraction_kind.1] at hWhole
  · obtain ⟨rfl, rfl⟩ := Prod.mk.inj (Except.ok.inj hPart)
    refine ⟨[], left, rfl, ?_, fun hm => .widen (by decide) hm⟩
    cases hLeft with
    | widen hi h =>
      rcases (by simpa [inclusions] using hi : _ = Stratum.power ∨ _ = Stratum.mixedFraction) with
        rfl | rfl
      · exact h
      · simp [h.mixedFraction_kind.1] at hWhole
    | juxtaposed _ _ hj => rcases juxtapositionKind_mem hj with rfl | rfl | rfl <;> simp at hWhole
    | _ => simp at hWhole

omit hL in
theorem wholeIsNegated_ok {whole : Node} {negated : Bool}
    (h : (wholeIsNegated whole).result = .ok negated) :
    if negated then whole.isNegatedNumber = .ok true else whole.isNumber = true := by
  unfold wholeIsNegated at h
  split at h
  · rename_i hNumber
    obtain rfl : false = negated := by simpa using h
    exact hNumber
  · obtain ⟨b, hb, h⟩ := Attempt.bind_ok.mp h
    rw [Attempt.shape_ok] at hb
    cases b with
    | false => simp at h
    | true =>
      obtain rfl : true = negated := by simpa using h
      exact hb

omit hL in
/-- The whole part and the fraction of a mixed fraction, with the tokens of both. -/
theorem derives_mixedFraction {used : List Token} {whole : Node} {negated : Bool}
    (hUsed : Derives units .power used whole)
    (hSign : if negated then whole.isNegatedNumber = .ok true else whole.isNumber = true)
    (w u : Payload) (q r t : Place) :
    Derives units .mixedFraction (used ++ [⟨.number w, q⟩, ⟨.symbol .div, r⟩, ⟨.number u, t⟩])
      (.binary (if negated then .minus else .plus) whole
        (.binary .div (.number w q) (.number u t))) := by
  cases negated with
  | false =>
    obtain ⟨v, p, rfl, rfl⟩ := hUsed.eq_number rfl hSign
    exact .mixedPlus v w u p q r t
  | true =>
    obtain ⟨v, p, o, rfl, rfl⟩ := hUsed.eq_negated hSign
    exact .mixedMinus v w u o p q r t

theorem mixedFraction_sound {left : List Token} {lhs : Node}
    (hLeft : Derives units .multiplicative left lhs)
    (h : (mixedFraction L lhs ts).result = .ok (n, rest)) : Continues units left ts n rest := by
  obtain ⟨outer, whole, negated, top, mid, after, bottom, hPart, hNegated, -, hTop, hDiv, hBottom, rfl⟩ :=
    mixedFraction_ok.mp h
  have hSign := wholeIsNegated_ok hNegated
  obtain ⟨w, q, hSolid₁, rfl⟩ := fractionTerm_sound hL hTop
  obtain ⟨r, hSolid₂⟩ := Cursor.solid_of_after? hDiv
  obtain ⟨u, t, hSolid₃, rfl⟩ := fractionTerm_sound hL hBottom
  have hWhole : whole.kind = .literal ∨ whole.kind = .negation := by
    cases negated with
    | false => exact Or.inl (Node.kind_of_isNumber hSign)
    | true => exact Or.inr (Node.kind_of_isNegatedNumber hSign)
  obtain ⟨before, used, rfl, hUsed, hBuild⟩ := wholePart_sound hLeft hPart hWhole
  refine ⟨[⟨.number w, q⟩, ⟨.symbol .div, r⟩, ⟨.number u, t⟩], ?_, by simp, ?_, ?_⟩
  · rw [hSolid₁, hSolid₂, hSolid₃]
    rfl
  · unfold mixedSum
    cases outer <;> rfl
  · rw [List.append_assoc]
    exact hBuild (derives_mixedFraction hUsed hSign w u q r t)

theorem operatorFactor_sound {left : List Token} {lhs : Node}
    (hLeft : Derives units .multiplicative left lhs)
    (h : (operatorFactor L lhs ts).result = .ok (some (n, rest))) :
    Continues units left ts n rest := by
  obtain ⟨⟨y, op⟩, t, after, rhs, hSelect, hRight, rfl⟩ := operatorFactor_some.mp h
  obtain ⟨hy, ht, hSolid⟩ := Cursor.solid_of_select? hSelect
  obtain ⟨used, hUsed, hDerives⟩ := hL.power hRight
  refine ⟨t :: used, ?_, by simp, rfl, ?_⟩
  · rw [hSolid, hUsed]
    rfl
  · rw [ht]
    exact .product t.place hy hLeft hDerives

theorem continuation_sound {left : List Token} {lhs : Node}
    (hLeft : Derives units .multiplicative left lhs)
    (h : (continuation L lhs ts).result = .ok (some (n, rest))) :
    Continues units left ts n rest := by
  rcases continuation_ok.mp h with ⟨x, hx, hFactor⟩ | ⟨-, ⟨x, hx, hMixed⟩ | ⟨-, hPair⟩⟩
  · obtain rfl := Option.some.inj hx
    exact operatorFactor_sound hL hLeft hFactor
  · obtain rfl := Option.some.inj hx
    exact hL.mixedFraction hLeft hMixed
  · exact hL.juxtaposition hLeft (Attempt.candidate_some.mp hPair)

/-- One more factor: it takes a token, and what it builds is no primary expression. -/
theorem continuation_step {m m' : Node} {us us' : List Token}
    (hReads : Reads units .multiplicative ts m us)
    (h : (L.continuation m us).result = .ok (some (m', us'))) :
    Reads units .multiplicative ts m' us' ∧ (solid us').length < (solid us).length ∧
      m'.kind.isPrimary = false := by
  obtain ⟨used, hUsed, hDerives⟩ := hReads
  obtain ⟨used', hUsed', hNil, hKind, hDerives'⟩ := hL.continuation hDerives h
  refine ⟨⟨used ++ used', ?_, hDerives'⟩, ?_, hKind⟩
  · rw [hUsed, hUsed', List.append_assoc]
  · have hPos := List.length_pos_iff.mpr hNil
    rw [hUsed', List.length_append]
    omega

/-- A product is read, and it ends where no factor goes on. -/
theorem multiplicative_ok (h : (multiplicative L ts).result = .ok (n, rest)) :
    Reads units .multiplicative ts n rest ∧ (L.continuation n rest).result = .ok none := by
  obtain ⟨⟨base, rest₁⟩, hBase, h⟩ := Attempt.bind_ok.mp h
  refine extend_ok (P := Reads units .multiplicative ts) ?_ ?_ h
  · intro m us m' us' hReads hStep
    obtain ⟨hReads', hLess, -⟩ := continuation_step hL hReads hStep
    exact ⟨hReads', hLess⟩
  · exact (hL.power hBase).widen (by decide)

end Rules

-- ---------------------------------------------------------------------------
-- Compound quantities
-- ---------------------------------------------------------------------------

/-- Where no factor goes on, juxtaposition was rejected. -/
theorem juxtaposition_of_continuation {L : Layers} {lhs : Node}
    (h : (continuation L lhs ts).result = .ok none) :
    ∃ e, (L.juxtaposition lhs ts).result = .error (.error e) := by
  rcases continuation_ok.mp h with ⟨x, hx, -⟩ | ⟨-, ⟨x, hx, -⟩ | ⟨-, hPair⟩⟩
  · cases hx
  · cases hx
  · exact Attempt.candidate_none.mp hPair

theorem primary_of_implicitSum {L : Layers} (h : (implicitSum L ts).result = .ok (n, rest))
    (hn : n.kind.isPrimary = true) : (L.multiplicative ts).result = .ok (n, rest) := by
  rcases implicitSum_ok.mp h with ⟨l, mid, m, -, -, -, -, rfl⟩ | ⟨hRead, -⟩
  · cases hn
  · exact hRead

/-- A primary expression is never the end of a longer product. -/
theorem primary_of_multiplicative {L : Layers} (hL : L.Sound units)
    (h : (multiplicative L ts).result = .ok (n, rest)) (hn : n.kind.isPrimary = true) :
    (L.power true ts).result = .ok (n, rest) := by
  obtain ⟨⟨base, rest₁⟩, hBase, h⟩ := Attempt.bind_ok.mp h
  have hInvariant := extend_ok
    (P := fun m us => Reads units .multiplicative ts m us ∧
      (m.kind.isPrimary = true → (m, us) = (base, rest₁))) ?_ ⟨?_, fun _ => rfl⟩ h
  · rw [hBase, hInvariant.1.2 hn]
  · intro m us m' us' hReads hStep
    obtain ⟨hReads', hLess, hKind⟩ := continuation_step hL hReads.1 hStep
    exact ⟨⟨hReads', fun hPrimary => absurd hPrimary (by simp [hKind])⟩, hLess⟩
  · exact (hL.power hBase).widen (by decide)

theorem primary_of_power {L : Layers} (h : (power L true ts).result = .ok (n, rest))
    (hn : n.kind.isPrimary = true) : (power L false ts).result = .ok (n, rest) := by
  rcases power_ok.mp h with ⟨⟨y, k⟩, t, after, m, hSelect, -, rfl⟩ | ⟨-, hPlain⟩
  · have hn : k.isPrimary = true := hn
    rcases prefixes_kind (Cursor.solid_of_select? hSelect).1 with rfl | rfl | rfl <;> cases hn
  · exact hPlain

/-- A product takes every literal but a number as a factor. -/
theorem juxtapositionKind_product {lhs rhs : Node} (hl : lhs.kind = .product)
    (hr : rhs.kind = .literal) (hNumber : rhs.isNumber = false) :
    juxtapositionKind units lhs rhs = .ok (some .product) := by
  have hNegated : lhs.isNegatedNumber = .ok false :=
    Node.isNegatedNumber_of_kind_ne (by simp [hl])
  have hPower : isPowerOfNumber rhs = .ok false := isPowerOfNumber_of_kind_ne (by simp [hr])
  rw [juxtapositionKind_eq units hNegated hPower]
  simp [hl, hNumber]

/-- A literal that is read after a product is a number: any other would be one more factor. -/
theorem isNumber_after_product {d : Nat} (hSound : ∀ e ≤ d, (Layers.within units e).Sound units)
    {m : Node} {after : List Token}
    (hLeft : ((Layers.within units d).multiplicative ts).result = .ok (n, rest))
    (hn : n.kind = .product)
    (hRight : ((Layers.within units d).implicitSum rest).result = .ok (m, after))
    (hm : m.kind = .literal) : m.isNumber = true := by
  cases hNumber : m.isNumber with
  | true => rfl
  | false =>
    exfalso
    match d with
    | 0 => cases hLeft
    | 1 => cases hLeft
    | 2 => cases primary_of_implicitSum hRight (hm ▸ rfl)
    | g + 3 =>
      have hEnd := (multiplicative_ok (hSound (g + 2) (by omega)) hLeft).2
      obtain ⟨e, hRejected⟩ := juxtaposition_of_continuation hEnd
      have hPrimary : m.kind.isPrimary = true := hm ▸ rfl
      have hProduct := primary_of_implicitSum hRight hPrimary
      have hPower := primary_of_multiplicative (hSound (g + 1) (by omega)) hProduct hPrimary
      have hPlain := primary_of_power hPower hPrimary
      -- juxtaposition looked at the same tokens under a smaller bound
      have hBelow := (within_below units (Nat.le_succ g)).power false rest
      rcases juxtaposition_rejected hRejected with hError | ⟨rhs, after', hOk, hKind⟩
      · have hError := (hBelow.error hError).symm.trans hPlain
        cases hError
      · have hSame := (hBelow.ok hOk).symm.trans hPlain
        obtain ⟨rfl, rfl⟩ := Prod.mk.inj (Except.ok.inj hSame)
        exact hKind _ (juxtapositionKind_product hn hm hNumber)

/-- A compound quantity is read, given what all smaller bounds read. -/
theorem implicitSum_sound {d : Nat} (hSound : ∀ e ≤ d, (Layers.within units e).Sound units)
    (h : (implicitSum (Layers.within units d) ts).result = .ok (n, rest)) :
    Reads units .implicitSum ts n rest := by
  have hL := hSound d (Nat.le_refl d)
  rcases implicitSum_ok.mp h with ⟨l, mid, r, hLeft, hProduct, hRight, hPart, rfl⟩ | ⟨hRead, -⟩
  · obtain ⟨used, hUsed, hDerives⟩ := hL.multiplicative hLeft
    obtain ⟨used', hUsed', hDerives'⟩ := hL.implicitSum hRight
    refine ⟨used ++ used', ?_, .compound hDerives hProduct hDerives' ?_⟩
    · rw [hUsed, hUsed', List.append_assoc]
    · have hParts : (r.kind = .product ∨ r.kind = .literal) ∨ r.isBinary .implicitPlus = true := by
        simpa [isQuantityPart] using hPart
      rcases hParts with (hr | hr) | hr
      · exact Or.inl hr
      · exact Or.inr (Or.inl (isNumber_after_product hSound hLeft hProduct hRight hr))
      · exact Or.inr (Or.inr hr)
  · exact (hL.multiplicative hRead).widen (by decide)

-- ---------------------------------------------------------------------------
-- Sums, functions, assignments and statements
-- ---------------------------------------------------------------------------

section Rules

variable {L : Layers} (hL : L.Sound units)
include hL

/-- One more summand behind its operator. -/
theorem sumStep_sound {us us' : List Token} {m m' : Node} (hReads : Reads units .additive ts m us)
    (h : (sumStep L m us).result = .ok (some (m', us'))) :
    Reads units .additive ts m' us' ∧ (solid us').length < (solid us).length := by
  obtain ⟨used, hUsed, hDerives⟩ := hReads
  obtain ⟨⟨y, build⟩, t, after, rhs, hSelect, hRight, rfl⟩ := sumStep_some.mp h
  obtain ⟨hy, ht, hSolid⟩ := Cursor.solid_of_select? hSelect
  obtain ⟨used', hUsed', hDerives'⟩ := hL.implicitSum hRight
  refine ⟨⟨used ++ t :: used', ?_, ?_⟩, ?_⟩
  · rw [hUsed, hSolid, hUsed']
    simp
  · rw [ht]
    exact .sum t.place hy hDerives hDerives'
  · rw [hSolid, hUsed']
    simp only [List.length_cons, List.length_append]
    omega

theorem additive_sound (h : (additive L ts).result = .ok (n, rest)) :
    Reads units .additive ts n rest := by
  obtain ⟨⟨first, rest₁⟩, hFirst, h⟩ := Attempt.bind_ok.mp h
  have hFirst : Reads units .additive ts first rest₁ := (hL.implicitSum hFirst).widen (by decide)
  exact (extend_ok (sumStep_sound hL) hFirst h).1

theorem function_sound (h : (function L ts).result = .ok (n, rest)) :
    Reads units .function ts n rest := by
  obtain ⟨m, mid, hRead, ⟨after, body, hArrow, hIdentifier, hBody, rfl⟩ | ⟨-, rfl, rfl⟩⟩ :=
    function_ok.mp h
  · obtain ⟨r, hArrow⟩ := Cursor.solid_of_after? hArrow
    obtain ⟨used, hUsed, hDerives⟩ := hL.additive hRead
    obtain ⟨used', hUsed', hDerives'⟩ := hL.function hBody
    obtain ⟨x, p, rfl, rfl⟩ := hDerives.eq_ident rfl hIdentifier
    refine ⟨_, ?_, .arrow x p r hDerives'⟩
    rw [hUsed, hArrow, hUsed']
    rfl
  · exact (hL.additive hRead).widen (by decide)

theorem assignment_sound (h : (assignment L ts).result = .ok (n, rest)) :
    Reads units .assignment ts n rest := by
  obtain ⟨m, mid, hRead, ⟨after, value, hEquals, hIdentifier, hValue, rfl⟩ | ⟨-, rfl, rfl⟩⟩ :=
    assignment_ok.mp h
  · obtain ⟨r, hEquals⟩ := Cursor.solid_of_after? hEquals
    obtain ⟨used, hUsed, hDerives⟩ := hL.function hRead
    obtain ⟨used', hUsed', hDerives'⟩ := hL.assignment hValue
    obtain ⟨x, p, rfl, rfl⟩ := hDerives.eq_ident rfl hIdentifier
    refine ⟨_, ?_, .assignment x p r hDerives'⟩
    rw [hUsed, hEquals, hUsed']
    rfl
  · exact (hL.function hRead).widen (by decide)

/-- A separator, or a separator and a statement. -/
theorem statementStep_sound {us us' : List Token} {m m' : Node}
    (hReads : Reads units .sequence ts m us)
    (h : (statementStep L m us).result = .ok (some (m', us'))) :
    Reads units .sequence ts m' us' ∧ (solid us').length < (solid us).length := by
  obtain ⟨used, hUsed, hDerives⟩ := hReads
  obtain ⟨after, hSeparator, ⟨-, rfl, rfl⟩ | ⟨-, next, hNext, rfl⟩⟩ := statementStep_some.mp h
  · obtain ⟨p, hSolid⟩ := Cursor.solid_of_after? hSeparator
    refine ⟨⟨_, ?_, .trailing p hDerives⟩, by simp [hSolid]⟩
    rw [hUsed, hSolid]
    simp
  · obtain ⟨p, hSolid⟩ := Cursor.solid_of_after? hSeparator
    obtain ⟨used', hUsed', hDerives'⟩ := hL.assignment hNext
    refine ⟨⟨_, ?_, .sequence p hDerives hDerives'⟩, ?_⟩
    · rw [hUsed, hSolid, hUsed']
      simp
    · rw [hSolid, hUsed']
      simp only [List.length_cons, List.length_append]
      omega

omit hL in
/-- Separators before a list of statements belong to it. -/
theorem derives_leading (ps : List Place) {used : List Token}
    (h : Derives units .sequence used n) :
    Derives units .sequence (ps.map (fun p => ⟨.symbol .semicolon, p⟩) ++ used) n := by
  induction ps with
  | nil => exact h
  | cons p ps ih => exact .leading p ih

theorem statements_sound (h : (statements L ts).result = .ok (n, rest)) :
    Reads units .statements ts n rest := by
  obtain ⟨ps, hSkip⟩ := Cursor.solid_skipSeparators ts
  rcases statements_ok.mp h with ⟨hEnd, rfl, rfl⟩ | ⟨-, first, mid, hFirst, h⟩
  · refine ⟨_, ?_, .nothing ps⟩
    rw [hSkip, Cursor.solid_of_atEnd hEnd]
    rfl
  · have hReads : Reads units .sequence (Cursor.skipSeparators ts) n rest :=
      (extend_ok (P := Reads units .sequence (Cursor.skipSeparators ts))
        (statementStep_sound hL) ((hL.assignment hFirst).widen (by decide)) h).1
    obtain ⟨used, hUsed, hDerives⟩ := hReads
    refine ⟨_, ?_, .widen (by decide) (derives_leading ps hDerives)⟩
    rw [hSkip, hUsed, List.append_assoc]

end Rules

-- ---------------------------------------------------------------------------
-- All rules
-- ---------------------------------------------------------------------------

/-- **Whatever is read is derived**, under every bound on the nesting. -/
theorem within_sound (units : List String) (d : Nat) : (Layers.within units d).Sound units := by
  induction d using Nat.strongRecOn with
  | ind d ih =>
    cases d with
    | zero => exact exhausted_sound
    | succ d =>
      have hL := ih d (by omega)
      exact {
        expression := hL.statements
        statements := statements_sound hL
        assignment := assignment_sound hL
        function := function_sound hL
        additive := additive_sound hL
        implicitSum := implicitSum_sound fun e he => ih e (by omega)
        multiplicative := fun h => (multiplicative_ok hL h).1
        continuation := continuation_sound hL
        mixedFraction := mixedFraction_sound hL
        juxtaposition := juxtaposition_sound hL
        power := power_sound hL
        factorial := factorial_sound hL
        primary := primary_sound hL
        number := number_sound
        ident := ident_sound hL
        parens := parens_sound hL
        lambda := lambda_sound hL }

/-- A tree that is parsed is derived from all the tokens that are not blank. -/
theorem parseWithin_derives {units : List String} {tokens : List Token} {d : Nat} {n : Node}
    (h : (parseWithin d units tokens).result = .ok n) :
    Derives units .statements (solid (significant tokens)) n := by
  obtain ⟨rest, hRead, hEnd⟩ := parseWithin_ok.mp h
  obtain ⟨used, hUsed, hDerives⟩ := (within_sound units d).expression hRead
  rw [hUsed, Cursor.solid_of_next?_none hEnd, List.append_nil]
  exact hDerives

end Grammar

end Reckoner
