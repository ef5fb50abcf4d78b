import Reckoner.Grammar.Parse
import Reckoner.Proofs.Grammar.Soundness

/-!
# Running the rules

What a rule answers on given tokens, put together from what the rules below it answer. Soundness goes
from an answer back to a derivation; here the tokens are known and the answer is computed, for tokens
of any length and under any bound that is large enough.

Where an expression ends depends on what follows it. `followers s` are the symbols after which no rule
up to the stratum `s` goes on: every candidate for one more factor declines there, since no primary
expression starts with one of them.

## Results

* `extend_of_runs`       — a loop ends where its steps end; its fuel is enough.
* `continuation_none`    — no product goes on at a follower.
* `runs_step`            — a step of a product is one more step of its loop.
* `expression_of_sum`    — a sum that nothing goes on from is an expression.
* `parseWithin_of_expression` — an expression that takes every token is what is parsed.
-/

namespace Reckoner

namespace Grammar

open Cursor (Avoids Closes solid)

variable {units : List String} {L : Layers} {d : Nat} {n m lhs : Node} {ts rest mid : List Token}

-- ---------------------------------------------------------------------------
-- Followers
-- ---------------------------------------------------------------------------

/-- The symbols that end an expression of a stratum for good; none for the strata up to powers, which
are ended by more than symbols. -/
def followers : Stratum → List Symbol
  | .statements | .sequence => [.closeParens]
  | .assignment => [.closeParens, .semicolon]
  | .function => [.closeParens, .semicolon, .equals]
  | .additive => [.closeParens, .semicolon, .equals, .arrow]
  | .implicitSum | .multiplicative =>
    [.closeParens, .semicolon, .equals, .arrow, .add, .sub, .conversion]
  | _ => []

/-- The symbols that may go on behind the last operand of a power. -/
def tightSymbols : List Symbol := [.of, .factorial, .pow]

/-- The symbols that go on from a sum. -/
def looseSymbols : List Symbol :=
  [.add, .sub, .conversion, .arrow, .equals, .semicolon]

/-- Tokens that are neither blanks nor marks of the end. -/
def Plain (ts : List Token) : Prop :=
  ∀ t ∈ ts, t.isBlank = false ∧ t.isFinish = false

@[simp] theorem plain_append {ts ts' : List Token} : Plain (ts ++ ts') ↔ Plain ts ∧ Plain ts' := by
  simp only [Plain, List.mem_append]
  grind

@[simp] theorem plain_cons {t : Token} {ts : List Token} :
    Plain (t :: ts) ↔ (t.isBlank = false ∧ t.isFinish = false) ∧ Plain ts := by
  simp [Plain]

@[simp] theorem plain_nil : Plain [] := by
  simp [Plain]

-- ---------------------------------------------------------------------------
-- Loops
-- ---------------------------------------------------------------------------

/-- The steps that a loop takes, up to the node and the tokens where none applies. -/
inductive Runs (step : Node → List Token → Attempt (Option (Node × List Token))) :
    Node → List Token → Node → List Token → Prop where
  | done {n : Node} {ts : List Token} (h : (step n ts).result = .ok none) : Runs step n ts n ts
  | more {n n' m : Node} {ts ts' rest : List Token}
      (h : (step n ts).result = .ok (some (n', ts'))) (hLess : ts'.length < ts.length)
      (hRuns : Runs step n' ts' m rest) : Runs step n ts m rest

variable {step : Node → List Token → Attempt (Option (Node × List Token))}

theorem chain_of_runs (h : Runs step n ts m rest) {fuel : Nat} (hFuel : ts.length < fuel) :
    (chain step fuel n ts).result = .ok (m, rest) := by
  induction h generalizing fuel with
  | done h =>
    obtain ⟨fuel, rfl⟩ : ∃ k, fuel = k + 1 := ⟨fuel - 1, by omega⟩
    exact Attempt.bind_ok.mpr ⟨none, h, rfl⟩
  | more h hLess _ ih =>
    obtain ⟨fuel, rfl⟩ : ∃ k, fuel = k + 1 := ⟨fuel - 1, by omega⟩
    exact Attempt.bind_ok.mpr ⟨some _, h, ih (by omega)⟩

/-- A loop ends where its steps end. -/
theorem extend_of_runs (h : Runs step n ts m rest) : (extend step n ts).result = .ok (m, rest) :=
  chain_of_runs h (by omega)

-- ---------------------------------------------------------------------------
-- Primary expressions
-- ---------------------------------------------------------------------------

theorem primary_number (v : Payload) (p : Place) :
    ((Layers.within units (d + 2)).primary (⟨.number v, p⟩ :: rest)).result =
      .ok (.number v p, rest) := rfl

theorem primary_string (x : String) (p : Place) :
    ((Layers.within units (d + 1)).primary (⟨.string x, p⟩ :: rest)).result =
      .ok (.string x p, rest) := rfl

theorem primary_unit (p q : Place) :
    ((Layers.within units (d + 2)).primary
      (⟨.symbol .openParens, p⟩ :: ⟨.symbol .closeParens, q⟩ :: rest)).result =
      .ok (.unit p, rest) := rfl

theorem primary_ident (x : String) (p : Place) (hRest : Avoids [.of] rest) :
    ((Layers.within units (d + 2)).primary (⟨.ident x, p⟩ :: rest)).result =
      .ok (.ident x p, rest) := by
  show (ident (Layers.within units d) (⟨.ident x, p⟩ :: rest)).result = _
  exact ident_ok.mpr ⟨x, p, rest, rfl, Or.inr ⟨Cursor.after?_of_avoids hRest (by decide), rfl, rfl⟩⟩

theorem primary_member (x : String) (p q : Place)
    (h : ((Layers.within units d).primary ts).result = .ok (n, rest)) :
    ((Layers.within units (d + 2)).primary (⟨.ident x, p⟩ :: ⟨.symbol .of, q⟩ :: ts)).result =
      .ok (.named .member (.text x) n p, rest) := by
  show (ident (Layers.within units d) (⟨.ident x, p⟩ :: ⟨.symbol .of, q⟩ :: ts)).result = _
  exact ident_ok.mpr ⟨x, p, _, rfl, Or.inl ⟨ts, n, rfl, h, rfl⟩⟩

theorem primary_parens (p q : Place) (hts : Avoids [.closeParens] ts)
    (h : ((Layers.within units d).expression ts).result =
      .ok (n, ⟨.symbol .closeParens, q⟩ :: rest)) :
    ((Layers.within units (d + 2)).primary (⟨.symbol .openParens, p⟩ :: ts)).result =
      .ok (.wrap .parens n p, rest) := by
  show (parens (Layers.within units d) (⟨.symbol .openParens, p⟩ :: ts)).result = _
  have hNone : Cursor.after? .closeParens ts = none := Cursor.after?_of_avoids hts (by decide)
  exact parens_ok.mpr ⟨p, ts, rfl, Or.inr ⟨hNone, n, _, h, rfl, Or.inr ⟨rfl, rfl⟩⟩⟩

theorem primary_lambda (x : String) (p q r : Place)
    (h : ((Layers.within units d).function ts).result = .ok (n, rest)) :
    ((Layers.within units (d + 2)).primary
      (⟨.symbol .backslash, p⟩ :: ⟨.ident x, q⟩ :: ⟨.symbol .dot, r⟩ :: ts)).result =
      .ok (.named .function (.text x) n p, rest) := by
  show (lambda (Layers.within units d) _).result = _
  exact lambda_ok.mpr ⟨p, x, q, _, ts, n, rfl, rfl, h, rfl⟩

/-- Where a primary expression is read, no prefix operator comes next. -/
theorem select?_of_primary (h : (primary L ts).result = .ok (n, rest)) :
    Cursor.select? prefixes ts = none := by
  obtain ⟨⟨⟨content, p⟩, after⟩, hNext, h⟩ := Attempt.bind_ok.mp h
  rw [Cursor.next_ok] at hNext
  unfold Cursor.select?
  rw [hNext]
  cases content with
  | symbol y => cases y <;> first | rfl | cases h
  | _ => rfl

/-- A primary expression begins with none of the symbols that go on from an operand before it. -/
theorem avoids_of_primary {t : Token} (ht : t.isBlank = false)
    (h : ((Layers.within units d).primary (t :: ts)).result = .ok (n, rest)) :
    Avoids [.of, .factorial, .pow, .mul, .div, .mod] (t :: ts) := by
  intro u hu
  obtain rfl : t = u := Option.some.inj hu
  refine ⟨ht, fun z hz => ?_⟩
  match d with
  | 0 => cases h
  | d + 1 =>
    obtain ⟨content, p⟩ := t
    obtain ⟨found, hFound, h⟩ := Attempt.bind_ok.mp h
    have hNext : Cursor.next? (⟨content, p⟩ :: ts) = some (⟨content, p⟩, ts) := by
      rw [Cursor.next?, ht]
      rfl
    obtain rfl := Cursor.next_eq hNext hFound
    cases content with
    | symbol y =>
      have hNe : y ≠ z := by
        rintro rfl
        cases y <;> first | cases h | simp at hz
      simpa using hNe
    | _ => rfl

/-- A number is read where its token comes next. -/
theorem isNumber_of_primary {v : Payload} {p : Place} {after : List Token}
    (hNext : Cursor.next? ts = some (⟨.number v, p⟩, after))
    (h : ((Layers.within units d).primary ts).result = .ok (n, rest)) : n.isNumber = true := by
  match d with
  | 0 => cases h
  | d + 1 =>
    obtain ⟨found, hFound, h⟩ := Attempt.bind_ok.mp h
    obtain rfl := Cursor.next_eq hNext hFound
    match d with
    | 0 => cases h
    | d + 1 =>
      obtain ⟨found, hFound, h⟩ := Attempt.bind_ok.mp h
      obtain rfl := Cursor.next_eq hNext hFound
      obtain ⟨rfl, -⟩ := Prod.mk.inj (Except.ok.inj h)
      rfl

theorem peek?_of_primary (h : ((Layers.within units d).primary ts).result = .ok (n, rest))
    (hn : n.isNumber = false) : (Cursor.peek? ts).any Token.isNumber = false := by
  unfold Cursor.peek?
  cases hNext : Cursor.next? ts with
  | none => rfl
  | some found =>
    obtain ⟨⟨content, p⟩, after⟩ := found
    cases content with
    | number v =>
      rw [isNumber_of_primary hNext h] at hn
      cases hn
    | _ => rfl

-- ---------------------------------------------------------------------------
-- Factorials and powers
-- ---------------------------------------------------------------------------

/-- The tokens of some `!`. -/
def bangTokens (bangs : List Place) : List Token :=
  bangs.map fun p => ⟨.symbol .factorial, p⟩

/-- A node with some `!` behind it. -/
def withBangs (bangs : List Place) (n : Node) : Node :=
  bangs.foldl (fun m _ => .wrap .factorial m .unknown) n

theorem runs_bangs (bangs : List Place) (n : Node) (hRest : Avoids [.of, .factorial] rest) :
    Runs factorialStep n (bangTokens bangs ++ rest) (withBangs bangs n) rest := by
  induction bangs generalizing n with
  | nil =>
    refine .done ?_
    show (factorialStep n rest).result = .ok none
    unfold factorialStep
    rw [Cursor.after?_of_avoids hRest (by decide)]
    rfl
  | cons p bangs ih =>
    have hStep : (factorialStep n (bangTokens (p :: bangs) ++ rest)).result =
        .ok (some (.wrap .factorial n .unknown, bangTokens bangs ++ rest)) := rfl
    exact .more hStep (by simp [bangTokens]) (ih _)

theorem factorial_of_primary (bangs : List Place)
    (h : (L.primary ts).result = .ok (n, bangTokens bangs ++ rest))
    (hRest : Avoids [.of, .factorial] rest) :
    (factorial L ts).result = .ok (withBangs bangs n, rest) :=
  Attempt.bind_ok.mpr ⟨_, h, extend_of_runs (runs_bangs bangs n hRest)⟩

/-- Without a prefix operator it does not matter whether one is allowed. -/
theorem power_of_plainPower (allowed : Bool) (hNone : Cursor.select? prefixes ts = none)
    (h : (plainPower L ts).result = .ok (n, rest)) : (power L allowed ts).result = .ok (n, rest) := by
  cases allowed with
  | false => exact h
  | true => exact power_ok.mpr (Or.inr ⟨hNone, h⟩)

theorem select?_of_factorial
    (h : ((Layers.within units d).factorial ts).result = .ok (n, rest)) :
    Cursor.select? prefixes ts = none := by
  match d with
  | 0 => cases h
  | 1 => cases h
  | d + 2 =>
    obtain ⟨⟨m, mid⟩, hPrimary, -⟩ := Attempt.bind_ok.mp h
    exact select?_of_primary hPrimary

/-- A factorial that nothing goes on from is a power. -/
theorem power_of_factorial (allowed : Bool)
    (h : ((Layers.within units d).factorial ts).result = .ok (n, rest))
    (hRest : Avoids tightSymbols rest) :
    ((Layers.within units (d + 1)).power allowed ts).result = .ok (n, rest) := by
  refine power_of_plainPower allowed (select?_of_factorial h) ?_
  exact plainPower_ok.mpr ⟨n, rest, h, Or.inr ⟨Cursor.after?_of_avoids hRest (by decide), rfl, rfl⟩⟩

/-- A primary expression that nothing goes on from is a power. -/
theorem power_of_primary (allowed : Bool)
    (h : ((Layers.within units d).primary ts).result = .ok (n, rest))
    (hRest : Avoids tightSymbols rest) :
    ((Layers.within units (d + 2)).power allowed ts).result = .ok (n, rest) := by
  have hFactorial : ((Layers.within units (d + 1)).factorial ts).result = .ok (n, rest) :=
    factorial_of_primary [] h (hRest.mono (by decide))
  exact power_of_factorial allowed hFactorial hRest

theorem power_pow (allowed : Bool) {p : Place}
    (h : ((Layers.within units d).factorial ts).result = .ok (n, ⟨.symbol .pow, p⟩ :: mid))
    (h' : ((Layers.within units d).power true mid).result = .ok (m, rest)) :
    ((Layers.within units (d + 1)).power allowed ts).result = .ok (.binary .pow n m, rest) := by
  refine power_of_plainPower allowed (select?_of_factorial h) ?_
  exact plainPower_ok.mpr ⟨n, _, h, Or.inl ⟨mid, m, rfl, h', rfl⟩⟩

theorem power_prefixed {y : Symbol} {k : Kind} (hy : (y, k) ∈ prefixes) (p : Place)
    (h : (L.power true ts).result = .ok (n, rest)) :
    (power L true (⟨.symbol y, p⟩ :: ts)).result = .ok (.wrap k n p, rest) := by
  exact power_ok.mpr (Or.inl ⟨(y, k), _, ts, n, Cursor.select?_symbol hy (by decide) p ts, h, rfl⟩)

-- ---------------------------------------------------------------------------
-- Candidates that decline
-- ---------------------------------------------------------------------------

theorem primary_rejects (hRest : Closes (followers .multiplicative) rest) :
    ∃ e, (primary L rest).result = .error (.error e) := by
  cases rest with
  | nil => exact ⟨_, rfl⟩
  | cons t ts =>
    obtain ⟨y, hy, hEq⟩ := hRest t rfl
    rw [hEq]
    cases y <;> first | exact ⟨_, rfl⟩ | simp [followers] at hy

theorem plainPower_rejects (units : List String) (d : Nat)
    (hRest : Closes (followers .multiplicative) rest) :
    ∃ e, (plainPower (Layers.within units (d + 2)) rest).result = .error (.error e) := by
  obtain ⟨e, he⟩ := primary_rejects (L := Layers.within units d) hRest
  have hFactorial : ((Layers.within units (d + 2)).factorial rest).result = .error (.error e) :=
    Attempt.result_bind_of_error he _
  exact ⟨e, Attempt.result_bind_of_error hFactorial _⟩

theorem juxtaposition_rejects (units : List String) (d : Nat) (lhs : Node)
    (hRest : Closes (followers .multiplicative) rest) :
    ∃ e, ((Layers.within units (d + 4)).juxtaposition lhs rest).result = .error (.error e) := by
  obtain ⟨e, he⟩ := plainPower_rejects units d hRest
  exact ⟨e, Attempt.result_bind_of_error he _⟩

theorem wholeIsNegated_result {whole : Node} {b : Bool} (h : whole.isNegatedNumber = .ok b) :
    (wholeIsNegated whole).result =
      if whole.isNumber then .ok false
      else if b then .ok true else .error (.error .invalidMixedFraction) := by
  unfold wholeIsNegated
  split
  · rfl
  · rw [Attempt.result_bind_of_ok (Attempt.shape_ok.mpr h)]
    cases b <;> rfl

/-- A mixed fraction needs a number behind its whole part. -/
theorem mixedFraction_rejects {left : List Token} (hLeft : Derives units .multiplicative left lhs)
    (h : (Cursor.peek? rest).any Token.isNumber = false) :
    ∃ e, (mixedFraction L lhs rest).result = .error (.error e) := by
  obtain ⟨outer, whole, b, hPart, hNegated⟩ := hLeft.wholePart_ok
  unfold mixedFraction
  rw [Attempt.result_bind_of_ok (Attempt.shape_ok.mpr hPart), Attempt.result_bind,
    wholeIsNegated_result hNegated]
  split
  · exact ⟨.invalidMixedFraction, by simp [Except.bind, h]⟩
  · split
    · exact ⟨.invalidMixedFraction, by simp [Except.bind, h]⟩
    · exact ⟨.invalidMixedFraction, rfl⟩

/-- A mixed fraction needs a number or a negated number as its whole part. -/
theorem mixedFraction_rejects_whole (hBinary : lhs.kind ≠ .binary) (hNumber : lhs.isNumber = false)
    (hNegated : lhs.isNegatedNumber = .ok false) :
    ∃ e, (mixedFraction L lhs rest).result = .error (.error e) := by
  have hPart : wholePart lhs = .ok (none, lhs) := by
    unfold wholePart
    rw [Node.isBinary_of_kind_ne hBinary]
    rfl
  refine ⟨.invalidMixedFraction, ?_⟩
  unfold mixedFraction
  rw [Attempt.result_bind_of_ok (Attempt.shape_ok.mpr hPart), Attempt.result_bind,
    wholeIsNegated_result hNegated, hNumber]
  rfl

theorem operatorFactor_none (lhs : Node) (hNone : Cursor.select? productOperators rest = none) :
    (operatorFactor L lhs rest).result = .ok none := by
  refine operatorFactor_none_iff.mpr fun entry t after hSelect => ?_
  cases hNone.symm.trans hSelect

theorem peek?_of_closes {ys : List Symbol} (h : Closes ys rest) :
    (Cursor.peek? rest).any Token.isNumber = false := by
  cases rest with
  | nil => rfl
  | cons t ts =>
    obtain ⟨y, -, hEq⟩ := h t rfl
    rw [hEq]
    rfl

/-- **No product goes on at a follower**: all three candidates decline. -/
theorem continuation_none {left : List Token} (hLeft : Derives units .multiplicative left lhs)
    (hRest : Closes (followers .multiplicative) rest) :
    ((Layers.within units (d + 5)).continuation lhs rest).result = .ok none := by
  have hAvoids : Avoids [.mul, .div, .mod] rest := hRest.avoids (by decide)
  have hFactor : (operatorFactor (Layers.within units (d + 4)) lhs rest).result = .ok none :=
    operatorFactor_none lhs (Cursor.select?_of_avoids hAvoids (by decide))
  have hMixed : ∃ e, ((Layers.within units (d + 4)).mixedFraction lhs rest).result =
      .error (.error e) := mixedFraction_rejects hLeft (peek?_of_closes hRest)
  have hPair := juxtaposition_rejects units d lhs hRest
  exact continuation_ok.mpr (Or.inr ⟨hFactor, Or.inr ⟨hMixed, Attempt.candidate_none.mpr hPair⟩⟩)

-- ---------------------------------------------------------------------------
-- Products
-- ---------------------------------------------------------------------------

theorem continuation_operator {y : Symbol} {op : Operator} (hy : (y, op) ∈ productOperators)
    (lhs : Node) (p : Place) (h : (L.power true ts).result = .ok (m, rest)) :
    (continuation L lhs (⟨.symbol y, p⟩ :: ts)).result = .ok (some (.binary op lhs m, rest)) := by
  have hSelect := Cursor.select?_symbol hy (by decide) p ts
  exact continuation_ok.mpr
    (Or.inl ⟨_, rfl, operatorFactor_some.mpr ⟨(y, op), _, ts, m, hSelect, h, rfl⟩⟩)

/-- Juxtaposition is what remains when neither an operator nor a mixed fraction goes on. -/
theorem continuation_juxtaposed {x : Node × List Token}
    (hNone : Cursor.select? productOperators ts = none)
    (hMixed : ∃ e, (L.mixedFraction lhs ts).result = .error (.error e))
    (h : (L.juxtaposition lhs ts).result = .ok x) :
    (continuation L lhs ts).result = .ok (some x) := by
  exact continuation_ok.mpr (Or.inr ⟨operatorFactor_none lhs hNone,
    Or.inr ⟨hMixed, Attempt.candidate_some.mpr h⟩⟩)

theorem multiplicative_of_runs (h : (L.power true ts).result = .ok (n, mid))
    (hRuns : Runs L.continuation n mid m rest) : (multiplicative L ts).result = .ok (m, rest) :=
  Attempt.bind_ok.mpr ⟨(n, mid), h, extend_of_runs hRuns⟩

/-- One step of the loop over the factors of a product, and what is known about its result. -/
theorem runs_step {n' : Node} {left ts' : List Token} (hLeft : Derives units .multiplicative left n)
    (h : ((Layers.within units d).continuation n ts).result = .ok (some (n', ts')))
    (hLess : ts'.length < ts.length) :
    (∃ used, Derives units .multiplicative used n') ∧ ∀ {m rest},
      Runs (Layers.within units d).continuation n' ts' m rest →
        Runs (Layers.within units d).continuation n ts m rest := by
  obtain ⟨used, -, -, -, hDerives⟩ := (within_sound units d).continuation hLeft h
  exact ⟨⟨_, hDerives⟩, fun hRuns => .more h hLess hRuns⟩

-- ---------------------------------------------------------------------------
-- Sums
-- ---------------------------------------------------------------------------

theorem implicitSum_of_multiplicative (h : (L.multiplicative ts).result = .ok (n, rest))
    (hn : n.kind ≠ .product) : (implicitSum L ts).result = .ok (n, rest) :=
  implicitSum_ok.mpr (Or.inr ⟨h, fun hProduct => absurd hProduct hn⟩)

theorem implicitSum_rejects (units : List String) (d : Nat)
    (hRest : Closes (followers .additive) rest) :
    ∃ e, ((Layers.within units (d + 5)).implicitSum rest).result = .error (.error e) := by
  obtain ⟨e, he⟩ := plainPower_rejects units d (hRest.mono (by decide))
  have hNone : Cursor.select? prefixes rest = none := by
    have hAvoids : Avoids [.sub, .add, .div] rest := hRest.avoids (by decide)
    exact Cursor.select?_of_avoids hAvoids (by decide)
  have hPower : ((Layers.within units (d + 3)).power true rest).result = .error (.error e) := by
    show (power (Layers.within units (d + 2)) true rest).result = _
    unfold power
    rw [if_pos rfl, hNone]
    exact he
  have hProduct : ((Layers.within units (d + 4)).multiplicative rest).result = .error (.error e) :=
    Attempt.result_bind_of_error hPower _
  exact ⟨e, Attempt.result_bind_of_error hProduct _⟩

/-- A product of juxtaposition is no part of a compound quantity where none follows. -/
theorem implicitSum_of_product
    (h : ((Layers.within units (d + 5)).multiplicative ts).result = .ok (n, rest))
    (hRest : Closes (followers .additive) rest) :
    ((Layers.within units (d + 6)).implicitSum ts).result = .ok (n, rest) :=
  implicitSum_ok.mpr (Or.inr ⟨h, fun _ => Or.inl (implicitSum_rejects units d hRest)⟩)

theorem sumStep_operator {y : Symbol} {build : Node → Node → Node} (hy : (y, build) ∈ sumOperators)
    (lhs : Node) (p : Place) (h : (L.implicitSum ts).result = .ok (m, rest)) :
    (sumStep L lhs (⟨.symbol y, p⟩ :: ts)).result = .ok (some (build lhs m, rest)) := by
  refine sumStep_some.mpr ⟨(y, build), _, ts, m, Cursor.select?_symbol hy (by decide) p ts, h, rfl⟩

theorem sumStep_none (lhs : Node) (hRest : Closes (followers .additive) rest) :
    (sumStep L lhs rest).result = .ok none := by
  have hAvoids : Avoids [.add, .sub, .conversion] rest := hRest.avoids (by decide)
  have hNone : Cursor.select? sumOperators rest = none := by
    refine Cursor.select?_of_avoids hAvoids ?_
    rintro ⟨y, build⟩ he
    rcases sumOperators_cases he with ⟨rfl, -⟩ | ⟨rfl, -⟩ | ⟨rfl, -⟩ <;> simp
  refine sumStep_none_iff.mpr fun entry t after hSelect => ?_
  cases hNone.symm.trans hSelect

theorem additive_of_runs (h : (L.implicitSum ts).result = .ok (n, mid))
    (hRuns : Runs (sumStep L) n mid m rest) : (additive L ts).result = .ok (m, rest) :=
  Attempt.bind_ok.mpr ⟨(n, mid), h, extend_of_runs hRuns⟩

/-- A power that nothing goes on from is a summand. -/
theorem implicitSum_of_power (h : ((Layers.within units (d + 4)).power true ts).result = .ok (n, rest))
    (hRest : Closes (followers .multiplicative) rest) :
    ((Layers.within units (d + 7)).implicitSum ts).result = .ok (n, rest) := by
  obtain ⟨used, -, hDerives⟩ := (within_sound units (d + 4)).power h
  have hStop : ((Layers.within units (d + 5)).continuation n rest).result = .ok none :=
    continuation_none (.widen (by decide) hDerives) hRest
  have hPower := ((within_below units (Nat.le_succ (d + 4))).power true ts).ok h
  have hProduct : ((Layers.within units (d + 6)).multiplicative ts).result = .ok (n, rest) :=
    multiplicative_of_runs hPower (.done hStop)
  exact implicitSum_of_multiplicative hProduct hDerives.power_kind_ne

/-- A power that nothing goes on from is a sum. -/
theorem additive_of_power (h : ((Layers.within units (d + 4)).power true ts).result = .ok (n, rest))
    (hRest : Closes (followers .additive) rest) :
    ((Layers.within units (d + 8)).additive ts).result = .ok (n, rest) :=
  additive_of_runs (implicitSum_of_power h (hRest.mono (by decide))) (.done (sumStep_none n hRest))

/-- A juxtaposition that nothing goes on from is a sum. -/
theorem additive_of_juxtaposition {l r : Node} {k : Kind}
    (hl : ((Layers.within units (d + 3)).power true ts).result = .ok (l, mid))
    (hr : ((Layers.within units (d + 3)).power false mid).result = .ok (r, rest))
    (hLess : rest.length < mid.length) (hk : juxtapositionKind units l r = .ok (some k))
    (hNone : Cursor.select? productOperators mid = none)
    (hMixed : ∃ e, ((Layers.within units (d + 4)).mixedFraction l mid).result = .error (.error e))
    (hRest : Closes (followers .additive) rest) :
    ((Layers.within units (d + 8)).additive ts).result = .ok (.pair k l r, rest) := by
  obtain ⟨used, -, hLeft⟩ := (within_sound units (d + 3)).power hl
  have hLeft : Derives units .multiplicative used l := .widen (by decide) hLeft
  have hTaken : ((Layers.within units (d + 5)).continuation l mid).result =
      .ok (some (.pair k l r, rest)) :=
    continuation_juxtaposed hNone hMixed (juxtaposition_ok.mpr ⟨k, r, hr, hk, rfl⟩)
  obtain ⟨used', -, -, -, hBoth⟩ := (within_sound units (d + 5)).continuation hLeft hTaken
  have hStop : ((Layers.within units (d + 5)).continuation (.pair k l r) rest).result = .ok none :=
    continuation_none hBoth (hRest.mono (by decide))
  have hPower := ((within_below units (by omega : d + 3 ≤ d + 5)).power true ts).ok hl
  have hProduct : ((Layers.within units (d + 6)).multiplicative ts).result =
      .ok (.pair k l r, rest) :=
    multiplicative_of_runs hPower (.more hTaken hLess (.done hStop))
  have hSum := implicitSum_of_product (d := d + 1) hProduct hRest
  exact additive_of_runs hSum (.done (sumStep_none _ hRest))

-- ---------------------------------------------------------------------------
-- Functions, assignments and statements
-- ---------------------------------------------------------------------------

theorem function_of_additive (h : (L.additive ts).result = .ok (n, rest))
    (hRest : Closes (followers .function) rest) : (function L ts).result = .ok (n, rest) := by
  have hAvoids : Avoids [.arrow] rest := hRest.avoids (by decide)
  exact function_ok.mpr ⟨n, rest, h, Or.inr ⟨Cursor.after?_of_avoids hAvoids (by decide), rfl, rfl⟩⟩

theorem function_arrow {x : String} {p q : Place}
    (h : (L.additive ts).result = .ok (.ident x p, ⟨.symbol .arrow, q⟩ :: mid))
    (h' : (L.function mid).result = .ok (n, rest)) :
    (function L ts).result = .ok (.named .function (.text x) n p, rest) :=
  function_ok.mpr ⟨.ident x p, _, h, Or.inl ⟨mid, n, rfl, rfl, h', rfl⟩⟩

theorem assignment_of_function (h : (L.function ts).result = .ok (n, rest))
    (hRest : Closes (followers .assignment) rest) : (assignment L ts).result = .ok (n, rest) := by
  have hAvoids : Avoids [.equals] rest := hRest.avoids (by decide)
  exact assignment_ok.mpr ⟨n, rest, h, Or.inr ⟨Cursor.after?_of_avoids hAvoids (by decide), rfl, rfl⟩⟩

theorem assignment_equals {x : String} {p q : Place}
    (h : (L.function ts).result = .ok (.ident x p, ⟨.symbol .equals, q⟩ :: mid))
    (h' : (L.assignment mid).result = .ok (n, rest)) :
    (assignment L ts).result = .ok (.named .assignment (.text x) n p, rest) :=
  assignment_ok.mpr ⟨.ident x p, _, h, Or.inl ⟨mid, n, rfl, rfl, h', rfl⟩⟩

theorem avoids_of_canBegin {t : Token} (h : t.canBegin = true) (ts : List Token) :
    Avoids [.closeParens, .semicolon] (t :: ts) := by
  intro u hu
  obtain rfl : t = u := Option.some.inj hu
  obtain ⟨content, p⟩ := t
  cases content with
  | symbol y =>
    refine ⟨rfl, fun z hz => ?_⟩
    have hNe : y ≠ z := by
      rintro rfl
      simp [Token.canBegin] at h
      simp only [List.mem_cons, List.not_mem_nil, or_false] at hz
      rcases hz with rfl | rfl <;> simp at h
    simpa using hNe
  | number v => exact ⟨rfl, fun _ _ => rfl⟩
  | string x => exact ⟨rfl, fun _ _ => rfl⟩
  | ident x => exact ⟨rfl, fun _ _ => rfl⟩
  | _ => cases h

theorem atEnd_of_canBegin {t : Token} (h : t.canBegin = true) (ts : List Token) :
    Cursor.atEnd (t :: ts) = false := by
  unfold Cursor.atEnd Cursor.peek?
  rw [(avoids_of_canBegin h ts).next?]
  rfl

/-- What is read as an assignment begins like one. -/
theorem begins_of_assignment {ys : List Symbol} {after : List Token} (hPlain : Plain ts)
    (hRest : Closes ys rest)
    (h : ((Layers.within units d).assignment (ts ++ rest)).result = .ok (n, after)) :
    ∃ t ts', ts ++ rest = t :: ts' ∧ t.canBegin = true := by
  obtain ⟨used, hUsed, hDerives⟩ := (within_sound units d).assignment h
  obtain ⟨t, us, rfl, ht⟩ := hDerives.begins rfl
  -- the first token is not blank, so it is the first one of the derivation
  have hBlank : ∀ u ∈ (ts ++ rest).head?, u.isBlank = false := by
    intro u hu
    cases ts with
    | nil =>
      obtain ⟨y, -, hEq⟩ := hRest u hu
      rw [hEq]
      rfl
    | cons t' ts =>
      obtain rfl : t' = u := Option.some.inj hu
      exact (plain_cons.mp hPlain).1.1
  cases hTokens : ts ++ rest with
  | nil =>
    rw [hTokens] at hUsed
    cases hUsed
  | cons u us' =>
    rw [hTokens] at hBlank hUsed
    have hSolid : solid (u :: us') = u :: solid us' := by simp [solid, hBlank u rfl]
    obtain rfl : u = t := (List.cons.inj (hSolid.symm.trans hUsed)).1
    exact ⟨u, us', rfl, ht⟩

theorem statementStep_next {t : Token} (p : Place) (lhs : Node) (ht : t.canBegin = true)
    (h : (L.assignment (t :: ts)).result = .ok (m, rest)) :
    (statementStep L lhs (⟨.symbol .semicolon, p⟩ :: t :: ts)).result =
      .ok (some (.pair .statements lhs m, rest)) := by
  have hAvoids := avoids_of_canBegin ht ts
  refine statementStep_some.mpr ⟨t :: ts, rfl, Or.inr ⟨?_, m, h, rfl⟩⟩
  rw [atEnd_of_canBegin ht ts, Cursor.after?_of_avoids hAvoids (by decide)]
  rfl

theorem statementStep_none (lhs : Node) (hRest : Closes (followers .statements) rest) :
    (statementStep L lhs rest).result = .ok none := by
  have hAvoids : Avoids [.semicolon] rest := hRest.avoids (by decide)
  exact statementStep_none_iff.mpr (Cursor.after?_of_avoids hAvoids (by decide))

theorem skipSeparators_of_canBegin {t : Token} (h : t.canBegin = true) (ts : List Token) :
    Cursor.skipSeparators (t :: ts) = t :: ts := by
  obtain ⟨hBlank, hSymbols⟩ := avoids_of_canBegin h ts t rfl
  unfold Cursor.skipSeparators
  rw [List.dropWhile_cons, hBlank, hSymbols .semicolon (by decide)]
  rfl

/-- Statements whose first token can begin one are read from there. -/
theorem statements_of_canBegin {t : Token} (ht : t.canBegin = true) :
    (statements L (t :: ts)).result = .ok (m, rest) ↔
      ∃ first mid, (L.assignment (t :: ts)).result = .ok (first, mid) ∧
        (extend (statementStep L) first mid).result = .ok (m, rest) := by
  rw [statements_ok, skipSeparators_of_canBegin ht ts, atEnd_of_canBegin ht ts]
  simp

/-- **A sum that nothing goes on from is an expression.** -/
theorem expression_of_sum {t : Token} (ht : t.canBegin = true)
    (h : ((Layers.within units d).implicitSum (t :: ts)).result = .ok (n, rest))
    (hRest : Avoids looseSymbols rest) :
    ((Layers.within units (d + 5)).expression (t :: ts)).result = .ok (n, rest) := by
  have hStop : (sumStep (Layers.within units d) n rest).result = .ok none := by
    have hNone : Cursor.select? sumOperators rest = none :=
      Cursor.select?_of_avoids hRest fun entry he => by
        rcases sumOperators_cases he with ⟨h, -⟩ | ⟨h, -⟩ | ⟨h, -⟩ <;> rw [h] <;> decide
    exact sumStep_none_iff.mpr fun entry t after hSelect => nomatch hNone.symm.trans hSelect
  have hSum : ((Layers.within units (d + 1)).additive (t :: ts)).result = .ok (n, rest) :=
    additive_of_runs h (.done hStop)
  have hFunction : ((Layers.within units (d + 2)).function (t :: ts)).result = .ok (n, rest) :=
    function_ok.mpr
      ⟨n, rest, hSum, Or.inr ⟨Cursor.after?_of_avoids hRest (by decide), rfl, rfl⟩⟩
  have hStatement : ((Layers.within units (d + 3)).assignment (t :: ts)).result = .ok (n, rest) :=
    assignment_ok.mpr
      ⟨n, rest, hFunction, Or.inr ⟨Cursor.after?_of_avoids hRest (by decide), rfl, rfl⟩⟩
  have hEnd : (statementStep (Layers.within units (d + 3)) n rest).result = .ok none :=
    statementStep_none_iff.mpr (Cursor.after?_of_avoids hRest (by decide))
  exact (statements_of_canBegin ht).mpr ⟨n, rest, hStatement, extend_of_runs (.done hEnd)⟩

-- ---------------------------------------------------------------------------
-- Whole sequences of tokens
-- ---------------------------------------------------------------------------

/-- The rules between a whole expression and a statement need two levels of nesting. -/
theorem expression_deep
    (h : ((Layers.within units d).expression ts).result = .ok (n, rest)) :
    ∃ e, d = e + 2 ∧ (statements (Layers.within units e) ts).result = .ok (n, rest) := by
  match d with
  | 0 => cases h
  | 1 => cases h
  | d + 2 => exact ⟨d, rfl, h⟩

theorem significant_of_plain {tokens : List Token} (h : Plain tokens) : significant tokens = tokens := by
  unfold significant
  rw [List.filter_eq_self]
  intro t ht
  simp [(h t ht).2]

/-- An expression that takes every token is what is parsed. -/
theorem parseWithin_of_expression {tokens : List Token} (hPlain : Plain tokens)
    (h : ((Layers.within units d).expression tokens).result = .ok (n, [])) :
    (parseWithin d units tokens).result = .ok n := by
  rw [← significant_of_plain hPlain] at h
  exact parseWithin_ok.mpr ⟨[], h, rfl⟩

end Grammar

end Reckoner
