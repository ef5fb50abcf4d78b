import Reckoner.Grammar.Cursor

/-!
# The layers of the grammar

An expression is read in layers, from the loosest to the tightest:

* `statements`: `a; b`, where leading, trailing and repeated separators are skipped
* `assignment`: `a = b = 3`, to the right, with an identifier on the left
* `function`: `x => x + 1`, with an identifier on the left
* `additive`: `+`, `-` and `to`, to the left
* `implicitSum`: `6 feet 1 inch`
* `multiplicative`: `*`, `/`, `%`, mixed fractions and juxtaposition, to the left
* `power`: `^`, to the right, with prefix `-`, `+` and `/`
* `factorial`: `5!!`
* `primary`: numbers, strings, identifiers, `name of x`, `( ... )` and `\x.body`

Juxtaposition is read by the shapes of its two sides. Say that a left side is like a number when it
is a number, a negated number or a product; then:

* like a number, then a number or a power of a number: refused, for it belongs to a mixed fraction
  or to an implicit sum
* a prefix unit, then a number: `apply`, as in `$5`
* anything else, then a number: `call`, as in `sin 30`
* a number or a product, then anything else: `product`, as in `2 meters`
* anything else: `apply`, as in `f x`

Every rule is written in terms of the rules it calls, given as the record `below`. So a bound on the
nesting of calls is the number of times that the step from `below` to the next record is taken, and
the record that it starts from stops every rule.
-/

namespace Reckoner

namespace Grammar

/-- A rule builds a node from the tokens that are left and answers with the tokens left after it. -/
abbrev Rule := List Token → Attempt (Node × List Token)

/-- The rules of all layers. -/
structure Layers where
  expression : Rule
  statements : Rule
  assignment : Rule
  function : Rule
  additive : Rule
  implicitSum : Rule
  multiplicative : Rule
  /-- One more factor after a left operand; none when no candidate applies. -/
  continuation : Node → List Token → Attempt (Option (Node × List Token))
  mixedFraction : Node → Rule
  juxtaposition : Node → Rule
  /-- Whether prefix operators are allowed is the first argument. -/
  power : Bool → Rule
  factorial : Rule
  primary : Rule
  number : Rule
  ident : Rule
  parens : Rule
  lambda : Rule

/-- Extends a node as long as a step finds more, at most `fuel` times. -/
def chain (step : Node → List Token → Attempt (Option (Node × List Token))) : Nat → Node → Rule
  | 0, n, ts => pure (n, ts)
  | fuel + 1, n, ts => do
    match ← step n ts with
    | some (n, ts) => chain step fuel n ts
    | none => pure (n, ts)

/-- Extends a node as long as a step finds more. A step takes at least one token. -/
def extend (step : Node → List Token → Attempt (Option (Node × List Token))) (n : Node) : Rule :=
  fun ts => chain step (ts.length + 1) n ts

-- ---------------------------------------------------------------------------
-- Primary expressions
-- ---------------------------------------------------------------------------

/-- A number. -/
def number : Rule := fun ts => do
  let (t, rest) ← Cursor.next ts
  match t.content with
  | .number value => pure (.number value t.place, rest)
  | _ => .reject (.expectedNumber t)

/-- An identifier, or `name of inner`. -/
def ident (below : Layers) : Rule := fun ts => do
  let (t, rest) ← Cursor.next ts
  match t.content with
  | .ident name =>
    match Cursor.after? .of rest with
    | some rest =>
      let (inner, rest) ← below.primary rest
      pure (.named .member (.text name) inner t.place, rest)
    | none => pure (.ident name t.place, rest)
  | _ => .reject (.expectedIdentifier t)

/-- `( expr )` or `()`. The closing parenthesis may be missing at the end of the input. -/
def parens (below : Layers) : Rule := fun ts => do
  let (t, _) ← Cursor.next ts
  let rest ← Cursor.take .openParens ts
  match Cursor.after? .closeParens rest with
  | some rest => pure (.unit t.place, rest)
  | none =>
    let (inner, rest) ← below.expression rest
    let rest ← if Cursor.atEnd rest then pure rest else Cursor.take .closeParens rest
    pure (.wrap .parens inner t.place, rest)

/-- `\x.body`. The parameter follows the backslash directly. -/
def lambda (below : Layers) : Rule := fun ts => do
  let (t, _) ← Cursor.next ts
  let rest ← Cursor.take .backslash ts
  let (parameter, rest) ← Cursor.nextRaw rest
  match parameter.content with
  | .blank _ => .reject (.unexpectedBlank parameter)
  | .ident name =>
    let rest ← (Cursor.take .dot rest).recover fun e => .reject (.missingDot e)
    let (body, rest) ← below.function rest
    pure (.named .function (.text name) body t.place, rest)
  | _ => .reject (.expectedIdentifier parameter)

/-- A primary expression, chosen by its first token. -/
def primary (below : Layers) : Rule := fun ts => do
  let (t, rest) ← Cursor.next ts
  match t.content with
  | .number _ => below.number ts
  | .ident _ => below.ident ts
  | .string text => pure (.string text t.place, rest)
  | .symbol .openParens => below.parens ts
  | .symbol .backslash => below.lambda ts
  | .symbol s => .reject (.unexpectedSymbol s t)
  | _ => .reject (.unexpectedInput t)

-- ---------------------------------------------------------------------------
-- Factorials and powers
-- ---------------------------------------------------------------------------

/-- One more `!`. -/
def factorialStep (n : Node) (ts : List Token) : Attempt (Option (Node × List Token)) :=
  pure ((Cursor.after? .factorial ts).map fun rest => (.wrap .factorial n .unknown, rest))

/-- A primary expression and any number of `!`. -/
def factorial (below : Layers) : Rule := fun ts => do
  let (n, rest) ← below.primary ts
  extend factorialStep n rest

/-- The prefix operators. -/
def prefixes : List (Symbol × Kind) :=
  [(.sub, .negation), (.add, .positive), (.div, .reciprocal)]

/-- `a ^ b` without a prefix operator. -/
def plainPower (below : Layers) : Rule := fun ts => do
  let (base, rest) ← below.factorial ts
  match Cursor.after? .pow rest with
  | some rest =>
    let (exponent, rest) ← below.power true rest
    pure (.binary .pow base exponent, rest)
  | none => pure (base, rest)

/-- `a ^ b`, if `allowed` with a prefix operator, which wraps the entire power to its right. -/
def power (below : Layers) (allowed : Bool) : Rule := fun ts =>
  match if allowed then Cursor.select? prefixes ts else none with
  | some ((_, kind), t, rest) => do
    let (inner, rest) ← below.power true rest
    pure (.wrap kind inner t.place, rest)
  | none => plainPower below ts

-- ---------------------------------------------------------------------------
-- Products
-- ---------------------------------------------------------------------------

/-- Whether a left side is like a number: a number, a negated number or a product. -/
def isLikeNumber (n : Node) : Except Node.ShapeFault Bool := do
  return n.isNumber || (← n.isNegatedNumber) || n.kind = .product

/-- Whether a right side is a power of a number. -/
def isPowerOfNumber (n : Node) : Except Node.ShapeFault Bool :=
  if n.isBinary .pow then do return (← n.child 0).isNumber else return false

/-- Whether a left side is a prefix unit. -/
def isPrefixUnit (units : List String) (n : Node) : Bool :=
  n.kind = .identifier && n.value.text?.any (units.contains ·)

/-- The kind of the juxtaposition of two nodes; none when it is refused. -/
def juxtapositionKind (units : List String) (lhs rhs : Node) :
    Except Node.ShapeFault (Option Kind) := do
  let reserved := (← isLikeNumber lhs) && (rhs.isNumber || (← isPowerOfNumber rhs))
  return if reserved then none
    else if rhs.isNumber then some (if isPrefixUnit units lhs then .apply else .call)
    else some (if lhs.isNumber || lhs.kind = .product then .product else .apply)

/-- The juxtaposition of a left side with the next power. -/
def juxtaposition (units : List String) (below : Layers) (lhs : Node) : Rule := fun ts => do
  let (rhs, rest) ← below.power false ts
  match ← Attempt.shape (juxtapositionKind units lhs rhs) with
  | some kind => pure (.pair kind lhs rhs, rest)
  | none => .reject .reservedJuxtaposition

/-- The outer factor, if there is one, and the whole part of a mixed fraction that starts with
`lhs`. -/
def wholePart (lhs : Node) : Except Node.ShapeFault (Option Node × Node) :=
  if lhs.isBinary .mul then return (fun (outer, whole) => (some outer, whole)) (← lhs.twoChildren)
  else return (none, lhs)

/-- Whether the whole part of a mixed fraction is negated; it must be a number or a negated
number. -/
def wholeIsNegated (whole : Node) : Attempt Bool :=
  if whole.isNumber then pure false
  else do
    if ← .shape whole.isNegatedNumber then pure true else .reject .invalidMixedFraction

/-- The numerator or the denominator of a mixed fraction. -/
def fractionTerm (below : Layers) : Rule := fun ts => do
  let (n, rest) ← below.power false ts
  if n.isNumber then pure (n, rest) else .reject .invalidMixedFraction

/-- The whole part plus or minus the fraction, times the outer factor if there is one. -/
def mixedSum (outer : Option Node) (negated : Bool) (whole top bottom : Node) : Node :=
  let sum := Node.binary (if negated then .minus else .plus) whole (.binary .div top bottom)
  outer.elim sum fun factor => .binary .mul factor sum

/-- `whole numerator/denominator` after `whole`, which is a number, a negated number, or a product
by one of these. In the last case the other factor stays outside. -/
def mixedFraction (below : Layers) (lhs : Node) : Rule := fun ts => do
  let (outer, whole) ← .shape (wholePart lhs)
  let negated ← wholeIsNegated whole
  if (Cursor.peek? ts).any Token.isNumber then
    let (top, rest) ← fractionTerm below ts
    let rest ← Cursor.take .div rest
    let (bottom, rest) ← fractionTerm below rest
    pure (mixedSum outer negated whole top bottom, rest)
  else .reject .invalidMixedFraction

/-- The operators of products. -/
def productOperators : List (Symbol × Operator) :=
  [(.mul, .mul), (.div, .div), (.mod, .mod)]

/-- One more factor behind an operator; none when no operator comes next or its operand is
rejected. -/
def operatorFactor (below : Layers) (lhs : Node) (ts : List Token) :
    Attempt (Option (Node × List Token)) :=
  match Cursor.select? productOperators ts with
  | some ((symbol, op), _, rest) =>
    Attempt.candidate (.operand symbol) ts.length do
      let (rhs, rest) ← below.power true rest
      pure (.binary op lhs rhs, rest)
  | none => pure none

/-- One more factor: behind an operator, as a mixed fraction, or by juxtaposition; the first that
applies. -/
def continuation (below : Layers) (lhs : Node) (ts : List Token) :
    Attempt (Option (Node × List Token)) := do
  if let some found ← operatorFactor below lhs ts then return some found
  if let some found ← Attempt.candidate .mixedFraction ts.length (below.mixedFraction lhs ts) then
    return some found
  Attempt.candidate .juxtaposition ts.length (below.juxtaposition lhs ts)

/-- A product. -/
def multiplicative (below : Layers) : Rule := fun ts => do
  let (n, rest) ← below.power true ts
  extend below.continuation n rest

-- ---------------------------------------------------------------------------
-- Sums
-- ---------------------------------------------------------------------------

/-- Whether a node may follow a product in a compound quantity. -/
def isQuantityPart (n : Node) : Bool :=
  n.kind = .product || n.kind = .literal || n.isBinary .implicitPlus

/-- A compound quantity such as `6 feet 1 inch`. -/
def implicitSum (below : Layers) : Rule := fun ts => do
  let (n, rest) ← below.multiplicative ts
  if n.kind = .product then
    let more ← Attempt.recover (do return some (← below.implicitSum rest)) fun _ => pure none
    match more with
    | some (m, after) =>
      if isQuantityPart m then pure (.binary .implicitPlus n m, after) else pure (n, rest)
    | none => pure (n, rest)
  else pure (n, rest)

/-- The operators of sums and what each builds. -/
def sumOperators : List (Symbol × (Node → Node → Node)) :=
  [(.add, .binary .plus), (.sub, .binary .minus), (.conversion, .pair .conversion)]

/-- One more summand behind an operator. -/
def sumStep (below : Layers) (lhs : Node) (ts : List Token) :
    Attempt (Option (Node × List Token)) :=
  match Cursor.select? sumOperators ts with
  | some ((symbol, build), _, rest) =>
    Attempt.candidate (.operand symbol) ts.length do
      let (rhs, rest) ← below.implicitSum rest
      pure (build lhs rhs, rest)
  | none => pure none

/-- A sum. -/
def additive (below : Layers) : Rule := fun ts => do
  let (n, rest) ← below.implicitSum ts
  extend (sumStep below) n rest

-- ---------------------------------------------------------------------------
-- Functions, assignments and statements
-- ---------------------------------------------------------------------------

/-- The symbol that comes next, with its token and the tokens after it. -/
def nextIs? (symbol : Symbol) (ts : List Token) : Option (Token × List Token) :=
  (Cursor.next? ts).filter fun (t, _) => t.isSymbol symbol

/-- `x => body`. -/
def function (below : Layers) : Rule := fun ts => do
  let (n, rest) ← below.additive ts
  match nextIs? .arrow rest with
  | some (t, after) =>
    if n.kind = .identifier then
      let (body, after) ← below.function after
      pure (.named .function n.value body n.place, after)
    else .reject (.expectedParameter t)
  | none => pure (n, rest)

/-- `x = value`. -/
def assignment (below : Layers) : Rule := fun ts => do
  let (n, rest) ← below.function ts
  match nextIs? .equals rest with
  | some (t, after) =>
    if n.kind = .identifier then
      let (value, after) ← below.assignment after
      pure (.named .assignment n.value value n.place, after)
    else .reject (.expectedAssignee t)
  | none => pure (n, rest)

/-- A separator, with the statement after it if there is one. -/
def statementStep (below : Layers) (n : Node) (ts : List Token) :
    Attempt (Option (Node × List Token)) :=
  match Cursor.after? .semicolon ts with
  | some rest =>
    if Cursor.atEnd rest || (Cursor.after? .semicolon rest).isSome then pure (some (n, rest))
    else do
      let (m, rest) ← below.assignment rest
      pure (some (.pair .statements n m, rest))
  | none => pure none

/-- Statements between separators, nested to the left. No statement at all is the empty value. -/
def statements (below : Layers) : Rule := fun ts =>
  let ts := Cursor.skipSeparators ts
  if Cursor.atEnd ts then pure (.unit .unknown, [])
  else do
    let (n, rest) ← below.assignment ts
    extend (statementStep below) n rest

-- ---------------------------------------------------------------------------
-- Bounded nesting
-- ---------------------------------------------------------------------------

/-- The rules in which no further call is allowed. -/
def Layers.exhausted : Layers :=
  let stop {α : Type} : Attempt α := .ofExcept (.error .tooDeep)
  { expression := fun _ => stop
    statements := fun _ => stop
    assignment := fun _ => stop
    function := fun _ => stop
    additive := fun _ => stop
    implicitSum := fun _ => stop
    multiplicative := fun _ => stop
    continuation := fun _ _ => stop
    mixedFraction := fun _ _ => stop
    juxtaposition := fun _ _ => stop
    power := fun _ _ => stop
    factorial := fun _ => stop
    primary := fun _ => stop
    number := fun _ => stop
    ident := fun _ => stop
    parens := fun _ => stop
    lambda := fun _ => stop }

/-- The rules that may call those of `below`. -/
def Layers.step (units : List String) (below : Layers) : Layers where
  expression := below.statements
  statements := Grammar.statements below
  assignment := Grammar.assignment below
  function := Grammar.function below
  additive := Grammar.additive below
  implicitSum := Grammar.implicitSum below
  multiplicative := Grammar.multiplicative below
  continuation := Grammar.continuation below
  mixedFraction := Grammar.mixedFraction below
  juxtaposition := Grammar.juxtaposition units below
  power := Grammar.power below
  factorial := Grammar.factorial below
  primary := Grammar.primary below
  number := Grammar.number
  ident := Grammar.ident below
  parens := Grammar.parens below
  lambda := Grammar.lambda below

/-- The rules under a bound on the nesting of calls. -/
def Layers.within (units : List String) : Nat → Layers
  | 0 => exhausted
  | depth + 1 => step units (within units depth)

end Grammar

end Reckoner
