import Reckoner.Proofs.Grammar.Indifference
import Reckoner.Proofs.Grammar.Phrases

/-!
# Compound quantities

A compound quantity is some numbers with names of units behind them, side by side, such as
`6 feet 1 inch`, and maybe a number at the end. Nothing separates the components: at each number the
product of the component before it has to stop. No operator stands there, a product is no whole part of a
mixed fraction, and juxtaposition of a product with a number is refused (`continuation_at_number`). What
stands behind is then read as one more quantity, which is added to the component, by induction on the
components.

Every component nests one rule more deeply than the one before it. So the number of components is bounded
with the nesting, and a quantity of too many of them is reported as too deep.

## Results

* `continuation_at_number`  — a product stops in front of a number.
* `Component.reads`         — a component is a product of its number with its units.
* `components_read`         — components side by side are a sum, nested to the right.
* `Quantity.reads`          — a quantity is the sum of its components, nested to the right.
* `parseWithin_quantity`    — a quantity is parsed, with any blanks in it.
* `Quantity.exhausts`       — a quantity of more components than the nesting allows is not.
-/

namespace Reckoner

namespace Grammar

open Cursor (Avoids Closes solid)

-- ---------------------------------------------------------------------------
-- Quantities
-- ---------------------------------------------------------------------------

/-- A number and the names of units behind it, at least one of them. -/
structure Component where
  amount : Payload
  place : Place
  first : String × Place
  more : List (String × Place)

/-- Components side by side, and maybe a number behind them. -/
structure Quantity where
  first : Component
  more : List Component
  last : Option (Payload × Place)

def unitTokens (names : List (String × Place)) : List Token :=
  names.map fun u => ⟨.ident u.1, u.2⟩

/-- A node with units behind it, juxtaposed from the left. -/
def measured (n : Node) (names : List (String × Place)) : Node :=
  names.foldl (fun m u => .pair .product m (.ident u.1 u.2)) n

/-- Nodes added up from the right. -/
def rightSum (n : Node) : List Node → Node
  | [] => n
  | m :: ms => .binary .implicitPlus n (rightSum m ms)

namespace Component

def tokens (c : Component) : List Token :=
  ⟨.number c.amount, c.place⟩ :: unitTokens (c.first :: c.more)

def node (c : Component) : Node :=
  measured (.number c.amount c.place) (c.first :: c.more)

end Component

namespace Quantity

def tokens (q : Quantity) : List Token :=
  q.first.tokens ++
    (q.more.flatMap Component.tokens ++ q.last.toList.map fun m => ⟨.number m.1, m.2⟩)

def tree (q : Quantity) : Node :=
  rightSum q.first.node (q.more.map Component.node ++ q.last.toList.map fun m => .number m.1 m.2)

end Quantity

-- ---------------------------------------------------------------------------
-- Components
-- ---------------------------------------------------------------------------

variable {units : List String} {d : Nat} {lhs n : Node} {left ts rest : List Token}

/-- What may stand behind a component: a number that is no power, or what ends every product. -/
def EndsComponent (rest : List Token) : Prop :=
  (∃ v p after, rest = ⟨.number v, p⟩ :: after ∧ Avoids tightSymbols after) ∨
    Closes (followers .multiplicative) rest

theorem EndsComponent.avoids (h : EndsComponent rest) : Avoids tightSymbols rest := by
  rcases h with ⟨v, p, after, rfl, -⟩ | hRest
  · exact Cursor.avoids_number after
  · exact hRest.avoids (by decide)

/-- **A product stops in front of a number**: all three candidates decline. -/
theorem continuation_at_number (hProduct : lhs.kind = .product) (v : Payload) (p : Place)
    (hRest : Avoids tightSymbols rest) :
    ((Layers.within units (d + 6)).continuation lhs (⟨.number v, p⟩ :: rest)).result = .ok none := by
  have hNegated : lhs.isNegatedNumber = .ok false :=
    Node.isNegatedNumber_of_kind_ne (by simp [hProduct])
  have hMixed : ∃ e, ((Layers.within units (d + 5)).mixedFraction lhs (⟨.number v, p⟩ :: rest)).result =
      .error (.error e) :=
    mixedFraction_rejects_whole (by simp [hProduct])
      (Node.isNumber_of_kind_ne (by simp [hProduct])) hNegated
  have hKind : juxtapositionKind units lhs (.number v p) = .ok none := by
    rw [juxtapositionKind_eq units hNegated (isPowerOfNumber_of_kind_ne (by simp))]
    simp [hProduct]
  have hPower : ((Layers.within units (d + 4)).power false (⟨.number v, p⟩ :: rest)).result =
      .ok (.number v p, rest) := power_of_primary false (primary_number v p) hRest
  have hPair : ∃ e, ((Layers.within units (d + 5)).juxtaposition lhs (⟨.number v, p⟩ :: rest)).result =
      .error (.error e) :=
    ⟨.reservedJuxtaposition, Attempt.bind_error.mpr (Or.inr ⟨_, hPower,
      Attempt.bind_error.mpr (Or.inr ⟨none, Attempt.shape_ok.mpr hKind, rfl⟩)⟩)⟩
  have hAvoids : Avoids [.mul, .div, .mod] (⟨.number v, p⟩ :: rest) :=
    Cursor.avoids_number rest
  have hNone : Cursor.select? productOperators (⟨.number v, p⟩ :: rest) = none :=
    Cursor.select?_of_avoids hAvoids (by decide)
  exact continuation_ok.mpr (Or.inr ⟨operatorFactor_none lhs hNone,
    Or.inr ⟨hMixed, Attempt.candidate_none.mpr hPair⟩⟩)

theorem continuation_at_end (hLeft : Derives units .multiplicative left lhs)
    (hProduct : lhs.kind = .product) (hRest : EndsComponent rest) :
    ((Layers.within units (d + 6)).continuation lhs rest).result = .ok none := by
  rcases hRest with ⟨v, p, after, rfl, hAfter⟩ | hRest
  · exact continuation_at_number hProduct v p hAfter
  · exact continuation_none hLeft hRest

/-- **A name goes on from every product**: as a further factor from a number or a product of names, and
as an argument from anything else. -/
theorem continuation_name (hLeft : Derives units .multiplicative left lhs) (x : String) (p : Place)
    (hRest : Avoids tightSymbols rest) :
    ((Layers.within units (d + 6)).continuation lhs (⟨.ident x, p⟩ :: rest)).result =
      .ok (some (.pair (if lhs.isNumber || lhs.kind = .product then .product else .apply) lhs
        (.ident x p), rest)) := by
  obtain ⟨negated, hNegated⟩ := hLeft.isNegatedNumber_ok
  have hKind : juxtapositionKind units lhs (.ident x p) =
      .ok (some (if lhs.isNumber || lhs.kind = .product then .product else .apply)) := by
    rw [juxtapositionKind_eq units hNegated (isPowerOfNumber_of_kind_ne (by simp))]
    have hName : (Node.ident x p).isNumber = false := rfl
    simp [hName]
  have hPower : ((Layers.within units (d + 4)).power false (⟨.ident x, p⟩ :: rest)).result =
      .ok (.ident x p, rest) :=
    power_of_primary false (primary_ident x p (hRest.mono (by decide))) hRest
  have hAvoids : Avoids [.mul, .div, .mod] (⟨.ident x, p⟩ :: rest) :=
    Cursor.avoids_ident rest
  have hNone : Cursor.select? productOperators (⟨.ident x, p⟩ :: rest) = none :=
    Cursor.select?_of_avoids hAvoids (by decide)
  exact continuation_juxtaposed hNone (mixedFraction_rejects hLeft rfl)
    (juxtaposition_ok.mpr ⟨_, _, hPower, hKind, rfl⟩)

/-- A unit goes on from a number or a product. -/
theorem continuation_unit (hLeft : Derives units .multiplicative left lhs)
    (hLike : lhs.isNumber = true ∨ lhs.kind = .product) (x : String) (p : Place)
    (hRest : Avoids tightSymbols rest) :
    ((Layers.within units (d + 6)).continuation lhs (⟨.ident x, p⟩ :: rest)).result =
      .ok (some (.pair .product lhs (.ident x p), rest)) := by
  rw [continuation_name hLeft x p hRest, if_pos (by simpa using hLike)]

theorem avoids_units (names : List (String × Place)) (hRest : Avoids tightSymbols rest) :
    Avoids tightSymbols (unitTokens names ++ rest) := by
  cases names with
  | nil => exact hRest
  | cons u names => exact Cursor.avoids_ident _

/-- The loop over the factors of a product takes units one by one. -/
theorem runs_units (names : List (String × Place)) (hLeft : Derives units .multiplicative left lhs)
    (hProduct : lhs.kind = .product) (hRest : EndsComponent rest) :
    Runs (Layers.within units (d + 6)).continuation lhs (unitTokens names ++ rest)
      (measured lhs names) rest ∧ (measured lhs names).kind = .product := by
  induction names generalizing left lhs with
  | nil => exact ⟨.done (continuation_at_end hLeft hProduct hRest), hProduct⟩
  | cons u names ih =>
    have hTaken := continuation_unit (d := d) hLeft (Or.inr hProduct) u.1 u.2
      (avoids_units names hRest.avoids)
    obtain ⟨⟨_, hDerives⟩, hStep⟩ := runs_step hLeft hTaken (Nat.lt_succ_self _)
    obtain ⟨hRuns, hKind⟩ := ih hDerives rfl
    exact ⟨hStep hRuns, hKind⟩

/-- **A component is read as the product of its number with its units.** -/
theorem Component.reads (units : List String) (c : Component) (hRest : EndsComponent rest) :
    ((Layers.within units (d + 7)).multiplicative (c.tokens ++ rest)).result = .ok (c.node, rest) ∧
      c.node.kind = .product := by
  have hAfter : Avoids tightSymbols (unitTokens (c.first :: c.more) ++ rest) :=
    avoids_units (c.first :: c.more) hRest.avoids
  have hPower : ((Layers.within units (d + 6)).power true (c.tokens ++ rest)).result =
      .ok (.number c.amount c.place, unitTokens (c.first :: c.more) ++ rest) :=
    power_of_primary (d := d + 4) true (primary_number c.amount c.place) hAfter
  obtain ⟨used, -, hDerives⟩ := (within_sound units (d + 6)).power hPower
  have hNumber : Derives units .multiplicative used (.number c.amount c.place) :=
    .widen (by decide) hDerives
  have hTaken := continuation_unit (d := d) hNumber (Or.inl rfl) c.first.1 c.first.2
    (avoids_units c.more hRest.avoids)
  obtain ⟨⟨_, hProduct⟩, hStep⟩ := runs_step hNumber hTaken (Nat.lt_succ_self _)
  obtain ⟨hRuns, hKind⟩ := runs_units (d := d) c.more hProduct rfl hRest
  exact ⟨multiplicative_of_runs hPower (hStep hRuns), hKind⟩

-- ---------------------------------------------------------------------------
-- Sums of components
-- ---------------------------------------------------------------------------

/-- A component may stand behind another one. -/
theorem endsComponent_tokens (c : Component) (ts : List Token) : EndsComponent (c.tokens ++ ts) :=
  Or.inl ⟨c.amount, c.place, _, rfl, Cursor.avoids_ident _⟩

/-- What a sum of components makes of the tokens behind them: one more summand, or nothing. -/
inductive Ends (L : Layers) (rest : List Token) : List Node → List Token → Prop where
  | part {m : Node} {after : List Token} (h : (L.implicitSum rest).result = .ok (m, after))
      (hPart : isQuantityPart m = true) : Ends L rest [m] after
  | declined (h : Declined (L.implicitSum rest)) : Ends L rest [] rest

/-- **Components are read as a sum**, nested to the right, with what is made of the tokens behind them
as its last part. -/
theorem components_read (units : List String) (first : Component) (more : List Component)
    {last : List Node} {after : List Token} (hRest : EndsComponent rest)
    (hLast : Ends (Layers.within units (d + 7)) rest last after) :
    ((Layers.within units (more.length + d + 8)).implicitSum
        ((first :: more).flatMap Component.tokens ++ rest)).result =
      .ok (rightSum first.node (more.map Component.node ++ last), after) ∧
      isQuantityPart (rightSum first.node (more.map Component.node ++ last)) = true := by
  induction more generalizing first with
  | nil =>
    obtain ⟨hProduct, hKind⟩ := first.reads units (d := d) hRest
    rw [List.flatMap_singleton, List.length_nil, Nat.zero_add]
    cases hLast with
    | part h hPart =>
      exact ⟨implicitSum_ok.mpr (Or.inl ⟨first.node, _, _, hProduct, hKind, h, hPart, rfl⟩),
        by simp [rightSum, isQuantityPart]⟩
    | declined h =>
      exact ⟨implicitSum_ok.mpr (Or.inr ⟨hProduct, fun _ => h⟩),
        by simp [rightSum, isQuantityPart, hKind]⟩
  | cons c more ih =>
    obtain ⟨hMore, hPart⟩ := ih c
    rw [List.flatMap_cons, List.append_assoc] at hMore ⊢
    obtain ⟨hProduct, hKind⟩ :=
      first.reads units (d := more.length + d + 1) (endsComponent_tokens c _)
    rw [List.flatMap_cons, List.append_assoc, List.length_cons,
      show more.length + 1 + d + 8 = more.length + d + 1 + 7 + 1 by omega]
    exact ⟨implicitSum_ok.mpr (Or.inl ⟨first.node, _, _, hProduct, hKind, hMore, hPart, rfl⟩),
      by simp [rightSum, isQuantityPart]⟩

/-- **A quantity is read as the sum of its components**, nested to the right. -/
theorem Quantity.reads (units : List String) (q : Quantity) (hRest : Closes (followers .additive) rest) :
    ((Layers.within units (q.more.length + 9)).implicitSum (q.tokens ++ rest)).result =
      .ok (q.tree, rest) ∧ isQuantityPart q.tree = true := by
  obtain ⟨first, more, last⟩ := q
  have hTokens : Quantity.tokens ⟨first, more, last⟩ ++ rest =
      (first :: more).flatMap Component.tokens ++
        (last.toList.map (fun m => ⟨.number m.1, m.2⟩) ++ rest) := by
    simp [Quantity.tokens]
  rw [hTokens]
  cases last with
  | none =>
    exact components_read units first more (d := 1) (Or.inr (hRest.mono (by decide)))
      (.declined (Or.inl (implicitSum_rejects units 3 hRest)))
  | some m =>
    have hNumber : ((Layers.within units 7).implicitSum (⟨.number m.1, m.2⟩ :: rest)).result =
        .ok (.number m.1 m.2, rest) :=
      implicitSum_of_power (d := 0)
        (power_of_primary true (primary_number m.1 m.2) (hRest.avoids (by decide)))
        (hRest.mono (by decide))
    have hNumber := ((within_below units (by omega : 7 ≤ 8)).implicitSum _).ok hNumber
    exact components_read units first more (d := 1)
      (Or.inl ⟨m.1, m.2, rest, rfl, hRest.avoids (by decide)⟩) (.part hNumber rfl)

-- ---------------------------------------------------------------------------
-- Whole sequences of tokens
-- ---------------------------------------------------------------------------

/-- There are only numbers and names in a quantity. -/
theorem Quantity.mem_tokens {q : Quantity} {t : Token} (h : t ∈ q.tokens) :
    t.isBlank = false ∧ t.isFinish = false ∧ t.isSymbol .backslash = false := by
  have hComponent : ∀ {c : Component}, t ∈ c.tokens →
      t.isBlank = false ∧ t.isFinish = false ∧ t.isSymbol .backslash = false := by
    intro c hc
    rcases List.mem_cons.mp hc with rfl | hc
    · exact ⟨rfl, rfl, rfl⟩
    · obtain ⟨u, -, rfl⟩ := List.mem_map.mp hc
      exact ⟨rfl, rfl, rfl⟩
  rcases List.mem_append.mp h with hFirst | h
  · exact hComponent hFirst
  · rcases List.mem_append.mp h with hMore | hLast
    · obtain ⟨c, -, hc⟩ := List.mem_flatMap.mp hMore
      exact hComponent hc
    · obtain ⟨m, -, rfl⟩ := List.mem_map.mp hLast
      exact ⟨rfl, rfl, rfl⟩

theorem Quantity.plain (q : Quantity) : Plain q.tokens :=
  fun _ ht => ⟨(mem_tokens ht).1, (mem_tokens ht).2.1⟩

/-- A quantity as a phrase, read by the rule for functions. -/
def Quantity.phrase (q : Quantity) : Phrase :=
  ⟨q.tokens, q.tree, q.more.length + 11⟩

theorem Quantity.reads_function (q : Quantity) : q.phrase.Reads units Layers.function .function := by
  refine ⟨q.plain, fun rest hRest => ?_⟩
  have hEnd : Closes (followers .additive) rest := hRest.mono (by decide)
  have hSum := (q.reads units hEnd).1
  exact function_of_additive (additive_of_runs hSum (.done (sumStep_none q.tree hEnd))) hRest

theorem Quantity.parsed (q : Quantity) (depth : Nat) (units : List String) :
    (q.more.length + 14 ≤ depth → (parseWithin depth units q.tokens).result = .ok q.tree) ∧
      ((parseWithin depth units q.tokens).result = .ok q.tree ∨
        (parseWithin depth units q.tokens).result = .error (.error .tooDeep)) :=
  q.reads_function.assignment.isStatements.isExpression.parseWithin depth

/-- Blanks between tokens do not matter where none of these is a backslash. -/
theorem parseWithin_of_solid (depth : Nat) (units : List String) {ts tokens : List Token}
    (hPlain : ∀ t ∈ ts, t.isBlank = false ∧ t.isFinish = false ∧ t.isSymbol .backslash = false)
    (hTokens : solid (significant tokens) = ts) :
    (parseWithin depth units tokens).result = (parseWithin depth units ts).result := by
  have hSame : ∀ {us : List Token}, solid us = ts → squeeze false us = ts := by
    intro us hus
    rw [squeeze_eq_solid, hus]
    intro t ht
    cases hBlank : t.isBlank with
    | false =>
      have hSolid : t ∈ solid us := List.mem_filter.mpr ⟨ht, by simp [hBlank]⟩
      rw [hus] at hSolid
      exact (hPlain t hSolid).2.2
    | true =>
      obtain ⟨content, place⟩ := t
      cases content <;> first | rfl | cases hBlank
  have hSelf : solid (significant ts) = ts := by
    rw [significant_of_plain fun t ht => ⟨(hPlain t ht).1, (hPlain t ht).2.1⟩, solid,
      List.filter_eq_self]
    intro t ht
    simp [(hPlain t ht).1]
  exact parseWithin_of_squeeze_eq depth units ((hSame hTokens).trans (hSame hSelf).symm)

/-- Blanks in a quantity do not matter. -/
theorem Quantity.parseWithin_eq (q : Quantity) (depth : Nat) (units : List String) {tokens : List Token}
    (hTokens : solid (significant tokens) = q.tokens) :
    (parseWithin depth units tokens).result = (parseWithin depth units q.tokens).result :=
  parseWithin_of_solid depth units (fun _ => mem_tokens) hTokens

/-- **A compound quantity is parsed into the sum of its components**, nested to the right, with any
blanks between its tokens. Every component nests one rule more deeply, and a bound that is smaller can do
no more than to be exhausted. -/
theorem parseWithin_quantity (depth : Nat) (units : List String) (q : Quantity) {tokens : List Token}
    (hTokens : solid (significant tokens) = q.tokens) :
    (q.more.length + 14 ≤ depth → (parseWithin depth units tokens).result = .ok q.tree) ∧
      ((parseWithin depth units tokens).result = .ok q.tree ∨
        (parseWithin depth units tokens).result = .error (.error .tooDeep)) := by
  rw [q.parseWithin_eq depth units hTokens]
  exact q.parsed depth units

/-- `6 feet 1 square inch 3`, with blanks. -/
theorem feet_and_inches_parsed :
    let q : Quantity :=
      { first := ⟨.fraction 6, ⟨1, 1⟩, ("feet", ⟨1, 3⟩), []⟩
        more := [⟨.fraction 1, ⟨1, 8⟩, ("square", ⟨1, 10⟩), [("inch", ⟨1, 17⟩)]⟩]
        last := some (.fraction 3, ⟨1, 22⟩) }
    let tokens : List Token :=
      [⟨.number (.fraction 6), ⟨1, 1⟩⟩, ⟨.blank " ", ⟨1, 2⟩⟩, ⟨.ident "feet", ⟨1, 3⟩⟩,
       ⟨.blank " ", ⟨1, 7⟩⟩, ⟨.number (.fraction 1), ⟨1, 8⟩⟩, ⟨.ident "square", ⟨1, 10⟩⟩,
       ⟨.ident "inch", ⟨1, 17⟩⟩, ⟨.number (.fraction 3), ⟨1, 22⟩⟩, ⟨.blank " ", ⟨1, 23⟩⟩]
    solid (significant tokens) = q.tokens ∧ q.more.length + 14 ≤ maxNesting ∧
      (parse [] tokens).result = .ok
        (.binary .implicitPlus
          (.pair .product (.number (.fraction 6) ⟨1, 1⟩) (.ident "feet" ⟨1, 3⟩))
          (.binary .implicitPlus
            (.pair .product
              (.pair .product (.number (.fraction 1) ⟨1, 8⟩) (.ident "square" ⟨1, 10⟩))
              (.ident "inch" ⟨1, 17⟩))
            (.number (.fraction 3) ⟨1, 22⟩))) := by
  intro q tokens
  have hTokens : solid (significant tokens) = q.tokens := rfl
  have hBound : q.more.length + 14 ≤ maxNesting := by decide
  exact ⟨hTokens, hBound, (parseWithin_quantity maxNesting [] q hTokens).1 hBound⟩

-- ---------------------------------------------------------------------------
-- More components than the nesting allows
-- ---------------------------------------------------------------------------

/-- No quantity is read that has more components than the nesting allows. -/
theorem Quantity.not_reads (q : Quantity) (hd : d ≤ q.more.length) (x : Node × List Token) :
    ((Layers.within units d).implicitSum q.tokens).result ≠ .ok x := by
  obtain ⟨first, more, last⟩ := q
  induction more generalizing first d x with
  | nil =>
    obtain rfl : d = 0 := Nat.le_zero.mp hd
    exact fun h => nomatch h
  | cons c more ih =>
    intro h
    obtain _ | d := d
    · cases h
    obtain ⟨n, mid⟩ := x
    have hd : d ≤ more.length := Nat.le_of_succ_le_succ hd
    have hEnd : Closes (followers .additive) [] := Cursor.closes_nil _
    have hTokens : Quantity.tokens ⟨first, c :: more, last⟩ =
        first.tokens ++ Quantity.tokens ⟨c, more, last⟩ := by
      simp [Quantity.tokens]
    have hEnds : EndsComponent (Quantity.tokens ⟨c, more, last⟩) := endsComponent_tokens c _
    -- every bound reads the same product first
    have hFirst : ∀ {l mid}, ((Layers.within units d).multiplicative
        (Quantity.tokens ⟨first, c :: more, last⟩)).result = .ok (l, mid) →
        l = first.node ∧ mid = Quantity.tokens ⟨c, more, last⟩ := by
      intro l mid hRead
      have hRead := ((within_below units (by omega : d ≤ more.length + 9)).multiplicative _).ok hRead
      rw [hTokens, (first.reads units (d := more.length + 2) hEnds).1] at hRead
      obtain ⟨rfl, rfl⟩ := Prod.mk.inj (Except.ok.inj hRead)
      exact ⟨rfl, rfl⟩
    rcases implicitSum_ok.mp h with ⟨l, mid, m, hRead, -, hMore, -, -⟩ | ⟨hRead, hDeclined⟩
    · obtain ⟨-, rfl⟩ := hFirst hRead
      exact ih _ c hd hMore
    · obtain ⟨rfl, rfl⟩ := hFirst hRead
      rcases hDeclined (first.reads units (d := 0) hEnds).2 with ⟨e, he⟩ | ⟨m, after, hMore, -⟩
      · -- a larger bound reads what is behind the component
        have hError := ((within_below units (by omega : d ≤ more.length + 9)).implicitSum _).error he
        have hMore := (Quantity.reads units ⟨c, more, last⟩ hEnd).1
        rw [List.append_nil, hError] at hMore
        cases hMore
      · exact ih _ c hd hMore

/-- **A quantity of more components than the nesting allows is reported as too deep.** -/
theorem Quantity.exhausts (q : Quantity) (depth : Nat) (units : List String)
    (hDepth : depth ≤ q.more.length + 5) :
    (parseWithin depth units q.tokens).result = .error (.error .tooDeep) := by
  refine (q.parsed depth units).2.resolve_left fun hParsed => ?_
  obtain ⟨rest, hRead, -⟩ := parseWithin_ok.mp hParsed
  rw [significant_of_plain q.plain] at hRead
  obtain ⟨d, rfl, hRead⟩ := expression_deep hRead
  obtain ⟨_, _, hStatement, -⟩ := (statements_of_canBegin (by rfl)).mp hRead
  -- the rules above begin with a summand
  obtain _ | d := d
  · cases hStatement
  obtain ⟨_, _, hFunction, -⟩ := assignment_ok.mp hStatement
  obtain _ | d := d
  · cases hFunction
  obtain ⟨_, _, hSum, -⟩ := function_ok.mp hFunction
  obtain _ | d := d
  · cases hSum
  obtain ⟨x, hSummand, -⟩ := Attempt.bind_ok.mp hSum
  exact q.not_reads (by omega) x hSummand

/-- A thousand components and one more, `1 a 1 a` and so on, are too many. -/
theorem thousand_components_too_deep :
    let c : Component := ⟨.fraction 1, .unknown, ("a", .unknown), []⟩
    let q : Quantity := ⟨c, List.replicate 1000 c, none⟩
    (parse [] q.tokens).result = .error (.error .tooDeep) ∧ (parse [] q.tokens).result ≠ .ok q.tree := by
  intro c q
  have hDepth : maxNesting ≤ q.more.length + 5 := by
    rw [List.length_replicate]
    decide
  have hDeep : (parse [] q.tokens).result = .error (.error .tooDeep) := q.exhausts maxNesting [] hDepth
  refine ⟨hDeep, ?_⟩
  rw [hDeep]
  exact fun h => nomatch h

end Grammar

end Reckoner
