import Reckoner.Proofs.Grammar.Phrases

/-!
# Products as phrases

An operand that needs no parentheses around it need not be a primary expression: a name and some
arguments in parentheses behind it are a product already. What such an operand makes depends on the
loop that reads products, so a product is good when that loop comes by its node. Products may stand
on the left of everything that is read by the loop, and on both sides of a sum.

## Results

* `IsPrimary.isProduct` — a primary expression is a product.
* `IsProduct.applied`   — a product and an argument in parentheses are a product.
* `IsProduct.single`, `IsProduct.juxtaposed`, `IsProduct.product`, `IsProduct.sum` — one operation on
  products is read back.
-/

namespace Reckoner

namespace Grammar

namespace Phrase

open Cursor (Avoids Closes)

variable {units : List String} {ph l r : Phrase} {d : Nat} {rest : List Token}

-- ---------------------------------------------------------------------------
-- Products
-- ---------------------------------------------------------------------------

/-- A product: the loop that reads it comes by the node of the phrase, whatever it does then. The
node is neither an operation nor a product of juxtaposition, so only a number is taken for one. -/
structure IsProduct (units : List String) (ph : Phrase) : Prop where
  plain : Plain ph.used
  derives : ∃ used, Derives units .multiplicative used ph.node
  kind : ph.node.kind ≠ .product ∧ ph.node.kind ≠ .binary ∧ ph.node.kind ≠ .negation
  runs : ∀ {d rest m final}, ph.nesting ≤ d → Avoids tightSymbols rest →
    Runs (Layers.within units d).continuation ph.node rest m final →
    ∃ n mid, ((Layers.within units d).power true (ph.used ++ rest)).result = .ok (n, mid) ∧
      Runs (Layers.within units d).continuation n mid m final

theorem IsPrimary.kind_ne (h : ph.IsPrimary units) :
    ph.node.kind ≠ .product ∧ ph.node.kind ≠ .binary ∧ ph.node.kind ≠ .negation := by
  have hKind := h.kind
  refine ⟨?_, ?_, ?_⟩ <;>
    · intro hk
      simp [hk] at hKind

/-- A primary expression is a power. -/
theorem IsPrimary.derives_power (h : ph.IsPrimary units) (allowed : Bool) :
    ∃ used, Derives units (if allowed then .power else .plainPower) used ph.node := by
  have hRead := h.reads [] (fun _ ht => by cases ht)
  have hPower := power_of_primary allowed hRead (fun _ ht => by cases ht)
  obtain ⟨used, -, hDerives⟩ := (within_sound units (ph.nesting + 2)).power hPower
  exact ⟨used, hDerives⟩

/-- **A primary expression is a product.** -/
theorem IsPrimary.isProduct (h : ph.IsPrimary units) : ph.above.above.IsProduct units := by
  obtain ⟨used, hDerives⟩ := h.derives_power true
  refine ⟨h.plain, ⟨used, .widen (by decide) hDerives⟩, h.kind_ne, ?_⟩
  intro d rest m final hd hRest hRuns
  have hPrimary := h.reads rest (hRest.mono (by decide))
  have hPower := power_of_primary true hPrimary hRest
  exact ⟨ph.node, rest, ((within_below units hd).power _ _).ok hPower, hRuns⟩

-- ---------------------------------------------------------------------------
-- Juxtaposition
-- ---------------------------------------------------------------------------

/-- A product and a primary expression may be juxtaposed unless both are numbers, and it is something
applied if the product is no number and the primary expression is none either. -/
theorem IsProduct.juxtapositionKind (hl : l.IsProduct units) (hr : r.IsPrimary units)
    (hOne : l.node.isNumber = false ∨ r.node.isNumber = false) :
    ∃ k, juxtapositionKind units l.node r.node = .ok (some k) ∧
      (l.node.isNumber = false → r.node.isNumber = false → k = .apply) := by
  obtain ⟨hProduct, -, hNegation⟩ := hl.kind
  obtain ⟨-, hBinary, -⟩ := hr.kind_ne
  have hEq := juxtapositionKind_eq units (Node.isNegatedNumber_of_kind_ne hNegation)
    (isPowerOfNumber_of_kind_ne hBinary)
  by_cases hNumber : r.node.isNumber = true
  · have hLeft : l.node.isNumber = false := hOne.resolve_right (by simp [hNumber])
    refine ⟨if isPrefixUnit units l.node then .apply else .call, ?_, ?_⟩
    · rw [hEq]
      simp [hLeft, hProduct, hNumber]
    · intro _ hRight
      rw [hNumber] at hRight
      cases hRight
  · rw [Bool.not_eq_true] at hNumber
    refine ⟨if l.node.isNumber then .product else .apply, ?_, ?_⟩
    · rw [hEq]
      simp [hProduct, hNumber]
    · intro hLeft _
      rw [hLeft]
      rfl

/-- A primary expression goes on from a product by juxtaposition. -/
theorem IsProduct.continuation {k : Kind} (hl : l.IsProduct units) (hr : r.IsPrimary units)
    (hOne : l.node.isNumber = false ∨ r.node.isNumber = false)
    (hk : Grammar.juxtapositionKind units l.node r.node = .ok (some k)) (hd : r.nesting + 2 ≤ d)
    (hRest : Avoids tightSymbols rest) :
    ((Layers.within units (d + 2)).continuation l.node (r.used ++ rest)).result =
      .ok (some (.pair k l.node r.node, rest)) := by
  have hEnd : Avoids [.of] rest := hRest.mono (by decide)
  have hRight := hr.reads rest hEnd
  have hNone : Cursor.select? productOperators (r.used ++ rest) = none :=
    Cursor.select?_of_avoids (hr.avoids hEnd).2 (by decide)
  have hMixed : ∃ e, ((Layers.within units (d + 1)).mixedFraction l.node (r.used ++ rest)).result =
      .error (.error e) := by
    by_cases hNumber : l.node.isNumber = true
    · have hNumber : r.node.isNumber = false := hOne.resolve_left (by simp [hNumber])
      obtain ⟨used, hDerives⟩ := hl.derives
      exact mixedFraction_rejects hDerives (peek?_of_primary hRight hNumber)
    · obtain ⟨-, hBinary, hNegation⟩ := hl.kind
      exact mixedFraction_rejects_whole hBinary (by simpa using hNumber)
        (Node.isNegatedNumber_of_kind_ne hNegation)
  have hPower := ((within_below units hd).power _ _).ok (power_of_primary false hRight hRest)
  exact continuation_juxtaposed hNone hMixed (juxtaposition_ok.mpr ⟨k, r.node, hPower, hk, rfl⟩)

theorem IsPrimary.shortens (h : ph.IsPrimary units) (rest : List Token) :
    rest.length < (ph.used ++ rest).length := by
  have hEnd : Avoids [.of] [] := fun _ ht => by cases ht
  have hPos := List.length_pos_iff.mpr (h.avoids hEnd).1
  rw [List.length_append]
  omega

/-- A product and its argument. -/
def applied (l r : Phrase) : Phrase :=
  ⟨l.used ++ r.used, .pair .apply l.node r.node, max l.nesting (r.nesting + 4)⟩

/-- **A product that is applied is a product.** -/
theorem IsProduct.applied (hl : l.IsProduct units) (hr : r.IsPrimary units)
    (hLeft : l.node.isNumber = false) (hRight : r.node.isNumber = false) :
    (l.applied r).IsProduct units := by
  obtain ⟨k, hk, hApply⟩ := hl.juxtapositionKind hr (Or.inl hLeft)
  obtain rfl := hApply hLeft hRight
  obtain ⟨used, hDerives⟩ := hl.derives
  obtain ⟨used', hDerives'⟩ := hr.derives_power false
  refine ⟨plain_append.mpr ⟨hl.plain, hr.plain⟩, ⟨_, .juxtaposed hDerives hDerives' hk⟩, ?_, ?_⟩
  · exact ⟨nofun, nofun, nofun⟩
  · intro d rest m final hd hRest hRuns
    obtain ⟨hd, hd'⟩ : l.nesting ≤ d ∧ r.nesting + 4 ≤ d := Nat.max_le.mp hd
    obtain ⟨d, rfl⟩ : ∃ k, d = k + 2 := ⟨d - 2, by omega⟩
    have hTaken := hl.continuation hr (Or.inl hLeft) hk (by omega : r.nesting + 2 ≤ d) hRest
    have hAvoids := (hr.avoids (hRest.mono (by decide))).2
    have hTokens : (l.applied r).used ++ rest = l.used ++ (r.used ++ rest) := List.append_assoc _ _ _
    rw [hTokens]
    exact hl.runs hd (hAvoids.mono (by decide)) (.more hTaken (hr.shortens rest) hRuns)

-- ---------------------------------------------------------------------------
-- One operation on products
-- ---------------------------------------------------------------------------

/-- A product on its own is read by the rule for products. -/
theorem IsProduct.reads_multiplicative (h : ph.IsProduct units) (hd : ph.nesting ≤ d + 5)
    (hRest : Closes (followers .multiplicative) rest) :
    ((Layers.within units (d + 6)).multiplicative (ph.used ++ rest)).result =
      .ok (ph.node, rest) := by
  obtain ⟨used, hDerives⟩ := h.derives
  have hStop := continuation_none (d := d) hDerives hRest
  obtain ⟨n, mid, hPower, hRuns⟩ := h.runs hd (hRest.avoids (by decide)) (.done hStop)
  exact multiplicative_of_runs hPower hRuns

theorem IsProduct.reads_implicitSum (h : ph.IsProduct units) (hd : ph.nesting ≤ d + 5)
    (hRest : Closes (followers .multiplicative) rest) :
    ((Layers.within units (d + 7)).implicitSum (ph.used ++ rest)).result = .ok (ph.node, rest) :=
  implicitSum_of_multiplicative (h.reads_multiplicative hd hRest) h.kind.1

/-- What is read as a summand is read as a function where nothing goes on. -/
theorem function_of_implicitSum {k : Nat} {ts : List Token} {n : Node}
    (h : ∀ d, k ≤ d + 5 → ((Layers.within units (d + 7)).implicitSum ts).result = .ok (n, rest))
    (hRest : Closes (followers .function) rest) :
    ((Layers.within units (aboveProducts k)).function ts).result = .ok (n, rest) := by
  obtain ⟨d, hd⟩ : ∃ d, max k 4 = d + 4 := ⟨max k 4 - 4, by omega⟩
  have hSum := h d (by omega)
  have hStop := sumStep_none (L := Layers.within units (d + 7)) n (hRest.mono (by decide))
  rw [aboveProducts, hd]
  exact function_of_additive (additive_of_runs hSum (.done hStop)) hRest

def alone (ph : Phrase) : Phrase :=
  { ph with nesting := aboveProducts ph.nesting }

theorem IsProduct.single (h : ph.IsProduct units) :
    ph.alone.Reads units Layers.function .function := by
  refine ⟨h.plain, fun rest hRest => ?_⟩
  exact function_of_implicitSum (fun d hd => h.reads_implicitSum hd (hRest.mono (by decide))) hRest

def joined (k : Kind) (l r : Phrase) : Phrase :=
  ⟨l.used ++ r.used, .pair k l.node r.node, aboveProducts (max l.nesting (r.nesting + 4))⟩

/-- **A juxtaposition of a product with a primary expression is read back.** -/
theorem IsProduct.juxtaposed {k : Kind} (hl : l.IsProduct units) (hr : r.IsPrimary units)
    (hOne : l.node.isNumber = false ∨ r.node.isNumber = false)
    (hk : Grammar.juxtapositionKind units l.node r.node = .ok (some k)) :
    (l.joined k r).Reads units Layers.function .function := by
  obtain ⟨used, hDerives⟩ := hl.derives
  obtain ⟨used', hDerives'⟩ := hr.derives_power false
  refine ⟨plain_append.mpr ⟨hl.plain, hr.plain⟩, fun rest hRest => ?_⟩
  refine function_of_implicitSum (fun d hd => ?_) hRest
  obtain ⟨hd, hd'⟩ : l.nesting ≤ d + 5 ∧ r.nesting + 4 ≤ d + 5 := Nat.max_le.mp hd
  have hAvoids := (hr.avoids (hRest.avoids (by decide))).2
  have hTaken := hl.continuation hr hOne hk (by omega : r.nesting + 2 ≤ d + 3)
    (hRest.avoids (by decide))
  have hStop : ((Layers.within units (d + 5)).continuation (.pair k l.node r.node) rest).result =
      .ok none := continuation_none (.juxtaposed hDerives hDerives' hk) (hRest.mono (by decide))
  obtain ⟨n, mid, hPower, hRuns⟩ := hl.runs hd (hAvoids.mono (by decide))
    (.more hTaken (hr.shortens rest) (.done hStop))
  have hProduct := multiplicative_of_runs hPower hRuns
  rw [joined, List.append_assoc]
  exact implicitSum_of_product (d := d + 1) hProduct (hRest.mono (by decide))

def times (op : Operator) (y : Symbol) (p : Place) (l r : Phrase) : Phrase :=
  ⟨l.used ++ ⟨.symbol y, p⟩ :: r.used, .binary op l.node r.node,
    aboveProducts (max l.nesting (r.nesting + 3))⟩

/-- **A product by a primary expression is read back.** -/
theorem IsProduct.product {y : Symbol} {op : Operator} (hy : (y, op) ∈ productOperators) (p : Place)
    (hl : l.IsProduct units) (hr : r.IsPrimary units) :
    (times op y p l r).Reads units Layers.function .function := by
  obtain ⟨used, hDerives⟩ := hl.derives
  obtain ⟨used', hDerives'⟩ := hr.derives_power true
  refine ⟨?_, fun rest hRest => ?_⟩
  · simpa [times, Token.isBlank, Token.isFinish] using And.intro hl.plain hr.plain
  refine function_of_implicitSum (fun d hd => ?_) hRest
  obtain ⟨hd, hd'⟩ : l.nesting ≤ d + 5 ∧ r.nesting + 3 ≤ d + 5 := Nat.max_le.mp hd
  have hSymbol : Closes [.mul, .div, .mod] (⟨.symbol y, p⟩ :: (r.used ++ rest)) := by
    refine Cursor.closes_cons ?_ _ _
    rcases productOperators_cases hy with ⟨rfl, -⟩ | ⟨rfl, -⟩ | ⟨rfl, -⟩ <;> decide
  have hRight := power_of_primary true (hr.reads rest (hRest.avoids (by decide)))
    (hRest.avoids (by decide))
  have hRight := ((within_below units (by omega : r.nesting + 2 ≤ d + 4)).power _ _).ok hRight
  have hTaken : ((Layers.within units (d + 5)).continuation l.node
      (⟨.symbol y, p⟩ :: (r.used ++ rest))).result = .ok (some (.binary op l.node r.node, rest)) :=
    continuation_operator hy l.node p hRight
  have hStop : ((Layers.within units (d + 5)).continuation (.binary op l.node r.node) rest).result =
      .ok none := continuation_none (.product p hy hDerives hDerives') (hRest.mono (by decide))
  have hLess : rest.length < (⟨.symbol y, p⟩ :: (r.used ++ rest) : List Token).length := by
    rw [List.length_cons, List.length_append]
    omega
  obtain ⟨n, mid, hPower, hRuns⟩ := hl.runs hd (hSymbol.avoids (by decide))
    (.more hTaken hLess (.done hStop))
  have hProduct : ((Layers.within units (d + 6)).multiplicative _).result = _ :=
    multiplicative_of_runs hPower hRuns
  have hTokens : (times op y p l r).used ++ rest =
      l.used ++ ⟨.symbol y, p⟩ :: (r.used ++ rest) := by
    simp [times]
  rw [hTokens]
  exact implicitSum_of_multiplicative hProduct (Kind.noConfusion : Kind.binary ≠ .product)

def plus (build : Node → Node → Node) (y : Symbol) (p : Place) (l r : Phrase) : Phrase :=
  ⟨l.used ++ ⟨.symbol y, p⟩ :: r.used, build l.node r.node, aboveProducts (max l.nesting r.nesting)⟩

/-- **A sum of two products is read back.** -/
theorem IsProduct.sum {y : Symbol} {build : Node → Node → Node} (hy : (y, build) ∈ sumOperators)
    (p : Place) (hl : l.IsProduct units) (hr : r.IsProduct units) :
    (plus build y p l r).Reads units Layers.function .function := by
  refine ⟨?_, fun rest hRest => ?_⟩
  · simpa [plus, Token.isBlank, Token.isFinish] using And.intro hl.plain hr.plain
  obtain ⟨d, hd⟩ : ∃ d, max (max l.nesting r.nesting) 4 = d + 4 :=
    ⟨max (max l.nesting r.nesting) 4 - 4, by omega⟩
  have hSymbol : Closes (followers .multiplicative) (⟨.symbol y, p⟩ :: (r.used ++ rest)) := by
    refine Cursor.closes_cons ?_ _ _
    rcases sumOperators_cases hy with ⟨rfl, -⟩ | ⟨rfl, -⟩ | ⟨rfl, -⟩ <;> decide
  have hLeft := hl.reads_implicitSum (by omega : l.nesting ≤ d + 5) hSymbol
  have hRight := hr.reads_implicitSum (by omega : r.nesting ≤ d + 5) (hRest.mono (by decide))
  have hStep := sumStep_operator hy l.node p hRight
  have hStop := sumStep_none (L := Layers.within units (d + 7)) (build l.node r.node)
    (hRest.mono (by decide))
  have hLess : rest.length < (⟨.symbol y, p⟩ :: (r.used ++ rest) : List Token).length := by
    rw [List.length_cons, List.length_append]
    omega
  have hTokens : (plus build y p l r).used ++ rest =
      l.used ++ ⟨.symbol y, p⟩ :: (r.used ++ rest) := by
    simp [plus]
  rw [hTokens]
  show ((Layers.within units (aboveProducts (max l.nesting r.nesting))).function _).result = _
  rw [aboveProducts, hd]
  exact function_of_additive (additive_of_runs hLeft (.more hStep hLess (.done hStop))) hRest

end Phrase

end Grammar

end Reckoner
