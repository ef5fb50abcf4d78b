import Reckoner.Proofs.Grammar.Soundness

/-!
# The language of trees

What trees the grammar builds, with no tokens in sight. `Generated units s n` holds when `n` is a tree
of stratum `s`; the strata are those of the derivations, and whoever evaluates a tree may rely on
them. In the notation of a grammar, from the tightest stratum to the loosest:

* `primary`: `number | string | unit | identifier | member(name, primary) | parens(statements) |
  function(name, function)`
* `factorial`: `primary | factorial(factorial)`
* `plainPower`: `factorial | pow(factorial, power)`
* `power`: `plainPower | negation(power) | positive(power) | reciprocal(power)`
* `mixedFraction`: `plus(number, div(number, number)) | minus(negation(number), div(number, number))`
* `multiplicative`: `power | mixedFraction | mul(multiplicative, power or mixedFraction) |
  div(multiplicative, power) | mod(multiplicative, power) | juxtaposition(multiplicative, plainPower)`
* `implicitSum`: `multiplicative | implicitPlus(product, product or number or implicitPlus)`
* `additive`: `implicitSum | plus, minus or conversion(additive, implicitSum)`
* `function`: `additive | function(name, function)`
* `assignment`: `function | assignment(name, assignment)`
* `sequence`, `statements`: `assignment | statements(statements, assignment)`

Which kind of node a juxtaposition is, and which sides it may have, is said by `Juxtaposes`.

## Results

* `Juxtaposes.of_kind`    — juxtaposition keeps to its table.
* `Derives.generated`     — whatever has a derivation is in the language.
* `parseWithin_generated` — every tree that is parsed is in the language.
-/

namespace Reckoner

namespace Grammar

-- ---------------------------------------------------------------------------
-- Juxtaposition
-- ---------------------------------------------------------------------------

/-- The kind of node that two sides make when they are juxtaposed. -/
inductive Juxtaposes (units : List String) (l r : Node) : Kind → Prop where
  | product (hl : l.isNumber = true ∨ l.kind = .product) (hr : r.isNumber = false)
      (hPower : isPowerOfNumber r = .ok false) : Juxtaposes units l r .product
  | call (hl : l.isNumber = false) (hNegated : l.isNegatedNumber = .ok false)
      (hProduct : l.kind ≠ .product) (hUnit : isPrefixUnit units l = false)
      (hr : r.isNumber = true) : Juxtaposes units l r .call
  | prefixUnit (hUnit : isPrefixUnit units l = true) (hr : r.isNumber = true) :
      Juxtaposes units l r .apply
  | apply (hl : l.isNumber = false) (hProduct : l.kind ≠ .product) (hr : r.isNumber = false)
      (h : l.isNegatedNumber = .ok false ∨ isPowerOfNumber r = .ok false) :
      Juxtaposes units l r .apply

variable {units : List String}

theorem Juxtaposes.of_kind {l r : Node} {k : Kind}
    (h : juxtapositionKind units l r = .ok (some k)) : Juxtaposes units l r k := by
  obtain ⟨negated, power, hNegated, hPower⟩ := juxtapositionKind_ok h
  rw [juxtapositionKind_eq units hNegated hPower] at h
  by_cases hReserved : (l.isNumber || negated || l.kind = .product) && (r.isNumber || power)
  · simp [hReserved] at h
  · rw [if_neg hReserved] at h
    by_cases hr : r.isNumber = true
    · rw [if_pos hr] at h
      obtain ⟨⟨hl, rfl⟩, hProduct⟩ : (l.isNumber = false ∧ negated = false) ∧ l.kind ≠ .product := by
        simpa [hr] using hReserved
      by_cases hUnit : isPrefixUnit units l = true
      · obtain rfl : Kind.apply = k := by simpa [hUnit] using h
        exact .prefixUnit hUnit hr
      · obtain rfl : Kind.call = k := by simpa [hUnit] using h
        exact .call hl hNegated hProduct (by simpa using hUnit) hr
    · have hr : r.isNumber = false := by simpa using hr
      by_cases hl : l.isNumber = true ∨ l.kind = .product
      · obtain rfl : Kind.product = k := by simpa [hr, hl] using h
        obtain rfl : power = false := by
          have hLike : (l.isNumber || negated || l.kind = .product) = true := by grind
          simpa [hLike, hr] using hReserved
        exact .product hl hr hPower
      · obtain rfl : Kind.apply = k := by simpa [hr, hl] using h
        obtain ⟨hNumber, hProduct⟩ : l.isNumber = false ∧ l.kind ≠ .product := by simpa using hl
        refine .apply hNumber hProduct hr ?_
        cases negated with
        | false => exact Or.inl hNegated
        | true =>
          obtain rfl : power = false := by simpa [hr] using hReserved
          exact Or.inr hPower

-- ---------------------------------------------------------------------------
-- Trees
-- ---------------------------------------------------------------------------

/-- The trees of each stratum. -/
inductive Generated (units : List String) : Stratum → Node → Prop where
  | widen {s s' : Stratum} {n : Node} (hs : (s, s') ∈ inclusions) (h : Generated units s n) :
      Generated units s' n
  | number (v : Payload) (p : Place) : Generated units .primary (.number v p)
  | string (x : String) (p : Place) : Generated units .primary (.string x p)
  | unit (p : Place) : Generated units .primary (.unit p)
  | ident (x : String) (p : Place) : Generated units .primary (.ident x p)
  | member {n : Node} (x : String) (p : Place) (h : Generated units .primary n) :
      Generated units .primary (.named .member (.text x) n p)
  | parens {n : Node} (p : Place) (h : Generated units .statements n) :
      Generated units .primary (.wrap .parens n p)
  | lambda {n : Node} (x : String) (p : Place) (h : Generated units .function n) :
      Generated units .primary (.named .function (.text x) n p)
  | factorial {n : Node} (p : Place) (h : Generated units .factorial n) :
      Generated units .factorial (.wrap .factorial n p)
  | pow {n m : Node} (h : Generated units .factorial n) (h' : Generated units .power m) :
      Generated units .plainPower (.binary .pow n m)
  | negation {n : Node} (p : Place) (h : Generated units .power n) :
      Generated units .power (.wrap .negation n p)
  | positive {n : Node} (p : Place) (h : Generated units .power n) :
      Generated units .power (.wrap .positive n p)
  | reciprocal {n : Node} (p : Place) (h : Generated units .power n) :
      Generated units .power (.wrap .reciprocal n p)
  | mixedPlus (v w u : Payload) (p q r : Place) :
      Generated units .mixedFraction
        (.binary .plus (.number v p) (.binary .div (.number w q) (.number u r)))
  | mixedMinus (v w u : Payload) (o p q r : Place) :
      Generated units .mixedFraction
        (.binary .minus (.wrap .negation (.number v p) o)
          (.binary .div (.number w q) (.number u r)))
  | mul {n m : Node} (h : Generated units .multiplicative n) (h' : Generated units .power m) :
      Generated units .multiplicative (.binary .mul n m)
  | mulMixed {n m : Node} (h : Generated units .multiplicative n)
      (h' : Generated units .mixedFraction m) : Generated units .multiplicative (.binary .mul n m)
  | div {n m : Node} (h : Generated units .multiplicative n) (h' : Generated units .power m) :
      Generated units .multiplicative (.binary .div n m)
  | mod {n m : Node} (h : Generated units .multiplicative n) (h' : Generated units .power m) :
      Generated units .multiplicative (.binary .mod n m)
  | juxtaposed {n m : Node} {k : Kind} (hk : Juxtaposes units n m k)
      (h : Generated units .multiplicative n) (h' : Generated units .plainPower m) :
      Generated units .multiplicative (.pair k n m)
  | compound {n m : Node} (h : Generated units .multiplicative n) (hn : n.kind = .product)
      (h' : Generated units .implicitSum m) (hm : IsQuantityTail m) :
      Generated units .implicitSum (.binary .implicitPlus n m)
  | plus {n m : Node} (h : Generated units .additive n) (h' : Generated units .implicitSum m) :
      Generated units .additive (.binary .plus n m)
  | minus {n m : Node} (h : Generated units .additive n) (h' : Generated units .implicitSum m) :
      Generated units .additive (.binary .minus n m)
  | conversion {n m : Node} (h : Generated units .additive n)
      (h' : Generated units .implicitSum m) : Generated units .additive (.pair .conversion n m)
  | function {n : Node} (x : String) (p : Place) (h : Generated units .function n) :
      Generated units .function (.named .function (.text x) n p)
  | assignment {n : Node} (x : String) (p : Place) (h : Generated units .assignment n) :
      Generated units .assignment (.named .assignment (.text x) n p)
  | statements {n m : Node} (h : Generated units .sequence n) (h' : Generated units .assignment m) :
      Generated units .sequence (.pair .statements n m)

namespace Generated

theorem prefixed {n : Node} {y : Symbol} {k : Kind} (hy : (y, k) ∈ prefixes) (p : Place)
    (h : Generated units .power n) : Generated units .power (.wrap k n p) := by
  rcases prefixes_kind hy with rfl | rfl | rfl
  · exact .negation p h
  · exact .positive p h
  · exact .reciprocal p h

theorem product {n m : Node} {y : Symbol} {op : Operator} (hy : (y, op) ∈ productOperators)
    (h : Generated units .multiplicative n) (h' : Generated units .power m) :
    Generated units .multiplicative (.binary op n m) := by
  rcases productOperators_cases hy with ⟨-, rfl⟩ | ⟨-, rfl⟩ | ⟨-, rfl⟩
  · exact .mul h h'
  · exact .div h h'
  · exact .mod h h'

theorem sum {n m : Node} {y : Symbol} {build : Node → Node → Node}
    (hy : (y, build) ∈ sumOperators) (h : Generated units .additive n)
    (h' : Generated units .implicitSum m) : Generated units .additive (build n m) := by
  rcases sumOperators_cases hy with ⟨-, rfl⟩ | ⟨-, rfl⟩ | ⟨-, rfl⟩
  · exact .plus h h'
  · exact .minus h h'
  · exact .conversion h h'

/-- The empty value is a list of statements, whether it was written or not. -/
theorem nothing : Generated units .statements (.unit .unknown) := by
  refine .widen (s := .sequence) (by decide) (.widen (s := .assignment) (by decide) ?_)
  refine .widen (s := .function) (by decide) (.widen (s := .additive) (by decide) ?_)
  refine .widen (s := .implicitSum) (by decide) (.widen (s := .multiplicative) (by decide) ?_)
  refine .widen (s := .power) (by decide) (.widen (s := .plainPower) (by decide) ?_)
  exact .widen (s := .factorial) (by decide) (.widen (by decide) (.unit .unknown))

end Generated

/-- **Whatever has a derivation is in the language of its stratum.** -/
theorem Derives.generated {s : Stratum} {used : List Token} {n : Node}
    (h : Derives units s used n) : Generated units s n := by
  induction h with
  | widen hs _ ih => exact .widen hs ih
  | number v p => exact .number v p
  | string x p => exact .string x p
  | ident x p => exact .ident x p
  | unit p q => exact .unit p
  | member x p q _ ih => exact .member x p ih
  | parens p q _ ih => exact .parens p ih
  | unclosed p _ ih => exact .parens p ih
  | lambda x p q r _ ih => exact .lambda x p ih
  | factorial p _ ih => exact .factorial .unknown ih
  | pow p _ _ ih ih' => exact .pow ih ih'
  | prefixed p hy _ ih => exact .prefixed hy p ih
  | mixedPlus v w u p q r t => exact .mixedPlus v w u p q t
  | mixedMinus v w u o p q r t => exact .mixedMinus v w u o p q t
  | product p hy _ _ ih ih' => exact .product hy ih ih'
  | timesMixed p _ _ ih ih' => exact .mulMixed ih ih'
  | juxtaposed _ _ hk ih ih' => exact .juxtaposed (.of_kind hk) ih ih'
  | compound _ hn _ hm ih ih' => exact .compound ih hn ih' hm
  | sum p hy _ _ ih ih' => exact .sum hy ih ih'
  | arrow x p q _ ih => exact .function x p ih
  | assignment x p q _ ih => exact .assignment x p ih
  | leading p _ ih => exact ih
  | trailing p _ ih => exact ih
  | sequence p _ _ ih ih' => exact .statements ih ih'
  | nothing ps => exact .nothing

-- ---------------------------------------------------------------------------
-- Trees that are parsed
-- ---------------------------------------------------------------------------

/-- **Every tree that is parsed is in the language**, under any bound on the nesting. -/
theorem parseWithin_generated {depth : Nat} {tokens : List Token} {t : Node}
    (h : (parseWithin depth units tokens).result = .ok t) : Generated units .statements t :=
  (parseWithin_derives h).generated

/-- `$5 + 3 feet 1 inch`, with a prefix unit and a compound quantity. -/
theorem compound_quantity_generated :
    let tokens : List Token :=
      [⟨.ident "$", ⟨1, 1⟩⟩, ⟨.number (.fraction 5), ⟨1, 2⟩⟩, ⟨.symbol .add, ⟨1, 4⟩⟩,
       ⟨.number (.fraction 3), ⟨1, 6⟩⟩, ⟨.ident "feet", ⟨1, 8⟩⟩, ⟨.number (.fraction 1), ⟨1, 13⟩⟩,
       ⟨.ident "inch", ⟨1, 15⟩⟩]
    let price : Node := .pair .apply (.ident "$" ⟨1, 1⟩) (.number (.fraction 5) ⟨1, 2⟩)
    let feet : Node := .pair .product (.number (.fraction 3) ⟨1, 6⟩) (.ident "feet" ⟨1, 8⟩)
    let inch : Node := .pair .product (.number (.fraction 1) ⟨1, 13⟩) (.ident "inch" ⟨1, 15⟩)
    let t : Node := .binary .plus price (.binary .implicitPlus feet inch)
    (parse ["$"] tokens).result = .ok t ∧ Generated ["$"] .statements t := by
  intro tokens price feet inch t
  have h : (parseWithin maxNesting ["$"] tokens).result = .ok t := by rfl
  exact ⟨h, parseWithin_generated h⟩

end Grammar

end Reckoner
