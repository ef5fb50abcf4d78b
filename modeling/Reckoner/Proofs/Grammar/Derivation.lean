import Reckoner.Grammar.Layers
import Reckoner.Proofs.Node

/-!
# Derivations

The grammar as rules that say which tokens make which tree. `Derives units s used n` holds when the
tokens `used`, blanks left out, are an expression of stratum `s` with the tree `n`. Nothing is said
about cursors, candidates or the bound on the nesting: what the layers of the grammar read is
compared with this relation elsewhere.

Besides the layers there are three strata of their own: powers without a prefix operator, mixed
fractions, whose sum has no `+` or `-` in the tokens, and lists of at least one statement.

A tree tells by its kind how its derivation ends, and the lemmas at the end take derivations apart
in this way.
-/

namespace Reckoner

/-- Whether an expression can begin with a token. -/
def Token.canBegin (t : Token) : Bool :=
  match t.content with
  | .number _ | .string _ | .ident _ => true
  | .symbol y => y ∈ [.openParens, .backslash, .add, .sub, .div]
  | _ => false

/-- Whether primary expressions are of a kind. What is built around them is of another one, but for the
functions that are written with an arrow. -/
def Kind.isPrimary (k : Kind) : Bool :=
  k ∈ [.literal, .identifier, .member, .parens, .function]

namespace Grammar

-- ---------------------------------------------------------------------------
-- Strata
-- ---------------------------------------------------------------------------

/-- The strata of the grammar, from the tightest to the loosest. -/
inductive Stratum where
  | primary | factorial | plainPower | power | mixedFraction | multiplicative
  | implicitSum | additive | function | assignment | sequence | statements
  deriving DecidableEq

/-- Each stratum with the ones whose expressions it takes over as they are. -/
def inclusions : List (Stratum × Stratum) :=
  [(.primary, .factorial), (.factorial, .plainPower), (.plainPower, .power),
   (.power, .multiplicative), (.mixedFraction, .multiplicative), (.multiplicative, .implicitSum),
   (.implicitSum, .additive), (.additive, .function), (.function, .assignment),
   (.assignment, .sequence), (.sequence, .statements)]

/-- Whether separators may stand at the ends of an expression. -/
def Stratum.isList (s : Stratum) : Bool :=
  s = .sequence || s = .statements

-- ---------------------------------------------------------------------------
-- Derivations
-- ---------------------------------------------------------------------------

/-- What may stand on the right of a compound quantity. -/
def IsQuantityTail (n : Node) : Prop :=
  n.kind = .product ∨ n.isNumber = true ∨ n.isBinary .implicitPlus = true

/-- The tokens of an expression of a stratum, and its tree. -/
inductive Derives (units : List String) : Stratum → List Token → Node → Prop where
  | widen {s s' : Stratum} {used : List Token} {n : Node} (hs : (s, s') ∈ inclusions)
      (h : Derives units s used n) : Derives units s' used n
  -- primary expressions
  | number (v : Payload) (p : Place) : Derives units .primary [⟨.number v, p⟩] (.number v p)
  | string (x : String) (p : Place) : Derives units .primary [⟨.string x, p⟩] (.string x p)
  | ident (x : String) (p : Place) : Derives units .primary [⟨.ident x, p⟩] (.ident x p)
  | unit (p q : Place) :
      Derives units .primary [⟨.symbol .openParens, p⟩, ⟨.symbol .closeParens, q⟩] (.unit p)
  | member {used : List Token} {n : Node} (x : String) (p q : Place)
      (h : Derives units .primary used n) :
      Derives units .primary (⟨.ident x, p⟩ :: ⟨.symbol .of, q⟩ :: used)
        (.named .member (.text x) n p)
  | parens {used : List Token} {n : Node} (p q : Place) (h : Derives units .statements used n) :
      Derives units .primary (⟨.symbol .openParens, p⟩ :: (used ++ [⟨.symbol .closeParens, q⟩]))
        (.wrap .parens n p)
  | unclosed {used : List Token} {n : Node} (p : Place) (h : Derives units .statements used n) :
      Derives units .primary (⟨.symbol .openParens, p⟩ :: used) (.wrap .parens n p)
  | lambda {used : List Token} {n : Node} (x : String) (p q r : Place)
      (h : Derives units .function used n) :
      Derives units .primary (⟨.symbol .backslash, p⟩ :: ⟨.ident x, q⟩ :: ⟨.symbol .dot, r⟩ :: used)
        (.named .function (.text x) n p)
  -- factorials and powers
  | factorial {used : List Token} {n : Node} (p : Place) (h : Derives units .factorial used n) :
      Derives units .factorial (used ++ [⟨.symbol .factorial, p⟩]) (.wrap .factorial n .unknown)
  | pow {used used' : List Token} {n m : Node} (p : Place) (h : Derives units .factorial used n)
      (h' : Derives units .power used' m) :
      Derives units .plainPower (used ++ ⟨.symbol .pow, p⟩ :: used') (.binary .pow n m)
  | prefixed {used : List Token} {n : Node} {y : Symbol} {k : Kind} (p : Place)
      (hy : (y, k) ∈ prefixes) (h : Derives units .power used n) :
      Derives units .power (⟨.symbol y, p⟩ :: used) (.wrap k n p)
  -- products
  | mixedPlus (v w u : Payload) (p q r t : Place) :
      Derives units .mixedFraction
        [⟨.number v, p⟩, ⟨.number w, q⟩, ⟨.symbol .div, r⟩, ⟨.number u, t⟩]
        (.binary .plus (.number v p) (.binary .div (.number w q) (.number u t)))
  | mixedMinus (v w u : Payload) (o p q r t : Place) :
      Derives units .mixedFraction
        [⟨.symbol .sub, o⟩, ⟨.number v, p⟩, ⟨.number w, q⟩, ⟨.symbol .div, r⟩, ⟨.number u, t⟩]
        (.binary .minus (.wrap .negation (.number v p) o)
          (.binary .div (.number w q) (.number u t)))
  | product {used used' : List Token} {n m : Node} {y : Symbol} {op : Operator} (p : Place)
      (hy : (y, op) ∈ productOperators) (h : Derives units .multiplicative used n)
      (h' : Derives units .power used' m) :
      Derives units .multiplicative (used ++ ⟨.symbol y, p⟩ :: used') (.binary op n m)
  | timesMixed {used used' : List Token} {n m : Node} (p : Place)
      (h : Derives units .multiplicative used n) (h' : Derives units .mixedFraction used' m) :
      Derives units .multiplicative (used ++ ⟨.symbol .mul, p⟩ :: used') (.binary .mul n m)
  | juxtaposed {used used' : List Token} {n m : Node} {k : Kind}
      (h : Derives units .multiplicative used n) (h' : Derives units .plainPower used' m)
      (hk : juxtapositionKind units n m = .ok (some k)) :
      Derives units .multiplicative (used ++ used') (.pair k n m)
  -- sums
  | compound {used used' : List Token} {n m : Node} (h : Derives units .multiplicative used n)
      (hn : n.kind = .product) (h' : Derives units .implicitSum used' m) (hm : IsQuantityTail m) :
      Derives units .implicitSum (used ++ used') (.binary .implicitPlus n m)
  | sum {used used' : List Token} {n m : Node} {y : Symbol} {build : Node → Node → Node} (p : Place)
      (hy : (y, build) ∈ sumOperators) (h : Derives units .additive used n)
      (h' : Derives units .implicitSum used' m) :
      Derives units .additive (used ++ ⟨.symbol y, p⟩ :: used') (build n m)
  -- functions, assignments and statements
  | arrow {used : List Token} {n : Node} (x : String) (p q : Place)
      (h : Derives units .function used n) :
      Derives units .function (⟨.ident x, p⟩ :: ⟨.symbol .arrow, q⟩ :: used)
        (.named .function (.text x) n p)
  | assignment {used : List Token} {n : Node} (x : String) (p q : Place)
      (h : Derives units .assignment used n) :
      Derives units .assignment (⟨.ident x, p⟩ :: ⟨.symbol .equals, q⟩ :: used)
        (.named .assignment (.text x) n p)
  | leading {used : List Token} {n : Node} (p : Place) (h : Derives units .sequence used n) :
      Derives units .sequence (⟨.symbol .semicolon, p⟩ :: used) n
  | trailing {used : List Token} {n : Node} (p : Place) (h : Derives units .sequence used n) :
      Derives units .sequence (used ++ [⟨.symbol .semicolon, p⟩]) n
  | sequence {used used' : List Token} {n m : Node} (p : Place)
      (h : Derives units .sequence used n) (h' : Derives units .assignment used' m) :
      Derives units .sequence (used ++ ⟨.symbol .semicolon, p⟩ :: used') (.pair .statements n m)
  | nothing (ps : List Place) :
      Derives units .statements (ps.map fun p => ⟨.symbol .semicolon, p⟩) (.unit .unknown)

theorem isList_of_inclusion : ∀ e ∈ inclusions, e.2.isList = false → e.1.isList = false := by
  decide

-- ---------------------------------------------------------------------------
-- Tables of operators
-- ---------------------------------------------------------------------------

theorem prefixes_cases {y : Symbol} {k : Kind} (hy : (y, k) ∈ prefixes) :
    (y = .sub ∧ k = .negation) ∨ (y = .add ∧ k = .positive) ∨ (y = .div ∧ k = .reciprocal) := by
  simpa [prefixes] using hy

theorem productOperators_cases {y : Symbol} {op : Operator} (hy : (y, op) ∈ productOperators) :
    (y = .mul ∧ op = .mul) ∨ (y = .div ∧ op = .div) ∨ (y = .mod ∧ op = .mod) := by
  simpa [productOperators] using hy

theorem sumOperators_cases {y : Symbol} {build : Node → Node → Node}
    (hy : (y, build) ∈ sumOperators) :
    (y = .add ∧ build = .binary .plus) ∨ (y = .sub ∧ build = .binary .minus) ∨
      (y = .conversion ∧ build = .pair .conversion) := by
  simpa [sumOperators] using hy

theorem prefixes_kind {y : Symbol} {k : Kind} (hy : (y, k) ∈ prefixes) :
    k = .negation ∨ k = .positive ∨ k = .reciprocal := by
  rcases prefixes_cases hy with ⟨-, rfl⟩ | ⟨-, rfl⟩ | ⟨-, rfl⟩ <;> simp

theorem sumOperators_kind {y : Symbol} {build : Node → Node → Node}
    (hy : (y, build) ∈ sumOperators) (n m : Node) :
    (build n m).kind = .binary ∨ (build n m).kind = .conversion := by
  rcases sumOperators_cases hy with ⟨-, rfl⟩ | ⟨-, rfl⟩ | ⟨-, rfl⟩
  · exact Or.inl rfl
  · exact Or.inl rfl
  · exact Or.inr rfl

-- ---------------------------------------------------------------------------
-- Juxtaposition
-- ---------------------------------------------------------------------------

/-- The table of juxtaposition, for sides that can be asked for their shapes. -/
theorem juxtapositionKind_eq (units : List String) {lhs rhs : Node} {negated power : Bool}
    (hNegated : lhs.isNegatedNumber = .ok negated) (hPower : isPowerOfNumber rhs = .ok power) :
    juxtapositionKind units lhs rhs = .ok
      (if (lhs.isNumber || negated || lhs.kind = .product) && (rhs.isNumber || power) then none
        else if rhs.isNumber then some (if isPrefixUnit units lhs then .apply else .call)
        else some (if lhs.isNumber || lhs.kind = .product then .product else .apply)) := by
  unfold juxtapositionKind isLikeNumber
  rw [hNegated, hPower]
  rfl

theorem isPowerOfNumber_of_kind_ne {n : Node} (h : n.kind ≠ .binary) :
    isPowerOfNumber n = .ok false := by
  unfold isPowerOfNumber
  rw [Node.isBinary_of_kind_ne h]
  rfl

/-- A juxtaposition that is not refused had sides that could be asked for their shapes. -/
theorem juxtapositionKind_ok {units : List String} {lhs rhs : Node} {k : Option Kind}
    (h : juxtapositionKind units lhs rhs = .ok k) :
    ∃ negated power, lhs.isNegatedNumber = .ok negated ∧ isPowerOfNumber rhs = .ok power := by
  unfold juxtapositionKind isLikeNumber at h
  cases hNegated : lhs.isNegatedNumber with
  | error e => simp [hNegated, bind, Except.bind] at h
  | ok negated =>
    cases hPower : isPowerOfNumber rhs with
    | error e => simp [hNegated, hPower, bind, Except.bind, pure, Except.pure] at h
    | ok power => exact ⟨negated, power, rfl, rfl⟩

/-- Juxtaposition builds one of three kinds. -/
theorem juxtapositionKind_mem {units : List String} {lhs rhs : Node} {k : Kind}
    (h : juxtapositionKind units lhs rhs = .ok (some k)) :
    k = .apply ∨ k = .call ∨ k = .product := by
  obtain ⟨negated, power, hNegated, hPower⟩ := juxtapositionKind_ok h
  rw [juxtapositionKind_eq units hNegated hPower] at h
  grind

namespace Derives

variable {units : List String} {s : Stratum} {used : List Token} {n : Node}

-- ---------------------------------------------------------------------------
-- Taking derivations apart
-- ---------------------------------------------------------------------------

/-- What goes on from an expression begins as it does. -/
theorem begins_append {left : List Token} (right : List Token)
    (h : ∃ t ts, left = t :: ts ∧ t.canBegin = true) :
    ∃ t ts, left ++ right = t :: ts ∧ t.canBegin = true := by
  obtain ⟨t, ts, rfl, ht⟩ := h
  exact ⟨t, ts ++ right, rfl, ht⟩

/-- An expression below the statements begins with a token that can begin one. -/
theorem begins (h : Derives units s used n) (hs : s.isList = false) :
    ∃ t ts, used = t :: ts ∧ t.canBegin = true := by
  induction h with
  | widen hi _ ih => exact ih (isList_of_inclusion _ hi hs)
  | prefixed _ hy _ _ =>
    refine ⟨_, _, rfl, ?_⟩
    rcases prefixes_cases hy with ⟨rfl, -⟩ | ⟨rfl, -⟩ | ⟨rfl, -⟩ <;> rfl
  | factorial _ _ ih => exact begins_append _ (ih rfl)
  | pow _ _ _ ih _ => exact begins_append _ (ih rfl)
  | product _ _ _ _ ih _ => exact begins_append _ (ih rfl)
  | timesMixed _ _ _ ih _ => exact begins_append _ (ih rfl)
  | juxtaposed _ _ _ ih _ => exact begins_append _ (ih rfl)
  | compound _ _ _ _ ih _ => exact begins_append _ (ih rfl)
  | sum _ _ _ _ ih _ => exact begins_append _ (ih rfl)
  | leading _ _ _ => exact absurd hs (by decide)
  | trailing _ _ _ => exact absurd hs (by decide)
  | sequence _ _ _ _ _ => exact absurd hs (by decide)
  | nothing _ => exact absurd hs (by decide)
  | _ => exact ⟨_, _, rfl, rfl⟩

theorem ne_nil (h : Derives units s used n) (hs : s.isList = false) : used ≠ [] := by
  obtain ⟨t, ts, rfl, -⟩ := h.begins hs
  exact List.cons_ne_nil t ts

/-- A leaf below the statements is a primary expression. -/
theorem primary_of_leaf (h : Derives units s used n) (hs : s.isList = false)
    (hk : n.kind = .literal ∨ n.kind = .identifier) : Derives units .primary used n := by
  induction h with
  | widen hi _ ih => exact ih (isList_of_inclusion _ hi hs) hk
  | number v p => exact .number v p
  | string x p => exact .string x p
  | ident x p => exact .ident x p
  | unit p q => exact .unit p q
  | prefixed _ hy _ _ => rcases prefixes_kind hy with rfl | rfl | rfl <;> simp at hk
  | @sum _ _ n m _ _ _ hy _ _ _ _ =>
    rcases sumOperators_kind hy n m with h | h
    · simp [h] at hk
    · simp [h] at hk
  | juxtaposed _ _ hj _ _ => rcases juxtapositionKind_mem hj with rfl | rfl | rfl <;> simp at hk
  | leading _ _ _ => exact absurd hs (by decide)
  | trailing _ _ _ => exact absurd hs (by decide)
  | sequence _ _ _ _ _ => exact absurd hs (by decide)
  | nothing _ => exact absurd hs (by decide)
  | _ => simp at hk

/-- No statements are derived below the lists of them: parentheses stand around them there. -/
theorem kind_ne_statements (h : Derives units s used n) (hs : s.isList = false) :
    n.kind ≠ .statements := by
  induction h with
  | widen hi _ ih => exact ih (isList_of_inclusion _ hi hs)
  | prefixed _ hy _ _ => rcases prefixes_kind hy with rfl | rfl | rfl <;> simp
  | @sum _ _ n m _ _ _ hy _ _ _ _ => rcases sumOperators_kind hy n m with h | h <;> simp [h]
  | juxtaposed _ _ hj _ _ => rcases juxtapositionKind_mem hj with rfl | rfl | rfl <;> simp
  | leading _ _ _ => exact absurd hs (by decide)
  | trailing _ _ _ => exact absurd hs (by decide)
  | sequence _ _ _ _ _ => exact absurd hs (by decide)
  | nothing _ => exact absurd hs (by decide)
  | _ => simp

/-- An identifier below the statements is derived from its own token. -/
theorem eq_ident (h : Derives units s used n) (hs : s.isList = false) (hk : n.kind = .identifier) :
    ∃ x p, used = [⟨.ident x, p⟩] ∧ n = .ident x p := by
  cases h.primary_of_leaf hs (Or.inr hk) with
  | widen hi _ => simp [inclusions] at hi
  | ident x p => exact ⟨x, p, rfl, rfl⟩
  | _ => simp at hk

/-- A number below the statements is derived from its own token. -/
theorem eq_number (h : Derives units s used n) (hs : s.isList = false) (hn : n.isNumber = true) :
    ∃ v p, used = [⟨.number v, p⟩] ∧ n = .number v p := by
  have hk := Node.kind_of_isNumber hn
  cases h.primary_of_leaf hs (Or.inl hk) with
  | widen hi _ => simp [inclusions] at hi
  | number v p => exact ⟨v, p, rfl, rfl⟩
  | string _ _ => simp at hn
  | unit _ _ => simp at hn
  | _ => simp at hk

/-- What a primary expression with factorials can be. -/
theorem factorial_kind (h : Derives units .factorial used n) :
    n.kind ∈ [.literal, .identifier, .member, .parens, .function, .factorial] := by
  cases h with
  | widen hi h =>
    obtain rfl : _ = Stratum.primary := by simpa [inclusions] using hi
    cases h with
    | widen hi _ => simp [inclusions] at hi
    | _ => simp
  | factorial _ _ => simp

/-- What a power without a prefix operator can be. -/
theorem plainPower_kind (h : Derives units .plainPower used n) :
    n.isBinary .pow = true ∨
      n.kind ∈ [.literal, .identifier, .member, .parens, .function, .factorial] := by
  cases h with
  | widen hi h =>
    obtain rfl : _ = Stratum.factorial := by simpa [inclusions] using hi
    exact Or.inr h.factorial_kind
  | pow _ _ _ => simp

/-- A negated number is derived from its sign and its number. -/
theorem eq_negated (h : Derives units .power used n) (hn : n.isNegatedNumber = .ok true) :
    ∃ v p q, used = [⟨.symbol .sub, q⟩, ⟨.number v, p⟩] ∧ n = .wrap .negation (.number v p) q := by
  have hk := Node.kind_of_isNegatedNumber hn
  cases h with
  | widen hi h =>
    obtain rfl : _ = Stratum.plainPower := by simpa [inclusions] using hi
    rcases h.plainPower_kind with hb | hl
    · simp [Node.isBinary, hk] at hb
    · simp [hk] at hl
  | @prefixed _ _ y k q hy h =>
    obtain rfl : k = .negation := hk
    obtain rfl : y = .sub := by simpa [prefixes] using hy
    obtain ⟨v, p, rfl, rfl⟩ := h.eq_number rfl (by simpa using hn)
    exact ⟨v, p, q, rfl, rfl⟩

/-- A mixed fraction is a sum, and no product. -/
theorem mixedFraction_kind (h : Derives units .mixedFraction used n) :
    n.kind = .binary ∧ n.isBinary .mul = false := by
  cases h with
  | widen hi _ => simp [inclusions] at hi
  | mixedPlus => exact ⟨rfl, by simp⟩
  | mixedMinus => exact ⟨rfl, by simp⟩

/-- A power is an operation of no other operator. -/
theorem power_isBinary {op : Operator} (hOp : op ≠ .pow) (h : Derives units .power used n) :
    n.isBinary op = false := by
  cases h with
  | widen hi h =>
    obtain rfl : _ = Stratum.plainPower := by simpa [inclusions] using hi
    cases h with
    | widen hi h =>
      obtain rfl : _ = Stratum.factorial := by simpa [inclusions] using hi
      have hKind := h.factorial_kind
      exact Node.isBinary_of_kind_ne fun hk => by simp [hk] at hKind
    | pow _ _ _ => simpa using hOp.symm
  | prefixed _ hy _ =>
    rcases prefixes_kind hy with rfl | rfl | rfl <;> exact Node.isBinary_of_kind_ne (by simp)

/-- A power is not a product of juxtaposition. -/
theorem power_kind_ne (h : Derives units .power used n) : n.kind ≠ .product := by
  cases h with
  | widen hi h =>
    obtain rfl : _ = Stratum.plainPower := by simpa [inclusions] using hi
    intro hk
    rcases h.plainPower_kind with hb | hl
    · simp [Node.isBinary, hk] at hb
    · simp [hk] at hl
  | prefixed _ hy _ => rcases prefixes_kind hy with rfl | rfl | rfl <;> simp

/-- A product has a left factor, a `*`, and a power or a mixed fraction. -/
theorem eq_times (h : Derives units .multiplicative used n) (hn : n.isBinary .mul = true) :
    ∃ left right l r p, used = left ++ ⟨.symbol .mul, p⟩ :: right ∧ n = .binary .mul l r ∧
      Derives units .multiplicative left l ∧
      (Derives units .power right r ∨ Derives units .mixedFraction right r) := by
  cases h with
  | widen hi h =>
    rcases (by simpa [inclusions] using hi : _ = Stratum.power ∨ _ = Stratum.mixedFraction) with
      rfl | rfl
    · simp [h.power_isBinary (by decide : Operator.mul ≠ .pow)] at hn
    · simp [h.mixedFraction_kind.2] at hn
  | @product left right l r y op p hy h h' =>
    obtain rfl : op = .mul := by simpa using hn
    obtain rfl : y = .mul := by simpa [productOperators] using hy
    exact ⟨left, right, l, r, p, rfl, rfl, h, Or.inl h'⟩
  | @timesMixed left right l r p h h' => exact ⟨left, right, l, r, p, rfl, rfl, h, Or.inr h'⟩
  | juxtaposed _ _ hj =>
    rcases juxtapositionKind_mem hj with rfl | rfl | rfl <;>
      rw [Node.isBinary_of_kind_ne (by simp)] at hn <;> cases hn

/-- A product is no compound quantity. -/
theorem not_compound (h : Derives units .multiplicative used n) :
    n.isBinary .implicitPlus = false := by
  cases h with
  | widen hi h =>
    rcases (by simpa [inclusions] using hi : _ = Stratum.power ∨ _ = Stratum.mixedFraction) with
      rfl | rfl
    · exact h.power_isBinary (by decide)
    · cases h with
      | widen hi _ => simp [inclusions] at hi
      | mixedPlus => simp
      | mixedMinus => simp
  | product _ hy _ _ =>
    rcases productOperators_cases hy with ⟨-, rfl⟩ | ⟨-, rfl⟩ | ⟨-, rfl⟩ <;> simp
  | timesMixed _ _ _ => simp
  | juxtaposed _ _ hj =>
    rcases juxtapositionKind_mem hj with rfl | rfl | rfl <;>
      exact Node.isBinary_of_kind_ne (by simp)

/-- A derived tree can be asked whether it is a negated number. -/
theorem isNegatedNumber_ok (h : Derives units s used n) : ∃ b, n.isNegatedNumber = .ok b := by
  induction h with
  | widen _ _ ih => exact ih
  | prefixed _ hy _ _ =>
    rcases prefixes_kind hy with rfl | rfl | rfl
    · exact ⟨_, Node.isNegatedNumber_wrap _⟩
    · exact ⟨false, Node.isNegatedNumber_of_kind_ne (by simp)⟩
    · exact ⟨false, Node.isNegatedNumber_of_kind_ne (by simp)⟩
  | @sum _ _ n m _ _ _ hy _ _ _ _ =>
    refine ⟨false, Node.isNegatedNumber_of_kind_ne ?_⟩
    rcases sumOperators_kind hy n m with h | h <;> simp [h]
  | juxtaposed _ _ hj _ _ =>
    refine ⟨false, Node.isNegatedNumber_of_kind_ne ?_⟩
    rcases juxtapositionKind_mem hj with rfl | rfl | rfl <;> simp
  | leading _ _ ih => exact ih
  | trailing _ _ ih => exact ih
  | _ => exact ⟨false, Node.isNegatedNumber_of_kind_ne (by simp)⟩

/-- The whole part of a mixed fraction can be looked for in every product. -/
theorem wholePart_ok (h : Derives units .multiplicative used n) :
    ∃ outer whole b, wholePart n = .ok (outer, whole) ∧ whole.isNegatedNumber = .ok b := by
  by_cases hMul : n.isBinary .mul = true
  · obtain ⟨left, right, l, r, p, rfl, rfl, -, hr⟩ := h.eq_times hMul
    have hNegated : ∃ b, r.isNegatedNumber = .ok b := by
      rcases hr with hr | hr
      · exact hr.isNegatedNumber_ok
      · exact hr.isNegatedNumber_ok
    obtain ⟨b, hb⟩ := hNegated
    refine ⟨some l, r, b, ?_, hb⟩
    unfold wholePart
    rw [if_pos hMul]
    rfl
  · obtain ⟨b, hb⟩ := h.isNegatedNumber_ok
    refine ⟨none, n, b, ?_, hb⟩
    unfold wholePart
    rw [if_neg hMul]
    rfl

end Derives

end Grammar

end Reckoner
