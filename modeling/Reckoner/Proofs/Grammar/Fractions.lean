import Reckoner.Proofs.Grammar.Running

/-!
# Mixed fractions

A number and a proper fraction behind it are a sum. One step of the loop over the factors of a product puts
it together: its whole part is what has been read so far, or the last factor of it, and then the other
factor stays outside. The whole part is a number or a negated number, and the sign tells whether the
fraction is added or subtracted.

## Results

* `continuation_fraction` — a mixed fraction is read behind its whole part.
* `Fraction.power_signed` — the whole part of a mixed fraction is read in front of the rest of it.
-/

namespace Reckoner

namespace Grammar

open Cursor (Avoids Closes)

variable {units : List String} {d : Nat} {lhs : Node} {left rest : List Token}

-- ---------------------------------------------------------------------------
-- Mixed fractions
-- ---------------------------------------------------------------------------

/-- A whole number, and a number over another. -/
structure Fraction where
  whole : Payload × Place
  top : Payload × Place
  slash : Place
  bottom : Payload × Place

namespace Fraction

/-- The tokens of the part behind the whole number. -/
def proper (f : Fraction) : List Token :=
  [⟨.number f.top.1, f.top.2⟩, ⟨.symbol .div, f.slash⟩, ⟨.number f.bottom.1, f.bottom.2⟩]

def tokens (f : Fraction) : List Token :=
  ⟨.number f.whole.1, f.whole.2⟩ :: f.proper

def wholeNode (f : Fraction) : Node :=
  .number f.whole.1 f.whole.2

def topNode (f : Fraction) : Node :=
  .number f.top.1 f.top.2

def bottomNode (f : Fraction) : Node :=
  .number f.bottom.1 f.bottom.2

/-- The whole number plus the proper fraction. -/
def sum (f : Fraction) : Node :=
  .binary .plus f.wholeNode (.binary .div f.topNode f.bottomNode)

end Fraction

theorem fractionTerm_number (v : Payload) (p : Place) (hRest : Avoids tightSymbols rest) :
    (fractionTerm (Layers.within units (d + 4)) (⟨.number v, p⟩ :: rest)).result =
      .ok (.number v p, rest) :=
  fractionTerm_ok.mpr ⟨power_of_primary false (primary_number v p) hRest, rfl⟩

/-- **A mixed fraction is read behind its whole part**, and a factor in front of that stays outside. -/
theorem continuation_fraction (f : Fraction) {outer : Option Node} {whole : Node} {negated : Bool}
    (hPart : wholePart lhs = .ok (outer, whole)) (hSign : (wholeIsNegated whole).result = .ok negated)
    (hRest : Avoids tightSymbols rest) :
    ((Layers.within units (d + 6)).continuation lhs (f.proper ++ rest)).result =
      .ok (some (mixedSum outer negated whole f.topNode f.bottomNode, rest)) := by
  have hAvoids : Avoids [.mul, .div, .mod] (f.proper ++ rest) :=
    Cursor.avoids_number _
  have hNone : Cursor.select? productOperators (f.proper ++ rest) = none :=
    Cursor.select?_of_avoids hAvoids (by decide)
  have hTop : (fractionTerm (Layers.within units (d + 4)) (f.proper ++ rest)).result =
      .ok (f.topNode, ⟨.symbol .div, f.slash⟩ :: ⟨.number f.bottom.1, f.bottom.2⟩ :: rest) :=
    fractionTerm_number f.top.1 f.top.2 (Cursor.avoids_cons rfl (by simp [tightSymbols]) _)
  have hBottom : (fractionTerm (Layers.within units (d + 4))
      (⟨.number f.bottom.1, f.bottom.2⟩ :: rest)).result = .ok (f.bottomNode, rest) :=
    fractionTerm_number f.bottom.1 f.bottom.2 hRest
  refine continuation_ok.mpr (Or.inr ⟨operatorFactor_none lhs hNone, Or.inl ⟨_, rfl, ?_⟩⟩)
  exact mixedFraction_ok.mpr
    ⟨outer, whole, negated, _, _, _, _, hPart, hSign, rfl, hTop, rfl, hBottom, rfl⟩

/-- A mixed fraction is the last factor in front of what ends a product. -/
theorem runs_fraction (f : Fraction) {outer : Option Node} {whole : Node} {negated : Bool}
    (hLeft : Derives units .multiplicative left lhs) (hPart : wholePart lhs = .ok (outer, whole))
    (hSign : (wholeIsNegated whole).result = .ok negated)
    (hRest : Closes (followers .multiplicative) rest) :
    Runs (Layers.within units (d + 6)).continuation lhs (f.proper ++ rest)
      (mixedSum outer negated whole f.topNode f.bottomNode) rest := by
  obtain ⟨⟨_, hSum⟩, hStep⟩ := runs_step (d := d + 6) hLeft
    (continuation_fraction f hPart hSign (hRest.avoids (by decide)))
    (by simp only [Fraction.proper, List.length_append, List.length_cons]; omega)
  exact hStep (.done (continuation_none (d := d + 1) hSum hRest))

-- ---------------------------------------------------------------------------
-- Signed fractions
-- ---------------------------------------------------------------------------

namespace Fraction

variable (f : Fraction) (sign : Option Place)

/-- The tokens of a mixed fraction with a minus sign in front of it or not. -/
def signed : List Token :=
  sign.toList.map (⟨.symbol .sub, ·⟩) ++ f.tokens

/-- The whole number and its sign. -/
def signedWhole : Node :=
  sign.elim f.wholeNode (.wrap .negation f.wholeNode)

/-- The whole number plus the proper fraction; minus the proper fraction, if it has a sign. -/
def signedSum : Node :=
  .binary (if sign.isSome then .minus else .plus) (f.signedWhole sign)
    (.binary .div f.topNode f.bottomNode)

/-- The whole number and its sign are read in front of the proper fraction. -/
theorem power_signed : ((Layers.within units (d + 5)).power true (f.signed sign ++ rest)).result =
    .ok (f.signedWhole sign, f.proper ++ rest) := by
  have hProper : Avoids tightSymbols (f.proper ++ rest) :=
    Cursor.avoids_number _
  have hWhole (d : Nat) : ((Layers.within units (d + 4)).power true (f.tokens ++ rest)).result =
      .ok (f.wholeNode, f.proper ++ rest) :=
    power_of_primary (d := d + 2) true (primary_number _ _) hProper
  cases sign with
  | none => exact hWhole (d + 1)
  | some p => exact power_prefixed (by decide) p (hWhole d)

theorem wholeIsNegated_signed : (wholeIsNegated (f.signedWhole sign)).result = .ok sign.isSome := by
  cases sign <;> rfl

theorem wholePart_signed : wholePart (f.signedWhole sign) = .ok (none, f.signedWhole sign) := by
  cases sign <;> rfl

theorem wholePart_product (n : Node) :
    wholePart (.binary .mul n (f.signedWhole sign)) = .ok (some n, f.signedWhole sign) := rfl

end Fraction

end Grammar

end Reckoner
