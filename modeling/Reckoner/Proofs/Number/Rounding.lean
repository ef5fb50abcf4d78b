import Mathlib.Algebra.Order.Field.Basic
import Reckoner.Proofs.Number.Quotient

/-!
# Rounding to significant digits

Rounding a positive number to significant digits picks the power of ten that leaves as many digits in
front of the point, and then the nearest integer, of two that are equally near the even one. Both are
told by the number, so there is one rounding only, and a number that has no more digits is its own. This
says of no way in which the rounding is computed; a quotient is one.

## Results

* `roundHalfEven_nearest`       — division rounds to the nearest integer, and to the even one of two.
* `IsRounding.unique`           — a number has one rounding.
* `IsRounding.eq_self`          — a number with few digits is its own.
* `Decimal.quotient_roundsAt`   — a quotient is rounded at its last place.
* `Decimal.quotient_isRounding` — far from the least exponent, this is rounding to the precision.
* `Decimal.quotient_exact`      — a short decimal expansion is its own quotient.
-/

namespace Reckoner

-- ---------------------------------------------------------------------------
-- The nearest integer
-- ---------------------------------------------------------------------------

/-- A natural number that is nearest to a number; of two that are equally near, the even one. -/
structure IsNearestEven (x : ℚ) (m : Nat) : Prop where
  near : |x - m| ≤ 1 / 2
  even : |x - m| = 1 / 2 → Even m

/-- Of two that are both near, the lower one and the upper one cannot both be even. -/
theorem IsNearestEven.le {x : ℚ} {m n : Nat} (hm : IsNearestEven x m) (hn : IsNearestEven x n) :
    m ≤ n := by
  by_contra hLess
  have hNext : n + 1 ≤ m := not_le.mp hLess
  have hNextQ : (n : ℚ) + 1 ≤ m := by exact_mod_cast hNext
  obtain ⟨hBelow, -⟩ := abs_le.mp hm.near
  obtain ⟨-, hAbove⟩ := abs_le.mp hn.near
  -- the number stands halfway between them
  have hUpper : x - m = -(1 / 2) := by linarith
  have hLower : x - n = 1 / 2 := by linarith
  have hSucc : m = n + 1 := by
    have hQ : (m : ℚ) = n + 1 := by linarith
    exact_mod_cast hQ
  have hEven : Even m := hm.even (by rw [hUpper, abs_neg, abs_of_pos (by norm_num)])
  have hEven' : Even n := hn.even (by rw [hLower, abs_of_pos (by norm_num)])
  rw [hSucc, Nat.even_add_one] at hEven
  exact hEven hEven'

theorem IsNearestEven.unique {x : ℚ} {m n : Nat} (hm : IsNearestEven x m) (hn : IsNearestEven x n) :
    m = n :=
  Nat.le_antisymm (hm.le hn) (hn.le hm)

/-- A natural number is nearest to itself. -/
theorem isNearestEven_natCast (k : Nat) : IsNearestEven k k := by
  have hSame : |(k : ℚ) - k| = 0 := by rw [sub_self, abs_zero]
  refine ⟨?_, fun hHalf => ?_⟩
  · rw [hSame]
    norm_num
  · rw [hSame] at hHalf
    norm_num at hHalf

/-- **Division rounds to the nearest integer**, and to the even one of two. -/
theorem roundHalfEven_nearest (num : Nat) {den : Nat} (hDen : 0 < den) :
    IsNearestEven (num / den) (roundHalfEven num den) := by
  have hDenQ : (0 : ℚ) < den := by exact_mod_cast hDen
  have hLess := Nat.mod_lt num hDen
  have hSplit : (num / den : ℚ) = (num / den : Nat) + ((num % den : Nat) : ℚ) / den := by
    rw [eq_comm, ← eq_sub_iff_add_eq', div_eq_iff hDenQ.ne', sub_mul, div_mul_cancel₀ _ hDenQ.ne']
    have hQ : (num : ℚ) = den * (num / den : Nat) + (num % den : Nat) := by
      exact_mod_cast (Nat.div_add_mod num den).symm
    linarith
  unfold roundHalfEven
  dsimp only
  rw [hSplit]
  generalize num / den = k, num % den = r at hLess ⊢
  have hPart : (0 : ℚ) ≤ r / den := div_nonneg (Nat.cast_nonneg _) (Nat.cast_nonneg _)
  have hPartLess : (r / den : ℚ) < 1 := (div_lt_one hDenQ).mpr (by exact_mod_cast hLess)
  have hHalf : (r / den : ℚ) = 1 / 2 → den = 2 * r := by
    intro h
    have hQ : (den : ℚ) = 2 * r := by
      rw [div_eq_iff hDenQ.ne'] at h
      linarith
    exact_mod_cast hQ
  split
  · rename_i hUp
    have hLeast : (1 / 2 : ℚ) ≤ r / den := by
      rw [le_div_iff₀ hDenQ]
      have hQ : (den : ℚ) ≤ 2 * r := by exact_mod_cast (by omega : den ≤ 2 * r)
      linarith
    have hAbs : |(k : ℚ) + r / den - (k + 1 : Nat)| = 1 - r / den := by
      push_cast
      rw [abs_of_nonpos (by linarith)]
      ring
    refine ⟨by rw [hAbs]; linarith, fun hTie => ?_⟩
    rw [hAbs] at hTie
    have hEqual := hHalf (by linarith)
    have hOdd : k % 2 = 1 := (hUp.resolve_left (by omega)).2
    exact Nat.even_iff.mpr (by omega)
  · rename_i hDown
    have hMost : (r / den : ℚ) ≤ 1 / 2 := by
      rw [div_le_iff₀ hDenQ]
      have hQ : (2 * r : ℚ) ≤ den := by exact_mod_cast (by omega : 2 * r ≤ den)
      linarith
    have hAbs : |(k : ℚ) + r / den - k| = r / den := by
      rw [add_sub_cancel_left, abs_of_nonneg hPart]
    refine ⟨by rw [hAbs]; exact hMost, fun hTie => ?_⟩
    rw [hAbs] at hTie
    have hEqual := hHalf hTie
    exact Nat.even_iff.mpr (by omega)

-- ---------------------------------------------------------------------------
-- Significant digits
-- ---------------------------------------------------------------------------

/-- `q` rounded to `size` significant digits is `m · 10 ^ e`: the power of ten leaves so many digits
of `q` in front of the point, and `m` is the nearest to what it leaves. -/
structure RoundsTo (size : Nat) (q : ℚ) (m : Nat) (e : Int) : Prop where
  low : (10 : ℚ) ^ ((size : Int) - 1 + e) ≤ q
  high : q < (10 : ℚ) ^ ((size : Int) + e)
  nearest : IsNearestEven (q / (10 : ℚ) ^ e) m

/-- `r` is `q` rounded to `size` significant digits, a half going to the even neighbour. -/
def IsRounding (size : Nat) (q r : ℚ) : Prop :=
  ∃ m e, RoundsTo size q m e ∧ r = m * (10 : ℚ) ^ e

/-- A number that at most `size` significant digits are enough to write. -/
def HasDigits (size : Nat) (q : ℚ) : Prop :=
  ∃ (m : Nat) (e : Int), m < 10 ^ size ∧ q = m * (10 : ℚ) ^ e

variable {size m n : Nat} {q r s : ℚ} {e f : Int}

/-- A power of ten above a number bounds the exponent of its rounding. -/
theorem RoundsTo.le_exponent (h : RoundsTo size q m e)
    (hHigh : q < (10 : ℚ) ^ ((size : Int) + f)) : e ≤ f := by
  have hLess := (zpow_lt_zpow_iff_right₀ (by norm_num : (1 : ℚ) < 10)).mp (h.low.trans_lt hHigh)
  omega

theorem RoundsTo.unique (h : RoundsTo size q m e) (h' : RoundsTo size q n f) :
    m = n ∧ e = f := by
  obtain rfl : e = f := le_antisymm (h.le_exponent h'.high) (h'.le_exponent h.high)
  exact ⟨h.nearest.unique h'.nearest, rfl⟩

/-- **A number has one rounding.** -/
theorem IsRounding.unique (h : IsRounding size q r) (h' : IsRounding size q s) : r = s := by
  obtain ⟨m, e, hRounds, rfl⟩ := h
  obtain ⟨n, f, hRounds', rfl⟩ := h'
  obtain ⟨rfl, rfl⟩ := hRounds.unique hRounds'
  rfl

/-- Digits that all stand in front of the point are a whole number. -/
theorem exists_whole (k : Nat) (h : e ≤ f) : ∃ j : Nat, k * (10 : ℚ) ^ f / (10 : ℚ) ^ e = j := by
  obtain ⟨j, hj⟩ := Int.eq_ofNat_of_zero_le (Int.sub_nonneg.mpr h)
  refine ⟨k * 10 ^ j, ?_⟩
  rw [mul_div_assoc, ← zpow_sub₀ (by norm_num), hj, zpow_natCast]
  push_cast
  rfl

/-- What rounds to a whole number at the last place is that number. -/
theorem IsNearestEven.mul_zpow_eq {k : Nat} (h : IsNearestEven (q / (10 : ℚ) ^ e) m)
    (hWhole : q / (10 : ℚ) ^ e = k) : m * (10 : ℚ) ^ e = q := by
  rw [hWhole] at h
  rw [h.unique (isNearestEven_natCast k), ← hWhole, div_mul_cancel₀ _ (ten_zpow_pos e).ne']

/-- **A number with few digits is its own rounding.** -/
theorem IsRounding.eq_self (h : IsRounding size q r) (hDigits : HasDigits size q) :
    r = q := by
  obtain ⟨m, e, hRounds, rfl⟩ := h
  obtain ⟨k, f, hFew, hValue⟩ := hDigits
  have hHigh : q < (10 : ℚ) ^ ((size : Int) + f) := by
    have hFewQ : (k : ℚ) < 10 ^ size := by exact_mod_cast hFew
    rw [hValue, zpow_add₀ (by norm_num), zpow_natCast]
    exact mul_lt_mul_of_pos_right hFewQ (ten_zpow_pos f)
  obtain ⟨j, hWhole⟩ := exists_whole k (hRounds.le_exponent hHigh)
  rw [← hValue] at hWhole
  exact hRounds.nearest.mul_zpow_eq hWhole

-- ---------------------------------------------------------------------------
-- Quotients
-- ---------------------------------------------------------------------------

namespace Decimal

/-- What a decimal of the last place is divided by: numerator and denominator, both whole. -/
theorem scaled_quotient (num den : Nat) (e : Int) :
    ((num * tenTo (-e).toNat : Nat) / (den * tenTo e.toNat : Nat) : ℚ) = num / den / (10 : ℚ) ^ e := by
  have hUp : (tenTo e.toNat : ℚ) ≠ 0 := by exact_mod_cast (tenTo_pos _).ne'
  have hDown : (tenTo (-e).toNat : ℚ) ≠ 0 := by exact_mod_cast (tenTo_pos _).ne'
  rw [ten_zpow]
  push_cast
  field_simp

/-- A decimal is `x · 10 ^ e` rounded at the exponent `e`, perhaps with zeros dropped at its end. -/
structure RoundsAt (d : Decimal) (x : ℚ) (e : Int) : Prop where
  nearest : ∃ m, IsNearestEven x m ∧ d.magnitude = m * (10 : ℚ) ^ e
  digits : d.digits < tenTo precision
  low : e ≤ d.exponent
  high : d.exponent ≤ e + precision

variable {negative : Bool} {num den : Nat}

/-- A quotient without a remainder, of which zeros are dropped. -/
theorem roundsAt_exact (hDen : 0 < den) (hFew : num / den < tenTo precision) (hExact : num % den = 0)
    {most : Nat} (hMost : most ≤ precision) :
    RoundsAt ⟨negative, (dropZeros most (num / den)).1, e + (dropZeros most (num / den)).2⟩
      (num / den) e := by
  have hNearest := roundHalfEven_nearest num hDen
  have hRound : roundHalfEven num den = num / den := by
    unfold roundHalfEven
    dsimp only
    rw [hExact, if_neg (by omega)]
  rw [hRound] at hNearest
  obtain ⟨hDropped, hLe⟩ := dropZeros_spec most (num / den)
  have hCount := dropZeros_le most (num / den)
  generalize dropZeros most (num / den) = found at hDropped hLe hCount ⊢
  obtain ⟨rest, dropped⟩ := found
  dsimp only at hDropped hLe hCount ⊢
  refine ⟨⟨num / den, hNearest, ?_⟩, by dsimp only; omega, by dsimp only; omega,
    by dsimp only; omega⟩
  rw [← hDropped]
  show (rest : ℚ) * (10 : ℚ) ^ (e + dropped) = _
  rw [Nat.cast_mul, cast_tenTo, zpow_add₀ (by norm_num), zpow_natCast]
  ring

/-- A quotient that is rounded, and has a digit more after a carry, which is dropped. -/
theorem roundsAt_rounded (hDen : 0 < den) (hFew : num / den < tenTo precision) :
    RoundsAt (if roundHalfEven num den = tenTo precision
      then ⟨negative, roundHalfEven num den / 10, e + 1⟩ else ⟨negative, roundHalfEven num den, e⟩)
      (num / den) e := by
  have hNearest := roundHalfEven_nearest num hDen
  have hMost : roundHalfEven num den ≤ tenTo precision := by
    unfold roundHalfEven
    dsimp only
    split <;> omega
  generalize roundHalfEven num den = m at hNearest hMost ⊢
  split
  · rename_i hCarry
    have hStep : tenTo precision = 10 * tenTo (precision - 1) := Nat.pow_succ'
    have hPos := tenTo_pos precision
    have hPrecision : 1 ≤ precision := by decide
    refine ⟨⟨m, hNearest, ?_⟩, by dsimp only; omega, by dsimp only; omega, by dsimp only; omega⟩
    show ((m / 10 : Nat) : ℚ) * (10 : ℚ) ^ (e + 1) = _
    rw [hCarry, hStep, Nat.mul_div_cancel_left _ (by decide), zpow_add₀ (by norm_num), zpow_one]
    push_cast
    ring
  · rename_i hNoCarry
    exact ⟨⟨m, hNearest, rfl⟩, lt_of_le_of_ne hMost hNoCarry, le_refl _, by dsimp only; omega⟩

/-- The exponent at which a quotient is rounded. -/
def lastPlace (num den : Nat) : Int :=
  max (leadingPosition num den - precision) leastExponent

/-- **A quotient is rounded at its last place.** -/
theorem quotient_roundsAt (negative : Bool) (hNum : 0 < num) (hDen : 0 < den) :
    (quotient negative num den).RoundsAt (num / den / (10 : ℚ) ^ lastPlace num den)
      (lastPlace num den) := by
  obtain ⟨-, hHigh⟩ := leadingPosition_spec hNum hDen
  have hLast : leadingPosition num den ≤ precision + lastPlace num den := by
    unfold lastPlace
    omega
  unfold quotient
  dsimp only
  rw [← lastPlace]
  generalize leadingPosition num den = lead, lastPlace num den = e at hHigh hLast ⊢
  have hScaled := scaled_quotient num den e
  have hPos : 0 < den * tenTo e.toNat := Nat.mul_pos hDen (tenTo_pos _)
  generalize num * tenTo (-e).toNat = n, den * tenTo e.toNat = d at hScaled hPos ⊢
  have hFew : n / d < tenTo precision := by
    have hPosQ : (0 : ℚ) < d := by exact_mod_cast hPos
    have hQ : (n / d : ℚ) < tenTo precision := by
      rw [hScaled, cast_tenTo, div_lt_iff₀ (ten_zpow_pos e), ← zpow_natCast,
        ← zpow_add₀ (by norm_num)]
      exact hHigh.trans_le (zpow_le_zpow_right₀ (by norm_num) hLast)
    rw [div_lt_iff₀ hPosQ] at hQ
    exact Nat.div_lt_of_lt_mul (by rw [Nat.mul_comm]; exact_mod_cast hQ)
  rw [← hScaled]
  split
  · rename_i hExact
    exact roundsAt_exact hPos hFew hExact (Nat.min_le_left _ _)
  · exact roundsAt_rounded hPos hFew

theorem quotient_negative (negative : Bool) (num den : Nat) :
    (quotient negative num den).negative = negative := by
  unfold quotient
  dsimp only
  split
  · rfl
  · split <;> rfl

/-- **A quotient is rounded to the precision** where the least exponent does not cut off any of its
digits. -/
theorem quotient_isRounding (negative : Bool) (hNum : 0 < num) (hDen : 0 < den)
    (hLeast : leastExponent ≤ leadingPosition num den - precision) :
    IsRounding precision (num / den) (quotient negative num den).magnitude := by
  obtain ⟨hLow, hHigh⟩ := leadingPosition_spec hNum hDen
  obtain ⟨m, hNearest, hValue⟩ := (quotient_roundsAt negative hNum hDen).nearest
  have hLast : lastPlace num den = leadingPosition num den - precision := max_eq_left hLeast
  refine ⟨m, lastPlace num den, ⟨?_, ?_, hNearest⟩, hValue⟩
  · rwa [hLast, show (precision : Int) - 1 + (leadingPosition num den - precision) =
      leadingPosition num den - 1 by omega]
  · rwa [hLast, add_sub_cancel]

/-- **A short decimal expansion is its own quotient.** -/
theorem quotient_exact {digits places : Nat} (hNum : 0 < num) (hDen : 0 < den)
    (hValue : (num / den : ℚ) = digits / (10 : ℚ) ^ places) (hDigits : digits < tenTo precision)
    (hPlaces : (places : Int) ≤ -leastExponent) :
    (quotient false num den).magnitude = num / den ∧ (quotient false num den).negative = false ∧
      (quotient false num den).digits < tenTo precision ∧
      leastExponent ≤ (quotient false num den).exponent := by
  have hRounds := quotient_roundsAt false hNum hDen
  have hLeast : leastExponent ≤ (quotient false num den).exponent :=
    (le_max_right _ _).trans hRounds.low
  refine ⟨?_, quotient_negative _ _ _, hRounds.digits, hLeast⟩
  obtain ⟨hLow, -⟩ := leadingPosition_spec hNum hDen
  have hValue : (num / den : ℚ) = digits * (10 : ℚ) ^ (-(places : Int)) := by
    rw [hValue, zpow_neg, zpow_natCast, div_eq_mul_inv]
  -- the expansion ends no later than the digits that are computed
  have hEnd : lastPlace num den ≤ -(places : Int) := by
    have hLead : (10 : ℚ) ^ (leadingPosition num den - 1) < (10 : ℚ) ^ ((precision : Int) - places) := by
      have hDigitsQ : (digits : ℚ) < (10 : ℚ) ^ precision := by
        rw [← cast_tenTo]
        exact_mod_cast hDigits
      rw [sub_eq_add_neg (precision : Int), zpow_add₀ (by norm_num), zpow_natCast]
      refine hLow.trans_lt ?_
      rw [hValue]
      exact mul_lt_mul_of_pos_right hDigitsQ (ten_zpow_pos _)
    have hLess := (zpow_lt_zpow_iff_right₀ (by norm_num : (1 : ℚ) < 10)).mp hLead
    exact max_le (by omega) (by omega)
  obtain ⟨k, hWhole⟩ := exists_whole digits hEnd
  rw [← hValue] at hWhole
  obtain ⟨m, hNearest, hMagnitude⟩ := hRounds.nearest
  rw [hMagnitude, hNearest.mul_zpow_eq hWhole]

end Decimal

end Reckoner
