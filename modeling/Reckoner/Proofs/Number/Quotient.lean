import Mathlib.Algebra.Order.Field.Power
import Mathlib.Algebra.Order.Field.Rat
import Mathlib.Data.Rat.Lemmas
import Mathlib.Tactic.FieldSimp
import Mathlib.Tactic.Linarith
import Mathlib.Tactic.Ring
import Reckoner.Number.Quotient

/-!
# Lengths and leading positions

The length of a number says between which powers of ten it lies, and the leading position of a quotient
says the same of the quotient. So enough digits of a quotient are computed, however large or small it is,
and the zeros at the end that are dropped again change no value. Only where the least exponent comes
before the leading position no digit is left.

## Results

* `decimalLength_spec`    — the length of a number bounds it by powers of ten.
* `leadingPosition_spec`  — so does the leading position of a quotient.
* `dropZeros_spec`        — zeros that are dropped change no value.
* `Decimal.quotient_tiny` — a quotient far below the least exponent is rounded to zero.
-/

namespace Reckoner

-- ---------------------------------------------------------------------------
-- Powers of ten
-- ---------------------------------------------------------------------------

theorem tenTo_pos (n : Nat) : 0 < tenTo n :=
  Nat.pow_pos (by decide)

theorem tenTo_mono {n m : Nat} (h : n ≤ m) : tenTo n ≤ tenTo m :=
  Nat.pow_le_pow_right (by decide) h

theorem cast_tenTo (n : Nat) : (tenTo n : ℚ) = (10 : ℚ) ^ n := by
  show ((10 ^ n : Nat) : ℚ) = _
  push_cast
  rfl

/-- A power of ten as the fraction of two natural numbers that the program computes with. -/
theorem ten_zpow (e : Int) : (10 : ℚ) ^ e = tenTo e.toNat / tenTo (-e).toNat := by
  rw [cast_tenTo, cast_tenTo]
  rcases Int.le_total 0 e with he | he
  · obtain ⟨n, rfl⟩ := Int.eq_ofNat_of_zero_le he
    simp
  · obtain ⟨n, hn⟩ := Int.eq_ofNat_of_zero_le (Int.neg_nonneg.mpr he)
    obtain rfl : e = -(n : Int) := by omega
    simp

theorem ten_zpow_neg (n : Nat) : (10 : ℚ) ^ (-(n : Int)) = (tenTo n : ℚ)⁻¹ := by
  rw [cast_tenTo, zpow_neg, zpow_natCast]

theorem ten_zpow_pos (e : Int) : (0 : ℚ) < (10 : ℚ) ^ e :=
  zpow_pos (by norm_num) e

-- ---------------------------------------------------------------------------
-- Lengths
-- ---------------------------------------------------------------------------

theorem countDigits_spec {n : Nat} (hn : 0 < n) :
    1 ≤ countDigits n ∧ tenTo (countDigits n - 1) ≤ n ∧ n < tenTo (countDigits n) := by
  induction n using Nat.strongRecOn with
  | ind n ih =>
    rw [countDigits]
    split
    · rename_i hSmall
      exact ⟨Nat.le_refl 1, hn, hSmall⟩
    · rename_i hLarge
      obtain ⟨hOne, hLow, hHigh⟩ := ih (n / 10) (by omega) (by omega)
      have hStep : tenTo (countDigits (n / 10)) = 10 * tenTo (countDigits (n / 10) - 1) := by
        unfold tenTo
        obtain ⟨k, hk⟩ : ∃ k, countDigits (n / 10) = k + 1 := ⟨countDigits (n / 10) - 1, by omega⟩
        rw [hk, Nat.add_sub_cancel]
        exact Nat.pow_succ'
      have hNext : tenTo (countDigits (n / 10) + 1) = 10 * tenTo (countDigits (n / 10)) :=
        Nat.pow_succ'
      refine ⟨by omega, ?_, ?_⟩
      · rw [Nat.add_sub_cancel, hStep]
        omega
      · rw [hNext]
        omega

theorem hasLength_spec {n length : Nat} (hn : 0 < n) (hOne : 1 ≤ length)
    (h : hasLength n length = true) : tenTo (length - 1) ≤ n ∧ n < tenTo length := by
  obtain ⟨hLow, hHigh⟩ : (length = 1 ∨ tenTo (length - 1) ≤ n) ∧ n < tenTo length := by
    simpa [hasLength] using h
  refine ⟨?_, hHigh⟩
  rcases hLow with rfl | hLow
  · exact hn
  · exact hLow

/-- **The length of a number** bounds it by powers of ten. -/
theorem decimalLength_spec {n : Nat} (hn : 0 < n) :
    tenTo (decimalLength n - 1) ≤ n ∧ n < tenTo (decimalLength n) ∧ 1 ≤ decimalLength n := by
  unfold decimalLength
  dsimp only
  split
  · rename_i h
    obtain ⟨hLow, hHigh⟩ := hasLength_spec hn (by omega) h
    exact ⟨hLow, hHigh, by omega⟩
  · split
    · rename_i h
      obtain ⟨hLow, hHigh⟩ := hasLength_spec hn (by omega) h
      exact ⟨hLow, hHigh, by omega⟩
    · obtain ⟨hOne, hLow, hHigh⟩ := countDigits_spec hn
      exact ⟨hLow, hHigh, hOne⟩

/-- **The leading position** of a quotient bounds it by powers of ten. -/
theorem leadingPosition_spec {num den : Nat} (hNum : 0 < num) (hDen : 0 < den) :
    (10 : ℚ) ^ (leadingPosition num den - 1) ≤ num / den ∧
      (num / den : ℚ) < (10 : ℚ) ^ leadingPosition num den := by
  obtain ⟨hNumLow, hNumHigh, hNumOne⟩ := decimalLength_spec hNum
  obtain ⟨hDenLow, hDenHigh, hDenOne⟩ := decimalLength_spec hDen
  have hDenQ : (0 : ℚ) < den := by exact_mod_cast hDen
  -- the quotient of the bounds of both numbers
  have hLow : (10 : ℚ) ^ ((decimalLength num : Int) - decimalLength den - 1) ≤ num / den := by
    have hNumQ : (10 : ℚ) ^ (decimalLength num - 1) ≤ num := by
      rw [← cast_tenTo]
      exact_mod_cast hNumLow
    have hDenQ' : (den : ℚ) ≤ (10 : ℚ) ^ decimalLength den := by
      rw [← cast_tenTo]
      exact_mod_cast hDenHigh.le
    have hSplit : (10 : ℚ) ^ ((decimalLength num : Int) - decimalLength den - 1) =
        (10 : ℚ) ^ (decimalLength num - 1) / (10 : ℚ) ^ decimalLength den := by
      rw [← zpow_natCast, ← zpow_natCast, ← zpow_sub₀ (by norm_num)]
      congr 1
      omega
    rw [hSplit]
    exact div_le_div₀ (by positivity) hNumQ hDenQ hDenQ'
  have hHigh : (num / den : ℚ) < (10 : ℚ) ^ ((decimalLength num : Int) - decimalLength den + 1) := by
    have hNumQ : (num : ℚ) < (10 : ℚ) ^ decimalLength num := by
      rw [← cast_tenTo]
      exact_mod_cast hNumHigh
    have hDenQ' : (10 : ℚ) ^ (decimalLength den - 1) ≤ den := by
      rw [← cast_tenTo]
      exact_mod_cast hDenLow
    have hSplit : (10 : ℚ) ^ ((decimalLength num : Int) - decimalLength den + 1) =
        (10 : ℚ) ^ decimalLength num / (10 : ℚ) ^ (decimalLength den - 1) := by
      rw [← zpow_natCast, ← zpow_natCast, ← zpow_sub₀ (by norm_num)]
      congr 1
      omega
    rw [hSplit]
    exact div_lt_div₀ hNumQ hDenQ' (by positivity) (by positivity)
  unfold leadingPosition
  dsimp only
  generalize (decimalLength num : Int) - decimalLength den = p at hLow hHigh
  have hCompare : (10 : ℚ) ^ p ≤ num / den ↔ den * tenTo p.toNat ≤ num * tenTo (-p).toNat := by
    have hPos : (0 : ℚ) < tenTo (-p).toNat := by exact_mod_cast tenTo_pos _
    rw [ten_zpow, div_le_div_iff₀ hPos hDenQ, mul_comm]
    exact_mod_cast Iff.rfl
  split
  · rename_i h
    rw [add_sub_cancel_right]
    exact ⟨hCompare.mpr h, hHigh⟩
  · rename_i h
    exact ⟨hLow, not_le.mp fun hLe => h (hCompare.mp hLe)⟩

-- ---------------------------------------------------------------------------
-- Quotients
-- ---------------------------------------------------------------------------

theorem dropZeros_spec (k n : Nat) :
    (dropZeros k n).1 * tenTo (dropZeros k n).2 = n ∧ (dropZeros k n).1 ≤ n := by
  induction k generalizing n with
  | zero => exact ⟨Nat.mul_one n, Nat.le_refl n⟩
  | succ k ih =>
    rw [dropZeros]
    split
    · rename_i hZero
      obtain ⟨hValue, hLe⟩ := ih (n / 10)
      dsimp only
      have hStep : tenTo ((dropZeros k (n / 10)).2 + 1) = 10 * tenTo (dropZeros k (n / 10)).2 :=
        Nat.pow_succ'
      refine ⟨?_, by omega⟩
      rw [hStep, Nat.mul_left_comm, hValue]
      omega
    · exact ⟨Nat.mul_one n, Nat.le_refl n⟩

theorem dropZeros_le (k n : Nat) : (dropZeros k n).2 ≤ k := by
  induction k generalizing n with
  | zero => exact Nat.le_refl 0
  | succ k ih =>
    rw [dropZeros]
    split
    · exact Nat.succ_le_succ (ih (n / 10))
    · exact Nat.zero_le _

namespace Decimal

/-- The exact value of a decimal, sign aside. -/
def magnitude (d : Decimal) : ℚ :=
  d.digits * (10 : ℚ) ^ d.exponent

@[simp] theorem magnitude_zero (negative : Bool) (e : Int) : magnitude ⟨negative, 0, e⟩ = 0 := by
  simp [magnitude]

@[simp] theorem magnitude_one (negative : Bool) (e : Int) :
    magnitude ⟨negative, 1, e⟩ = (10 : ℚ) ^ e := by
  simp [magnitude]

/-- A positive number is the quotient of its numerator and denominator. -/
theorem ofRat_eq_quotient {q : ℚ} (hq : 0 < q) :
    ∃ k : Nat, 0 < k ∧ (k / q.den : ℚ) = q ∧ ofRat q = quotient false k q.den := by
  have hNum := Rat.num_pos.mpr hq
  obtain ⟨k, hk⟩ := Int.eq_ofNat_of_zero_le hNum.le
  refine ⟨k, by omega, ?_, ?_⟩
  · have hParts := Rat.num_div_den q
    rwa [hk, Int.cast_natCast] at hParts
  · unfold ofRat
    rw [hk]
    rfl

/-- **A quotient far below the least exponent** is rounded to zero. -/
theorem quotient_tiny {negative : Bool} {num den : Nat} (hNum : 0 < num)
    (hTiny : 2 * (num * tenTo (-leastExponent).toNat) < den) :
    quotient negative num den = ⟨negative, 0, leastExponent⟩ := by
  have hDen : 0 < den := by omega
  have hDenQ : (0 : ℚ) < den := by exact_mod_cast hDen
  obtain ⟨hLow, -⟩ := leadingPosition_spec hNum hDen
  have hNegative : leastExponent.toNat = 0 := by decide
  unfold quotient
  generalize leadingPosition num den = lead at hLow
  generalize leastExponent = least at hTiny hNegative
  have hLess : num * tenTo (-least).toNat < den := by omega
  -- the leading digit is behind the last place
  have hLead : lead ≤ least := by
    have hBelow : (num / den : ℚ) < (10 : ℚ) ^ least := by
      have hPos : (0 : ℚ) < tenTo (-least).toNat := by exact_mod_cast tenTo_pos _
      rw [ten_zpow, hNegative, div_lt_div_iff₀ hDenQ hPos]
      have hOne : tenTo 0 = 1 := rfl
      rw [hOne, Nat.cast_one, one_mul]
      exact_mod_cast hLess
    have hExponent := (zpow_lt_zpow_iff_right₀ (by norm_num)).mp (hLow.trans_lt hBelow)
    omega
  have hLast : max (lead - (precision : Int)) least = least := by omega
  have hSome : num * tenTo (-least).toNat ≠ 0 := Nat.mul_ne_zero (by omega) (tenTo_pos _).ne'
  dsimp only
  rw [hLast, hNegative, show den * tenTo 0 = den from Nat.mul_one den]
  generalize num * tenTo (-least).toNat = rest at hTiny hLess hSome
  have hRound : roundHalfEven rest den = 0 := by
    unfold roundHalfEven
    dsimp only
    rw [Nat.mod_eq_of_lt hLess, Nat.div_eq_of_lt hLess, if_neg (by omega)]
  rw [Nat.mod_eq_of_lt hLess, if_neg hSome, hRound, if_neg (tenTo_pos precision).ne]

/-- A small power of ten is rounded to zero. -/
theorem ofRat_tiny {places : Nat} (h : -leastExponent < places) :
    ofRat ((10 : ℚ) ^ (-(places : Int))) = ⟨false, 0, leastExponent⟩ := by
  have hTiny : 2 * (1 * tenTo (-leastExponent).toNat) < tenTo places := by
    have hNegative : leastExponent ≤ 0 := by decide
    generalize hLast : (-leastExponent).toNat = last
    have hPos := tenTo_pos last
    have hStep : tenTo (last + 1) = 10 * tenTo last := Nat.pow_succ'
    have hMono : tenTo (last + 1) ≤ tenTo places := tenTo_mono (by omega)
    omega
  unfold ofRat
  rw [ten_zpow_neg, Rat.inv_natCast_num_of_pos (tenTo_pos places),
    Rat.inv_natCast_den_of_pos (tenTo_pos places), Int.natAbs_one, quotient_tiny Nat.one_pos hTiny]
  rfl

end Decimal

end Reckoner
