import Reckoner.Proofs.Lexer.Reading
import Reckoner.Proofs.Number.Rounding

/-!
# Numbers that are written and read

The text of a number is one numeral, in plain or in scientific notation, whatever the prefix units are. An
integer is read back as it is, and any other number rounded to the digits that a quotient keeps. So a
number is read back exactly as long as these are enough to write it, and two such numbers have different
texts.

## Results

* `printed_integer`        — an integer is read back as it is.
* `printed_fraction`       — any other number is read back rounded.
* `printed_number_rereads` — both, and numbers that are not rounded have different texts.
-/

namespace Reckoner

open Decimal (precision leastExponent)
open Render (formatNumber)

/-- A number of the range in which it is written by a numeral that can be read: an integer of at most
4300 digits, or a fraction between two powers of ten. -/
structure IsPrintable (q : ℚ) : Prop where
  nonneg : 0 ≤ q
  integer : q.den = 1 → q < 10 ^ maxDigits
  fraction : q.den ≠ 1 → (10 : ℚ) ^ (-999000 : Int) < q ∧ q < (10 : ℚ) ^ (999000 : Int)

/-- A number that is written without rounding. -/
def IsUnrounded (q : ℚ) : Prop :=
  q.den = 1 ∨ HasDigits precision q

variable {q : ℚ}

/-- The text of a numeral is one token, whatever the prefix units are. -/
theorem tokenize_numeral (units : List String) {n : Numeral} {text : String}
    (hRegular : n.Regular) (hValue : n.value = .ok q) (hText : text.toList = n.text) :
    tokenize units text = .ok [⟨.number (.fraction q), .start⟩] := by
  have hRead := Lexer.read_numeral (Lexer.symbolUnits units) hRegular hValue endsNumeral_nil
  rw [List.append_nil, ← hText] at hRead
  exact Lexer.tokenize_token hRead nofun

/-- The text of an integer is read back. -/
theorem printed_integer (units : List String) (h : IsPrintable q) (hDen : q.den = 1) :
    ∃ text, formatNumber (.fraction q) = .ok text ∧
      tokenize units text = .ok [⟨.number (.fraction q), .start⟩] := by
  have hShort : tooManyDigits q.num = false := by
    obtain ⟨k, hk⟩ := Int.eq_ofNat_of_zero_le (Rat.num_nonneg.mpr h.nonneg)
    have hLess := h.integer hDen
    rw [← (Rat.den_eq_one_iff q).mp hDen, hk, ← cast_tenTo] at hLess
    have hLess : k < tenTo maxDigits := by exact_mod_cast hLess
    unfold tooManyDigits
    rw [hk]
    simpa using hLess
  obtain ⟨n, hn⟩ := writes_integer h.nonneg hDen hShort
  obtain ⟨text, hFormat, hText⟩ := hn.text
  exact ⟨text, hFormat, tokenize_numeral units hn.regular hn.value hText⟩

/-- The text of a fraction is read back rounded. -/
theorem printed_fraction (units : List String) (h : IsPrintable q) (hDen : q.den ≠ 1) :
    ∃ text r, formatNumber (.fraction q) = .ok text ∧
      tokenize units text = .ok [⟨.number (.fraction r), .start⟩] ∧ IsRounding precision q r := by
  obtain ⟨hLow, hHigh⟩ := h.fraction hDen
  obtain ⟨k, hNum, hSplit, hQuotient⟩ := Decimal.ofRat_eq_quotient ((ten_zpow_pos _).trans hLow)
  obtain ⟨hLeadLow, hLeadHigh⟩ := leadingPosition_spec hNum q.den_pos
  have hRounds := Decimal.quotient_roundsAt false hNum q.den_pos
  have hRounding := Decimal.quotient_isRounding false hNum q.den_pos
  have hSign := Decimal.quotient_negative false k q.den
  rw [← hQuotient] at hRounds hRounding hSign
  rw [hSplit] at hLeadLow hLeadHigh hRounding
  -- the range keeps the leading position away from the least exponent
  have hAbove := (zpow_lt_zpow_iff_right₀ (by norm_num)).mp (hLow.trans hLeadHigh)
  have hBelow := (zpow_lt_zpow_iff_right₀ (by norm_num)).mp (hLeadLow.trans_lt hHigh)
  have hPrecision : precision = 64 := rfl
  have hLeast : leastExponent ≤ leadingPosition k q.den - precision := by
    show -1000062 ≤ leadingPosition k q.den - 64
    omega
  have hLast : Decimal.lastPlace k q.den = leadingPosition k q.den - precision := max_eq_left hLeast
  have hExponent : (Decimal.ofRat q).exponent.natAbs < 10000000 := by
    have hLeft := hRounds.low
    have hRight := hRounds.high
    omega
  refine ⟨(Decimal.ofRat q).text, (Decimal.ofRat q).magnitude, if_neg hDen, ?_, hRounding hLeast⟩
  exact tokenize_numeral units (Decimal.numeral_regular _)
    (Decimal.numeral_value hRounds.digits hExponent) (Decimal.text_eq hSign)

/-- What a number is read back as. -/
theorem printed_rereads (units : List String) (h : IsPrintable q) :
    ∃ text r, formatNumber (.fraction q) = .ok text ∧
      tokenize units text = .ok [⟨.number (.fraction r), .start⟩] ∧
      (IsUnrounded q → r = q) ∧ (¬ IsUnrounded q → ∀ s, IsRounding precision q s ↔ s = r) := by
  by_cases hDen : q.den = 1
  · obtain ⟨text, hFormat, hToken⟩ := printed_integer units h hDen
    exact ⟨text, q, hFormat, hToken, fun _ => rfl, fun hRounded => absurd (Or.inl hDen) hRounded⟩
  · obtain ⟨text, r, hFormat, hToken, hRounding⟩ := printed_fraction units h hDen
    refine ⟨text, r, hFormat, hToken, fun hUnrounded => ?_, fun _ s => ⟨fun hs => ?_, ?_⟩⟩
    · exact hRounding.eq_self (hUnrounded.resolve_left hDen)
    · exact hs.unique hRounding
    · rintro rfl
      exact hRounding

/-- **A number is written and read back** as one number token, in which it is the same number if no
digits had to be left out, and otherwise the one rounding of it to 64 significant digits. Numbers that
are written exactly have different texts. -/
theorem printed_number_rereads (units : List String) (h : IsPrintable q) :
    ∃ text r, formatNumber (.fraction q) = .ok text ∧
      tokenize units text = .ok [⟨.number (.fraction r), .start⟩] ∧
      (IsUnrounded q → r = q) ∧
      (¬ IsUnrounded q → ∀ s, IsRounding precision q s ↔ s = r) ∧
      (IsUnrounded q → ∀ q', IsPrintable q' → IsUnrounded q' → q' ≠ q →
        formatNumber (.fraction q') ≠ .ok text) := by
  obtain ⟨text, r, hFormat, hToken, hSame, hRounded⟩ := printed_rereads units h
  refine ⟨text, r, hFormat, hToken, hSame, hRounded, fun hUnrounded q' h' hUnrounded' hOther hFormat' => ?_⟩
  obtain ⟨text', r', hText', hToken', hSame', -⟩ := printed_rereads units h'
  -- one text is read as one number
  obtain rfl := Except.ok.inj (hFormat'.symm.trans hText')
  have hFirst := (List.cons.inj (Except.ok.inj (hToken'.symm.trans hToken))).1
  have hValue : r' = r := Payload.fraction.inj (Content.number.inj (Token.mk.inj hFirst).1)
  exact hOther ((hSame' hUnrounded').symm.trans (hValue.trans (hSame hUnrounded)))

/-- Two thirds are rounded, and `5E-8` is in scientific notation. -/
theorem two_thirds_reread :
    IsPrintable (2 / 3) ∧ IsPrintable (5 / 10 ^ 8) ∧
      (∃ r, tokenize ["$"] "0.6666666666666666666666666666666666666666666666666666666666666667" =
        .ok [⟨.number (.fraction r), .start⟩] ∧ ∀ s, IsRounding precision (2 / 3) s ↔ s = r) ∧
      tokenize ["$"] "5E-8" = .ok [⟨.number (.fraction (5 / 10 ^ 8)), .start⟩] := by
  have hRange : ∀ q : ℚ, 0 ≤ q → q.den ≠ 1 → (10 : ℚ) ^ (-8 : Int) ≤ q → q < 1 → IsPrintable q := by
    refine fun q hq hDen hLow hHigh => ⟨hq, fun hOne => absurd hOne hDen, fun _ => ⟨?_, ?_⟩⟩
    · exact (zpow_lt_zpow_right₀ (by norm_num) (by norm_num)).trans_le hLow
    · exact hHigh.trans (one_lt_zpow₀ (by norm_num) (by norm_num))
  have hThirds : IsPrintable (2 / 3) :=
    hRange _ (by norm_num) (by decide +kernel) (by norm_num) (by norm_num)
  have hSmall : IsPrintable (5 / 10 ^ 8) :=
    hRange _ (by norm_num) (by decide +kernel) (by norm_num) (by norm_num)
  refine ⟨hThirds, hSmall, ?_, ?_⟩
  · obtain ⟨text, r, hFormat, hToken, hSame, hRounded, -⟩ := printed_number_rereads ["$"] hThirds
    have hText : formatNumber (.fraction (2 / 3)) =
        .ok "0.6666666666666666666666666666666666666666666666666666666666666667" := by
      decide +kernel
    obtain rfl := Except.ok.inj (hText.symm.trans hFormat)
    refine ⟨r, hToken, hRounded fun hUnrounded => ?_⟩
    -- the text writes another number
    have hWritten : tokenize ["$"] "0.6666666666666666666666666666666666666666666666666666666666666667" =
        .ok [⟨.number (.fraction (Numeral.scaled
          6666666666666666666666666666666666666666666666666666666666666667 (-64))), .start⟩] := rfl
    have hFirst := (List.cons.inj (Except.ok.inj (hToken.symm.trans hWritten))).1
    have hValue := Payload.fraction.inj (Content.number.inj (Token.mk.inj hFirst).1)
    rw [hSame hUnrounded, Numeral.scaled_eq] at hValue
    norm_num at hValue
  · obtain ⟨text, r, hFormat, hToken, hSame, -⟩ := printed_number_rereads ["$"] hSmall
    have hText : formatNumber (.fraction (5 / 10 ^ 8)) = .ok "5E-8" := by decide +kernel
    obtain rfl := Except.ok.inj (hText.symm.trans hFormat)
    rw [hToken, hSame (.inr ⟨5, -8, by decide, by norm_num⟩)]

end Reckoner
