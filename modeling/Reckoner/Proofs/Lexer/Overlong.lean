import Reckoner.Alias.Table
import Reckoner.Proofs.Lexer.Stretches

/-!
# Numbers of too many digits

An integer is read from a bounded number of digits. A numeral with a longer run of them (`IsOverlong`) is
well formed and has no value, and a text with such a numeral is not read. There is no other reason for
which a text is not read for its digits.

## Results

* `Aliases.tokens_digits`   — a text that is not read for its digits holds too long a run of them.
* `Aliases.tokens_overlong` — a text that is such a run is not read.
-/

namespace Reckoner

open Lexer (AreDecimal IsNumeral tokensFrom)

-- ---------------------------------------------------------------------------
-- Runs of digits
-- ---------------------------------------------------------------------------

/-- A run of more decimal digits than an integer may be read from. -/
structure IsOverlong (digits : List Char) : Prop where
  decimal : AreDecimal digits
  long : maxDigits < digits.length

/-- A numeral that has no value has a part that is too long. -/
theorem Numeral.overlong_of_value {n : Numeral} (hn : IsNumeral n) {limit : DigitLimit}
    (h : n.value = .error limit) : ∃ digits, IsOverlong digits ∧ digits <:+: n.text := by
  have hShort : ¬ n.Short := by
    intro hShort
    rw [Numeral.value_of_short hShort] at h
    cases h
  obtain ⟨whole, fraction, exponent⟩ := n
  unfold Numeral.text
  dsimp only
  by_cases hWhole : whole.length ≤ maxDigits
  · by_cases hFraction : (fraction.getD []).length ≤ maxDigits
    · have hExponent : ¬ ∀ e ∈ exponent, e.digits.length ≤ maxDigits :=
        fun hAll => hShort ⟨hWhole, hFraction, hAll⟩
      push Not at hExponent
      obtain ⟨e, he, hLong⟩ := hExponent
      obtain rfl := Option.mem_def.mp he
      refine ⟨e.digits, ⟨(hn.exponent e rfl).2.2, hLong⟩, ?_⟩
      refine (List.IsSuffix.isInfix ?_).trans (List.suffix_append _ _).isInfix
      exact (List.suffix_append _ _).trans (List.suffix_cons _ _)
    · cases fraction with
      | none => exact absurd (Nat.zero_le _) hFraction
      | some ds =>
        refine ⟨ds, ⟨hn.fraction ds rfl, Nat.lt_of_not_le hFraction⟩, ?_⟩
        refine List.IsInfix.trans ?_ (List.prefix_append _ _).isInfix
        exact ((List.suffix_cons _ ds).trans (List.suffix_append _ _)).isInfix
  · refine ⟨whole, ⟨hn.whole, Nat.lt_of_not_le hWhole⟩, ?_⟩
    exact ((List.prefix_append _ _).trans (List.prefix_append _ _)).isInfix

namespace Lexer

/-- A number that cannot be read has a run of too many digits. -/
theorem read_digits {units : List String} {cs taken : List Char} {limit : DigitLimit}
    (h : read units cs = .fault (.digits limit) taken) :
    ∃ digits, IsOverlong digits ∧ digits <:+: cs := by
  cases cs with
  | nil => cases h
  | cons c cs =>
    rw [read] at h
    split at h
    · cases h
    split at h
    · cases h
    split at h
    · rename_i hDigit
      unfold readNumber at h
      split at h
      · cases h
      · rename_i n rest hRead
        split at h
        · cases h
        · rename_i limit hValue
          obtain ⟨hText, hNumeral, -⟩ := numeral_read_ok hDigit hRead
          obtain ⟨digits, hLong, hInside⟩ := Numeral.overlong_of_value hNumeral hValue
          rw [hText]
          exact ⟨digits, hLong, hInside.trans (List.prefix_append _ _).isInfix⟩
    split at h
    · cases h
    split at h
    · split at h <;> cases h
    · split at h <;> cases h

theorem tokenize_digits {units : List String} {source : String} {place : Place} {limit : DigitLimit}
    (h : tokenize units source = .error ⟨.digits limit, place⟩) :
    ∃ digits, IsOverlong digits ∧ digits <:+: source.toList := by
  obtain ⟨front, tokens, rest, hText, -, hRefused, -⟩ := tokensAt_error h
  cases hRefused with
  | fault hRead =>
    obtain ⟨digits, hLong, hInside⟩ := read_digits hRead
    rw [hText]
    exact ⟨digits, hLong, hInside.trans (List.suffix_append _ _).isInfix⟩

end Lexer

/-- A text that is not read for its digits holds too long a run of them. -/
theorem Aliases.tokens_digits {a : Aliases} {source : String} {limit : DigitLimit} {place : Place}
    (h : a.tokens source = .error ⟨.digits limit, place⟩) :
    ∃ digits, IsOverlong digits ∧ digits <:+: source.toList := by
  unfold Aliases.tokens at h
  cases hTokens : tokenize a.prefixUnits source with
  | ok tokens => rw [hTokens] at h; cases h
  | error e =>
    rw [hTokens] at h
    obtain rfl := Except.error.inj h
    exact Lexer.tokenize_digits hTokens

/-- A number that is too long is not read. -/
theorem Aliases.tokens_overlong (a : Aliases) {ds : List Char} (hSome : ds ≠ []) (h : AreDigits ds)
    (hLong : maxDigits < ds.length) :
    a.tokens (String.ofList ds) = .error ⟨.digits (.reading ds.length), .start⟩ := by
  have hDecimal : ∀ c ∈ ds, Unicode.isDecimalDigit c = true :=
    fun c hc => isDecimalDigit_of_isDigit (h c hc)
  have hRead : Numeral.read ds = .ok (⟨ds, none, none⟩, []) := by
    have hNumeral : IsNumeral ⟨ds, none, none⟩ := ⟨⟨hSome, hDecimal⟩, by simp, by simp⟩
    have hText := @Numeral.read_complete _ [] hNumeral ⟨by simp, fun _ => rfl, fun _ => rfl⟩
    simpa [Numeral.text] using hText
  have hValue : Numeral.value ⟨ds, none, none⟩ = .error (.reading ds.length) := by
    rw [Numeral.value, readDigits, if_pos hLong]
    rfl
  have hNumber : Lexer.readNumber ds = .fault (.digits (.reading ds.length)) ds := by
    rw [Lexer.readNumber, hRead]
    dsimp only
    rw [hValue]
    simp [Numeral.text]
  obtain ⟨d, more, rfl⟩ := List.exists_cons_of_ne_nil hSome
  rw [Aliases.tokens, tokenize, String.toList_ofList, List.length_cons, tokensFrom,
    Lexer.read_of_isDecimalDigit _ (hDecimal d List.mem_cons_self), hNumber]
  rfl

end Reckoner
