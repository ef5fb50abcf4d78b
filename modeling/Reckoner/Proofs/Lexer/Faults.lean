import Reckoner.Proofs.Lexer.Literals
import Reckoner.Proofs.Lexer.Partition
import Reckoner.Proofs.Lexer.Spacing
import Reckoner.Proofs.Lexer.Units

/-!
# Where errors point

An error in a text points at the first character of which no token can be made. The text in front of it
is tokenized, also where it stands alone, although the tokens there were read with an eye on what is
behind them (`ReadsOver.alone`). At the place itself stands one of three things (`Misread`): a quote
that no other quote closes, a numeral with two points, or a character that starts nothing. A number that
is too long to be converted is no error of this kind: it is reported without its place.

## Results

* `Refused.misread`      — what stands where no token is read.
* `tokenize_error_place` — an error points at the first character of which no token is made.
-/

namespace Reckoner

namespace Lexer

open Unicode (isDecimalDigit)

-- ---------------------------------------------------------------------------
-- What is misread
-- ---------------------------------------------------------------------------

/-- A character that starts no token in front of the text `cs`. -/
structure StartsNothing (units : List String) (c : Char) (cs : List Char) : Prop where
  blank : c ∉ blankChars
  comment : c ≠ '#'
  word : isWordStart c = false
  digit : isDecimalDigit c = false
  quote : c ∉ ['"', '\'']
  operator : ∀ entry ∈ Symbol.operatorSpellings, ¬ entry.1 <+: c :: cs
  unit : ∀ u, ¬ UnitAhead units (c :: cs) u

/-- What stands at the start of a text that is refused for a fault: a quote behind which no body of a
string is followed by the same quote, two points in a numeral, or a character that starts nothing. -/
inductive Misread (units : List String) : Fault → List Char → Prop
  | openString {quote : Char} {cs : List Char} (quote_mem : quote ∈ ['"', '\''])
      (never : ∀ body text rest, Quotes quote body text → cs ≠ body ++ quote :: rest) :
      Misread units .unterminatedString (quote :: cs)
  | numeral {cs : List Char} (point : HasSecondPoint cs) : Misread units .invalidNumber cs
  | character {c : Char} {cs : List Char} (nothing : StartsNothing units c cs) :
      Misread units (.unexpected (String.ofList [c])) (c :: cs)

variable {units : List String} {c : Char} {cs : List Char}

/-- Where no operator is matched, no spelling starts. -/
theorem matchOperator?_none (h : matchOperator? cs = none) :
    ∀ entry ∈ Symbol.operatorSpellings, ¬ entry.1 <+: cs := by
  intro entry hEntry hPrefix
  have hSpells := ofOperator?_spelling entry hEntry
  obtain ⟨hSome, hLength⟩ := operator_length entry hEntry
  have hPos := List.length_pos_iff.mpr hSome
  rw [List.prefix_iff_eq_take.mp hPrefix] at hSpells
  have hMatch : operatorOfSize? entry.1.length cs = some (entry.2, cs.drop entry.1.length) := by
    rw [operatorOfSize?, hSpells]
    rfl
  unfold matchOperator? at h
  rcases (by omega : entry.1.length = 2 ∨ entry.1.length = 1) with hTwo | hOne
  · rw [← hTwo, hMatch] at h
    cases h
  · rw [← hOne, hMatch] at h
    cases hLonger : operatorOfSize? 2 cs with
    | none => rw [hLonger] at h; cases h
    | some found => rw [hLonger] at h; cases h

/-- A numeral is refused for a second point, or for its digits. -/
theorem misread_numeral {fault : Fault} {taken : List Char} (hDigit : isDecimalDigit c = true)
    (h : readNumber (c :: cs) = .fault fault taken) (hDigits : ∀ limit, fault ≠ .digits limit) :
    Misread units fault (c :: cs) := by
  unfold readNumber at h
  split at h
  · rename_i gone hRead
    obtain ⟨rfl, -⟩ := Reading.fault.inj h
    refine .numeral ?_
    by_contra hNone
    obtain ⟨n, rest, -, hRead', -⟩ := read_longest hDigit hNone
    rw [hRead'] at hRead
    cases hRead
  · split at h
    · cases h
    · obtain ⟨rfl, -⟩ := Reading.fault.inj h
      exact absurd rfl (hDigits _)

theorem misread_string (hQuote : isQuote c = true) (h : readString c cs = none) :
    Misread units .unterminatedString (c :: cs) := by
  refine .openString (by simpa [isQuote] using hQuote) fun body text rest hQuotes hText => ?_
  have hSlash : c ≠ '\\' := by
    rintro rfl
    cases hQuote
  rw [hText, readString_quotes hSlash hQuotes] at h
  cases h

theorem wordContent_ne_stray (word text : String) : wordContent word ≠ .stray text := by
  unfold wordContent
  split <;> simp

theorem readNumber_ne_stray {text : String} {taken rest : List Char} :
    readNumber cs ≠ .token (.stray text) taken rest := by
  unfold readNumber
  split
  · simp
  · split <;> simp

/-- **What stands where no token is read.** -/
theorem Refused.misread {fault : Fault} (h : Refused units cs fault)
    (hDigits : ∀ limit, fault ≠ .digits limit) : Misread units fault cs := by
  cases cs with
  | nil => exact absurd rfl h.ne_nil
  | cons c cs =>
    cases h with
    | fault hRead =>
      rw [read] at hRead
      split at hRead
      · cases hRead
      split at hRead
      · cases hRead
      split at hRead
      · exact misread_numeral ‹_› hRead hDigits
      split at hRead
      · cases hRead
      split at hRead
      · split at hRead
        · cases hRead
        · obtain ⟨rfl, -⟩ := Reading.fault.inj hRead
          exact misread_string ‹_› ‹_›
      · split at hRead <;> cases hRead
    | stray hRead =>
      rw [read] at hRead
      split at hRead
      · cases hRead
      rename_i hNoBlank
      split at hRead
      · exact absurd (Reading.token.inj hRead).1 (wordContent_ne_stray _ _)
      rename_i hNoWord
      split at hRead
      · exact absurd hRead readNumber_ne_stray
      rename_i hNoDigit
      split at hRead
      · cases hRead
      rename_i hNoUnit
      split at hRead
      · split at hRead <;> cases hRead
      rename_i hNoQuote
      split at hRead
      · cases hRead
      rename_i hNoOperator
      obtain ⟨hText, -, -⟩ := Reading.token.inj hRead
      obtain rfl := Content.stray.inj hText
      have hBlanks : ∀ d ∈ '#' :: blankChars, (blankStep false d).isSome = true :=
        List.all_iff_forall_prop.mp (by decide)
      exact .character
        { blank := fun hc => hNoBlank (hBlanks c (List.mem_cons_of_mem _ hc))
          comment := fun hc => hNoBlank (hBlanks c (hc ▸ List.mem_cons_self))
          word := by simpa using hNoWord
          digit := by simpa using hNoDigit
          quote := by simpa [isQuote] using hNoQuote
          operator := matchOperator?_none hNoOperator
          unit := matchUnit?_eq_none_iff.mp hNoUnit }

-- ---------------------------------------------------------------------------
-- Places of errors
-- ---------------------------------------------------------------------------

/-- Of two indices in a text with the same place in front of them there is only one. -/
theorem eq_of_placeAfter_take {i j : Nat} (hi : i ≤ cs.length) (hj : j ≤ cs.length)
    (h : placeAfter (cs.take i) = placeAfter (cs.take j)) : i = j := by
  have hTake : cs.take i = cs.take j :=
    @eq_of_placeAfter_eq cs [] _ _ (List.take_prefix i cs) (List.take_prefix j cs) h
  have hLength := congrArg List.length hTake
  rw [List.length_take, List.length_take] at hLength
  omega

/-- **An error points at the first character of which no token is made.** There is exactly one index in
the text with the place of the error. What is in front of this index is tokenized where it stands alone,
and at the index stands what the error says: a string that is never closed, a numeral with a second
point, or a character that starts no token. -/
theorem tokenize_error_place {units : List String} {source : String} {e : LexError}
    (h : tokenize units source = .error e) (hDigits : ∀ limit, e.fault ≠ .digits limit) :
    ∃ i < source.toList.length,
      (∀ j < source.toList.length, placeAfter (source.toList.take j) = e.place ↔ j = i) ∧
      (∃ tokens, tokenize units (String.ofList (source.toList.take i)) = .ok tokens) ∧
      Misread units e.fault (source.toList.drop i) := by
  obtain ⟨front, tokens, rest, hText, hFront, hRefused, hPlace⟩ := tokensAt_error h
  have hPos := List.length_pos_iff.mpr hRefused.ne_nil
  have hAt : e.place = placeAfter ((front ++ rest).take front.length) := by
    rw [List.take_left, ← placeAfter_eq]
    exact hPlace
  rw [hText]
  refine ⟨front.length, by simpa using hPos, fun j hj => ?_, ⟨tokens, ?_⟩, ?_⟩
  · rw [hAt]
    constructor
    · exact eq_of_placeAfter_take (Nat.le_of_lt hj) (by simp)
    · rintro rfl
      rfl
  · rw [List.take_left, tokenize_eq_tokensAt, String.toList_ofList]
    exact tokensAt_eq_ok_iff.mpr hFront.alone
  · rw [List.drop_left]
    exact hRefused.misread hDigits

/-- A numeral with two points behind a comment with a quote, on the second line. -/
theorem second_point_error_place :
    tokenize ["$"] "x # 'y\n 1.2.3 $" = .error ⟨.invalidNumber, ⟨2, 2⟩⟩ ∧
      (∀ limit, Fault.invalidNumber ≠ .digits limit) ∧
      ∃ i < "x # 'y\n 1.2.3 $".toList.length,
        (∀ j < "x # 'y\n 1.2.3 $".toList.length,
          placeAfter ("x # 'y\n 1.2.3 $".toList.take j) = ⟨2, 2⟩ ↔ j = i) ∧
        (∃ tokens, tokenize ["$"] (String.ofList ("x # 'y\n 1.2.3 $".toList.take i)) = .ok tokens) ∧
        Misread ["$"] .invalidNumber ("x # 'y\n 1.2.3 $".toList.drop i) := by
  have hError : tokenize ["$"] "x # 'y\n 1.2.3 $" = .error ⟨.invalidNumber, ⟨2, 2⟩⟩ := rfl
  exact ⟨hError, nofun, tokenize_error_place hError nofun⟩

end Lexer

end Reckoner
