import Reckoner.Lexer.Stream
import Reckoner.Proofs.Lexer.Lexemes
import Reckoner.Proofs.Place

/-!
# Numerals and strings in a stream

Where a decimal digit of any script is ahead, the next token of a stream is the number of the longest
numeral that is ahead, and nothing is ahead of which that would not hold but two runs of digits with a
point behind each of them and a digit behind the second point. A numeral that may still go on can be
made longer, and one that may not is what the reader finds; so the reader finds the longest.

Where a quote is ahead that no prefix unit starts with, the next token is the string that the parts up
to the closing quote stand for, if the text ahead can be cut into such parts at all.

## Results

* `IsNumeral.exists_complete` — every numeral ahead goes on to one that is complete.
* `read_longest`      — the numeral that is read is the longest.
* `nextToken_numeral` — the next token where a digit is ahead.
* `nextToken_string`  — the next token where a quote is ahead.
-/

namespace Reckoner

open Unicode (isDecimalDigit)

-- ---------------------------------------------------------------------------
-- Streams
-- ---------------------------------------------------------------------------

/-- Behind the characters taken, the rest of the text is ahead. -/
theorem Stream.ahead_advance {s : Stream} {taken rest : List Char} (h : s.ahead = taken ++ rest) :
    (s.advance taken).ahead = rest := by
  unfold Stream.ahead Stream.advance at *
  dsimp only
  split at h
  · obtain ⟨rfl, rfl⟩ := List.nil_eq_append_iff.mp h
    rename_i hNegative
    rw [if_pos (by simpa using hNegative)]
  · rw [if_neg (by omega), show (s.position + taken.length).toNat = s.position.toNat + taken.length by omega,
      ← List.drop_drop, h, List.drop_left]

namespace Lexer

-- ---------------------------------------------------------------------------
-- The longest numeral
-- ---------------------------------------------------------------------------

/-- Two runs of digits are ahead with a point behind each of them, and a digit behind the second. -/
def HasSecondPoint (cs : List Char) : Prop :=
  ∃ whole fraction d rest, AreDecimal whole ∧ AreDecimal fraction ∧ isDecimalDigit d = true ∧
    cs = whole ++ '.' :: (fraction ++ '.' :: d :: rest)

/-- The longest of the texts with a property that `cs` starts with. -/
structure IsLongest (p : List Char → Prop) (cs taken : List Char) : Prop where
  holds : p taken
  ahead : taken <+: cs
  longest : ∀ other, p other → other <+: cs → other.length ≤ taken.length

/-- The text of a numeral: `D+ ( . D+ )? ( [eE] [+-]? D+ )?`, for decimal digits `D`. -/
def IsNumeralText (text : List Char) : Prop :=
  ∃ n, IsNumeral n ∧ n.text = text

variable {cs rest : List Char} {n : Numeral}

/-- A numeral goes on with a digit. -/
theorem IsNumeral.exists_digit (h : IsNumeral n) {d : Char} (hd : isDecimalDigit d = true) :
    ∃ m, IsNumeral m ∧ m.text = n.text ++ [d] := by
  have hMore : ∀ {ds}, AreDecimal ds → AreDecimal (ds ++ [d]) := fun hDs =>
    ⟨by simp, List.forall_mem_append.mpr ⟨hDs.2, by simpa using hd⟩⟩
  obtain ⟨whole, fraction, exponent⟩ := n
  obtain ⟨hWhole, hFraction, hExponent⟩ := h
  cases exponent with
  | some e =>
    obtain ⟨hMark, hSign, hDigits⟩ := hExponent e rfl
    refine ⟨⟨whole, fraction, some ⟨e.mark, e.sign, e.digits ++ [d]⟩⟩, ⟨hWhole, hFraction, ?_⟩, ?_⟩
    · simpa using ⟨hMark, hSign, hMore hDigits⟩
    · simp [Numeral.text, Exponent.text]
  | none =>
    cases fraction with
    | some ds =>
      refine ⟨⟨whole, some (ds ++ [d]), none⟩, ⟨hWhole, ?_, by simp⟩, by simp [Numeral.text]⟩
      simpa using hMore (hFraction ds rfl)
    | none => exact ⟨⟨whole ++ [d], none, none⟩, ⟨hMore hWhole, by simp, by simp⟩, by simp [Numeral.text]⟩

/-- A numeral that is not complete is ahead of a longer one, unless the text has a second point. -/
theorem IsNumeral.exists_longer (h : IsNumeral n) (hText : cs = n.text ++ rest)
    (hPoint : ¬ HasSecondPoint cs) (hOpen : ¬ n.Complete rest) :
    ∃ m more, IsNumeral m ∧ cs = m.text ++ more ∧ n.text.length < m.text.length := by
  by_cases hDigit : ∀ d ∈ rest.head?, isDecimalDigit d = false
  · obtain ⟨whole, fraction, exponent⟩ := n
    have hNone : exponent = none := by
      cases exponent with
      | none => rfl
      | some e => exact absurd ⟨hDigit, by simp, by simp⟩ hOpen
    subst hNone
    cases hFraction : Numeral.readFraction rest with
    | some found =>
      obtain ⟨ds, more⟩ := found
      obtain ⟨rfl, hDigits, -⟩ := readFraction_some hFraction
      cases fraction with
      | none =>
        refine ⟨⟨whole, some ds, none⟩, more, ⟨h.whole, by simpa using hDigits, by simp⟩, ?_, ?_⟩
        · simp [hText, Numeral.text]
        · simp [Numeral.text]
      | some first =>
        -- the numeral has a point already
        obtain ⟨d, ds, rfl⟩ := List.exists_cons_of_ne_nil hDigits.1
        refine absurd ⟨whole, first, d, ds ++ more, h.whole, h.fraction first rfl,
          hDigits.2 d List.mem_cons_self, ?_⟩ hPoint
        simp [hText, Numeral.text]
    | none =>
      cases hExponent : Numeral.readExponent rest with
      | some found =>
        obtain ⟨e, more⟩ := found
        obtain ⟨rfl, hMark, hSign, hDigits, -⟩ := readExponent_some hExponent
        refine ⟨⟨whole, fraction, some e⟩, more, ⟨h.whole, h.fraction, ?_⟩, ?_, ?_⟩
        · simpa using ⟨hMark, hSign, hDigits⟩
        · simp [hText, Numeral.text]
        · simp [Numeral.text, Exponent.text]
      | none => exact absurd ⟨hDigit, fun _ => hFraction, fun _ => hExponent⟩ hOpen
  · obtain ⟨d, more, rfl, hd⟩ : ∃ d more, rest = d :: more ∧ isDecimalDigit d = true := by
      cases rest with
      | nil => exact absurd (by simp) hDigit
      | cons d more => exact ⟨d, more, rfl, by simpa using hDigit⟩
    obtain ⟨m, hm, hLonger⟩ := h.exists_digit hd
    exact ⟨m, more, hm, by simp [hLonger, hText], by simp [hLonger]⟩

/-- **Every numeral ahead goes on to one that is complete**, unless the text has a second point. The
induction is on what is behind the numeral. -/
theorem IsNumeral.exists_complete (h : IsNumeral n) (hText : cs = n.text ++ rest)
    (hPoint : ¬ HasSecondPoint cs) :
    ∃ m more, IsNumeral m ∧ m.Complete more ∧ cs = m.text ++ more ∧ n.text.length ≤ m.text.length := by
  induction hLength : rest.length using Nat.strong_induction_on generalizing n rest with
  | _ k ih =>
    by_cases hComplete : n.Complete rest
    · exact ⟨n, rest, h, hComplete, hText, Nat.le_refl _⟩
    · obtain ⟨m, more, hm, hMore, hLonger⟩ := h.exists_longer hText hPoint hComplete
      have hLengths := congrArg List.length (hText.symm.trans hMore)
      rw [List.length_append, List.length_append] at hLengths
      obtain ⟨m', more', hm', hComplete', hMore', hLonger'⟩ := ih more.length (by omega) hm hMore rfl
      exact ⟨m', more', hm', hComplete', hMore', by omega⟩

/-- **The numeral that is read is the longest**: where a digit is ahead and no second point. -/
theorem read_longest {d : Char} (hd : isDecimalDigit d = true) (hPoint : ¬ HasSecondPoint (d :: cs)) :
    ∃ n rest, IsNumeral n ∧ Numeral.read (d :: cs) = .ok (n, rest) ∧
      IsLongest IsNumeralText (d :: cs) n.text := by
  have hFirst : IsNumeral ⟨[d], none, none⟩ := ⟨⟨by simp, by simpa using hd⟩, by simp, by simp⟩
  have hDigit : d :: cs = Numeral.text ⟨[d], none, none⟩ ++ cs := rfl
  obtain ⟨n, rest, hn, hComplete, hText, -⟩ := hFirst.exists_complete hDigit hPoint
  have hRead : Numeral.read (d :: cs) = .ok (n, rest) := by
    rw [hText]
    exact Numeral.read_complete hn hComplete
  refine ⟨n, rest, hn, hRead, ⟨n, hn, rfl⟩, ⟨rest, hText.symm⟩, ?_⟩
  rintro - ⟨m, hm, rfl⟩ ⟨more, hMore⟩
  obtain ⟨m', more', hm', hComplete', hText', hLonger⟩ := hm.exists_complete hMore.symm hPoint
  -- what is complete is read, and only one numeral is
  have hRead' := Numeral.read_complete hm' hComplete'
  rw [← hText', hRead] at hRead'
  obtain ⟨rfl, -⟩ := Prod.mk.inj (Except.ok.inj hRead')
  exact hLonger

/-- A second point with a digit behind it is not read over. -/
theorem read_secondPoint (h : HasSecondPoint cs) : ∃ taken, Numeral.read cs = .error taken := by
  obtain ⟨whole, fraction, d, rest, hWhole, hFraction, hd, rfl⟩ := h
  have hPoint : ∀ more : List Char, ∀ c ∈ ('.' :: more).head?, isDecimalDigit c = false := by
    rintro more c hc
    obtain rfl : '.' = c := Option.some.inj hc
    rfl
  obtain ⟨hTake, hDrop⟩ := takeWhile_run hWhole.2 (hPoint (fraction ++ '.' :: d :: rest))
  have hRead := Numeral.readFraction_text hFraction (hPoint (d :: rest))
  have hSecond : (Numeral.readFraction ('.' :: d :: rest)).isSome = true := by
    rw [Numeral.readFraction, if_pos hd]
    rfl
  rw [List.cons_append] at hRead
  unfold Numeral.read
  simp only [hTake, hDrop, hRead, hSecond, if_true]
  exact ⟨_, rfl⟩

end Lexer

namespace Numeral

/-- The rational that a numeral writes: its whole digits and its fraction digits in base ten, times ten
to the exponent. -/
def written (n : Numeral) : ℚ :=
  (digitsValue n.whole + digitsValue (n.fraction.getD []) / 10 ^ (n.fraction.getD []).length) *
    10 ^ n.power

/-- The value of a numeral is what it writes, if no part of it is too long. -/
theorem value_eq_written {n : Numeral} (h : n.Short) : n.value = .ok n.written := by
  have hTen : (10 : ℚ) ^ (n.fraction.getD []).length ≠ 0 := by positivity
  rw [value_of_short h, scaled_eq, digitsValue_append, zpow_sub₀ (by norm_num), zpow_natCast]
  push_cast
  rw [cast_tenTo, written]
  field_simp

end Numeral

open Lexer (HasSecondPoint IsLongest IsNumeralText)

/-- **The next token where a digit is ahead.** The text is refused exactly where a second point with a
digit behind it is ahead; the other fault that there is, a run of digits that is too long to be
converted, is found when the numeral has been read. Anywhere else the longest numeral that is ahead is
taken, and the token is the number that it writes. -/
theorem nextToken_numeral (units : List String) {s : Stream} {d : Char} {cs : List Char}
    (hAhead : s.ahead = d :: cs) (hd : isDecimalDigit d = true) :
    ((∃ e after, s.nextToken units = (.error (.lexing e), after) ∧ ∀ limit, e.fault ≠ .digits limit) ↔
      HasSecondPoint s.ahead) ∧
    (HasSecondPoint s.ahead → ∃ after,
      s.nextToken units = (.error (.lexing ⟨.invalidNumber, s.place⟩), after)) ∧
    (¬ HasSecondPoint s.ahead → ∃ n, Lexer.IsNumeral n ∧ IsLongest IsNumeralText s.ahead n.text ∧
      (n.Short → s.nextToken units =
        (.ok ⟨.number (.fraction n.written), s.place⟩, s.advance n.text)) ∧
      (¬ n.Short → ∃ limit, s.nextToken units =
        (.error (.lexing ⟨.digits limit, s.place⟩), s.advance n.text))) := by
  have hRefused : HasSecondPoint s.ahead → ∃ after,
      s.nextToken units = (.error (.lexing ⟨.invalidNumber, s.place⟩), after) := by
    intro hPoint
    obtain ⟨taken, hRead⟩ := Lexer.read_secondPoint hPoint
    rw [hAhead] at hRead
    refine ⟨s.advance taken, ?_⟩
    rw [Stream.nextToken, hAhead, Lexer.read_of_isDecimalDigit units hd, Lexer.readNumber, hRead]
    rfl
  have hTaken : ¬ HasSecondPoint s.ahead → ∃ n, Lexer.IsNumeral n ∧
      IsLongest IsNumeralText s.ahead n.text ∧
      (n.Short → s.nextToken units =
        (.ok ⟨.number (.fraction n.written), s.place⟩, s.advance n.text)) ∧
      (¬ n.Short → ∃ limit, s.nextToken units =
        (.error (.lexing ⟨.digits limit, s.place⟩), s.advance n.text)) := by
    intro hPoint
    rw [hAhead] at hPoint
    obtain ⟨n, rest, hn, hRead, hLongest⟩ := Lexer.read_longest hd hPoint
    refine ⟨n, hn, hAhead ▸ hLongest, fun hShort => ?_, fun hLong => ?_⟩
    · rw [Stream.nextToken, hAhead, Lexer.read_of_isDecimalDigit units hd, Lexer.readNumber, hRead]
      dsimp only
      rw [Numeral.value_eq_written hShort]
    · cases hValue : n.value with
      | ok q => exact absurd (Numeral.short_of_value hValue) hLong
      | error limit =>
        refine ⟨limit, ?_⟩
        rw [Stream.nextToken, hAhead, Lexer.read_of_isDecimalDigit units hd, Lexer.readNumber, hRead]
        dsimp only
        rw [hValue]
        rfl
  refine ⟨⟨?_, fun hPoint => ?_⟩, hRefused, hTaken⟩
  · rintro ⟨e, after, hStep, hFault⟩
    by_contra hPoint
    obtain ⟨n, -, -, hShort, hLong⟩ := hTaken hPoint
    by_cases h : n.Short
    · rw [hShort h] at hStep
      cases hStep
    · obtain ⟨limit, hStep'⟩ := hLong h
      rw [hStep'] at hStep
      obtain ⟨rfl⟩ := Stream.Failure.lexing.inj (Except.error.inj (Prod.mk.inj hStep).1)
      exact hFault limit rfl
  · obtain ⟨after, hStep⟩ := hRefused hPoint
    exact ⟨_, after, hStep, nofun⟩

/-- `१.५e-1`, with digits of another script, in front of a point and an `e` that do not belong to it. -/
theorem nextToken_devanagari :
    let s : Stream := ⟨['१', '.', '५', 'e', '-', '1', '.', 'e'], 0, .start⟩
    s.ahead = '१' :: ['.', '५', 'e', '-', '1', '.', 'e'] ∧ isDecimalDigit '१' = true ∧
      (s.nextToken []).1 = .ok ⟨.number (.fraction (3 / 20)), ⟨1, 1⟩⟩ ∧
      ((∃ e after, s.nextToken [] = (.error (.lexing e), after) ∧
        ∀ limit, e.fault ≠ .digits limit) ↔ HasSecondPoint s.ahead) := by
  intro s
  have hDigit : isDecimalDigit '१' = true := by decide +kernel
  have hToken : (s.nextToken []).1 = .ok ⟨.number (.fraction (Numeral.scaled 15 (-2))), ⟨1, 1⟩⟩ := rfl
  have hValue : Numeral.scaled 15 (-2) = 3 / 20 := by
    rw [Numeral.scaled_eq]
    norm_num
  exact ⟨rfl, hDigit, hValue ▸ hToken, (nextToken_numeral [] rfl hDigit).1⟩

-- ---------------------------------------------------------------------------
-- Strings
-- ---------------------------------------------------------------------------

namespace Lexer

/-- The characters that are escaped in a string: the letter behind the backslash, and what the two stand
for. -/
def escapes : List (Char × Char) :=
  [('n', '\n'), ('t', '\t'), ('\\', '\\'), ('"', '"'), ('\'', '\'')]

/-- A part of a string between two quotes. -/
inductive StringPart (quote : Char) where
  /-- A character that stands for itself. -/
  | plain (c : Char) (notQuote : c ≠ quote) (notSlash : c ≠ '\\')
  /-- A backslash and a letter that stand for another character. -/
  | escape (letter stands : Char) (listed : (letter, stands) ∈ escapes)
  /-- A backslash and any other character, which stand for themselves. -/
  | kept (c : Char) (free : ∀ stands, (c, stands) ∉ escapes)

namespace StringPart

variable {quote : Char}

/-- The characters of a part. -/
def text : StringPart quote → List Char
  | plain c _ _ => [c]
  | escape letter _ _ => ['\\', letter]
  | kept c _ => ['\\', c]

/-- The characters that a part stands for. -/
def meaning : StringPart quote → List Char
  | plain c _ _ => [c]
  | escape _ stands _ => [stands]
  | kept c _ => ['\\', c]

theorem unescape_listed {letter stands : Char} (h : (letter, stands) ∈ escapes) :
    unescape letter = [stands] := by
  have hAll : ∀ entry ∈ escapes, unescape entry.1 = [entry.2] :=
    List.all_iff_forall_prop.mp (by decide)
  exact hAll _ h

theorem unescape_free {c : Char} (h : ∀ stands, (c, stands) ∉ escapes) : unescape c = ['\\', c] := by
  have hNot : ∀ entry ∈ escapes, c ≠ entry.1 := by
    rintro ⟨letter, stands⟩ hEntry rfl
    exact h stands hEntry
  simp only [escapes, List.forall_mem_cons] at hNot
  obtain ⟨hn, ht, hSlash, hDouble, hSingle, -⟩ := hNot
  unfold unescape
  split
  · exact absurd rfl hn
  · exact absurd rfl ht
  · exact absurd rfl hSlash
  · exact absurd rfl hDouble
  · exact absurd rfl hSingle
  · rfl

/-- A part in front of other characters is read as what it stands for. -/
theorem readString_part (part : StringPart quote) (hQuote : quote ≠ '\\') {cs : List Char}
    (hSome : cs ≠ []) : readString quote (part.text ++ cs) =
      (readString quote cs).map fun (s, rest) => (part.meaning ++ s, rest) := by
  obtain ⟨e, more, rfl⟩ := List.exists_cons_of_ne_nil hSome
  cases part with
  | plain c notQuote notSlash =>
    show readString quote (c :: e :: more) = _
    rw [readString, if_neg notQuote, if_neg notSlash]
    rfl
  | escape letter stands listed =>
    show readString quote ('\\' :: letter :: e :: more) = _
    rw [readString, if_neg hQuote.symm, if_pos rfl, unescape_listed listed]
    rfl
  | kept c free =>
    show readString quote ('\\' :: c :: e :: more) = _
    rw [readString, if_neg hQuote.symm, if_pos rfl, unescape_free free]
    rfl

/-- **The parts of a string are read as what they stand for**, whatever follows the quote behind
them. -/
theorem readString_parts (hQuote : quote ≠ '\\') (parts : List (StringPart quote)) (rest : List Char) :
    readString quote (parts.flatMap text ++ quote :: rest) = some (parts.flatMap meaning, rest) := by
  induction parts with
  | nil =>
    show readString quote (quote :: rest) = some ([], rest)
    cases rest with
    | nil => rw [readString, if_pos rfl]
    | cons e rest => rw [readString, if_pos rfl]
  | cons part parts ih =>
    rw [List.flatMap_cons, List.append_assoc, part.readString_part hQuote (by simp), ih]
    rfl

/-- The characters between two quotes can be cut into parts. -/
theorem exists_parts {body text : List Char} (h : Quotes quote body text) :
    ∃ parts : List (StringPart quote), body = parts.flatMap StringPart.text := by
  induction h with
  | nil => exact ⟨[], rfl⟩
  | @plain c _ _ notQuote notSlash _ ih =>
    obtain ⟨parts, rfl⟩ := ih
    exact ⟨.plain c notQuote notSlash :: parts, rfl⟩
  | @escape c _ _ _ ih =>
    obtain ⟨parts, rfl⟩ := ih
    by_cases hListed : ∃ stands, (c, stands) ∈ escapes
    · obtain ⟨stands, hListed⟩ := hListed
      exact ⟨.escape c stands hListed :: parts, rfl⟩
    · exact ⟨.kept c (not_exists.mp hListed) :: parts, rfl⟩

end StringPart

/-- A quote that no unit starts with opens a string. -/
theorem read_of_isQuote {units : List String} {quote : Char} {cs : List Char}
    (hQuote : quote ∈ ['"', '\'']) (hUnit : matchUnit? units (quote :: cs) = none) :
    read units (quote :: cs) = match readString quote cs with
      | some (s, rest) => .token (.string (String.ofList s)) (before (quote :: cs) rest) rest
      | none => .fault .unterminatedString (quote :: cs) := by
  have hAll : ∀ c ∈ ['"', '\''], (blankStep false c).isSome = false ∧ isWordStart c = false ∧
      isDecimalDigit c = false ∧ isQuote c = true := List.all_iff_forall_prop.mp (by decide +kernel)
  obtain ⟨hBlank, hWord, hDigit, hOpens⟩ := hAll quote hQuote
  rw [read, hBlank, if_neg (by simp), hWord, if_neg (by simp), hDigit, if_neg (by simp), hUnit]
  exact if_pos hOpens

end Lexer

open Lexer (StringPart)

/-- **The next token where a quote is ahead** that no prefix unit starts with. If the text behind the
quote can be cut into parts up to a quote of the same kind, the token is the string that the parts stand
for, and the stream is left behind the closing quote. If it cannot, the string is unterminated, and the
place of the opening quote is reported. -/
theorem nextToken_string {units : List String} {s : Stream} {quote : Char} {cs : List Char}
    (hQuote : quote ∈ ['"', '\'']) (hAhead : s.ahead = quote :: cs)
    (hUnit : Lexer.matchUnit? units s.ahead = none) :
    (∀ (parts : List (StringPart quote)) (rest : List Char),
      cs = parts.flatMap StringPart.text ++ quote :: rest → ∃ after,
        s.nextToken units =
          (.ok ⟨.string (String.ofList (parts.flatMap StringPart.meaning)), s.place⟩, after) ∧
        after.source = s.source ∧ after.ahead = rest ∧
        let taken := quote :: (parts.flatMap StringPart.text ++ [quote])
        after.position = s.position + taken.length ∧
        after.place = ⟨s.place.line + taken.count '\n',
          if '\n' ∈ taken then 1 + (taken.reverse.takeWhile (· ≠ '\n')).length
          else s.place.col + taken.length⟩) ∧
    ((¬ ∃ (parts : List (StringPart quote)) (rest : List Char),
        cs = parts.flatMap StringPart.text ++ quote :: rest) → ∃ failure after,
      s.nextToken units = (.error failure, after) ∧
        failure = .lexing ⟨.unterminatedString, s.place⟩ ∧
        failure.message = s.place.locate "Unterminated string") := by
  have hSlash : quote ≠ '\\' := by
    have hAll : ∀ c ∈ ['"', '\''], c ≠ '\\' := List.all_iff_forall_prop.mp (by decide)
    exact hAll quote hQuote
  rw [hAhead] at hUnit
  constructor
  · rintro parts rest rfl
    have hCut : quote :: (parts.flatMap StringPart.text ++ quote :: rest) =
        quote :: (parts.flatMap StringPart.text ++ [quote]) ++ rest := by simp
    refine ⟨s.advance (quote :: (parts.flatMap StringPart.text ++ [quote])), ?_, rfl,
      Stream.ahead_advance (hAhead.trans hCut), rfl, Place.advance_eq _ _⟩
    rw [Stream.nextToken, hAhead, Lexer.read_of_isQuote hQuote hUnit,
      StringPart.readString_parts hSlash]
    dsimp only
    rw [hCut, Lexer.before_append]
  · intro hNone
    refine ⟨.lexing ⟨.unterminatedString, s.place⟩, s.advance (quote :: cs), ?_, rfl, rfl⟩
    have hRead : Lexer.readString quote cs = none := by
      rw [Option.eq_none_iff_forall_ne_some]
      rintro ⟨text, rest⟩ hRead
      obtain ⟨body, hBody, hQuotes⟩ := Lexer.readString_some hRead
      obtain ⟨parts, rfl⟩ := StringPart.exists_parts hQuotes
      exact hNone ⟨parts, rest, hBody⟩
    rw [Stream.nextToken, hAhead, Lexer.read_of_isQuote hQuote hUnit, hRead]
    rfl

/-- `"a\t\q` and a newline between double quotes, and `'a\'` with no quote behind it. -/
theorem nextToken_quotes :
    let s : Stream := ⟨['"', 'a', '\\', 't', '\\', 'q', '\n', '"', ' ', '1'], 0, .start⟩
    let u : Stream := ⟨['\'', 'a', '\\', '\''], 0, .start⟩
    Lexer.matchUnit? ["$"] s.ahead = none ∧ Lexer.matchUnit? ["$"] u.ahead = none ∧
      (∃ after, s.nextToken ["$"] = (.ok ⟨.string "a\t\\q\n", ⟨1, 1⟩⟩, after) ∧
        after.ahead = [' ', '1'] ∧ after.position = 8 ∧ after.place = ⟨2, 2⟩) ∧
      ∃ after, u.nextToken ["$"] = (.error (.lexing ⟨.unterminatedString, ⟨1, 1⟩⟩), after) := by
  intro s u
  have hUnit : Lexer.matchUnit? ["$"] s.ahead = none := by decide +kernel
  have hUnit' : Lexer.matchUnit? ["$"] u.ahead = none := by decide +kernel
  refine ⟨hUnit, hUnit', ?_, ?_⟩
  · obtain ⟨after, hToken, -, hAhead, hPosition, hPlace⟩ :=
      (nextToken_string (by decide) rfl hUnit).1
        [.plain 'a' (by decide) (by decide), .escape 't' '\t' (by decide),
          .kept 'q' (by simp [Lexer.escapes]), .plain '\n' (by decide) (by decide)] [' ', '1'] rfl
    exact ⟨after, hToken, hAhead, hPosition, hPlace⟩
  · have hNone : ¬ ∃ (parts : List (StringPart '\'')) (rest : List Char),
        ['a', '\\', '\''] = parts.flatMap StringPart.text ++ '\'' :: rest := by
      rintro ⟨parts, rest, hText⟩
      have hRead := StringPart.readString_parts (by decide : '\'' ≠ '\\') parts rest
      rw [← hText] at hRead
      cases hRead
    obtain ⟨failure, after, hStep, rfl, -⟩ := (nextToken_string (by decide) rfl hUnit').2 hNone
    exact ⟨after, hStep⟩

end Reckoner
