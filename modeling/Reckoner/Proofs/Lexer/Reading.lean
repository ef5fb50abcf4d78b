import Mathlib.Data.Bool.AllAny
import Mathlib.Data.List.TakeWhile
import Reckoner.Json.Writer
import Reckoner.Lexer.Tokenize
import Reckoner.Proofs.Number.Numeral

/-!
# Reading what is written

How the reader of tokens goes over words, numerals, strings, symbols and blanks of which the spelling
is known. Each is read up to its end wherever the character behind it cannot go on with it. The other
way round, whatever a text is read as has a spelling of this kind: names are words or prefix units,
and numbers are fractions that are not negative.

## Results

* `read_numeral`, `read_text`, `read_symbol`, `read_name`, `read_space` — one token is read.
* `read_readable` — whatever is read has a spelling.
-/

namespace Reckoner

namespace Lexer

open Unicode (isDecimalDigit)

-- ---------------------------------------------------------------------------
-- Characters
-- ---------------------------------------------------------------------------

theorem blankStep_cases {c : Char} (h : (blankStep false c).isSome = true) :
    c ∈ ['\n', '#', ' ', '\t', '\r'] := by
  unfold blankStep at h
  by_contra hNot
  simp only [List.mem_cons, List.not_mem_nil, or_false, not_or] at hNot
  simp [hNot] at h

theorem blankStep_of_isWordStart {c : Char} (h : isWordStart c = true) :
    (blankStep false c).isSome = false := by
  rw [Bool.eq_false_iff]
  intro hBlank
  have hNone : ∀ d ∈ ['\n', '#', ' ', '\t', '\r'], isWordStart d = false :=
    List.all_iff_forall_prop.mp (by decide)
  rw [hNone c (blankStep_cases hBlank)] at h
  cases h

theorem isWordChar_of_isWordStart {c : Char} (h : isWordStart c = true) : isWordChar c = true := by
  unfold isWordStart at h
  unfold isWordChar Unicode.isAlphanumeric
  grind

theorem isDigit_cases {c : Char} (h : c.isDigit = true) :
    c ∈ ['0', '1', '2', '3', '4', '5', '6', '7', '8', '9'] := by
  have hRange : 48 ≤ c.toNat ∧ c.toNat ≤ 57 := by
    simpa [Char.isDigit, UInt32.le_iff_toNat_le] using h
  have hAll : ∀ k < 10, Char.ofNat (48 + k) ∈ ['0', '1', '2', '3', '4', '5', '6', '7', '8', '9'] := by
    decide
  have hc := hAll (c.toNat - 48) (by omega)
  rwa [show 48 + (c.toNat - 48) = c.toNat by omega, Char.ofNat_toNat] at hc

theorem contains_eq_false {ranges : Unicode.CodeRanges} {n : Nat}
    (h : ∀ range ∈ ranges, n < range.1 ∨ range.2 < n) : ranges.contains n = false := by
  induction ranges with
  | nil => rfl
  | cons range ranges ih =>
    obtain ⟨hHere, hMore⟩ := List.forall_mem_cons.mp h
    rw [Unicode.CodeRanges.contains]
    split
    · rfl
    · rw [if_neg (by omega)]
      exact ih hMore

/-- No decimal digit is a letter: the runs of digits and the ranges of letters do not meet. -/
theorem isLetter_of_isDecimalDigit {c : Char} (h : isDecimalDigit c = true) :
    Unicode.isLetter c = false := by
  have hApart : (Unicode.letterRanges.all fun range => Unicode.decimalZeros.all fun first =>
      (first + 9).blt range.1 || range.2.blt first) = true := by decide +kernel
  unfold isDecimalDigit Unicode.digitValue? at h
  rw [Option.isSome_map, List.find?_isSome] at h
  obtain ⟨first, hFirst, hRun⟩ := h
  simp only [Bool.and_eq_true, decide_eq_true_eq] at hRun
  refine contains_eq_false fun range hRange => ?_
  have hHere := List.all_eq_true.mp (List.all_eq_true.mp hApart range hRange) first hFirst
  simp only [Bool.or_eq_true, Nat.blt_eq] at hHere
  omega

/-- A digit starts neither a run of blanks nor a word. -/
theorem isDecimalDigit_start {c : Char} (h : isDecimalDigit c = true) :
    (blankStep false c).isSome = false ∧ isWordStart c = false := by
  have hNone : ∀ d ∈ ['_', '\n', '#', ' ', '\t', '\r'], isDecimalDigit d = false :=
    List.all_iff_forall_prop.mp (by decide)
  have hNot : ∀ d ∈ ['_', '\n', '#', ' ', '\t', '\r'], c ≠ d := by
    rintro d hd rfl
    rw [hNone c hd] at h
    cases h
  constructor
  · rw [Bool.eq_false_iff]
    intro hBlank
    exact hNot c (List.mem_cons_of_mem _ (blankStep_cases hBlank)) rfl
  · unfold isWordStart
    rw [isLetter_of_isDecimalDigit h, decide_eq_false (hNot '_' List.mem_cons_self)]
    rfl

-- ---------------------------------------------------------------------------
-- Prefix units
-- ---------------------------------------------------------------------------

/-- The characters that are prefix units when none are configured. -/
def unitChars : List Char := ['$', '£', '€', '¥', '₹', '₩', '₽']

theorem symbolUnits_default :
    symbolUnits defaultPrefixUnits = unitChars.map fun c => String.ofList [c] := by
  decide +kernel

/-- The default units are told by their first character. -/
theorem matchUnit?_default (c : Char) (cs : List Char) :
    matchUnit? (symbolUnits defaultPrefixUnits) (c :: cs) =
      if c ∈ unitChars then some (String.ofList [c], cs) else none := by
  have hPrefix : ((fun unit : String => unit.toList.isPrefixOf (c :: cs)) ∘
      fun d => String.ofList [d]) = fun d => d == c := by
    funext d
    simp [List.isPrefixOf]
  rw [symbolUnits_default]
  unfold matchUnit?
  rw [List.find?_map, hPrefix]
  cases hFind : unitChars.find? fun d => d == c with
  | none =>
    rw [List.find?_eq_none] at hFind
    rw [if_neg fun hc => hFind c hc (by simp)]
    rfl
  | some d =>
    have hc := List.mem_of_find?_eq_some hFind
    obtain rfl : d = c := by simpa using List.find?_some hFind
    rw [if_pos hc]
    simp

-- ---------------------------------------------------------------------------
-- One token
-- ---------------------------------------------------------------------------

variable {rest : List Char}

/-- A blank is read alone where none follows. -/
theorem read_space (units : List String) (hRest : ∀ c ∈ rest.head?, (blankStep false c).isSome = false) :
    read units (' ' :: rest) = .token (.blank " ") [' '] rest := by
  have hSpan : spanBlank false rest = ([], rest) := by
    cases rest with
    | nil => rfl
    | cons c rest =>
      have hc := hRest c rfl
      rw [Option.isSome_eq_false_iff, Option.isNone_iff_eq_none] at hc
      rw [spanBlank, hc]
  have hBlank : blankStep false ' ' = some false := rfl
  have hRun : spanBlank false (' ' :: rest) = ([' '], rest) := by
    rw [spanBlank, hBlank]
    dsimp only
    rw [hSpan]
  rw [read, hBlank, if_pos (show (some false).isSome = true from rfl), hRun]

/-- A word is read up to a character that cannot go on with it. -/
theorem read_word (units : List String) {c : Char} {cs : List Char} (hStart : isWordStart c = true)
    (hWord : ∀ d ∈ cs, isWordChar d = true) (hRest : ∀ d ∈ rest.head?, isWordChar d = false) :
    read units (c :: cs ++ rest) =
      .token (wordContent (String.ofList (c :: cs))) (c :: cs) rest := by
  have hAll : ∀ d ∈ c :: cs, isWordChar d = true := by
    intro d hd
    rcases List.mem_cons.mp hd with rfl | hd
    · exact isWordChar_of_isWordStart hStart
    · exact hWord d hd
  obtain ⟨hTake, hDrop⟩ := takeWhile_run hAll hRest
  rw [List.cons_append] at hTake hDrop ⊢
  rw [read, blankStep_of_isWordStart hStart, if_neg (by simp), if_pos hStart, hTake, hDrop]

/-- A decimal digit starts a numeral. -/
theorem read_of_isDecimalDigit (units : List String) {d : Char} (h : isDecimalDigit d = true)
    (cs : List Char) : read units (d :: cs) = readNumber (d :: cs) := by
  obtain ⟨hBlank, hWord⟩ := isDecimalDigit_start h
  rw [read, hBlank, if_neg (by simp), hWord, if_neg (by simp), if_pos h]

/-- A regular numeral is read up to a character that cannot go on with it. -/
theorem read_numeral (units : List String) {n : Numeral} {q : ℚ} (hRegular : n.Regular)
    (hValue : n.value = .ok q) (hRest : EndsNumeral rest) :
    read units (n.text ++ rest) = .token (.number (.fraction q)) n.text rest := by
  obtain ⟨d, ds, hWhole⟩ := List.exists_cons_of_ne_nil hRegular.nonempty
  have hd := isDecimalDigit_of_isDigit
    (hRegular.whole d (by rw [hWhole]; exact List.mem_cons_self))
  have hRead : readNumber (n.text ++ rest) = .token (.number (.fraction q)) n.text rest := by
    unfold readNumber
    rw [Numeral.read_text hRegular hRest]
    dsimp only
    rw [hValue]
  obtain ⟨tail, hText⟩ : ∃ tail, n.text ++ rest = d :: tail := by
    unfold Numeral.text
    rw [hWhole]
    exact ⟨_, rfl⟩
  rw [hText] at hRead ⊢
  rw [read_of_isDecimalDigit units hd, hRead]

/-- A character that starts neither a run of blanks nor a word, a number or a default unit. -/
def startsSign (c : Char) : Bool :=
  !(blankStep false c).isSome && !isWordStart c && !isDecimalDigit c && !decide (c ∈ unitChars)

theorem before_append (taken rest : List Char) : before (taken ++ rest) rest = taken := by
  unfold before
  rw [List.length_append, Nat.add_sub_cancel, List.take_left]

/-- The unit that is matched is read where neither blanks nor a word or a numeral start. -/
theorem read_matched {units : List String} {c : Char} {cs : List Char} {unit : String}
    (hBlank : (blankStep false c).isSome = false) (hWord : isWordStart c = false)
    (hDigit : isDecimalDigit c = false)
    (hMatch : matchUnit? units (c :: cs) = some (unit, rest)) :
    read units (c :: cs) = .token (.ident unit) (before (c :: cs) rest) rest := by
  rw [read, hBlank, if_neg (by simp), hWord, if_neg (by simp), hDigit, if_neg (by simp), hMatch]

/-- A prefix unit is read wherever it stands. -/
theorem read_unit {c : Char} (hc : c ∈ unitChars) (rest : List Char) :
    read (symbolUnits defaultPrefixUnits) (c :: rest) =
      .token (.ident (String.ofList [c])) [c] rest := by
  have hAll : ∀ d ∈ unitChars, (blankStep false d).isSome = false ∧ isWordStart d = false ∧
      isDecimalDigit d = false := List.all_iff_forall_prop.mp (by decide +kernel)
  obtain ⟨hBlank, hWord, hDigit⟩ := hAll c hc
  have hMatch := matchUnit?_default c rest
  rw [if_pos hc] at hMatch
  rw [read_matched hBlank hWord hDigit hMatch, show c :: rest = [c] ++ rest from rfl, before_append]

theorem read_sign {c : Char} (h : startsSign c = true) (rest : List Char) :
    read (symbolUnits defaultPrefixUnits) (c :: rest) =
      if isQuote c then
        match readString c rest with
        | some (s, rest') => .token (.string (String.ofList s)) (before (c :: rest) rest') rest'
        | none => .fault .unterminatedString (c :: rest)
      else
        match matchOperator? (c :: rest) with
        | some (s, rest') => .token (.symbol s) (before (c :: rest) rest') rest'
        | none => .token (.stray (String.ofList [c])) [c] rest := by
  unfold startsSign at h
  simp only [Bool.and_eq_true, Bool.not_eq_true', decide_eq_false_iff_not] at h
  obtain ⟨⟨⟨hBlank, hWord⟩, hDigit⟩, hUnit⟩ := h
  rewrite [read, hBlank, if_neg (by simp), hWord, if_neg (by simp), hDigit, if_neg (by simp),
    matchUnit?_default, if_neg hUnit]
  rfl

/-- An operator of one character is read where it does not start one of two. -/
theorem read_operator {c : Char} {s : Symbol} (hStart : startsSign c = true)
    (hQuote : isQuote c = false) (hOne : Symbol.ofOperator? [c] = some s)
    (hTwo : ∀ d ∈ rest.head?, Symbol.ofOperator? [c, d] = none) :
    read (symbolUnits defaultPrefixUnits) (c :: rest) = .token (.symbol s) [c] rest := by
  have hMatch : matchOperator? (c :: rest) = some (s, rest) := by
    unfold matchOperator? operatorOfSize?
    cases rest with
    | nil =>
      show ((Symbol.ofOperator? [c]).map _ <|> _) = _
      rw [hOne]
      rfl
    | cons d rest =>
      show ((Symbol.ofOperator? [c, d]).map _ <|> (Symbol.ofOperator? [c]).map _) = _
      rw [hTwo d rfl, hOne]
      rfl
  rw [read_sign hStart, hQuote, if_neg (by simp), hMatch]
  dsimp only
  rw [show c :: rest = [c] ++ rest from rfl, before_append]

-- ---------------------------------------------------------------------------
-- Strings
-- ---------------------------------------------------------------------------

/-- A text without control characters that a string has no escape for. -/
def IsWritableText (s : String) : Prop :=
  ∀ c ∈ s.toList, c.toNat < 0x20 → c = '\n' ∨ c = '\t'

/-- A character that is neither a quote, a backslash nor a control character stands for itself. -/
theorem escapeChar_plain {c : Char} (hQuote : c ≠ '"') (hSlash : c ≠ '\\')
    (hControl : ¬ c.toNat < 0x20) : Json.escapeChar c = [c] := by
  have hNot : ∀ d : Char, d.toNat < 0x20 → c ≠ d := fun d hd h => hControl (h ▸ hd)
  unfold Json.escapeChar
  rw [if_neg (not_or.mpr ⟨hQuote, hSlash⟩), if_neg (hNot _ (by decide)), if_neg (hNot _ (by decide)),
    if_neg (hNot _ (by decide)), if_neg (hNot _ (by decide)), if_neg (hNot _ (by decide)),
    if_neg hControl]

/-- The reader takes the escape of a character for that character. -/
theorem readString_escapeChar {c : Char} (h : c.toNat < 0x20 → c = '\n' ∨ c = '\t')
    {cs : List Char} (hSome : cs ≠ []) :
    readString '"' (Json.escapeChar c ++ cs) =
      (readString '"' cs).map fun (s, rest) => (c :: s, rest) := by
  obtain ⟨e, more, rfl⟩ := List.exists_cons_of_ne_nil hSome
  by_cases hQuote : c = '"'
  · rw [hQuote]
    rfl
  · by_cases hSlash : c = '\\'
    · rw [hSlash]
      rfl
    · by_cases hControl : c.toNat < 0x20
      · rcases h hControl with rfl | rfl <;> rfl
      · rw [escapeChar_plain hQuote hSlash hControl, List.cons_append, List.nil_append, readString,
          if_neg hQuote, if_neg hSlash]

theorem readString_escaped {cs : List Char} (h : ∀ c ∈ cs, c.toNat < 0x20 → c = '\n' ∨ c = '\t')
    (rest : List Char) :
    readString '"' (cs.flatMap Json.escapeChar ++ '"' :: rest) = some (cs, rest) := by
  induction cs with
  | nil => cases rest <;> rfl
  | cons c cs ih =>
    rw [List.flatMap_cons, List.append_assoc, readString_escapeChar (h c List.mem_cons_self) (by simp),
      ih fun d hd => h d (List.mem_cons_of_mem _ hd)]
    rfl

/-- A text between double quotes is one token. -/
theorem read_quoted {body text rest : List Char}
    (hRead : readString '"' (body ++ '"' :: rest) = some (text, rest)) :
    read (symbolUnits defaultPrefixUnits) ('"' :: (body ++ ['"']) ++ rest) =
      .token (.string (String.ofList text)) ('"' :: (body ++ ['"'])) rest := by
  have hText : '"' :: (body ++ ['"']) ++ rest = '"' :: (body ++ '"' :: rest) := by simp
  have hSign := read_sign (by decide +kernel : startsSign '"' = true) (body ++ '"' :: rest)
  rw [if_pos (by decide), hRead, ← hText] at hSign
  dsimp only at hSign
  rw [hSign, before_append]

/-- A written text is read back, whatever follows it. -/
theorem read_text {s : String} (h : IsWritableText s) (rest : List Char) :
    read (symbolUnits defaultPrefixUnits) ((Json.writeString s).toList ++ rest) =
      .token (.string s) (Json.writeString s).toList rest := by
  have hText : (Json.writeString s).toList = '"' :: (s.toList.flatMap Json.escapeChar ++ ['"']) := by
    simp [Json.writeString]
  rw [hText, read_quoted (readString_escaped h rest), String.ofList_toList]

-- ---------------------------------------------------------------------------
-- Symbols
-- ---------------------------------------------------------------------------

/-- Two characters spell an operator only as `**` or `=>`. -/
theorem ofOperator?_pair {c d : Char} (hPower : c = '*' → d ≠ '*') (hArrow : c = '=' → d ≠ '>') :
    Symbol.ofOperator? [c, d] = none := by
  have hPower : ([c, d] == ['*', '*']) = false := by
    simpa using hPower
  have hArrow : ([c, d] == ['=', '>']) = false := by
    simpa using hArrow
  unfold Symbol.ofOperator? Symbol.operatorSpellings
  simp [List.lookup_cons, hPower, hArrow]

/-- The symbols that are read whatever follows them. -/
def selfEnding : List Symbol :=
  [.openParens, .closeParens, .add, .sub, .div, .mod, .pow, .factorial, .backslash, .dot, .semicolon]

/-- All other symbols than words and `=>` are shown as one character. -/
theorem exists_sign {y : Symbol} (hy : y ∈ Symbol.mul :: .equals :: selfEnding) :
    ∃ c, y.display.toList = [c] ∧ startsSign c = true ∧ isQuote c = false ∧
      Symbol.ofOperator? [c] = some y ∧ (y ∈ selfEnding → c ≠ '*' ∧ c ≠ '=') := by
  cases y with
  | of | arrow | conversion => exact absurd hy (by decide)
  | _ => exact ⟨_, rfl, by decide +kernel⟩

/-- A symbol in the form in which it is shown is read in front of a blank, and most symbols are read
in front of anything. -/
theorem read_symbol {y : Symbol} (hArrow : y ≠ .arrow)
    (hRest : y ∉ selfEnding → ∀ c ∈ rest.head?, c = ' ') :
    read (symbolUnits defaultPrefixUnits) (y.display.toList ++ rest) =
      .token (.symbol y) y.display.toList rest := by
  have hWord : y ∉ selfEnding → ∀ c ∈ rest.head?, isWordChar c = false := by
    intro hy c hc
    rw [hRest hy c hc]
    decide +kernel
  by_cases hSign : y ∈ Symbol.mul :: .equals :: selfEnding
  · obtain ⟨c, hDisplay, hStart, hQuote, hOne, hFree⟩ := exists_sign hSign
    rw [hDisplay]
    refine read_operator hStart hQuote hOne fun d hd => ?_
    by_cases hy : y ∈ selfEnding
    · exact ofOperator?_pair (fun h => absurd h (hFree hy).1) (fun h => absurd h (hFree hy).2)
    · rw [hRest hy d hd]
      exact ofOperator?_pair (fun _ => by decide) (fun _ => by decide)
  · cases y with
    | arrow => exact absurd rfl hArrow
    | conversion =>
      have hLetters : ∀ c ∈ ['o'], isWordChar c = true :=
        List.all_iff_forall_prop.mp (by decide +kernel)
      exact read_word _ (by decide +kernel : isWordStart 't' = true) hLetters (hWord (by decide))
    | of =>
      have hLetters : ∀ c ∈ ['f'], isWordChar c = true :=
        List.all_iff_forall_prop.mp (by decide +kernel)
      exact read_word _ (by decide +kernel : isWordStart 'o' = true) hLetters (hWord (by decide))
    | _ => exact absurd (by decide) hSign

-- ---------------------------------------------------------------------------
-- Names
-- ---------------------------------------------------------------------------

/-- The names of identifiers: words that are no keywords, and the prefix units. -/
inductive IsName : String → Prop where
  | word {c : Char} {cs : List Char} (hStart : isWordStart c = true)
      (hWord : ∀ d ∈ cs, isWordChar d = true)
      (hKeyword : Symbol.ofWord? (String.ofList (c :: cs)) = none) : IsName (String.ofList (c :: cs))
  | unit {c : Char} (hc : c ∈ unitChars) : IsName (String.ofList [c])

/-- A name is read up to a character that no word goes on with. -/
theorem read_name {x : String} (h : IsName x) (hRest : ∀ d ∈ rest.head?, isWordChar d = false) :
    read (symbolUnits defaultPrefixUnits) (x.toList ++ rest) = .token (.ident x) x.toList rest := by
  cases h with
  | @word c cs hStart hWord hKeyword =>
    rw [String.toList_ofList, read_word _ hStart hWord hRest]
    unfold wordContent
    rw [hKeyword]
  | unit hc =>
    rw [String.toList_ofList]
    exact read_unit hc rest

-- ---------------------------------------------------------------------------
-- What is read
-- ---------------------------------------------------------------------------

/-- Names are names of identifiers, and numbers are fractions that are not negative. -/
def IsReadable : Content → Prop
  | .ident x => IsName x
  | .number v => ∃ q : ℚ, 0 ≤ q ∧ v = .fraction q
  | _ => True

theorem wordContent_readable {c : Char} {cs : List Char} (hStart : isWordStart c = true)
    (hWord : ∀ d ∈ cs, isWordChar d = true) : IsReadable (wordContent (String.ofList (c :: cs))) := by
  unfold wordContent
  split
  · trivial
  · rename_i hKeyword
    exact .word hStart hWord hKeyword

theorem readNumber_readable {cs taken : List Char} {content : Content}
    (h : readNumber cs = .token content taken rest) : IsReadable content := by
  unfold readNumber at h
  split at h
  · cases h
  · split at h
    · rename_i q hValue
      cases h
      exact ⟨q, Numeral.value_nonneg hValue, rfl⟩
    · cases h

/-- **Whatever is read has a spelling.** -/
theorem read_readable {cs taken : List Char} {content : Content}
    (h : read (symbolUnits defaultPrefixUnits) cs = .token content taken rest) :
    IsReadable content := by
  cases cs with
  | nil => cases h
  | cons c cs =>
    rw [read, matchUnit?_default] at h
    split at h
    · cases h
      trivial
    · split at h
      · rename_i hStart
        rw [List.takeWhile_cons_of_pos (isWordChar_of_isWordStart hStart)] at h
        cases h
        exact wordContent_readable hStart fun d hd => List.mem_takeWhile_imp hd
      · split at h
        · exact readNumber_readable h
        · by_cases hc : c ∈ unitChars
          · rw [if_pos hc] at h
            cases h
            exact .unit hc
          · rw [if_neg hc] at h
            dsimp only at h
            split at h
            · split at h
              · cases h
                trivial
              · cases h
            · split at h
              · cases h
                trivial
              · cases h
                trivial

-- ---------------------------------------------------------------------------
-- Token by token
-- ---------------------------------------------------------------------------

/-- A token that is read stands in front of the tokens of what follows it. -/
theorem tokensFrom_token {units : List String} {cs taken : List Char} {content : Content}
    (hRead : read units cs = .token content taken rest) (hKnown : ∀ text, content ≠ .stray text)
    (fuel : Nat) (place : Place) :
    tokensFrom units (fuel + 1) place cs =
      (tokensFrom units fuel (place.advance taken) rest).map (⟨content, place⟩ :: ·) := by
  rw [tokensFrom, hRead]
  split
  · rename_i hReading
    cases hReading
  · rename_i hReading
    cases hReading
  · rename_i text _ _ hReading
    injection hReading with hStray
    exact absurd hStray (hKnown text)
  · rename_i hReading
    injection hReading with hContent hTaken hRest
    rw [← hContent, ← hTaken, ← hRest]
    cases tokensFrom units fuel (place.advance taken) rest <;> rfl

theorem tokensFrom_nil (units : List String) (fuel : Nat) (place : Place) :
    tokensFrom units fuel place [] = .ok [] := by
  cases fuel <;> rfl

/-- A text that is read to its end as one token is tokenized to this token alone. -/
theorem tokenize_token {units : List String} {source : String} {content : Content}
    (hRead : read (symbolUnits units) source.toList = .token content source.toList [])
    (hKnown : ∀ text, content ≠ .stray text) :
    tokenize units source = .ok [⟨content, .start⟩] := by
  have hSome : 0 < source.toList.length := by
    rw [List.length_pos_iff]
    intro hNil
    rw [hNil] at hRead
    cases hRead
  obtain ⟨fuel, hFuel⟩ : ∃ fuel, source.toList.length = fuel + 1 :=
    ⟨source.toList.length - 1, by omega⟩
  rw [tokenize, hFuel, tokensFrom_token hRead hKnown, tokensFrom_nil]
  rfl

end Lexer

end Reckoner
