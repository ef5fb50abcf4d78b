import Mathlib.Data.List.Induction
import Reckoner.Proofs.Lexer.Reading

/-!
# Lexemes

One token is read off a slice at the start of a text, and what it is, is told by its slice and the
characters behind it. `IsLexeme` says how, by the shape of blanks, words, numerals, strings and
operators, without the functions that read them.

## Results

* `read_isSlice` — one token is read off a slice at the start of the text.
* `read_finish`  — reading finishes only at the end.
-/

namespace Reckoner

namespace Lexer

open Unicode (isDecimalDigit)

-- ---------------------------------------------------------------------------
-- Blanks
-- ---------------------------------------------------------------------------

/-- Blanks and comments. A comment starts with `#` and goes up to a newline or the end. -/
inductive IsBlankRun : List Char → Prop
  | nil : IsBlankRun []
  | blank {c : Char} {run : List Char} (blank : c ∈ [' ', '\t', '\r', '\n'])
      (more : IsBlankRun run) : IsBlankRun (c :: run)
  | comment {text run : List Char} (inside : '\n' ∉ text) (ends : ∀ c ∈ run.head?, c = '\n')
      (more : IsBlankRun run) : IsBlankRun ('#' :: (text ++ run))

theorem blankStep_blank {c : Char} (h : c ∈ [' ', '\t', '\r', '\n']) :
    blankStep false c = some false := by
  simp only [List.mem_cons, List.not_mem_nil, or_false] at h
  rcases h with rfl | rfl | rfl | rfl <;> rfl

theorem blankStep_comment (c : Char) : blankStep true c = some (!decide (c = '\n')) := by
  unfold blankStep
  by_cases hc : c = '\n' <;> simp [hc]

/-- Every text without a newline goes on with a comment. -/
theorem foldlM_comment {text : List Char} (h : '\n' ∉ text) (run : List Char) :
    (text ++ run).foldlM blankStep true = run.foldlM blankStep true := by
  induction text with
  | nil => rfl
  | cons c text ih =>
    have hc : c ≠ '\n' := (List.ne_of_not_mem_cons h).symm
    rw [List.cons_append, List.foldlM_cons, blankStep_comment, decide_eq_false hc]
    exact ih (List.not_mem_of_not_mem_cons h)

theorem IsBlankRun.steps {run : List Char} (h : IsBlankRun run) :
    (run.foldlM blankStep false).isSome = true := by
  induction h with
  | nil => rfl
  | blank hBlank _ ih =>
    rw [List.foldlM_cons, blankStep_blank hBlank]
    exact ih
  | @comment text run hText hEnds _ ih =>
    have hOpen : blankStep false '#' = some true := rfl
    rw [List.foldlM_cons, hOpen]
    show ((text ++ run).foldlM blankStep true).isSome = true
    rw [foldlM_comment hText]
    cases run with
    | nil => rfl
    | cons c run =>
      obtain rfl := hEnds c rfl
      exact ih

/-- What the reader of blanks goes over is a run of blanks; in a comment, the rest of it comes first. -/
theorem blankRun_of_steps (run : List Char) :
    ((run.foldlM blankStep false).isSome = true → IsBlankRun run) ∧
      ((run.foldlM blankStep true).isSome = true →
        ∃ text more, run = text ++ more ∧ '\n' ∉ text ∧ (∀ c ∈ more.head?, c = '\n') ∧
          IsBlankRun more) := by
  induction run with
  | nil => exact ⟨fun _ => .nil, fun _ => ⟨[], [], rfl, by simp, by simp, .nil⟩⟩
  | cons c run ih =>
    obtain ⟨ihBlank, ihComment⟩ := ih
    constructor
    · intro h
      rw [List.foldlM_cons] at h
      cases hStep : blankStep false c with
      | none => rw [hStep] at h; cases h
      | some comment =>
        have hCase := blankStep_cases (by rw [hStep]; rfl)
        rw [hStep] at h
        by_cases hHash : c = '#'
        · subst hHash
          obtain rfl : true = comment := Option.some.inj hStep
          obtain ⟨text, more, rfl, hText, hEnds, hMore⟩ := ihComment h
          exact .comment hText hEnds hMore
        · have hBlank : c ∈ [' ', '\t', '\r', '\n'] := by
            simp only [List.mem_cons, List.not_mem_nil, or_false] at hCase ⊢
            tauto
          rw [blankStep_blank hBlank] at hStep
          obtain rfl : false = comment := Option.some.inj hStep
          exact .blank hBlank (ihBlank h)
    · intro h
      rw [List.foldlM_cons, blankStep_comment] at h
      by_cases hNewline : c = '\n'
      · subst hNewline
        exact ⟨[], '\n' :: run, rfl, by simp, by simp, .blank (by simp) (ihBlank h)⟩
      · rw [decide_eq_false hNewline] at h
        obtain ⟨text, more, rfl, hText, hEnds, hMore⟩ := ihComment h
        have hNone := List.not_mem_cons_of_ne_of_not_mem (Ne.symm hNewline) hText
        exact ⟨c :: text, more, rfl, hNone, hEnds, hMore⟩

/-- The reader of blanks stops where nothing goes on. -/
theorem spanBlank_steps {comment : Bool} {cs run rest : List Char}
    (h : spanBlank comment cs = (run, rest)) :
    cs = run ++ rest ∧ (run.foldlM blankStep comment).isSome = true ∧
      ∀ c ∈ rest.head?, (run ++ [c]).foldlM blankStep comment = none := by
  induction cs generalizing comment run rest with
  | nil =>
    obtain ⟨rfl, rfl⟩ := Prod.mk.inj h
    simp
  | cons c cs ih =>
    rw [spanBlank] at h
    cases hStep : blankStep comment c with
    | none =>
      rw [hStep] at h
      obtain ⟨rfl, rfl⟩ := Prod.mk.inj h
      refine ⟨rfl, rfl, fun d hd => ?_⟩
      obtain rfl : c = d := Option.some.inj hd
      simp [hStep]
    | some next =>
      rw [hStep] at h
      obtain ⟨rfl, rfl⟩ := Prod.mk.inj h
      obtain ⟨hCs, hSteps, hEnds⟩ := ih (rfl : spanBlank next cs = (_, _))
      refine ⟨congrArg (c :: ·) hCs, ?_, fun d hd => ?_⟩
      · rw [List.foldlM_cons, hStep]
        exact hSteps
      · rw [List.cons_append, List.foldlM_cons, hStep]
        exact hEnds d hd

-- ---------------------------------------------------------------------------
-- Words and operators
-- ---------------------------------------------------------------------------

/-- A complete word in front of some characters. -/
structure IsWord (word after : List Char) : Prop where
  starts : word.head?.any isWordStart = true
  inside : ∀ c ∈ word, isWordChar c = true
  ends : ∀ c ∈ after.head?, isWordChar c = false

theorem head?_dropWhile {p : Char → Bool} {cs : List Char} :
    ∀ c ∈ (cs.dropWhile p).head?, p c = false := by
  intro c hc
  simpa [Option.mem_def.mp hc] using List.head?_dropWhile_not p cs

theorem isWord_takeWhile {c : Char} (hStart : isWordStart c = true) (cs : List Char) :
    IsWord ((c :: cs).takeWhile isWordChar) ((c :: cs).dropWhile isWordChar) := by
  refine ⟨?_, fun d hd => List.mem_takeWhile_imp hd, head?_dropWhile⟩
  rw [List.takeWhile_cons, isWordChar_of_isWordStart hStart]
  exact hStart

theorem mem_of_lookup {α β : Type} [BEq α] [LawfulBEq α] {entries : List (α × β)} {a : α} {b : β}
    (h : entries.lookup a = some b) : (a, b) ∈ entries := by
  obtain ⟨earlier, later, rfl, -⟩ := List.lookup_eq_some_iff.mp h
  exact List.mem_append_right _ List.mem_cons_self

/-- A spelling at the start of some characters of which no longer one starts them. -/
structure IsOperator (s : Symbol) (spelling after : List Char) : Prop where
  spells : (spelling, s) ∈ Symbol.operatorSpellings
  longest : ∀ longer ∈ Symbol.operatorSpellings, longer.1 <+: spelling ++ after →
    longer.1.length ≤ spelling.length

theorem operator_length : ∀ entry ∈ Symbol.operatorSpellings,
    entry.1 ≠ [] ∧ entry.1.length ≤ 2 :=
  List.all_iff_forall_prop.mp (by decide)

/-- The longer spellings are tried first. -/
theorem matchOperator?_some {cs rest : List Char} {s : Symbol}
    (h : matchOperator? cs = some (s, rest)) :
    ∃ spelling, cs = spelling ++ rest ∧ IsOperator s spelling rest := by
  unfold matchOperator? operatorOfSize? at h
  cases hTwo : Symbol.ofOperator? (cs.take 2) with
  | some t =>
    rw [hTwo] at h
    obtain ⟨rfl, rfl⟩ := Prod.mk.inj (Option.some.inj h)
    refine ⟨cs.take 2, (List.take_append_drop 2 cs).symm, mem_of_lookup hTwo, ?_⟩
    rintro longer hLonger hPrefix
    rw [List.take_append_drop] at hPrefix
    rw [List.length_take]
    exact le_min (operator_length longer hLonger).2 hPrefix.length_le
  | none =>
    rw [hTwo] at h
    obtain ⟨t, hOne, h⟩ := Option.map_eq_some_iff.mp h
    obtain ⟨rfl, rfl⟩ := Prod.mk.inj h
    refine ⟨cs.take 1, (List.take_append_drop 1 cs).symm, mem_of_lookup hOne, ?_⟩
    intro longer hLonger hPrefix
    rw [List.take_append_drop] at hPrefix
    obtain ⟨hSome, hLength⟩ := operator_length longer hLonger
    have hPos := List.length_pos_iff.mpr hSome
    have hTaken := List.prefix_iff_eq_take.mp hPrefix
    rcases Nat.lt_or_ge longer.1.length 2 with hShort | hLong
    · have hCs := hPrefix.length_le
      rw [List.length_take]
      omega
    · -- a spelling of two characters would have been found
      rw [show longer.1.length = 2 by omega] at hTaken
      have hNone := List.lookup_eq_none_iff.mp hTwo longer hLonger
      rw [hTaken] at hNone
      simp at hNone

-- ---------------------------------------------------------------------------
-- Prefix units
-- ---------------------------------------------------------------------------

theorem mem_insertUnit {unit u : String} {units : List String} :
    u ∈ insertUnit unit units ↔ u = unit ∨ u ∈ units := by
  induction units with
  | nil => simp [insertUnit]
  | cons v units ih =>
    unfold insertUnit
    split
    · simp
    · rw [List.mem_cons, ih, List.mem_cons]
      tauto

theorem mem_symbolUnits {u : String} {units : List String} :
    u ∈ symbolUnits units ↔ u ∈ units ∧ isSymbolUnit u = true := by
  have hFold : ∀ us : List String, u ∈ us.foldr insertUnit [] ↔ u ∈ us := by
    intro us
    induction us with
    | nil => rfl
    | cons v us ih => rw [List.foldr_cons, mem_insertUnit, ih, List.mem_cons]
  rw [symbolUnits, hFold, List.mem_filter]

theorem matchUnit?_some {units : List String} {cs rest : List Char} {unit : String}
    (h : matchUnit? units cs = some (unit, rest)) : unit ∈ units ∧ cs = unit.toList ++ rest := by
  obtain ⟨u, hFind, h⟩ := Option.map_eq_some_iff.mp h
  obtain ⟨rfl, rfl⟩ := Prod.mk.inj h
  refine ⟨List.mem_of_find?_eq_some hFind, ?_⟩
  have hPrefix : u.toList <+: cs := List.isPrefixOf_iff_prefix.mp (by simpa using List.find?_some hFind)
  exact (List.prefix_iff_eq_append.mp hPrefix).symm

-- ---------------------------------------------------------------------------
-- Strings
-- ---------------------------------------------------------------------------

/-- The characters between two quotes, and the text that they stand for. -/
inductive Quotes (quote : Char) : List Char → List Char → Prop
  | nil : Quotes quote [] []
  | plain {c : Char} {body text : List Char} (notQuote : c ≠ quote) (notSlash : c ≠ '\\')
      (more : Quotes quote body text) : Quotes quote (c :: body) (c :: text)
  | escape (e : Char) {body text : List Char} (more : Quotes quote body text) :
      Quotes quote ('\\' :: e :: body) (unescape e ++ text)

/-- A string ends at the first quote that is not escaped. -/
theorem readString_some {quote : Char} {cs text rest : List Char}
    (h : readString quote cs = some (text, rest)) :
    ∃ body, cs = body ++ quote :: rest ∧ Quotes quote body text := by
  fun_induction readString quote cs generalizing text with
  | case1 => cases h
  | case2 =>
    obtain ⟨rfl, rfl⟩ := Prod.mk.inj (Option.some.inj h)
    exact ⟨[], rfl, .nil⟩
  | case3 => cases h
  | case4 =>
    obtain ⟨rfl, rfl⟩ := Prod.mk.inj (Option.some.inj h)
    exact ⟨[], rfl, .nil⟩
  | case5 e more hQuote ih =>
    obtain ⟨⟨inner, after⟩, hRead, h⟩ := Option.map_eq_some_iff.mp h
    obtain ⟨rfl, rfl⟩ := Prod.mk.inj h
    obtain ⟨body, rfl, hQuotes⟩ := ih hRead
    exact ⟨'\\' :: e :: body, rfl, .escape e hQuotes⟩
  | case6 c e more hQuote hSlash ih =>
    obtain ⟨⟨inner, after⟩, hRead, h⟩ := Option.map_eq_some_iff.mp h
    obtain ⟨rfl, rfl⟩ := Prod.mk.inj h
    obtain ⟨body, hMore, hQuotes⟩ := ih hRead
    exact ⟨c :: body, congrArg (c :: ·) hMore, .plain hQuote hSlash hQuotes⟩

-- ---------------------------------------------------------------------------
-- Numerals
-- ---------------------------------------------------------------------------

theorem areDecimal_takeWhile {c : Char} (h : isDecimalDigit c = true) (cs : List Char) :
    AreDecimal ((c :: cs).takeWhile isDecimalDigit) := by
  refine ⟨?_, fun d hd => List.mem_takeWhile_imp hd⟩
  rw [List.takeWhile_cons, h]
  simp

theorem readFraction_some {cs ds rest : List Char}
    (h : Numeral.readFraction cs = some (ds, rest)) :
    cs = '.' :: (ds ++ rest) ∧ AreDecimal ds ∧ ∀ c ∈ rest.head?, isDecimalDigit c = false := by
  unfold Numeral.readFraction at h
  split at h
  · rename_i d more
    split at h
    · rename_i hd
      obtain ⟨rfl, rfl⟩ := Prod.mk.inj (Option.some.inj h)
      exact ⟨by rw [List.takeWhile_append_dropWhile], areDecimal_takeWhile hd more, head?_dropWhile⟩
    · cases h
  · cases h

theorem splitSign_eq (cs : List Char) :
    (Numeral.splitSign cs).1.toList ++ (Numeral.splitSign cs).2 = cs ∧
      ∀ c ∈ (Numeral.splitSign cs).1, c = '+' ∨ c = '-' := by
  unfold Numeral.splitSign
  split <;> simp

theorem readExponent_some {cs rest : List Char} {e : Exponent}
    (h : Numeral.readExponent cs = some (e, rest)) :
    cs = e.text ++ rest ∧ (e.mark = 'e' ∨ e.mark = 'E') ∧
      (∀ sign ∈ e.sign, sign = '+' ∨ sign = '-') ∧ AreDecimal e.digits ∧
      ∀ c ∈ rest.head?, isDecimalDigit c = false := by
  cases cs with
  | nil => cases h
  | cons mark more =>
    obtain ⟨hMore, hSign⟩ := splitSign_eq more
    unfold Numeral.readExponent at h
    dsimp only at h
    split at h
    · rename_i hMark
      obtain ⟨hMark, hDigit⟩ := hMark
      obtain ⟨d, ds, hDigits⟩ : ∃ d ds, (Numeral.splitSign more).2 = d :: ds := by
        cases hSplit : (Numeral.splitSign more).2 with
        | nil => rw [hSplit] at hDigit; cases hDigit
        | cons d ds => exact ⟨d, ds, rfl⟩
      rw [hDigits] at h hDigit hMore
      obtain ⟨rfl, rfl⟩ := Prod.mk.inj (Option.some.inj h)
      refine ⟨?_, hMark, hSign, areDecimal_takeWhile hDigit ds, head?_dropWhile⟩
      rw [Exponent.text, List.cons_append, List.append_assoc, List.takeWhile_append_dropWhile]
      exact congrArg (mark :: ·) hMore.symm
    · cases h

/-- A numeral ends with its exponent, or before it where there is none. -/
theorem close_numeral {whole tail rest : List Char} {fraction : Option (List Char)} {n : Numeral}
    (hWhole : AreDecimal whole) (hFraction : ∀ ds ∈ fraction, AreDecimal ds)
    (hTail : ∀ c ∈ tail.head?, isDecimalDigit c = false)
    (h : (match Numeral.readExponent tail with
      | some (exponent, rest) => ((⟨whole, fraction, some exponent⟩ : Numeral), rest)
      | none => (⟨whole, fraction, none⟩, tail)) = (n, rest)) :
    whole ++ (fraction.elim [] ('.' :: ·) ++ tail) = n.text ++ rest ∧ IsNumeral n ∧
      ∀ c ∈ rest.head?, isDecimalDigit c = false := by
  cases hExponent : Numeral.readExponent tail with
  | none =>
    rw [hExponent] at h
    obtain ⟨rfl, rfl⟩ := Prod.mk.inj h
    exact ⟨by simp [Numeral.text], ⟨hWhole, hFraction, by simp⟩, hTail⟩
  | some found =>
    obtain ⟨e, more⟩ := found
    rw [hExponent] at h
    obtain ⟨rfl, rfl⟩ := Prod.mk.inj h
    obtain ⟨rfl, hMark, hSign, hDigits, hEnds⟩ := readExponent_some hExponent
    refine ⟨by simp [Numeral.text], ⟨hWhole, hFraction, ?_⟩, hEnds⟩
    intro e' he'
    obtain rfl : e = e' := Option.some.inj he'
    exact ⟨hMark, hSign, hDigits⟩

/-- A numeral is read as far as its parts go. -/
theorem numeral_read_ok {c : Char} {cs rest : List Char} {n : Numeral}
    (hDigit : isDecimalDigit c = true) (h : Numeral.read (c :: cs) = .ok (n, rest)) :
    c :: cs = n.text ++ rest ∧ IsNumeral n ∧ ∀ d ∈ rest.head?, isDecimalDigit d = false := by
  have hWhole := areDecimal_takeWhile hDigit cs
  have hText := List.takeWhile_append_dropWhile (p := isDecimalDigit) (l := c :: cs)
  have hEnds : ∀ d ∈ ((c :: cs).dropWhile isDecimalDigit).head?, isDecimalDigit d = false :=
    head?_dropWhile
  unfold Numeral.read at h
  generalize (c :: cs).takeWhile isDecimalDigit = whole at *
  generalize (c :: cs).dropWhile isDecimalDigit = tail at *
  rw [← hText]
  cases hFraction : Numeral.readFraction tail with
  | none =>
    simp only [hFraction] at h
    exact close_numeral hWhole (by simp) hEnds (Except.ok.inj h)
  | some found =>
    obtain ⟨ds, more⟩ := found
    obtain ⟨rfl, hDigits, hMore⟩ := readFraction_some hFraction
    simp only [hFraction] at h
    split at h
    · cases h
    · have hFraction : ∀ e ∈ some ds, AreDecimal e := by simpa using hDigits
      exact close_numeral hWhole hFraction hMore (Except.ok.inj h)

-- ---------------------------------------------------------------------------
-- One token
-- ---------------------------------------------------------------------------

/-- What a token stands for, by its slice and the characters behind the slice. -/
inductive IsLexeme (units : List String) (after : List Char) : Content → List Char → Prop
  | blank {run : List Char} (blanks : IsBlankRun run)
      (ends : ∀ c ∈ after.head?, ¬ IsBlankRun (run ++ [c])) :
      IsLexeme units after (.blank (String.ofList run)) run
  | word {word : List Char} (complete : IsWord word after)
      (free : ∀ s, (String.ofList word, s) ∉ Symbol.wordSpellings) :
      IsLexeme units after (.ident (String.ofList word)) word
  | keyword {word : List Char} {s : Symbol} (complete : IsWord word after)
      (spells : (String.ofList word, s) ∈ Symbol.wordSpellings) :
      IsLexeme units after (.symbol s) word
  | unit {unit : String} (listed : unit ∈ units) (sign : isSymbolUnit unit = true) :
      IsLexeme units after (.ident unit) unit.toList
  | operator {s : Symbol} {spelling : List Char} (operator : IsOperator s spelling after) :
      IsLexeme units after (.symbol s) spelling
  | number {n : Numeral} {q : ℚ} (numeral : IsNumeral n)
      (value : q = digitsValue (n.whole ++ n.fraction.getD []) *
        (10 : ℚ) ^ (n.power - (n.fraction.getD []).length))
      (ends : ∀ c ∈ after.head?, isDecimalDigit c = false) :
      IsLexeme units after (.number (.fraction q)) n.text
  | string {quote : Char} {body text : List Char} (quote_mem : quote ∈ ['"', '\''])
      (quotes : Quotes quote body text) :
      IsLexeme units after (.string (String.ofList text)) (quote :: (body ++ [quote]))

theorem isLexeme_word {units : List String} {word after : List Char} (h : IsWord word after) :
    IsLexeme units after (wordContent (String.ofList word)) word := by
  unfold wordContent
  cases hWord : Symbol.ofWord? (String.ofList word) with
  | some s => exact .keyword h (mem_of_lookup hWord)
  | none =>
    refine .word h fun s hs => ?_
    have hNone := List.lookup_eq_none_iff.mp hWord _ hs
    simp at hNone

/-- The text `cs` starts with the slice `taken` of a token, and `rest` follows. -/
structure IsSlice (units : List String) (cs taken rest : List Char) (content : Content) : Prop where
  text : cs = taken ++ rest
  nonempty : taken ≠ []
  lexeme : IsLexeme units rest content taken

variable {units : List String} {c : Char} {cs taken rest : List Char} {content : Content}

theorem isSlice_blank (h : (blankStep false c).isSome = true) (cs : List Char) :
    IsSlice units (c :: cs) (spanBlank false (c :: cs)).1 (spanBlank false (c :: cs)).2
      (.blank (String.ofList (spanBlank false (c :: cs)).1)) := by
  have hFirst : (spanBlank false (c :: cs)).1 ≠ [] := by
    obtain ⟨comment, hStep⟩ := Option.isSome_iff_exists.mp h
    simp [spanBlank, hStep]
  generalize hSpan : spanBlank false (c :: cs) = span at hFirst ⊢
  obtain ⟨run, rest⟩ := span
  obtain ⟨hCs, hSteps, hEnds⟩ := spanBlank_steps hSpan
  refine ⟨hCs, hFirst, .blank ((blankRun_of_steps run).1 hSteps) fun d hd hLonger => ?_⟩
  · have hSome := hLonger.steps
    rw [hEnds d hd] at hSome
    cases hSome

theorem isSlice_word (h : isWordStart c = true) (cs : List Char) :
    IsSlice units (c :: cs) ((c :: cs).takeWhile isWordChar) ((c :: cs).dropWhile isWordChar)
      (wordContent (String.ofList ((c :: cs).takeWhile isWordChar))) := by
  have hWord := isWord_takeWhile h cs
  refine ⟨List.takeWhile_append_dropWhile.symm, fun hNil => ?_, isLexeme_word hWord⟩
  have hStarts := hWord.starts
  rw [hNil] at hStarts
  cases hStarts

theorem isSlice_number (hDigit : isDecimalDigit c = true)
    (h : readNumber (c :: cs) = .token content taken rest) :
    IsSlice units (c :: cs) taken rest content := by
  unfold readNumber at h
  split at h
  · cases h
  · rename_i n more hRead
    split at h
    · rename_i q hValue
      injection h with hContent hTaken hRest
      subst hContent hTaken hRest
      obtain ⟨hCs, hNumeral, hEnds⟩ := numeral_read_ok hDigit hRead
      refine ⟨hCs, ?_, .number hNumeral (Numeral.value_eq hValue) hEnds⟩
      simp [Numeral.text, hNumeral.whole.1]
    · cases h

theorem isSlice_unit {unit : String} (h : matchUnit? (symbolUnits units) cs = some (unit, rest)) :
    IsSlice units cs (before cs rest) rest (.ident unit) := by
  obtain ⟨hMem, rfl⟩ := matchUnit?_some h
  obtain ⟨hListed, hSign⟩ := mem_symbolUnits.mp hMem
  rw [before_append]
  refine ⟨rfl, fun hNil => ?_, .unit hListed hSign⟩
  rw [isSymbolUnit, hNil] at hSign
  cases hSign

theorem isSlice_string {text : List Char} (hQuote : isQuote c = true)
    (h : readString c cs = some (text, rest)) :
    IsSlice units (c :: cs) (before (c :: cs) rest) rest (.string (String.ofList text)) := by
  obtain ⟨body, rfl, hQuotes⟩ := readString_some h
  rw [show c :: (body ++ c :: rest) = c :: (body ++ [c]) ++ rest by simp, before_append]
  exact ⟨rfl, by simp, .string (by simpa [isQuote] using hQuote) hQuotes⟩

theorem isSlice_operator {s : Symbol} (h : matchOperator? cs = some (s, rest)) :
    IsSlice units cs (before cs rest) rest (.symbol s) := by
  obtain ⟨spelling, rfl, hSpelling⟩ := matchOperator?_some h
  rw [before_append]
  exact ⟨rfl, (operator_length _ hSpelling.spells).1, .operator hSpelling⟩

/-- **One token is read off a slice at the start of the text.** -/
theorem read_isSlice (h : read (symbolUnits units) cs = .token content taken rest)
    (hKnown : ∀ text, content ≠ .stray text) : IsSlice units cs taken rest content := by
  cases cs with
  | nil => cases h
  | cons c cs =>
    rw [read] at h
    split at h
    · obtain ⟨rfl, rfl, rfl⟩ := Reading.token.inj h
      exact isSlice_blank ‹_› cs
    · split at h
      · obtain ⟨rfl, rfl, rfl⟩ := Reading.token.inj h
        exact isSlice_word ‹_› cs
      · split at h
        · exact isSlice_number ‹_› h
        · split at h
          · obtain ⟨rfl, rfl, rfl⟩ := Reading.token.inj h
            exact isSlice_unit ‹_›
          · split at h
            · split at h
              · obtain ⟨rfl, rfl, rfl⟩ := Reading.token.inj h
                exact isSlice_string ‹_› ‹_›
              · cases h
            · split at h
              · obtain ⟨rfl, rfl, rfl⟩ := Reading.token.inj h
                exact isSlice_operator ‹_›
              · obtain ⟨rfl, -, -⟩ := Reading.token.inj h
                exact absurd rfl (hKnown _)

/-- Reading finishes only at the end. -/
theorem read_finish (h : read units cs = .finish) : cs = [] := by
  cases cs with
  | nil => rfl
  | cons c cs =>
    rw [read] at h
    unfold readNumber at h
    repeat' split at h
    all_goals cases h

end Lexer

end Reckoner
