import Reckoner.Proofs.Grammar.Contents
import Reckoner.Proofs.Grammar.Quantities
import Reckoner.Proofs.Lexer.Literals
import Reckoner.Proofs.Lexer.Partition
import Reckoner.Proofs.Lexer.Units

/-!
# Prefix units in front of numbers

A configured prefix unit in front of a number is applied to it if the unit is read as one token. That is
so in two cases: a unit that does not begin like a word is matched as it stands, and one that is a word
is read as an identifier. No unit is read that begins like a word and goes on with another character: it
is not matched, as its first character is that of a word, and the word ends in the middle of it.

## Results

* `read_configured`        — a unit in front of a blank is one token.
* `tokenize_configured`    — so a unit, a blank and digits are three tokens.
* `isOneToken_of_tokenize` — no other unit is ever a token.
* `prefixUnit_attaches`    — a unit is applied to the number behind it if it is one token.
-/

namespace Reckoner

open Lexer (isWordStart isWordChar blankStep)
open Unicode (isDecimalDigit)

/-- A unit that can be read as one token: it is a word, or it does not begin like one. -/
def IsOneToken (unit : String) : Prop :=
  (∀ c ∈ unit.toList.head?, isWordStart c = false) ∨ ∀ c ∈ unit.toList, isWordChar c = true

/-- A unit from a list in which no unit holds a blank or starts a comment. The unit itself is not empty,
no keyword, and does not start with a digit. -/
structure IsConfigured (units : List String) (unit : String) : Prop where
  listed : unit ∈ units
  solid : ∀ u ∈ units, ∀ c ∈ u.toList, c ∉ ['\n', '#', ' ', '\t', '\r']
  nonempty : unit ≠ ""
  notKeyword : unit ∉ ["to", "as", "of", "per", "mod"]
  notDigit : ∀ c ∈ unit.toList.head?, isDecimalDigit c = false

variable {units : List String} {unit digits : String}

/-- Of a given list, this can be computed. -/
theorem isConfigured_of_all (hListed : unit ∈ units)
    (hSolid : (units.all fun u => u.toList.all (· ∉ ['\n', '#', ' ', '\t', '\r'])) = true)
    (hKeyword : unit ∉ ["to", "as", "of", "per", "mod"])
    (hFirst : unit.toList.head?.any (!isDecimalDigit ·) = true) : IsConfigured units unit where
  listed := hListed
  solid u hu := List.all_iff_forall_prop.mp (List.all_eq_true.mp hSolid u hu)
  nonempty := by
    rintro rfl
    cases hFirst
  notKeyword := hKeyword
  notDigit c hc := by
    rw [Option.mem_def.mp hc] at hFirst
    simpa using hFirst

namespace Lexer

-- ---------------------------------------------------------------------------
-- Units that are tokens
-- ---------------------------------------------------------------------------

/-- A unit is the longest one in front of a blank, as no other unit goes on with the blank. -/
theorem isLongestUnit_configured (h : IsConfigured units unit)
    (hSign : ∀ c ∈ unit.toList.head?, isWordStart c = false) (rest : List Char) :
    IsLongestUnit units (unit.toList ++ ' ' :: rest) unit := by
  refine ⟨⟨h.listed, h.nonempty, hSign, List.prefix_append _ _⟩, fun v hv => ?_⟩
  by_contra hLonger
  obtain ⟨more, hMore⟩ : unit.toList ++ [' '] <+: v.toList := by
    refine List.prefix_of_prefix_length_le ⟨rest, by simp⟩ hv.ahead ?_
    rw [List.length_append, String.length_toList, String.length_toList, List.length_singleton]
    omega
  have hBlank : ' ' ∈ v.toList := by
    rw [← hMore]
    simp
  exact h.solid v hv.listed ' ' hBlank (by decide)

theorem wordContent_free (h : unit ∉ ["to", "as", "of", "per", "mod"]) :
    wordContent unit = .ident unit := by
  have hNone : Symbol.ofWord? unit = none := by
    refine List.lookup_eq_none_iff.mpr fun entry hEntry => ?_
    have hKeyword : ∀ entry ∈ Symbol.wordSpellings, entry.1 ∈ ["to", "as", "of", "per", "mod"] :=
      List.all_iff_forall_prop.mp (by decide)
    rw [bne_iff_ne]
    rintro rfl
    exact h (hKeyword entry hEntry)
  rw [wordContent, hNone]

/-- **A unit in front of a blank is one token.** -/
theorem read_configured (h : IsConfigured units unit) (hOne : IsOneToken unit) (rest : List Char) :
    read (symbolUnits units) (unit.toList ++ ' ' :: rest) =
      .token (.ident unit) unit.toList (' ' :: rest) := by
  obtain ⟨c, cs, hUnit⟩ := List.exists_cons_of_ne_nil (mt String.toList_eq_nil_iff.mp h.nonempty)
  cases hStart : isWordStart c with
  | true =>
    have hWord : ∀ d ∈ c :: cs, isWordChar d = true := by
      rcases hOne with hSign | hWord
      · rw [hSign c (by rw [hUnit]; rfl)] at hStart
        cases hStart
      · rwa [hUnit] at hWord
    have hEnds : ∀ d ∈ (' ' :: rest).head?, isWordChar d = false := by
      intro d hd
      obtain rfl : ' ' = d := Option.some.inj hd
      decide +kernel
    have hRead := read_word (symbolUnits units) hStart
      (fun d hd => hWord d (List.mem_cons_of_mem _ hd)) hEnds
    rwa [← hUnit, String.ofList_toList, wordContent_free h.notKeyword] at hRead
  | false =>
    have hSign : ∀ d ∈ unit.toList.head?, isWordStart d = false := by
      intro d hd
      rw [hUnit] at hd
      obtain rfl : c = d := Option.some.inj hd
      exact hStart
    have hBlank : (blankStep false c).isSome = false := by
      rw [Bool.eq_false_iff]
      intro hBlank
      exact h.solid unit h.listed c (by rw [hUnit]; exact List.mem_cons_self) (blankStep_cases hBlank)
    have hDigit := h.notDigit c (by rw [hUnit]; rfl)
    have hMatch : matchUnit? (symbolUnits units) (unit.toList ++ ' ' :: rest) =
        some (unit, ' ' :: rest) :=
      matchUnit?_eq_some_iff.mpr ⟨isLongestUnit_configured h hSign rest, rfl⟩
    have hCut := before_append unit.toList (' ' :: rest)
    rw [hUnit, List.cons_append] at hMatch hCut ⊢
    rw [read_matched hBlank hStart hDigit hMatch, hCut]

/-- A text that is one number. -/
structure IsNatural (digits : String) : Prop where
  nonempty : digits ≠ ""
  areDigits : AreDigits digits.toList
  short : digits.length ≤ maxDigits

theorem read_natural (us : List String) (h : IsNatural digits) :
    read us digits.toList =
      .token (.number (.fraction (digitsValue digits.toList))) digits.toList [] := by
  have hRegular := Numeral.regular_digits (mt String.toList_eq_nil_iff.mp h.nonempty) h.areDigits
  have hShort : digits.toList.length ≤ maxDigits := by
    rw [String.length_toList]
    exact h.short
  have hRead := read_numeral us hRegular (Numeral.value_digits hShort) endsNumeral_nil
  have hText : (⟨digits.toList, none, none⟩ : Numeral).text = digits.toList := by simp [Numeral.text]
  rwa [hText, List.append_nil] at hRead

/-- **A unit, a blank and digits are three tokens.** -/
theorem tokenize_configured (h : IsConfigured units unit) (hOne : IsOneToken unit)
    (hDigits : IsNatural digits) :
    tokenize units (unit ++ " " ++ digits) = .ok
      [⟨.ident unit, .start⟩, ⟨.blank " ", ⟨1, unit.length + 1⟩⟩,
        ⟨.number (.fraction (digitsValue digits.toList)), ⟨1, unit.length + 2⟩⟩] := by
  have hText : (unit ++ " " ++ digits).toList = unit.toList ++ ' ' :: digits.toList := by simp
  have hBlank : ∀ c ∈ digits.toList.head?, (blankStep false c).isSome = false := fun c hc =>
    (isDecimalDigit_start (isDecimalDigit_of_isDigit
      (hDigits.areDigits c (List.mem_of_mem_head? hc)))).1
  have hLine : '\n' ∉ unit.toList := fun hc => h.solid unit h.listed '\n' hc (by decide)
  have hPlace : Place.start.advance unit.toList = ⟨1, unit.length + 1⟩ := by
    rw [Place.advance_line hLine, String.length_toList, add_comm]
    rfl
  have hNext : Place.advance ⟨1, unit.length + 1⟩ [' '] = ⟨1, unit.length + 2⟩ := by
    rw [Place.advance_line (by decide)]
    simp [add_assoc]
  have hRead : ReadsOver units [] .start (unit.toList ++ ([' '] ++ (digits.toList ++ []))) _ :=
    .token (read_configured h hOne _) (by simp) (.token (by simpa using read_space _ hBlank) (by simp)
      (.token (by simpa using read_natural _ hDigits) (by simp) (.done _)))
  rw [hPlace, hNext] at hRead
  rw [tokenize_eq_tokensAt, hText]
  exact tokensAt_eq_ok_iff.mpr (by simpa using hRead)

-- ---------------------------------------------------------------------------
-- Units that are not
-- ---------------------------------------------------------------------------

/-- An identifier is a word or a unit that does not begin like one. -/
theorem isOneToken_of_isLexeme {after slice : List Char} {content : Content}
    (h : IsLexeme units after content slice) : ∀ x, content = .ident x → IsOneToken x := by
  rintro x rfl
  cases h with
  | word hComplete _ => exact .inr (by simpa using hComplete.inside)
  | unit _ hSign => exact .inl (isSymbolUnit_iff.mp hSign).2

/-- **No other unit is ever a token.** -/
theorem isOneToken_of_tokenize {source : String} {tokens : List Token}
    (h : tokenize units source = .ok tokens) :
    ∀ t ∈ tokens, ∀ x, t.content = .ident x → IsOneToken x :=
  forall_content_of_tokenize isOneToken_of_isLexeme h

end Lexer

-- ---------------------------------------------------------------------------
-- What is parsed
-- ---------------------------------------------------------------------------

namespace Grammar

variable {x : String}

/-- A prefix unit, a blank and a number are parsed as an application. -/
theorem parse_applied (hx : x ∈ units) (b : String) (v : Payload) (p q r : Place) :
    (parse units [⟨.ident x, p⟩, ⟨.blank b, q⟩, ⟨.number v, r⟩]).result =
      .ok (.pair .apply (.ident x p) (.number v r)) := by
  have hKind : juxtapositionKind units (.ident x p) (.number v r) = .ok (some .apply) := by
    have hPrefix : isPrefixUnit units (.ident x p) = true := by
      simpa [isPrefixUnit, Node.ident, Node.kind, Node.value, Payload.text, Payload.text?] using hx
    rw [juxtapositionKind_eq units (Node.isNegatedNumber_of_kind_ne (by simp))
      (isPowerOfNumber_of_kind_ne (by simp)), hPrefix]
    rfl
  have hReads := (Phrase.isPrimary_ident x p).juxtaposed (Phrase.isPrimary_number v r) (.inl rfl) hKind
  have hPlain : ∀ t ∈ [⟨.ident x, p⟩, ⟨.number v, r⟩],
      Token.isBlank t = false ∧ t.isFinish = false ∧ t.isSymbol .backslash = false := by
    simp [Token.isBlank, Token.isFinish, Token.isSymbol]
  rw [parse, parseWithin_of_solid maxNesting units hPlain rfl]
  have hBound : Phrase.aboveProducts (max 2 2 + 3) + 3 ≤ maxNesting := by decide
  exact (hReads.assignment.isStatements.isExpression.parseWithin maxNesting).1 hBound

end Grammar

open Lexer (IsNatural)

/-- **A prefix unit is applied to the number behind it** if it can be read as one token, be it a word, a
sign, or a mixture that begins with a sign. A mixture that begins like a word is lost in every text: no
token is the unit, and no tree names it. -/
theorem prefixUnit_attaches (h : IsConfigured units unit) (hDigits : IsNatural digits) :
    (IsOneToken unit →
      tokenize units (unit ++ " " ++ digits) = .ok
        [⟨.ident unit, .start⟩, ⟨.blank " ", ⟨1, unit.length + 1⟩⟩,
          ⟨.number (.fraction (digitsValue digits.toList)), ⟨1, unit.length + 2⟩⟩] ∧
      parseSource units (unit ++ " " ++ digits) = .ok (.pair .apply (.ident unit .start)
        (.number (.fraction (digitsValue digits.toList)) ⟨1, unit.length + 2⟩))) ∧
    (¬ IsOneToken unit → ∀ source,
      (∀ tokens, tokenize units source = .ok tokens → ∀ t ∈ tokens, t.content ≠ .ident unit) ∧
      ∀ tree, parseSource units source = .ok tree → tree.FormedOf (· ≠ .ident unit)) := by
  constructor
  · intro hOne
    have hTokens := Lexer.tokenize_configured h hOne hDigits
    refine ⟨hTokens, ?_⟩
    rw [parseSource, parseSourceWithin, hTokens]
    show (Grammar.parse units _).result.mapError ReadError.parsing = _
    rw [Grammar.parse_applied h.listed]
    rfl
  · intro hMixed source
    have hNever : ∀ tokens, tokenize units source = .ok tokens →
        ∀ t ∈ tokens, t.content ≠ .ident unit :=
      fun tokens hTokens t ht hUnit => hMixed (Lexer.isOneToken_of_tokenize hTokens t ht unit hUnit)
    refine ⟨hNever, fun tree hTree => ?_⟩
    obtain ⟨tokens, hTokens, hParse⟩ := bind_eq_ok.mp hTree
    have hTokens := mapError_eq_ok.mp hTokens
    exact Grammar.parseWithin_formedOf (mapError_eq_ok.mp hParse) (hNever tokens hTokens)

/-- The unit `$US` is longer than `$`, and it is applied to the number 5 in front of which it stands. No
tree names the unit `US$`. -/
theorem dollar_attaches :
    let units := ["$", "$US", "CHF", "US$"]
    IsConfigured units "$US" ∧ IsConfigured units "US$" ∧ IsNatural "05" ∧
      parseSource units "$US 05" =
        .ok (.pair .apply (.ident "$US" .start) (.number (.fraction 5) ⟨1, 5⟩)) ∧
      ∀ tree, parseSource units "US$ 05" = .ok tree → tree.FormedOf (· ≠ .ident "US$") := by
  intro units
  have hDollar : IsConfigured units "$US" :=
    isConfigured_of_all (by decide) (by decide) (by decide) (by decide +kernel)
  have hMixed : IsConfigured units "US$" :=
    isConfigured_of_all (by decide) (by decide) (by decide) (by decide +kernel)
  have hFive : IsNatural "05" := ⟨by decide, List.all_eq_true.mp (by decide), by decide⟩
  have hOne : IsOneToken "$US" := by
    refine .inl fun c hc => ?_
    obtain rfl : '$' = c := Option.some.inj hc
    decide +kernel
  have hNot : ¬ IsOneToken "US$" := by
    rintro (hSign | hWord)
    · exact absurd (hSign 'U' rfl) (by decide +kernel)
    · exact absurd (hWord '$' (by decide)) (by decide +kernel)
  refine ⟨hDollar, hMixed, hFive, ?_, ((prefixUnit_attaches hMixed hFive).2 hNot _).2⟩
  obtain ⟨-, hTree⟩ := (prefixUnit_attaches hDollar hFive).1 hOne
  exact hTree

/-- The unit `US$` is not applied to the number behind it: the word ends in front of its sign. -/
theorem mixed_unit_refused :
    IsConfigured ["US$"] "US$" ∧ IsNatural "5" ∧
      (∃ e, parseSource ["US$"] "US$ 5" = .error (.lexing e) ∧
        e.message = "Unexpected character '$' at line 1, col 3") ∧
      ∀ p q v, parseSource ["US$"] "US$ 5" ≠ .ok (.pair .apply (.ident "US$" p) (.number v q)) := by
  have hMixed : IsConfigured ["US$"] "US$" :=
    isConfigured_of_all (by decide) (by decide) (by decide) (by decide +kernel)
  have hFive : IsNatural "5" := ⟨by decide, List.all_eq_true.mp (by decide), by decide⟩
  have hError : (tokenize ["US$"] "US$ 5").map (fun _ => ()) = .error ⟨.unexpected "$", ⟨1, 3⟩⟩ := by
    decide +kernel
  have hRefused : parseSource ["US$"] "US$ 5" = .error (.lexing ⟨.unexpected "$", ⟨1, 3⟩⟩) := by
    rw [parseSource, parseSourceWithin]
    cases hTokens : tokenize ["US$"] "US$ 5" with
    | ok tokens =>
      rw [hTokens] at hError
      cases hError
    | error e =>
      rw [hTokens] at hError
      obtain rfl := Except.error.inj hError
      rfl
  refine ⟨hMixed, hFive, ⟨_, hRefused, by decide +kernel⟩, fun p q v hTree => ?_⟩
  rw [hRefused] at hTree
  cases hTree

end Reckoner
