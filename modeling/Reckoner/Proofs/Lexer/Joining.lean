import Reckoner.Proofs.Cursor
import Reckoner.Proofs.Lexer.Partition
import Reckoner.Proofs.Lexer.Spacing

/-!
# Texts with a gap

Blanks that are put behind a stretch of a text, and then any text, are read as the stretch was read and
as that text is read on its own, but for the blanks among the tokens (`ReadsOver.beforeGap`). What is in front
of the gap is read as before if no prefix unit goes on with the first character of the gap. What is
behind it is read from a place further on; a text that starts some lines further down has the same
tokens and the same errors, each as many lines further down (`tokensAt_below`).

So blanks may be put in front of any token, and a text of several lines is read line by line: a newline
ends a comment, too, and stands in no prefix unit.

## Results

* `tokensAt_closedRun` — blanks in front of a text are not seen.
* `ReadsOver.beforeGap` — a stretch, a gap, and then any text.
* `tokenize_spaced`    — blanks between two tokens change no other token.
* `tokenize_lines`     — two texts with a newline between them are tokenized one after the other.
-/

namespace Reckoner

open Cursor (solid)

-- ---------------------------------------------------------------------------
-- Lines further down
-- ---------------------------------------------------------------------------

/-- A token as many lines further down. -/
def Token.below (lines : Int) (t : Token) : Token :=
  ⟨t.content, t.place.below lines⟩

/-- An error as many lines further down. -/
def LexError.below (lines : Int) (e : LexError) : LexError :=
  ⟨e.fault, e.place.below lines⟩

/-- The message of an error is a text and the place, wherever the place is. -/
theorem LexError.message_of_fault {fault : Lexer.Fault} (h : ∀ limit, fault ≠ .digits limit) :
    ∃ text, ∀ p, LexError.message ⟨fault, p⟩ = p.locate text := by
  cases fault with
  | digits limit => exact absurd rfl (h limit)
  | _ => exact ⟨_, fun p => rfl⟩

theorem solid_below (lines : Int) (tokens : List Token) :
    solid (tokens.map (Token.below lines)) = (solid tokens).map (Token.below lines) := by
  unfold solid
  rw [List.filter_map]
  rfl

namespace Lexer

variable {units : List String} {p : Place} {front rest gap : List Char} {tokens : List Token}

theorem ReadsOver.further (h : ReadsOver units rest p front tokens) (lines : Int) :
    ReadsOver units rest (p.below lines) front (tokens.map (Token.below lines)) := by
  induction h with
  | done p => exact .done _
  | token hRead hKnown _ ih =>
    rw [← Place.advance_below] at ih
    exact .token hRead hKnown ih

/-- **A text some lines further down has the same tokens and errors**, as many lines further down. -/
theorem tokensAt_below (units : List String) (lines : Int) (p : Place) (cs : List Char) :
    tokensAt units (p.below lines) cs =
      ((tokensAt units p cs).map (List.map (Token.below lines))).mapError (LexError.below lines) := by
  cases h : tokensAt units p cs with
  | ok tokens => exact tokensAt_eq_ok_iff.mpr ((tokensAt_eq_ok_iff.mp h).further lines)
  | error e =>
    obtain ⟨front, tokens, rest, rfl, hFront, hRefused, hPlace⟩ := tokensAt_error h
    rw [(hFront.further lines).tokensAt_append, Place.advance_below, hRefused.tokensAt, ← hPlace]
    rfl

-- ---------------------------------------------------------------------------
-- Blanks in front of a text
-- ---------------------------------------------------------------------------

theorem solid_blank (x : Except LexError (List Token)) (text : String) (p : Place) :
    (x.map (⟨.blank text, p⟩ :: ·)).map solid = x.map solid := by
  cases x <;> rfl

theorem closed_of_blanks (h : ∀ c ∈ gap, c ∈ blankChars) : gap.foldlM blankStep false = some false := by
  induction gap with
  | nil => rfl
  | cons c gap ih =>
    obtain ⟨hBlank, hMore⟩ := List.forall_mem_cons.mp h
    rw [List.foldlM_cons, blankStep_blank hBlank]
    exact ih hMore

/-- **Blanks in front of a text are not seen**, if no comment is open at their end. They are a token of
their own or go on with the blanks of the text. -/
theorem tokensAt_closedRun {run : List Char} (hRun : run.foldlM blankStep false = some false)
    (p : Place) (cs : List Char) :
    (tokensAt units p (run ++ cs)).map solid = (tokensAt units (p.advance run) cs).map solid := by
  by_cases hNone : run = []
  · rw [hNone]
    rfl
  obtain ⟨hText, hMore, hEnds⟩ := spanBlank_steps (rfl : spanBlank false cs = (_, _))
  generalize (spanBlank false cs).1 = more, (spanBlank false cs).2 = rest at hText hMore hEnds
  have hBehind (suffix : List Char) :
      (run ++ suffix).foldlM blankStep false = suffix.foldlM blankStep false := by
    rw [List.foldlM_append, hRun]
    rfl
  have hSome : run ++ more ≠ [] := by simp [hNone]
  have hRead := read_blankRun (symbolUnits units) hSome (by rwa [hBehind]) fun c hc => by
    rw [List.append_assoc, hBehind]
    exact hEnds c hc
  rw [hText, ← List.append_assoc, tokensAt_token hRead (by simp), solid_blank]
  by_cases hSome : more = []
  · rw [hSome, List.append_nil, List.nil_append]
  · have hRead' := read_blankRun (symbolUnits units) hSome hMore hEnds
    rw [tokensAt_token hRead' (by simp), solid_blank, Place.advance_append]

-- ---------------------------------------------------------------------------
-- Gaps
-- ---------------------------------------------------------------------------

theorem ReadsOver.tokens_nil (h : ReadsOver units rest p front tokens) (hNil : front = []) :
    tokens = [] := by
  cases h with
  | done => rfl
  | token hRead hKnown _ =>
    obtain ⟨hTaken, -⟩ := List.append_eq_nil_iff.mp hNil
    exact absurd hTaken (read_isSlice hRead hKnown).nonempty

/-- **A stretch, a gap, and then any text.** The gap is made of blanks, the first of which stands in no
prefix unit, and it starts with a newline where the stretch may end with an open comment. -/
theorem ReadsOver.beforeGap {stops : List Char} (hStops : ∀ c ∈ stops, c ∈ blankChars)
    (hUnits : ∀ u ∈ units, ∀ c ∈ u.toList, c ∉ stops) (hGap : ∀ c ∈ gap, c ∈ blankChars)
    {first : Char} (hFirst : gap.head? = some first) (hStop : first ∈ stops)
    (hCloses : rest = [] → first = '\n') (h : ReadsOver units rest p front tokens)
    (behind : List Char) :
    (tokensAt units p (front ++ (gap ++ behind))).map solid =
      ((tokensAt units (p.advance (front ++ gap)) behind).map solid).map (solid tokens ++ ·) := by
  have hClosed := closed_of_blanks hGap
  induction h with
  | done p =>
    rw [List.nil_append, List.nil_append, tokensAt_closedRun hClosed]
    cases tokensAt units (p.advance gap) behind <;> rfl
  | @token p content taken front tokens hRead hKnown hMore ih =>
    rw [List.append_assoc, List.append_assoc, Place.advance_append]
    by_cases hBlank : ∃ text, content = .blank text
    · obtain ⟨text, rfl⟩ := hBlank
      obtain ⟨rfl, hRun, hEnds⟩ := blank_of_read hRead
      cases hFollows : front ++ rest with
      | cons c cs =>
        have hTaken := closed_of_ends hRun (hEnds c (by rw [hFollows]; rfl))
        rw [tokensAt_closedRun hTaken, ih]
        rfl
      | nil =>
        -- nothing was read behind the blank, which the gap goes on with
        obtain ⟨rfl, rfl⟩ := List.append_eq_nil_iff.mp hFollows
        obtain rfl := hMore.tokens_nil rfl
        obtain ⟨more, rfl⟩ := List.head?_eq_some_iff.mp hFirst
        obtain rfl := hCloses rfl
        obtain ⟨comment, hComment⟩ := Option.isSome_iff_exists.mp hRun
        have hBoth : (taken ++ '\n' :: more).foldlM blankStep false = some false := by
          rw [List.foldlM_append, hComment]
          exact hClosed
        rw [List.nil_append, List.nil_append, ← List.append_assoc, tokensAt_closedRun hBoth,
          Place.advance_append]
        cases tokensAt units ((p.advance taken).advance ('\n' :: more)) behind <;> rfl
    · have hSolid := not_exists.mp hBlank
      have hCut : CutAt stops rest (gap ++ behind) := by
        obtain ⟨more, rfl⟩ := List.head?_eq_some_iff.mp hFirst
        exact .stopped rest hStop _
      have hRead' := read_cutAt hStops hUnits (hCut.append front) hSolid hKnown hRead
      have hKept (ts : List Token) : solid (⟨content, p⟩ :: ts) = ⟨content, p⟩ :: solid ts :=
        List.filter_cons_of_pos (by simp [isBlank_eq_false hSolid])
      have hCons (x : Except LexError (List Token)) :
          (x.map (⟨content, p⟩ :: ·)).map solid = (x.map solid).map (⟨content, p⟩ :: ·) := by
        cases x with
        | error e => rfl
        | ok ts => exact congrArg Except.ok (hKept ts)
      rw [tokensAt_token hRead' hKnown, hCons, ih, hKept]
      cases tokensAt units ((p.advance taken).advance (front ++ gap)) behind <;> rfl

-- ---------------------------------------------------------------------------
-- Blanks between tokens
-- ---------------------------------------------------------------------------

theorem solid_eq_ok {x : Except LexError (List Token)} {tokens : List Token}
    (h : x.map solid = .ok tokens) : ∃ found, x = .ok found ∧ solid found = tokens := by
  cases x with
  | error e => cases h
  | ok found => exact ⟨found, rfl, Except.ok.inj h⟩

theorem eq_error_of_solid {x : Except LexError (List Token)} {e : LexError}
    (h : x.map solid = .error e) : x = .error e := by
  cases x with
  | error e' => exact congrArg Except.error (Except.error.inj h)
  | ok found => cases h

/-- Which tokens are no blanks is told by their contents. -/
theorem contents_solid {ts ts' : List Token} (h : ts.map Token.content = ts'.map Token.content) :
    (solid ts).map Token.content = (solid ts').map Token.content := by
  have hFilter (ts : List Token) : (solid ts).map Token.content =
      (ts.map Token.content).filter fun content => !Token.isBlank ⟨content, .unknown⟩ := by
    rw [List.filter_map]
    rfl
  rw [hFilter, hFilter, h]

theorem ReadsOver.place_eq {t : Token} (h : ReadsOver units rest p front (t :: tokens)) :
    t.place = p := by
  cases h
  rfl

/-- A text is cut in front of a token where its slices are. -/
theorem cut_at_slices {tokens : List Token} {cs : List Char} {slices : List (List Char)}
    (h : ReadsOver units [] .start cs tokens) (hSlices : Partitions units [] cs tokens slices)
    {i : Nat} (hi : i < tokens.length) :
    ReadsOver units (slices.drop i).flatten .start (slices.take i).flatten (tokens.take i) ∧
      ReadsOver units [] (Place.start.advance (slices.take i).flatten) (slices.drop i).flatten
        (tokens.drop i) := by
  rw [← List.take_append_drop i tokens] at h
  obtain ⟨first, second, rfl, hFirst, hSecond⟩ := h.split
  have hPlace : tokens[i].place = placeAfter ([] ++ first) := by
    have hToken := hSecond
    rw [List.drop_eq_getElem_cons hi] at hToken
    exact hToken.place_eq.trans (placeAfter_eq first)
  obtain ⟨hFront, hBack⟩ := hSlices.cut (List.getElem?_eq_getElem hi) rfl hPlace
  rw [List.append_nil] at hFirst
  rw [hFront, hBack]
  exact ⟨hFirst, hSecond⟩

/-- **Blanks between two tokens change no other token.** A text is tokenized, and no prefix unit holds a
blank. The tokens have slices, and only one list of them. If any blanks are put in front of the slice of
a token, then the text is tokenized, and blanks aside its tokens are of the same types and values. -/
theorem tokenize_spaced {units : List String} (hUnits : ∀ u ∈ units, ∀ c ∈ u.toList, c ∉ blankChars)
    {source : String} {tokens : List Token} (hTokens : tokenize units source = .ok tokens) :
    ∃ slices, (∀ slices', Partitions units [] source.toList tokens slices' ↔ slices' = slices) ∧
      ∀ i < tokens.length, ∀ gap, gap ≠ [] → (∀ c ∈ gap, c ∈ blankChars) → ∃ spaced,
        tokenize units (String.ofList ((slices.take i).flatten ++ (gap ++ (slices.drop i).flatten))) =
            .ok spaced ∧
          (solid spaced).map Token.content = (solid tokens).map Token.content := by
  obtain ⟨slices, hSlices⟩ := tokensFrom_partitions [] (Nat.le_refl _) hTokens
  refine ⟨slices, fun slices' => ⟨fun h => h.unique hSlices, fun h => h ▸ hSlices⟩, ?_⟩
  intro i hi gap hSome hGap
  obtain ⟨hFirst, hSecond⟩ := cut_at_slices (tokensAt_eq_ok_iff.mp hTokens) hSlices hi
  obtain ⟨c, more, rfl⟩ := List.exists_cons_of_ne_nil hSome
  have hFollows : (slices.drop i).flatten ≠ [] := by
    intro hNone
    have hNoTokens := hSecond.tokens_nil hNone
    rw [List.drop_eq_nil_iff] at hNoTokens
    omega
  obtain ⟨behind, hMoved, hContents⟩ :=
    hSecond.moved (Place.start.advance ((slices.take i).flatten ++ c :: more))
  have hText := hFirst.beforeGap (fun _ hc => hc) hUnits hGap rfl (hGap c List.mem_cons_self)
    (fun hNone => absurd hNone hFollows) (slices.drop i).flatten
  rw [tokensAt_eq_ok_iff.mpr hMoved] at hText
  obtain ⟨spaced, hSpaced, hSolid⟩ := solid_eq_ok hText
  refine ⟨spaced, ?_, ?_⟩
  · rw [tokenize_eq_tokensAt, String.toList_ofList]
    exact hSpaced
  · have hBehind := contents_solid hContents
    calc (solid spaced).map Token.content
      _ = (solid (tokens.take i) ++ solid behind).map Token.content := by rw [hSolid]
      _ = (solid (tokens.take i) ++ solid (tokens.drop i)).map Token.content := by
        rw [List.map_append, List.map_append, hBehind]
      _ = (solid tokens).map Token.content := by
        unfold solid
        rw [← List.filter_append, List.take_append_drop]

/-- Blanks between a number that could go on and a power that could be two products. -/
theorem power_spaced :
    let units := ["$"]
    let tokens : List Token := [⟨.number (.fraction (mkRat 25 1)), ⟨1, 1⟩⟩, ⟨.symbol .pow, ⟨1, 6⟩⟩,
      ⟨.ident "$", ⟨1, 8⟩⟩, ⟨.ident "x", ⟨1, 9⟩⟩]
    (∀ u ∈ units, ∀ c ∈ u.toList, c ∉ blankChars) ∧ tokenize units "2.5e1**$x" = .ok tokens ∧
      ∃ spaced, tokenize units "2.5e1 \t\n**$x" = .ok spaced ∧
        (solid spaced).map Token.content = tokens.map Token.content := by
  intro units tokens
  have hUnits : ∀ u ∈ units, ∀ c ∈ u.toList, c ∉ blankChars := by simp [units]
  have hTokens : tokenize units "2.5e1**$x" = .ok tokens := rfl
  have hGap : ∀ c ∈ [' ', '\t', '\n'], c ∈ blankChars := by simp
  obtain ⟨slices, hOnly, hSpaced⟩ := tokenize_spaced hUnits hTokens
  obtain ⟨spaced, hSource, hContents⟩ := hSpaced 1 (by decide) [' ', '\t', '\n'] (by simp) hGap
  have hSlices := (hOnly slices).mpr rfl
  have hText : "2.5e1**$x".toList = ['2', '.', '5', 'e', '1'] ++ ['*', '*', '$', 'x'] := rfl
  obtain ⟨hFront, hBack⟩ := hSlices.cut (i := 1) rfl hText rfl
  rw [hFront, hBack] at hSource
  exact ⟨hUnits, hTokens, spaced, hSource, hContents⟩

/-- **Two texts with a newline between them are tokenized one after the other**, if no prefix unit holds
a newline. The first text is tokenized. Then the whole is if and only if the second text is; blanks
aside, its tokens are those of the first text and behind them those of the second, as many lines further
down as the first text and the newline make; and an error of the second text is an error of the whole
with the same message, as many lines further down. -/
theorem tokenize_lines {units : List String} (hUnits : ∀ u ∈ units, '\n' ∉ u.toList) {a : String}
    {tokens : List Token} (hTokens : tokenize units a = .ok tokens) (b : String) :
    let lines : Int := 1 + a.toList.count '\n'
    let joined := tokenize units (a ++ "\n" ++ b)
    ((∃ found, joined = .ok found) ↔ ∃ later, tokenize units b = .ok later) ∧
      (∀ found later, joined = .ok found → tokenize units b = .ok later →
        solid found = solid tokens ++ (solid later).map (Token.below lines)) ∧
      ∀ e, tokenize units b = .error e → ∃ e', joined = .error e' ∧ e'.fault = e.fault ∧
        e'.place = ⟨e.place.line + lines, e.place.col⟩ ∧
        ((∀ limit, e.fault ≠ .digits limit) → ∃ text,
          e.message = e.place.locate text ∧ e'.message = e'.place.locate text) := by
  intro lines joined
  have hNewline : ∀ c ∈ ['\n'], c ∈ blankChars := by simp
  have hNoUnits : ∀ u ∈ units, ∀ c ∈ u.toList, c ∉ ['\n'] := by
    intro u hu c hc hStop
    exact hUnits u hu (List.mem_singleton.mp hStop ▸ hc)
  have hPlace : Place.start.advance (a.toList ++ ['\n']) = Place.start.below lines := by
    have hLine : (Place.start.advance a.toList).line = lines := by
      rw [Place.advance_eq]
      rfl
    rw [Place.advance_append]
    exact congrArg (Place.mk · 1) ((congrArg (· + 1) hLine).trans (add_comm lines 1))
  have hText : (tokensAt units .start (a.toList ++ (['\n'] ++ b.toList))).map solid = _ :=
    (tokensAt_eq_ok_iff.mp hTokens).beforeGap hNewline hNoUnits hNewline rfl List.mem_cons_self
      (fun _ => rfl) b.toList
  have hSource : tokensAt units .start (a.toList ++ (['\n'] ++ b.toList)) = joined := by
    simp [joined, tokenize_eq_tokensAt]
  rw [hPlace, tokensAt_below, ← tokenize_eq_tokensAt, hSource] at hText
  cases hLater : tokenize units b with
  | ok later =>
    rw [hLater] at hText
    obtain ⟨found, hFound, hSolid⟩ := solid_eq_ok hText
    rw [solid_below] at hSolid
    rw [hFound]
    refine ⟨⟨fun _ => ⟨later, rfl⟩, fun _ => ⟨found, rfl⟩⟩, ?_, nofun⟩
    rintro _ _ ⟨⟩ ⟨⟩
    exact hSolid
  | error e =>
    rw [hLater] at hText
    have hError := eq_error_of_solid hText
    rw [hError]
    refine ⟨⟨nofun, nofun⟩, nofun, ?_⟩
    rintro _ ⟨⟩
    refine ⟨e.below lines, rfl, rfl, rfl, fun hLex => ?_⟩
    obtain ⟨text, hMessage⟩ := LexError.message_of_fault hLex
    exact ⟨text, hMessage e.place, hMessage _⟩

/-- A comment with a quote in it, and behind the newline a unit and a string of two lines, or a quote
that is not closed. -/
theorem comment_and_string_lines :
    let units := ["$"]
    let tokens : List Token := [⟨.number (.fraction (mkRat 5 1)), ⟨1, 1⟩⟩, ⟨.blank " # it's", ⟨1, 2⟩⟩]
    (∀ u ∈ units, '\n' ∉ u.toList) ∧ tokenize units "5 # it's" = .ok tokens ∧
      (∃ found later, tokenize units "5 # it's\n$ 'x\ny'!" = .ok found ∧
        tokenize units "$ 'x\ny'!" = .ok later ∧
        solid found = solid tokens ++ (solid later).map (Token.below 1)) ∧
      ∃ e, tokenize units "5 # it's\n  'x" = .error e ∧ e.fault = .unterminatedString ∧
        e.place = ⟨2, 3⟩ := by
  intro units tokens
  have hUnits : ∀ u ∈ units, '\n' ∉ u.toList := by simp [units]
  have hTokens : tokenize units "5 # it's" = .ok tokens := rfl
  obtain ⟨hSucceeds, hLater, -⟩ := tokenize_lines hUnits hTokens "$ 'x\ny'!"
  obtain ⟨-, -, hFails⟩ := tokenize_lines hUnits hTokens "  'x"
  obtain ⟨e, hError, hFault, hPlace, -⟩ := hFails ⟨.unterminatedString, ⟨1, 3⟩⟩ rfl
  obtain ⟨found, hFound⟩ := hSucceeds.mpr ⟨_, rfl⟩
  exact ⟨hUnits, hTokens, ⟨found, _, hFound, rfl, hLater found _ hFound rfl⟩, e, hError, hFault, hPlace⟩

end Lexer

end Reckoner
