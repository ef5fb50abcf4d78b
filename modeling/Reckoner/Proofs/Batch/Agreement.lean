import Reckoner.Proofs.Batch.Factorials
import Reckoner.Proofs.Lexer.Margins
import Reckoner.Proofs.Render.Heights
import Reckoner.Proofs.Render.Places
import Reckoner.Proofs.Session.Traces

/-!
# Batch runs and sessions agree

A batch run and a session read the same lines. The run reads each line with its margins and writes all
trees at the end; the session strips each line, and answers it before it reads the next one. They agree
all the same. What a line comes to on its own (`Batch.showLine`) is what the session answers to it
(`Session.evaluate_answers`), it does not change when the line is stripped (`showLine_strip`), and a
session that is given no command stays as it is, so that every line is answered as if it were the first.

A line is compared in both by `Replies`: neither has anything to say to it, both show it in the same way,
or both refuse it.

Two things keep them apart. The lines of a file end at every kind of line end, and a line that is typed
may have some of them in it. And a session calls the grammar and the writers from one call further down
than a run does, so its bounds are smaller (`Bounds.below`). So the lines here are those of a file, and
each of them has room in both or in neither. Both conditions are needed (`form_feed_and_height_part`).

## Results

* `showLine_strip`          — a line is shown as the line without its margins is.
* `shown_iff`               — a line is shown alike wherever there is room for it.
* `IsOrdinary.replies`      — what a session does on a line that a batch run can be given.
* `run_agrees_with_session` — a batch run succeeds if a session reports no error, with the same text.
-/

namespace Reckoner

open Lexer (IsMargin blankStep)
open Render (Carries IsLongInteger)

-- ---------------------------------------------------------------------------
-- Stripped lines
-- ---------------------------------------------------------------------------

/-- A character that is no blank and starts no comment goes on with no run of blanks. -/
theorem Lexer.blankStep_eq_none {c : Char} (hBlank : Unicode.isBlank c = false) (hHash : c ≠ '#') :
    blankStep false c = none := by
  have hChars : ∀ d ∈ ['\n', '#', ' ', '\t', '\r'], d = '#' ∨ Unicode.isBlank d = true :=
    List.all_iff_forall_prop.mp (by decide)
  by_contra hStep
  rcases hChars c (blankStep_cases (Option.isSome_iff_ne_none.mpr hStep)) with rfl | h
  · exact hHash rfl
  · rw [hBlank] at h
    cases h

namespace Batch

variable {b b' : Bounds} {files : Files} {request : Request} {format : Format} {text line : String}

/-- A session has nothing to say to the lines that a batch run passes over. -/
theorem isSilent_strip (line : String) :
    Session.isSilent (Text.strip line) = !isExpression line := by
  unfold isExpression Session.isSilent Text.strip
  rw [String.toList_ofList]
  cases Text.trim line.toList <;> simp

/-- A line whose blanks at both ends are spaces and tabs. -/
def HasMargins (line : String) : Prop :=
  ∃ lead tail, IsMargin lead ∧ IsMargin tail ∧
    line.toList = lead ++ (Text.trim line.toList ++ tail)

/-- A line that holds an expression and the line without its margins are read alike. -/
theorem readsAlike_strip (hMargins : HasMargins line) (hExpression : isExpression line = true) :
    (∀ tokens, tokenize defaultPrefixUnits line = .ok tokens →
        ReadsAlike tokens (Text.strip line)) ∧
      ∀ tokens, tokenize defaultPrefixUnits (Text.strip line) = .ok tokens →
        ReadsAlike tokens line := by
  obtain ⟨lead, tail, hLead, hTail, hLine⟩ := hMargins
  have hCore : ∃ c more, Text.trim line.toList = c :: more ∧ blankStep false c = none := by
    unfold isExpression at hExpression
    cases hTrim : Text.trim line.toList with
    | nil => rw [hTrim] at hExpression; cases hExpression
    | cons c more =>
      rw [hTrim] at hExpression
      exact ⟨c, more, rfl,
        Lexer.blankStep_eq_none (Text.trim_starts hTrim) (of_decide_eq_true hExpression)⟩
  have hAlike := readsAlike_margins hLead hTail hCore
  rwa [← hLine, String.ofList_toList] at hAlike

/-- Texts that are read alike are shown alike, in a format that shows no places. -/
theorem showLine_of_readsAlike {source source' shown : String} (hFormat : format ≠ .document)
    (hAlike : ∀ tokens, tokenize defaultPrefixUnits source = .ok tokens → ReadsAlike tokens source')
    (h : showLine b .canonical format source = .ok shown) :
    showLine b .canonical format source' = .ok shown := by
  obtain ⟨tree, hTree, hShown⟩ := bind_eq_ok.mp h
  obtain ⟨tokens, hTokens, hParse⟩ := bind_eq_ok.mp (mapError_eq_ok.mp hTree)
  obtain ⟨lexed, hLexed, rfl⟩ : ∃ lexed, tokenize defaultPrefixUnits source = .ok lexed ∧
      Aliases.canonical.apply lexed = tokens := by
    have hLexed : (tokenize defaultPrefixUnits source).map Aliases.canonical.apply = .ok tokens :=
      mapError_eq_ok.mp hTokens
    cases hSource : tokenize defaultPrefixUnits source with
    | error e => rw [hSource] at hLexed; cases hLexed
    | ok lexed =>
      rw [hSource] at hLexed
      exact ⟨lexed, rfl, Except.ok.inj hLexed⟩
  obtain ⟨lexed', hLexed', hMarks⟩ := hAlike lexed hLexed
  obtain ⟨hBoth, hSame⟩ :=
    (Grammar.parseWithin_marks b.nesting defaultPrefixUnits (hMarks .canonical)).built
  have hTree := mapError_eq_ok.mp hParse
  obtain ⟨tree', hTree'⟩ := hBoth.mp ⟨tree, hTree⟩
  have hRead : treeOf b .canonical source' = .ok tree' := by
    have hTokens' : Aliases.canonical.tokens source' = .ok (Aliases.canonical.apply lexed') :=
      congrArg (Except.map Aliases.canonical.apply) hLexed'
    rw [treeOf, hTokens']
    exact mapError_eq_ok.mpr hTree'
  rw [showLine, hRead]
  show (format.renderWithin (b.height format) [tree']).mapError Failure.rendering = _
  rw [← Format.renderWithin_congr hFormat (hSame tree tree' hTree hTree')]
  exact hShown

/-- **A line is shown as the line without its margins is.** -/
theorem showLine_strip {shown : String} (hFormat : format ≠ .document) (hMargins : HasMargins line)
    (hExpression : isExpression line = true) :
    showLine b .canonical format (Text.strip line) = .ok shown ↔
      showLine b .canonical format line = .ok shown := by
  obtain ⟨hStrip, hLine⟩ := readsAlike_strip hMargins hExpression
  exact ⟨showLine_of_readsAlike hFormat hLine, showLine_of_readsAlike hFormat hStrip⟩

-- ---------------------------------------------------------------------------
-- Room
-- ---------------------------------------------------------------------------

/-- A line is nested too deeply for the room that there is: when it is read, or when its tree is
written. -/
def IsTooDeep (b : Bounds) (format : Format) (line : String) : Prop :=
  showLine b .canonical format line = .error (.reading (.parsing (.error .tooDeep))) ∨
    showLine b .canonical format line = .error (.rendering .tooDeep)

theorem IsTooDeep.hidden (h : IsTooDeep b format line) (shown : String) :
    showLine b .canonical format line ≠ .ok shown := by
  rcases h with h | h <;> simp [h]

/-- A line that is shown is not too deep. -/
theorem not_isTooDeep (h : (showLine b .canonical format line).toOption.isSome = true) :
    ¬ IsTooDeep b format line := by
  intro hDeep
  cases hShown : showLine b .canonical format line with
  | ok shown => exact hDeep.hidden shown hShown
  | error e => rw [hShown] at h; cases h

/-- A line that finds room to be read is read alike elsewhere, if it finds room there. -/
theorem treeOf_eq {a : Aliases} (h : treeOf b a line ≠ .error (.parsing (.error .tooDeep)))
    (h' : treeOf b' a line ≠ .error (.parsing (.error .tooDeep))) :
    treeOf b a line = treeOf b' a line := by
  unfold treeOf at h h' ⊢
  cases hTokens : a.tokens line with
  | error e => rfl
  | ok tokens =>
    rw [hTokens] at h h'
    have hRoom {b : Bounds} (h : (b.parse a.prefixUnits tokens).result.mapError ReadError.parsing ≠
        .error (.parsing (.error .tooDeep))) :
        (b.parse a.prefixUnits tokens).result ≠ .error (.error .tooDeep) := by
      intro hDeep
      rw [hDeep] at h
      exact h rfl
    have hSame := (Grammar.parseWithin_settled rfl (hRoom h) b'.nesting).2.resolve_right (hRoom h')
    exact congrArg (Except.mapError ReadError.parsing) hSame.symm

/-- A line that finds room is shown alike elsewhere, if it finds room there. -/
theorem showLine_eq (h : ¬ IsTooDeep b format line) (h' : ¬ IsTooDeep b' format line) :
    showLine b .canonical format line = showLine b' .canonical format line := by
  obtain ⟨hReads, hWrites⟩ := not_or.mp h
  obtain ⟨hReads', hWrites'⟩ := not_or.mp h'
  have hTree : treeOf b .canonical line = treeOf b' .canonical line := by
    refine treeOf_eq (fun hDeep => hReads ?_) fun hDeep => hReads' ?_
    · rw [showLine, hDeep]
      rfl
    · rw [showLine, hDeep]
      rfl
  unfold showLine at hWrites hWrites' ⊢
  rw [← hTree] at hWrites' ⊢
  cases hRead : treeOf b .canonical line with
  | error e => rfl
  | ok tree =>
    rw [hRead] at hWrites hWrites'
    refine congrArg (Except.mapError Failure.rendering) (format.renderWithin_eq ?_ ?_)
    · exact fun hDeep => hWrites (congrArg (Except.mapError Failure.rendering) hDeep)
    · exact fun hDeep => hWrites' (congrArg (Except.mapError Failure.rendering) hDeep)

/-- **A line is shown alike wherever there is room for it**, and nowhere else. -/
theorem shown_iff (hRoom : IsTooDeep b format line ↔ IsTooDeep b' format line) {shown : String} :
    showLine b .canonical format line = .ok shown ↔ showLine b' .canonical format line = .ok shown := by
  by_cases hDeep : IsTooDeep b format line
  · exact iff_of_false (hDeep.hidden shown) ((hRoom.mp hDeep).hidden shown)
  · rw [showLine_eq hDeep (mt hRoom.mpr hDeep)]

end Batch

-- ---------------------------------------------------------------------------
-- Answers
-- ---------------------------------------------------------------------------

namespace Session

variable {s : Session} {format : Format} {source shown : String}

/-- An error is no answer. -/
theorem Verdict.ofLexError_ne (e : LexError) (text : String) : ofLexError e ≠ answer text := by
  obtain ⟨fault, place⟩ := e
  cases fault <;> exact Verdict.noConfusion

theorem Verdict.ofStop_ne (stop : Stop) (text : String) : ofStop stop ≠ answer text := by
  cases stop <;> exact Verdict.noConfusion

theorem Verdict.ofWriting_eq_answer {x : Render.Writing} {text : String} :
    ofWriting x = answer text ↔ x = .ok text := by
  cases x with
  | ok shown => exact ⟨fun h => congrArg _ (answer.inj h), fun h => congrArg _ (Except.ok.inj h)⟩
  | error fault => cases fault <;> exact ⟨Verdict.noConfusion, nofun⟩

section Quiet

variable (hQuiet : s.verbose = false)
include hQuiet

theorem showTokens_quiet (tokens : List Token) : s.showTokens tokens = .ok .nothing := by
  rw [showTokens, hQuiet, if_neg Bool.false_ne_true]
  rfl

theorem showTree_quiet (tree : Node) : s.showTree tree = .ok .nothing := by
  rw [showTree, hQuiet, if_neg Bool.false_ne_true]
  rfl

/-- A session that does not show its work puts nothing out on the way to a verdict. -/
theorem evaluate_printed (source : String) : (s.evaluate source).1.printed = [] := by
  unfold evaluate
  cases s.aliases.tokens source with
  | error e => rfl
  | ok tokens =>
    dsimp only
    rw [showTokens_quiet hQuiet]
    unfold parse present
    dsimp only
    cases (s.bounds.parse s.aliases.prefixUnits tokens).result with
    | error stop => rfl
    | ok tree =>
      dsimp only
      rw [showTree_quiet hQuiet]
      rfl

/-- **A session answers an expression with the text in which it is shown on its own.** -/
theorem evaluate_answers (hFormat : Format.ofSetting s.format = .ok format) :
    (s.evaluate source).2 = .answer shown ↔
      Batch.showLine s.bounds s.aliases format source = .ok shown := by
  unfold evaluate Batch.showLine Batch.treeOf
  cases s.aliases.tokens source with
  | error e => exact ⟨fun h => absurd h (Verdict.ofLexError_ne e shown), nofun⟩
  | ok tokens =>
    dsimp only
    rw [showTokens_quiet hQuiet]
    unfold parse present
    dsimp only
    show _ ↔ ((Except.mapError _ (Except.mapError _ (s.bounds.parse _ tokens).result)) >>= _) = _
    cases (s.bounds.parse s.aliases.prefixUnits tokens).result with
    | error stop => exact ⟨fun h => absurd h (Verdict.ofStop_ne stop shown), nofun⟩
    | ok tree =>
      dsimp only
      rw [showTree_quiet hQuiet, write, hFormat, ok_bind]
      exact Verdict.ofWriting_eq_answer.trans mapError_eq_ok.symm

end Quiet

end Session

-- ---------------------------------------------------------------------------
-- Ordinary lines
-- ---------------------------------------------------------------------------

namespace Batch

variable {b : Bounds} {files : Files} {request : Request} {format : Format} {text line : String}
  {lines : List String} {s : Session} {n : Nat}

/-- A text without numbers of too many digits: it has no numeral that stops its reading, and no integer
that would be written stands in its tree. -/
structure IsModest (b : Bounds) (source : String) : Prop where
  numerals : ∀ limit place, Aliases.canonical.tokens source ≠ .error ⟨.digits limit, place⟩
  integers : ∀ tree, treeOf b .canonical source = .ok tree → ¬ Carries IsLongInteger tree

/-- A text whose tokens are read, and have no long numbers among them, is modest. -/
theorem IsModest.of_tokens {source : String} {tokens : List Token}
    (hTokens : Aliases.canonical.tokens source = .ok tokens)
    (hShort : ∀ t ∈ tokens, IsShort t.content) : IsModest b source where
  numerals limit place h := by cases hTokens.symm.trans h
  integers tree hTree := by
    rw [treeOf, hTokens] at hTree
    exact Format.tagged.not_carries (Grammar.parseWithin_formedOf (mapError_eq_ok.mp hTree) hShort)

/-- A line that a batch run and a session can both be given: its margins are spaces and tabs, and
without them it does not take leave of a session, is no command, and has no number of too many digits. -/
structure IsOrdinary (b : Bounds) (line : String) : Prop where
  margins : HasMargins line
  stays : Session.isFarewell (Text.strip line) = false
  plain : Session.isToggle (Text.strip line) = false
  noCommand : AliasCommand.argument? (Text.strip line) = none
  modest : IsModest b (Text.strip line)

/-- A session at its start: it does not show its work, its format is one of those without places, and
its aliases are the canonical ones. -/
structure Begins (s : Session) (format : Format) : Prop where
  quiet : s.verbose = false
  canonical : s.aliases = .canonical
  format_eq : Format.ofSetting s.format = .ok format
  placeless : format ≠ .document

/-- A text that asks for no long number gets a reply. -/
theorem Begins.evaluate_replies (h : Begins s format) {source : String}
    (hModest : IsModest s.bounds source) :
    (s.evaluate source).2.IsReply := by
  refine Session.evaluate_isReply ?_ fun tokens hTokens => ?_
  · rw [h.canonical]
    exact hModest.numerals
  · refine ⟨⟨_, Session.showTokens_quiet h.quiet tokens⟩, fun tree hTree => ?_⟩
    have hFormed := Grammar.parseWithin_formedOf hTree (Render.tokens_hasFraction hTokens)
    have hRead : treeOf s.bounds .canonical source = .ok tree := by
      rw [h.canonical] at hTokens hTree
      rw [treeOf, hTokens]
      exact mapError_eq_ok.mpr hTree
    have hShort : ¬ Carries format.IsTooLong tree := by
      cases format with
      | document => exact absurd rfl h.placeless
      | _ => exact hModest.integers tree hRead
    refine Session.present_replies (Or.inl ⟨_, Session.showTree_quiet h.quiet tree⟩) ?_
    rw [Session.write, h.format_eq, ok_bind]
    exact format.shows (s.bounds.height format) hFormed hShort

/-- What a session does on a line, against what the line comes to on its own: it has nothing to say to
a line that holds no expression, it shows the line as it is shown on its own, or it refuses a line that
is not shown. -/
inductive Replies (b : Bounds) (s : Session) (format : Format) (line : String) : Prop
  | skipped (silent : isExpression line = false) (accepts : ¬ s.Refuses line)
      (step : s.step line = ⟨s, .nothing, .ongoing⟩)
  | shown {output : Output} {text : String} (expression : isExpression line = true)
      (accepts : ¬ s.Refuses line) (step : s.step line = ⟨s, output ++ .ofLine text, .ongoing⟩)
      (quiet : output.printed = []) (shown : showLine b .canonical format line = .ok text)
  | refused (expression : isExpression line = true) (refuses : s.Refuses line)
      (hidden : ∀ text, showLine b .canonical format line ≠ .ok text)

/-- **An ordinary line gets one of these replies** from a session at its start, if there is room for it
both or neither times. -/
theorem IsOrdinary.replies (h : IsOrdinary s.bounds line) (hBegins : Begins s format)
    (hRoom : IsTooDeep b format line ↔ IsTooDeep s.bounds format line) :
    Replies b s format line := by
  have hSilent := isSilent_strip line
  cases hExpression : isExpression line with
  | false =>
    rw [hExpression] at hSilent
    refine .skipped hExpression ?_ ?_
    · rintro (⟨asks, -, -⟩ | ⟨asks, -, -⟩) <;> cases hSilent.symm.trans asks.speaks
    · unfold Session.step
      dsimp only
      rw [h.stays, if_neg Bool.false_ne_true, hSilent]
      rfl
  | true =>
    rw [hExpression] at hSilent
    have hAsks : Session.Asks (Text.strip line) := ⟨h.stays, hSilent, h.plain⟩
    have hAnswers (text : String) : (s.evaluate (Text.strip line)).2 = .answer text ↔
        showLine b .canonical format line = .ok text := by
      rw [Session.evaluate_answers hBegins.quiet hBegins.format_eq, hBegins.canonical, shown_iff hRoom]
      exact showLine_strip hBegins.placeless h.margins hExpression
    have hPrinted := Session.evaluate_printed hBegins.quiet (Text.strip line)
    have hStep := hAsks.step_expression (s := s) h.noCommand
    unfold Session.answer at hStep
    have hReply := hBegins.evaluate_replies h.modest
    cases hVerdict : s.evaluate (Text.strip line) with
    | mk output verdict =>
      rw [hVerdict] at hAnswers hPrinted hStep hReply
      cases hReply with
      | answer text =>
        refine .shown hExpression ?_ hStep hPrinted ((hAnswers text).mp rfl)
        rintro (⟨-, -, hError⟩ | ⟨-, hCommand, -⟩)
        · cases hVerdict.symm.trans hError
        · cases h.noCommand.symm.trans hCommand
      | error message =>
        refine .refused hExpression (.expression hAsks h.noCommand hVerdict) fun text hText => ?_
        cases (hAnswers text).mpr hText

namespace Replies

/-- The session stays as it is, and goes on. -/
theorem session_stays (h : Replies b s format line) :
    (s.step line).session = s ∧ (s.step line).course = .ongoing := by
  cases h with
  | skipped silent accepts step => rw [step]; exact ⟨rfl, rfl⟩
  | shown expression accepts step quiet shown => rw [step]; exact ⟨rfl, rfl⟩
  | refused expression refuses hidden =>
    obtain ⟨before, message, more, step⟩ := refuses.step
    rw [step]
    exact ⟨rfl, rfl⟩

/-- A line that holds an expression and is shown on its own is not refused. -/
theorem accepted (h : Replies b s format line)
    (hShown : isExpression line = true → ∃ text, showLine b .canonical format line = .ok text) :
    ¬ s.Refuses line := by
  cases h with
  | skipped silent accepts step => exact accepts
  | shown expression accepts step quiet shown => exact accepts
  | refused expression refuses hidden =>
    obtain ⟨text, hText⟩ := hShown expression
    exact absurd hText (hidden text)

/-- Every line gets the reply that it would get as the first one. -/
theorem outputs_eq (h : ∀ line ∈ lines, Replies b s format line) :
    s.outputs (lines.map some) =
      lines.map (fun line => (s.step line).output) ++ [Session.interrupted] := by
  induction lines with
  | nil => rfl
  | cons line lines ih =>
    obtain ⟨hFirst, hMore⟩ := List.forall_mem_cons.mp h
    obtain ⟨hSession, hOngoing⟩ := hFirst.session_stays
    rw [List.map_cons, Session.outputs_cons_ongoing _ hOngoing, hSession, ih hMore]
    rfl

/-- If no line is refused, what is printed for the lines is what their expressions are shown as. -/
theorem shows (h : ∀ line ∈ lines, Replies b s format line)
    (hAccepts : ∀ line ∈ lines, ¬ s.Refuses line) :
    List.Forall₂ (fun line shown => showLine b .canonical format line = .ok shown)
      (lines.filter isExpression) (lines.flatMap fun line => (s.step line).output.printed) := by
  induction lines with
  | nil => exact .nil
  | cons line lines ih =>
    obtain ⟨hFirst, hMore⟩ := List.forall_mem_cons.mp h
    obtain ⟨hAccepted, hAcceptedMore⟩ := List.forall_mem_cons.mp hAccepts
    have hRest := ih hMore hAcceptedMore
    rw [List.filter_cons, List.flatMap_cons]
    cases hFirst with
    | skipped silent accepts step =>
      rw [silent, if_neg Bool.false_ne_true, step]
      exact hRest
    | @shown output text expression accepts step quiet shown =>
      have hPrinted : (s.step line).output.printed = [text] := by
        rw [step]
        exact congrArg (· ++ [text]) quiet
      rw [expression, if_pos rfl, hPrinted]
      exact .cons shown hRest
    | refused expression refuses hidden => exact absurd refuses hAccepted

end Replies

-- ---------------------------------------------------------------------------
-- Runs and sessions
-- ---------------------------------------------------------------------------

/-- **A batch run and a session agree.** The lines of a file, all of them ordinary, are given to a
batch run, in which nothing but the lines can fail, and to a session at its start, with the same aliases
and the same format; and for each of them there is room in both or in neither. The session answers every
line as if it were the first; the run succeeds if and only if the session refuses no line; and what it
delivers then is what the session prints for the lines, in their order. -/
theorem run_agrees_with_session (hPrepared : Prepared files request format text .canonical)
    (hBegins : Begins s format) (hText : Text.splitLines text = lines)
    (hLines : ∀ line ∈ lines, IsOrdinary s.bounds line)
    (hRoom : ∀ line ∈ lines,
      IsTooDeep request.bounds format line ↔ IsTooDeep s.bounds format line) :
    let result := (run Files.disk request).run files
    s.outputs (lines.map some) =
        lines.map (fun line => (s.step line).output) ++ [Session.interrupted] ∧
      (result.1.2 = .ok () ↔ ∀ line ∈ lines, ¬ s.Refuses line) ∧
      (result.1.2 = .ok () → Delivers files request format
        ("\n".intercalate (lines.flatMap fun line => (s.step line).output.printed)) result) := by
  intro result
  have hReplies : ∀ line ∈ lines, Replies request.bounds s format line :=
    fun line hLine => (hLines line hLine).replies hBegins (hRoom line hLine)
  have hRun := run_prepared hPrepared
  rw [hText] at hRun
  have hDelivers (hAccepts : ∀ line ∈ lines, ¬ s.Refuses line) : Delivers files request format
      ("\n".intercalate (lines.flatMap fun line => (s.step line).output.printed)) result := by
    rw [writeLines_eq_ok.mpr ⟨_, Replies.shows hReplies hAccepts, rfl⟩] at hRun
    exact hRun
  have hAccepts (hOk : result.1.2 = .ok ()) : ∀ line ∈ lines, ¬ s.Refuses line := by
    cases hWritten : (writeLines request.bounds .canonical (some format) lines).2 with
    | error failure =>
      rw [hWritten] at hRun
      cases hOk.symm.trans hRun.fails
    | ok written =>
      obtain ⟨texts, hTexts, -⟩ := writeLines_eq_ok.mp hWritten
      exact fun line hLine => (hReplies line hLine).accepted fun hExpression =>
        exists_of_forall₂ hTexts line (List.mem_filter.mpr ⟨hLine, hExpression⟩)
  exact ⟨Replies.outputs_eq hReplies, ⟨hAccepts, fun h => (hDelivers h).succeeds⟩,
    fun hOk => hDelivers (hAccepts hOk)⟩

/-- A factorial between margins, a comment, and a name. -/
theorem factorial_with_margins_agrees :
    let files : Files := ⟨["work"], [(["work"], .directory), (["work", "a.tally"],
      .file [0x20, 0x20, 0x78, 0x21, 0x09, 0x0A, 0x23, 0x0A, 0x79, 0x0A])]⟩
    let request : Request :=
      { source := "a.tally", isText := false, format := some .tagged, out := some "b", pretty := true,
        config := none }
    let s : Session := { format := some "sexpr", verbose := false, aliases := .canonical }
    let lines := ["  x!\t", "#", "y"]
    Prepared files request .tagged (Output.textOf lines) .canonical ∧ Begins s .tagged ∧
      Text.splitLines (Output.textOf lines) = lines ∧ (∀ line ∈ lines, IsOrdinary s.bounds line) ∧
      (∀ line ∈ lines, IsTooDeep request.bounds .tagged line ↔ IsTooDeep s.bounds .tagged line) ∧
      let result := (run Files.disk request).run files
      s.outputs (lines.map some) =
          lines.map (fun line => (s.step line).output) ++ [Session.interrupted] ∧
        (result.1.2 = .ok () ↔ ∀ line ∈ lines, ¬ s.Refuses line) ∧
        (result.1.2 = .ok () → Delivers files request .tagged
          ("\n".intercalate (lines.flatMap fun line => (s.step line).output.printed)) result) := by
  intro files request s lines
  have hDecoded : Disk.textOf [0x20, 0x20, 0x78, 0x21, 0x09, 0x0A, 0x23, 0x0A, 0x79, 0x0A] =
      .ok (Output.textOf lines) := by decide +kernel
  have hPrepared : Prepared files request .tagged (Output.textOf lines) .canonical :=
    prepared_in_work hDecoded true (by simp)
  have hEnds : ∀ line ∈ lines, (line.toList.all fun c => Unicode.isLineEnd c = false) = true := by
    decide
  have hText : Text.splitLines (Output.textOf lines) = lines :=
    Text.splitLines_textOf fun line hLine => List.all_iff_forall_prop.mp (hEnds line hLine)
  have hBegins : Begins s .tagged := ⟨rfl, rfl, Format.tagged.ofSetting_name, by decide⟩
  have hMargins : ∀ line ∈ lines, HasMargins line := by
    have hNone : IsMargin [] := by decide
    simp only [lines, List.forall_mem_cons]
    refine ⟨⟨[' ', ' '], ['\t'], by decide, by decide, by decide +kernel⟩,
      ⟨[], [], hNone, hNone, by decide +kernel⟩, ⟨[], [], hNone, hNone, by decide +kernel⟩,
      List.forall_mem_nil _⟩
  have hNoCommands : ∀ line ∈ lines,
      Session.isFarewell (Text.strip line) = false ∧ Session.isToggle (Text.strip line) = false ∧
        AliasCommand.argument? (Text.strip line) = none := by decide +kernel
  have hNoNumbers : ∀ line ∈ lines,
      ((Aliases.canonical.tokens (Text.strip line)).toOption.any fun tokens =>
        tokens.all fun t => !t.isNumber) = true := by decide +kernel
  have hLines : ∀ line ∈ lines, IsOrdinary s.bounds line := by
    intro line hLine
    obtain ⟨hStays, hPlain, hNoCommand⟩ := hNoCommands line hLine
    refine ⟨hMargins line hLine, hStays, hPlain, hNoCommand, ?_⟩
    have hTokens := hNoNumbers line hLine
    cases hSource : Aliases.canonical.tokens (Text.strip line) with
    | error e => rw [hSource] at hTokens; cases hTokens
    | ok tokens =>
      rw [hSource] at hTokens
      refine .of_tokens hSource fun t ht v hv => ?_
      have hNumber := List.all_eq_true.mp hTokens t ht
      rw [Token.isNumber, hv] at hNumber
      cases hNumber
  have hRoom : ∀ line ∈ lines,
      IsTooDeep request.bounds .tagged line ↔ IsTooDeep s.bounds .tagged line := by
    have hShown : ∀ line ∈ lines,
        (showLine request.bounds .canonical .tagged line).toOption.isSome = true ∧
          (showLine s.bounds .canonical .tagged line).toOption.isSome = true := by decide +kernel
    intro line hLine
    obtain ⟨hRun, hSession⟩ := hShown line hLine
    exact iff_of_false (not_isTooDeep hRun) (not_isTooDeep hSession)
  exact ⟨hPrepared, hBegins, hText, hLines, hRoom,
    run_agrees_with_session hPrepared hBegins hText hLines hRoom⟩

-- ---------------------------------------------------------------------------
-- Where they part
-- ---------------------------------------------------------------------------

/-- A session refuses an ordinary line that is an expression and is not shown in its room. -/
theorem IsOrdinary.refuses (h : IsOrdinary s.bounds line) (hBegins : Begins s format)
    (hExpression : isExpression line = true)
    (hHidden : ∀ shown, showLine s.bounds .canonical format line ≠ .ok shown) : s.Refuses line := by
  cases h.replies hBegins Iff.rfl with
  | skipped silent accepts step => cases hExpression.symm.trans silent
  | shown expression accepts step quiet shown => exact absurd shown (hHidden _)
  | refused expression refuses hidden => exact refuses

/-- A run and a session part on a file of one line: both start as they should and the line is ordinary,
but the run succeeds and the session refuses the line. -/
structure PartAt (files : Files) (request : Request) (s : Session) (format : Format)
    (line : String) : Prop where
  prepared : Prepared files request format (Output.textOf [line]) .canonical
  begins : Begins s format
  ordinary : IsOrdinary s.bounds line
  succeeds : ((run Files.disk request).run files).1.2 = .ok ()
  refuses : s.Refuses line

/-- What a run makes of a file, it makes of its lines. -/
theorem Prepared.succeeds (h : Prepared files request format text .canonical)
    (hWritten : (writeLines request.bounds .canonical (some format)
      (Text.splitLines text)).2.toOption.isSome = true) :
    ((run Files.disk request).run files).1.2 = .ok () := by
  have hRun := run_prepared h
  cases hResult : (writeLines request.bounds .canonical (some format) (Text.splitLines text)).2 with
  | ok written => rw [hResult] at hRun; exact hRun.succeeds
  | error failure => rw [hResult] at hWritten; cases hWritten

/-- A modest line that starts like an expression and has no blank at its ends is ordinary, and an
expression. -/
theorem isOrdinary_of_plain {c : Char} {more : List Char} (hStarts : Session.StartsExpression c)
    (hTrim : Text.trim (c :: more) = c :: more) (hModest : IsModest b (String.ofList (c :: more))) :
    IsOrdinary b (String.ofList (c :: more)) ∧ isExpression (String.ofList (c :: more)) = true := by
  have hStrip : Text.strip (String.ofList (c :: more)) = String.ofList (c :: more) := by
    rw [Text.strip, String.toList_ofList, hTrim]
  obtain ⟨hStays, hSilent, hPlain, hNoCommand⟩ := hStarts.plain hTrim
  have hNone : IsMargin [] := by decide
  refine ⟨⟨⟨[], [], hNone, hNone, ?_⟩, ?_, ?_, ?_, ?_⟩, ?_⟩
  · rw [String.toList_ofList, hTrim, List.nil_append, List.append_nil]
  · rw [hStrip]
    exact hStays
  · rw [hStrip]
    exact hPlain
  · rw [hStrip]
    exact hNoCommand
  · rw [hStrip]
    exact hModest
  · have hSame := isSilent_strip (String.ofList (c :: more))
    rw [hStrip, hSilent] at hSame
    simpa using hSame.symm

theorem isOrdinary_factorials (b : Bounds) (n : Nat) :
    IsOrdinary b (factorials n) ∧ isExpression (factorials n) = true := by
  have hSigns : ∀ c ∈ ['(', ')', '!'], Unicode.isBlank c = false :=
    List.all_iff_forall_prop.mp (by decide +kernel)
  have hBare : ∀ c ∈ '(' :: ')' :: List.replicate n '!', Unicode.isBlank c = false :=
    fun c hc => hSigns c (mem_factorials hc)
  have hTrim := Text.trim_of_ends (fun c hc => hBare c (List.mem_of_mem_head? hc))
    fun c hc => hBare c (List.mem_of_mem_getLast? hc)
  obtain ⟨p, q, bangs, -, hTokens⟩ := tokens_factorials n
  exact isOrdinary_of_plain ⟨by decide +kernel, by decide, by decide, by decide +kernel, by decide⟩
    hTrim (.of_tokens hTokens (isShort_factorialChain p q bangs))

/-- A run and a session part where there is one level more of room for the run, at a line that needs
just that. -/
theorem partAt_factorials
    (hPrepared : Prepared files request format (Output.textOf [factorials n]) .canonical)
    (hBegins : Begins s format) (hBelow : s.bounds = request.bounds.below)
    (hNesting : 13 ≤ request.bounds.nesting) (hHeight : request.bounds.height format = n + 1) :
    PartAt files request s format (factorials n) := by
  have hSigns : ∀ c ∈ ['(', ')', '!'], Unicode.isLineEnd c = false :=
    List.all_iff_forall_prop.mp (by decide)
  have hLines : Text.splitLines (Output.textOf [factorials n]) = [factorials n] := by
    refine Text.splitLines_textOf (List.forall_mem_singleton.mpr fun c hc => ?_)
    rw [factorials, String.toList_ofList] at hc
    exact hSigns c (mem_factorials hc)
  obtain ⟨hOrdinary, hExpression⟩ := isOrdinary_factorials s.bounds n
  refine ⟨hPrepared, hBegins, hOrdinary, hPrepared.succeeds ?_,
    hOrdinary.refuses hBegins hExpression fun shown hShown => ?_⟩
  · obtain ⟨shown, hShown⟩ :=
      (showLine_factorials (by omega : 12 ≤ request.bounds.nesting) format n).mpr (by omega)
    have hTexts : List.Forall₂
        (fun line shown => showLine request.bounds .canonical format line = .ok shown)
        ([factorials n].filter isExpression) [shown] := by
      rw [List.filter_singleton, hExpression]
      exact .cons hShown .nil
    rw [hLines, writeLines_eq_ok.mpr ⟨_, hTexts, rfl⟩]
    rfl
  · have hNestingBelow : 12 ≤ s.bounds.nesting := by
      rw [hBelow]
      exact Nat.le_sub_one_of_lt hNesting
    have hRoom := (showLine_factorials hNestingBelow format n).mp ⟨shown, hShown⟩
    rw [hBelow, show request.bounds.below.height format = _ - 1 from rfl, hHeight] at hRoom
    exact absurd hRoom (lt_irrefl n)

/-- **They part at a form feed**, which ends a line of a file and is in the middle of a line that is
typed, **and at one height**, for which a run has room and a session has not. -/
theorem form_feed_and_height_part :
    let inWork (octets : List UInt8) : Files :=
      ⟨["work"], [(["work"], .directory), (["work", "a.tally"], .file octets)]⟩
    let request : Request :=
      { source := "a.tally", isText := false, format := some .parenthesised, out := none, pretty := false,
        config := none }
    let s : Session := { format := some "infix", verbose := false, aliases := .canonical }
    PartAt (inWork [0x31, 0x0C, 0x32, 0x0A]) request s .parenthesised "1\x0c2" ∧
      PartAt (inWork (0x28 :: 0x29 :: (List.replicate 489 0x21 ++ [0x0A]))) request s .parenthesised
        (factorials 489) := by
  intro inWork request s
  have hBegins : Begins s .parenthesised := ⟨rfl, rfl, Format.parenthesised.ofSetting_name, by decide⟩
  constructor
  · have hDecoded : Disk.textOf [0x31, 0x0C, 0x32, 0x0A] = .ok (Output.textOf ["1\x0c2"]) := by
      decide +kernel
    have hPrepared : Prepared (inWork [0x31, 0x0C, 0x32, 0x0A]) request .parenthesised
        (Output.textOf ["1\x0c2"]) .canonical := prepared_in_work hDecoded false (by simp)
    have hTokens : (Aliases.canonical.tokens "1\x0c2").map (fun _ => ()) =
        .error ⟨.unexpected "\x0c", ⟨1, 2⟩⟩ := by decide +kernel
    have hUnread (tree : Node) : treeOf s.bounds .canonical "1\x0c2" ≠ .ok tree := by
      intro hTree
      obtain ⟨tokens, hRead, -⟩ := bind_eq_ok.mp hTree
      rw [mapError_eq_ok.mp hRead] at hTokens
      cases hTokens
    have hModest : IsModest s.bounds "1\x0c2" := by
      refine ⟨fun limit place hDigits => ?_, fun tree hTree => absurd hTree (hUnread tree)⟩
      rw [hDigits] at hTokens
      cases hTokens
    have hTrim : Text.trim ['1', '\x0c', '2'] = ['1', '\x0c', '2'] := by decide +kernel
    obtain ⟨hOrdinary, hExpression⟩ :=
      isOrdinary_of_plain (Session.startsExpression_of_isDigit rfl) hTrim hModest
    refine ⟨hPrepared, hBegins, hOrdinary, hPrepared.succeeds (by decide +kernel),
      hOrdinary.refuses hBegins hExpression fun shown hShown => ?_⟩
    obtain ⟨tree, hTree⟩ := exists_tree_of_shown hShown
    exact hUnread tree hTree
  · have hDecoded : Disk.textOf (0x28 :: 0x29 :: (List.replicate 489 0x21 ++ [0x0A])) =
        .ok (Output.textOf [factorials 489]) := by decide +kernel
    exact partAt_factorials (prepared_in_work hDecoded false (by simp)) hBegins rfl (by decide) rfl

end Batch

end Reckoner
