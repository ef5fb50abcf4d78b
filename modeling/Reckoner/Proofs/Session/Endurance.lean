import Reckoner.Proofs.Grammar.Reports
import Reckoner.Proofs.Json.Halves
import Reckoner.Proofs.Json.Nesting
import Reckoner.Proofs.Lexer.Overlong
import Reckoner.Proofs.Render.Shown
import Reckoner.Session.Basic

/-!
# How long a session lasts

A session goes through its lines one by one. Each of them is skipped, carried out, or answered, if
need be with an error message (`Served`), up to a line that takes leave or to the end of the input. Only
limits of the machine break a session off: a line may ask for an integer of too many digits to be read
or written, or for a configuration that is nested too deeply (`Overtaxes`). A line that does not is
served, whatever it says, since the errors of all stages are errors that a session reports.

Texts are made of characters here, and what a session puts out can always be shown. A configuration may
spell half a surrogate pair (`ConfiguresHalf`), which is no character: it is read as another one, and
whether it could be shown is not settled here. So nothing is said of a session from the first line on
that does so.

## Results

* `step_cases`        — a line that does not take leave is served or breaks the session off.
* `Breaks.overtaxes`  — it breaks the session off only by asking for too much.
* `session_endures`   — the lines are served in order, up to one that ends the session.
* `overlong_breaks`   — a number that is too long breaks a session off.
-/

namespace Reckoner

open Render (IsLongFraction)

namespace Session

-- ---------------------------------------------------------------------------
-- Lines
-- ---------------------------------------------------------------------------

/-- What becomes of a line that does not end a session: it is skipped, carried out as a command, or
answered as an expression, with its written form or with an error message. -/
inductive Served (s : Session) (line : String) : Step → Prop
  | skipped (silent : isSilent (Text.strip line) = true) : Served s line ⟨s, .nothing, .ongoing⟩
  | toggled (toggle : isToggle (Text.strip line) = true) : Served s line s.toggle
  | commanded {argument : String} {aliases : Aliases} {lines : List String}
      (command : AliasCommand.argument? (Text.strip line) = some argument)
      (run : AliasCommand.run s.aliases argument = .ok (aliases, lines)) :
      Served s line ⟨{ s with aliases }, .ofLines lines, .ongoing⟩
  | written {output : Output} {text : String}
      (verdict : s.evaluate (Text.strip line) = (output, .answer text)) :
      Served s line ⟨s, output ++ .ofLine text, .ongoing⟩
  | refused {output : Output} {message : String}
      (verdict : s.evaluate (Text.strip line) = (output, .error message)) :
      Served s line ⟨s, output ++ .ofLine ("[error] >>> " ++ message), .ongoing⟩

/-- How a line breaks a session off: its configuration finds no room, or its expression comes to a
failure. The session stays as it was. -/
inductive Breaks (s : Session) (line : String) : Step → Prop
  | command {argument : String} {container : Json.Container}
      (command : AliasCommand.argument? (Text.strip line) = some argument)
      (run : AliasCommand.run s.aliases argument = .error container) :
      Breaks s line ⟨s, .nothing, .broken (.nesting container)⟩
  | expression {output : Output} {failure : Failure}
      (verdict : s.evaluate (Text.strip line) = (output, .failure failure)) :
      Breaks s line ⟨s, output, .broken failure⟩

/-- A line that asks for more than the machine allows: it holds a run of too many digits, one of its
tokens is a number whose numerator or denominator has too many, or its configuration has more opening
brackets than there is room for. -/
inductive Overtaxes (s : Session) (line : String) : Prop
  | digits {digits : List Char} (long : IsOverlong digits)
      (inside : digits <:+: (Text.strip line).toList)
  | number {tokens : List Token} {t : Token} {q : ℚ}
      (lexed : s.aliases.tokens (Text.strip line) = .ok tokens) (mem : t ∈ tokens)
      (number : t.content = .number (.fraction q)) (long : IsLongFraction q)
  | nesting {argument : String} (command : AliasCommand.argument? (Text.strip line) = some argument)
      (deep : Json.maxDepth < argument.toList.countP Json.isOpening)

variable {s : Session} {format : Format} {line : String}

/-- A verdict that does not break a session off. -/
inductive Verdict.IsReply : Verdict → Prop
  | answer (text : String) : IsReply (.answer text)
  | error (message : String) : IsReply (.error message)

theorem showTokens_ok (s : Session) {tokens : List Token} (h : ∀ t ∈ tokens, IsShort t.content) :
    ∃ shown, s.showTokens tokens = .ok shown := by
  obtain ⟨text, hText⟩ := tracedList_ok h
  unfold showTokens
  split
  · exact ⟨.ofLine ("[tokens] >>> " ++ text), by rw [hText]; rfl⟩
  · exact ⟨.nothing, rfl⟩

/-- What stops the tagged text of a tree stops a session that shows its work, and no other. -/
theorem showTree_cases (s : Session) {tree : Node}
    (h : (∃ text, s.bounds.render .tagged [tree] = .ok text) ∨
      s.bounds.render .tagged [tree] = .error .tooDeep) :
    (∃ shown, s.showTree tree = .ok shown) ∨ s.showTree tree = .error .tooDeep := by
  unfold showTree
  split
  · rcases h with ⟨text, hText⟩ | hDeep
    · exact Or.inl ⟨.ofLine ("[tree] >>> " ++ text), by rw [hText]; rfl⟩
    · exact Or.inr (by rw [hDeep]; rfl)
  · exact Or.inl ⟨.nothing, rfl⟩

/-- A tree gets a reply if nothing stops the writing of it but its depth. -/
theorem present_replies {tree : Node}
    (hShown : (∃ shown, s.showTree tree = .ok shown) ∨ s.showTree tree = .error .tooDeep)
    (hWritten : (∃ text, s.write tree = .ok text) ∨ s.write tree = .error .tooDeep) :
    (s.present tree).2.IsReply := by
  have hWrite : (Verdict.ofWriting (s.write tree)).IsReply := by
    rcases hWritten with ⟨text, hText⟩ | hDeep
    · rw [hText]
      exact .answer text
    · rw [hDeep]
      exact .error _
  unfold present
  rcases hShown with ⟨shown, hShown⟩ | hDeep
  · rw [hShown]
    exact hWrite
  · rw [hDeep]
    exact .error _

/-- An expression gets a reply if it is not cut off by its digits, its tokens can be shown, and its tree,
if it has one, gets a reply. -/
theorem evaluate_isReply {source : String}
    (hDigits : ∀ limit place, s.aliases.tokens source ≠ .error ⟨.digits limit, place⟩)
    (hTokens : ∀ tokens, s.aliases.tokens source = .ok tokens →
      (∃ shown, s.showTokens tokens = .ok shown) ∧
        ∀ tree, (s.bounds.parse s.aliases.prefixUnits tokens).result = .ok tree →
          (s.present tree).2.IsReply) : (s.evaluate source).2.IsReply := by
  unfold evaluate
  cases hLexed : s.aliases.tokens source with
  | error e =>
    obtain ⟨fault, place⟩ := e
    cases fault with
    | digits limit => exact absurd hLexed (hDigits limit place)
    | _ => exact .error _
  | ok tokens =>
    obtain ⟨⟨shown, hShown⟩, hTree⟩ := hTokens tokens hLexed
    have hAll : Grammar.AllSolid (fun _ => True) (Grammar.significant tokens) := fun _ _ => trivial
    dsimp only
    rw [hShown]
    unfold parse
    unfold Bounds.parse at hTree ⊢
    dsimp only
    rcases Grammar.parseWithin_reports s.bounds.nesting s.aliases.prefixUnits hAll with
      ⟨tree, hParsed⟩ | ⟨e, he, -⟩
    · have hPresent := hTree tree hParsed
      rw [hParsed]
      exact hPresent
    · rw [he]
      exact .error _

/-- **An expression gets a reply** if it does not ask for too much. -/
theorem evaluate_replies (hFormat : Format.ofSetting s.format = .ok format)
    (h : ¬ Overtaxes s line) : (s.evaluate (Text.strip line)).2.IsReply := by
  refine evaluate_isReply (fun limit place hTokens => ?_) fun tokens hTokens => ?_
  · obtain ⟨digits, hLong, hInside⟩ := Aliases.tokens_digits hTokens
    exact h (.digits hLong hInside)
  · have hShort : ∀ t ∈ tokens, IsShort t.content := by
      intro t ht v hv
      obtain ⟨q, rfl⟩ := Render.tokens_hasFraction hTokens t ht v hv
      exact ⟨q, rfl, fun hLong => h (.number hTokens ht hv hLong)⟩
    refine ⟨showTokens_ok s hShort, fun tree hTree => ?_⟩
    have hFormed := Grammar.parseWithin_formedOf hTree hShort
    have hShows := fun format : Format =>
      format.shows (s.bounds.height format) (hasFraction_of_isShort hFormed) (format.not_carries hFormed)
    refine present_replies (showTree_cases s (hShows .tagged)) ?_
    rw [write, hFormat, ok_bind]
    exact hShows format

/-- **What a line can do** that does not take leave: it is served, or it breaks the session off. -/
theorem step_cases (s : Session) (hStays : isFarewell (Text.strip line) = false) :
    Served s line (s.step line) ∨ Breaks s line (s.step line) := by
  unfold step
  dsimp only
  rw [hStays, if_neg Bool.false_ne_true]
  split
  · exact Or.inl (.skipped ‹_›)
  split
  · exact Or.inl (.toggled ‹_›)
  split
  · rename_i argument hCommand
    unfold runAliasCommand
    cases hRun : AliasCommand.run s.aliases argument with
    | ok result => exact Or.inl (.commanded hCommand hRun)
    | error container => exact Or.inr (.command hCommand hRun)
  · unfold answer
    cases hVerdict : s.evaluate (Text.strip line) with
    | mk output verdict =>
      cases verdict with
      | answer text => exact Or.inl (.written hVerdict)
      | error message => exact Or.inl (.refused hVerdict)
      | failure failure => exact Or.inr (.expression hVerdict)

/-- A command that finds no room has more opening brackets than there is room for. -/
theorem run_opens {aliases : Aliases} {argument : String} {container : Json.Container}
    (h : AliasCommand.run aliases argument = .error container) :
    Json.maxDepth < argument.toList.countP Json.isOpening := by
  unfold AliasCommand.run at h
  split at h
  · cases h
  · cases hDocument : Json.readDocument Json.maxDepth argument.toList with
    | ok document => rw [hDocument] at h; cases h
    | error stop =>
      rw [hDocument] at h
      cases stop with
      | nesting found => exact Json.readDocument_opens hDocument
      | _ => cases h

/-- **Only a line that asks for too much breaks a session off.** -/
theorem Breaks.overtaxes {step : Step} (hFormat : Format.ofSetting s.format = .ok format)
    (h : Breaks s line step) : Overtaxes s line := by
  cases h with
  | command hCommand hRun => exact .nesting hCommand (run_opens hRun)
  | expression hVerdict =>
    by_contra hNot
    have hReply := evaluate_replies hFormat hNot
    rw [hVerdict] at hReply
    cases hReply

theorem Served.course {step : Step} (h : Served s line step) : step.course = .ongoing := by
  cases h <;> rfl

theorem Breaks.course {step : Step} (h : Breaks s line step) : step.course ≠ .ongoing := by
  cases h <;> simp

/-- The format of a session stays. -/
theorem Served.sameFormat {step : Step} (h : Served s line step) : step.session.format = s.format := by
  cases h <;> rfl

theorem step_farewell (h : isFarewell (Text.strip line) = true) :
    s.step line = ⟨s, .ofLine farewell, .left⟩ := by
  unfold step
  dsimp only
  rw [h, if_pos rfl]

-- ---------------------------------------------------------------------------
-- Whole sessions
-- ---------------------------------------------------------------------------

/-- The lines are served one after the other, and the session after the last of them goes on. -/
inductive Serves : Session → List String → Session → Output → Prop
  | nil (s : Session) : Serves s [] s .nothing
  | cons {s s' : Session} {line : String} {lines : List String} {output : Output}
      (first : Served s line (s.step line)) (more : Serves (s.step line).session lines s' output) :
      Serves s (line :: lines) s' ((s.step line).output ++ output)

/-- A line that configures the aliases by an object in which half a surrogate pair is spelled by
itself. -/
def ConfiguresHalf (line : String) : Prop :=
  ∃ argument fields, AliasCommand.argument? (Text.strip line) = some argument ∧
    Json.readDocument Json.maxDepth argument.toList = .ok (.object fields) ∧
    Json.spellsHalf false argument.toList = true

/-- How a session ends with the lines that are left: no line is left, the next one takes leave, or the
next one asks for too much and breaks the session off. It is not told how the session goes on if the
next line spells half a surrogate pair. -/
inductive Ends (s : Session) : List String → Step → Prop
  | exhausted : Ends s [] ⟨s, interrupted, .left⟩
  | left {line : String} (lines : List String) (leaves : isFarewell (Text.strip line) = true) :
      Ends s (line :: lines) ⟨s, .ofLine farewell, .left⟩
  | broken {line : String} (lines : List String) (overtaxes : Overtaxes s line)
      (breaks : Breaks s line (s.step line)) : Ends s (line :: lines) (s.step line)
  | untold {line : String} (lines : List String) (half : ConfiguresHalf line) (last : Step) :
      Ends s (line :: lines) last

theorem feed_cons (lines : List (Option String)) (h : (s.step line).course = .ongoing) :
    s.feed (some line :: lines) =
      { (s.step line).session.feed lines with
        output := (s.step line).output ++ ((s.step line).session.feed lines).output } := by
  rw [feed, h]

theorem feed_cons_ongoing {lines : List String} (h : (s.step line).course = .ongoing) :
    s.feed ((line :: lines).map some) =
      { (s.step line).session.feed (lines.map some) with
        output := (s.step line).output ++ ((s.step line).session.feed (lines.map some)).output } :=
  feed_cons (lines.map some) h

theorem feed_cons_over {lines : List String} (h : (s.step line).course ≠ .ongoing) :
    s.feed ((line :: lines).map some) = s.step line := by
  rw [List.map_cons, feed]
  dsimp only
  split
  · exact absurd ‹_› h
  · rfl

/-- **A session goes through its lines in order.** In every format, a first part of the lines is served,
one after the other, and then the input is at its end, or the next line takes leave, or it asks for an
integer of too many digits or for a configuration that is nested too deeply. Nothing else ends a
session, up to the first line that configures it with half a surrogate pair. -/
theorem session_endures {s : Session} {format : Format}
    (hFormat : Format.ofSetting s.format = .ok format) (lines : List String) :
    ∃ served rest s' output last, lines = served ++ rest ∧ (∀ line ∈ served, ¬ ConfiguresHalf line) ∧
      Serves s served s' output ∧ Ends s' rest last ∧
      s.feed (lines.map some) = { last with output := output ++ last.output } := by
  induction lines generalizing s with
  | nil => exact ⟨[], [], s, .nothing, _, rfl, List.forall_mem_nil _, .nil s, .exhausted, rfl⟩
  | cons line lines ih =>
    by_cases hHalf : ConfiguresHalf line
    · refine ⟨[], line :: lines, s, .nothing, _, rfl, List.forall_mem_nil _, .nil s,
        .untold lines hHalf (s.feed ((line :: lines).map some)), ?_⟩
      rw [Output.nothing_append]
    by_cases hFarewell : isFarewell (Text.strip line) = true
    · have hStep := step_farewell (s := s) hFarewell
      refine ⟨[], line :: lines, s, .nothing, _, rfl, List.forall_mem_nil _, .nil s,
        .left lines hFarewell, ?_⟩
      rw [feed_cons_over (by rw [hStep]; simp), hStep]
      rfl
    rcases step_cases s (Bool.eq_false_of_not_eq_true hFarewell) with hServed | hBreaks
    · obtain ⟨served, rest, s', output, last, rfl, hWhole, hServes, hEnds, hFeed⟩ :=
        ih ((congrArg Format.ofSetting hServed.sameFormat).trans hFormat)
      refine ⟨line :: served, rest, s', _, last, rfl, List.forall_mem_cons.mpr ⟨hHalf, hWhole⟩,
        .cons hServed hServes, hEnds, ?_⟩
      rw [feed_cons_ongoing hServed.course, hFeed]
      dsimp only
      rw [Output.append_assoc]
    · refine ⟨[], line :: lines, s, .nothing, _, rfl, List.forall_mem_nil _, .nil s,
        .broken lines (hBreaks.overtaxes hFormat) hBreaks, ?_⟩
      rw [feed_cons_over hBreaks.course, Output.nothing_append]

/-- Three lines in tagged form: one that is written, one that is refused, and one that takes leave. -/
theorem three_lines_endured :
    let s : Session := { format := some "sexpr", verbose := true, aliases := .canonical }
    let lines := ["1 + 2", "1 +", "quit"]
    Format.ofSetting s.format = .ok .tagged ∧
      ∃ served rest s' output last, lines = served ++ rest ∧
        (∀ line ∈ served, ¬ ConfiguresHalf line) ∧ Serves s served s' output ∧ Ends s' rest last ∧
        s.feed (lines.map some) = { last with output := output ++ last.output } := by
  intro s lines
  have hFormat : Format.ofSetting s.format = .ok .tagged := Format.ofSetting_name .tagged
  exact ⟨hFormat, session_endures hFormat lines⟩

-- ---------------------------------------------------------------------------
-- A line that is too long
-- ---------------------------------------------------------------------------

/-- A character that is no blank and starts neither a comment nor a command. -/
structure StartsExpression (d : Char) : Prop where
  blank : Unicode.isBlank d = false
  comment : d ≠ '#'
  farewell : d ≠ 'e' ∧ d ≠ 'q'
  toggle : Unicode.lowerSimple d ≠ 'v' ∧ d ≠ 'İ' ∧ d ≠ 'Σ'
  command : d ∉ ['A', 'a']

theorem startsExpression_of_isDigit {d : Char} (h : d.isDigit = true) : StartsExpression d := by
  have hAll : ∀ d ∈ ['0', '1', '2', '3', '4', '5', '6', '7', '8', '9'],
      Unicode.isBlank d = false ∧ d ≠ '#' ∧ (d ≠ 'e' ∧ d ≠ 'q') ∧
        (Unicode.lowerSimple d ≠ 'v' ∧ d ≠ 'İ' ∧ d ≠ 'Σ') ∧ d ∉ ['A', 'a'] :=
    List.all_iff_forall_prop.mp (by decide +kernel)
  obtain ⟨hBlank, hComment, hFarewell, hToggle, hCommand⟩ := hAll d (Lexer.isDigit_cases h)
  exact ⟨hBlank, hComment, hFarewell, hToggle, hCommand⟩

theorem trim_digits {ds : List Char} (h : AreDigits ds) : Text.trim ds = ds :=
  Text.trim_of_ends (fun d hd => (startsExpression_of_isDigit (h d (List.mem_of_mem_head? hd))).blank)
    fun d hd => (startsExpression_of_isDigit (h d (List.mem_of_mem_getLast? hd))).blank

/-- The first character of a line tells that it does not take leave, is no comment, and does not ask for
the work to be shown. -/
theorem plain_of_head {c : Char} (more : List Char) (hComment : c ≠ '#')
    (hFarewell : c ≠ 'e' ∧ c ≠ 'q') (hToggle : Unicode.lowerSimple c ≠ 'v' ∧ c ≠ 'İ' ∧ c ≠ 'Σ') :
    isFarewell (String.ofList (c :: more)) = false ∧ isSilent (String.ofList (c :: more)) = false ∧
      isToggle (String.ofList (c :: more)) = false := by
  have hNot : ∀ text : String, text.toList.head? ≠ some c → String.ofList (c :: more) ≠ text := by
    rintro text hHead rfl
    simp at hHead
  refine ⟨?_, ?_, ?_⟩
  · have hExit := hNot "exit" (by simpa using hFarewell.1.symm)
    have hQuit := hNot "quit" (by simpa using hFarewell.2.symm)
    rw [isFarewell, decide_eq_false hExit, decide_eq_false hQuit]
    rfl
  · unfold isSilent
    rw [String.toList_ofList]
    exact decide_eq_false hComment
  · obtain ⟨hLow, hTurkish, hSigma⟩ := hToggle
    refine decide_eq_false fun hLower => hLow ?_
    have hChars := congrArg String.toList hLower
    rw [Unicode.toLower, String.toList_ofList, String.toList_ofList, Unicode.lowerAfter,
      if_neg hTurkish, if_neg hSigma] at hChars
    exact (List.cons.inj hChars).1

/-- A stripped line that starts like an expression is no alias command either. -/
theorem StartsExpression.plain {c : Char} (h : StartsExpression c) {more : List Char}
    (hTrim : Text.trim (c :: more) = c :: more) :
    isFarewell (String.ofList (c :: more)) = false ∧ isSilent (String.ofList (c :: more)) = false ∧
      isToggle (String.ofList (c :: more)) = false ∧
      AliasCommand.argument? (String.ofList (c :: more)) = none := by
  obtain ⟨hFarewell, hSilent, hToggle⟩ := plain_of_head more h.comment h.farewell h.toggle
  refine ⟨hFarewell, hSilent, hToggle, ?_⟩
  unfold AliasCommand.argument?
  rw [String.toList_ofList, hTrim, AliasCommand.letters, AliasCommand.afterLetters, if_neg h.command]
  rfl

/-- A line of digits is an expression. -/
theorem step_digits (s : Session) {ds : List Char} (hSome : ds ≠ []) (h : AreDigits ds) :
    s.step (String.ofList ds) = s.answer (String.ofList ds) := by
  have hTrim := trim_digits h
  have hStrip : Text.strip (String.ofList ds) = String.ofList ds := by
    rw [Text.strip, String.toList_ofList, hTrim]
  obtain ⟨d, more, rfl⟩ := List.exists_cons_of_ne_nil hSome
  obtain ⟨hFarewell, hSilent, hToggle, hCommand⟩ :=
    (startsExpression_of_isDigit (h d List.mem_cons_self)).plain hTrim
  unfold step
  dsimp only
  rw [hStrip, hFarewell, if_neg Bool.false_ne_true, hSilent, if_neg Bool.false_ne_true, hToggle,
    if_neg Bool.false_ne_true, hCommand]

/-- **A number that is too long breaks a session off**, and no later line is read. -/
theorem overlong_breaks (s : Session) {ds : List Char} (h : AreDigits ds)
    (hLong : maxDigits < ds.length) (lines : List (Option String)) :
    s.feed (some (String.ofList ds) :: lines) =
      ⟨s, .nothing, .broken (.digits (.reading ds.length))⟩ := by
  have hSome : ds ≠ [] := by
    rintro rfl
    cases hLong
  have hEvaluate : s.evaluate (String.ofList ds) =
      (.nothing, .failure (.digits (.reading ds.length))) := by
    rw [evaluate, Aliases.tokens_overlong s.aliases hSome h hLong]
    rfl
  have hStep : s.step (String.ofList ds) =
      ⟨s, .nothing, .broken (.digits (.reading ds.length))⟩ := by
    rw [step_digits s hSome h, answer, hEvaluate]
  rw [feed, hStep]

/-- A line of 4301 ones ends a session in the first of its lines. -/
theorem ones_break :
    let s : Session := { format := some "infix", verbose := false, aliases := .canonical }
    let ones := String.ofList (List.replicate 4301 '1')
    Format.ofSetting s.format = .ok .parenthesised ∧
      s.feed ([ones, "1"].map some) = ⟨s, .nothing, .broken (.digits (.reading 4301))⟩ := by
  intro s ones
  have hFormat : Format.ofSetting s.format = .ok .parenthesised :=
    Format.ofSetting_name .parenthesised
  have hDigits : AreDigits (List.replicate 4301 '1') := fun c hc => List.eq_of_mem_replicate hc ▸ rfl
  have hLength : (List.replicate 4301 '1').length = 4301 := List.length_replicate
  have hBreaks := overlong_breaks s hDigits (by rw [hLength]; decide) [some "1"]
  rw [hLength] at hBreaks
  exact ⟨hFormat, hBreaks⟩

end Session

end Reckoner
