import Reckoner.Proofs.Alias.Growth
import Reckoner.Proofs.Session.Endurance

/-!
# Refused lines leave no trace

A session refuses some lines: it answers an expression that cannot be read or written with an error
message, and says of an alias command why it is rejected. Whether a line is refused is told here by
what is wrong with it (`Session.Refuses`), and not by what it does to the session. A rejected command
has been stopped at one of its checks, all of which come before the first addition
(`Change.merge_run`), and an expression has nothing that it could change; so the session after a
refused line is the session before it, and every later line is answered as if the refused line had not
been there.

## Results

* `AliasCommand.Rejected.run`  — a rejected command says why and leaves the aliases as they are.
* `Refuses.step`               — a refused line is answered with an error and changes nothing.
* `feed_output`                — the output of a session is the output for each of its lines, in order.
* `refused_leaves_no_trace`    — without a refused line, all other lines are answered as before.
-/

namespace Reckoner

-- ---------------------------------------------------------------------------
-- Rejected commands
-- ---------------------------------------------------------------------------

/-- A merge that fails has changed nothing. -/
theorem Change.merge_error {config : Config} {units : Option Json} {a b : Aliases} {e : AliasError}
    (h : Change.merge config units a = .error e b) : b = a := by
  rw [merge_run] at h
  unfold added at h
  split at h
  · cases h
  · cases h
    rfl

namespace AliasCommand

/-- A command with this argument is rejected: the argument is no JSON document, the document is no
object, or the bindings and units of the object are not accepted. -/
inductive Rejected (a : Aliases) (argument : String) : Prop
  | unreadable {stop : Json.Stop} (asks : argument ≠ "")
      (unread : Json.readDocument Json.maxDepth argument.toList = .error stop)
      (hasRoom : ∀ container, stop ≠ .nesting container)
  | shapeless {document : Json} (asks : argument ≠ "")
      (read : Json.readDocument Json.maxDepth argument.toList = .ok document)
      (noObject : ∀ fields, document ≠ .object fields)
  | unaccepted {fields : List (String × Json)} {e : AliasError} {b : Aliases} (asks : argument ≠ "")
      (read : Json.readDocument Json.maxDepth argument.toList = .ok (.object fields))
      (merge : Change.merge (.value (.object (Alias.bindingFields fields)))
        (fields.lookup Alias.unitsKey) a = .error e b)

/-- **A rejected command says why and leaves the aliases as they are.** -/
theorem Rejected.run {a : Aliases} {argument : String} (h : Rejected a argument) :
    ∃ message conflicts, AliasCommand.run a argument = .ok (a, rejection message conflicts) := by
  unfold AliasCommand.run
  cases h with
  | unreadable asks unread hasRoom =>
    rename_i stop
    rw [if_neg asks, unread]
    cases stop with
    | nesting container => exact absurd rfl (hasRoom container)
    | _ => exact ⟨_, _, rfl⟩
  | shapeless asks read noObject =>
    rename_i document
    rw [if_neg asks, read]
    cases document with
    | object fields => exact absurd rfl (noObject fields)
    | _ => exact ⟨_, _, rfl⟩
  | unaccepted asks read merge =>
    rename_i fields e b
    have hSame : b = a := Change.merge_error merge
    rw [hSame] at merge
    refine ⟨e.message, e.conflicts, ?_⟩
    rw [if_neg asks, read]
    simp only [configure, merge]

end AliasCommand

namespace Session

variable {s : Session} {line : String}

-- ---------------------------------------------------------------------------
-- Refused lines
-- ---------------------------------------------------------------------------

/-- A line, stripped of blanks, that is for the aliases or the grammar to look at: it does not take
leave, is no comment, and does not ask for the work to be shown. -/
structure Asks (line : String) : Prop where
  stays : isFarewell line = false
  speaks : isSilent line = false
  plain : isToggle line = false

/-- A line is refused: it is an expression that comes to an error, or an alias command that is
rejected. -/
inductive Refuses (s : Session) (line : String) : Prop
  | expression {output : Output} {message : String} (asks : Asks (Text.strip line))
      (noCommand : AliasCommand.argument? (Text.strip line) = none)
      (verdict : s.evaluate (Text.strip line) = (output, .error message))
  | command {argument : String} (asks : Asks (Text.strip line))
      (isCommand : AliasCommand.argument? (Text.strip line) = some argument)
      (rejected : AliasCommand.Rejected s.aliases argument)

/-- An alias command is carried out. -/
theorem Asks.step_command (h : Asks (Text.strip line)) {argument : String}
    (hCommand : AliasCommand.argument? (Text.strip line) = some argument) :
    s.step line = s.runAliasCommand argument := by
  unfold step
  dsimp only
  rw [h.stays, if_neg Bool.false_ne_true, h.speaks, if_neg Bool.false_ne_true, h.plain,
    if_neg Bool.false_ne_true, hCommand]

/-- An expression is answered. -/
theorem Asks.step_expression (h : Asks (Text.strip line))
    (hNoCommand : AliasCommand.argument? (Text.strip line) = none) :
    s.step line = s.answer (Text.strip line) := by
  unfold step
  dsimp only
  rw [h.stays, if_neg Bool.false_ne_true, h.speaks, if_neg Bool.false_ne_true, h.plain,
    if_neg Bool.false_ne_true, hNoCommand]

/-- **A refused line is answered with an error and leaves the session as it is**, ready for the next
line. -/
theorem Refuses.step (h : s.Refuses line) :
    ∃ (before : Output) (message : String) (more : List String), s.step line =
      ⟨s, before ++ .ofLines (("[error] >>> " ++ message) :: more), .ongoing⟩ := by
  cases h with
  | expression asks noCommand verdict =>
    rename_i output message
    refine ⟨output, message, [], ?_⟩
    rw [asks.step_expression noCommand, answer, verdict]
    rfl
  | command asks isCommand rejected =>
    obtain ⟨message, conflicts, hRun⟩ := rejected.run
    refine ⟨Output.nothing, "Failed to configure aliases:",
      message :: conflicts.map fun conflict => " - " ++ conflict.describe, ?_⟩
    rw [asks.step_command isCommand, runAliasCommand, hRun]
    rfl

-- ---------------------------------------------------------------------------
-- The outputs of a session
-- ---------------------------------------------------------------------------

/-- What a session puts out for each line that it comes to, and at last, when no line comes any more,
what it says then. -/
def outputs (s : Session) : List (Option String) → List Output
  | [] => [interrupted]
  | none :: _ => [interrupted]
  | some line :: lines =>
    let now := s.step line
    match now.course with
    | .ongoing => now.output :: now.session.outputs lines
    | _ => [now.output]

theorem outputs_cons_ongoing (lines : List (Option String)) (h : (s.step line).course = .ongoing) :
    s.outputs (some line :: lines) = (s.step line).output :: (s.step line).session.outputs lines := by
  rw [outputs, h]

/-- **The output of a session is the output for each of its lines**, in their order. -/
theorem feed_output (s : Session) (lines : List (Option String)) :
    (s.feed lines).output = (s.outputs lines).foldr (· ++ ·) .nothing := by
  have hLast (output : Output) : output = output ++ .nothing :=
    (Output.mk.injEq ..).mpr ⟨(List.append_nil _).symm, (List.append_nil _).symm⟩
  induction lines generalizing s with
  | nil => rfl
  | cons line lines ih =>
    cases line with
    | none => rfl
    | some line =>
      rw [feed, outputs]
      cases hCourse : (s.step line).course with
      | ongoing =>
        dsimp only
        rw [ih (s.step line).session]
        rfl
      | left => exact hLast (s.step line).output
      | broken failure => exact hLast (s.step line).output

-- ---------------------------------------------------------------------------
-- Sessions without a refused line
-- ---------------------------------------------------------------------------

/-- **A refused line leaves no trace.** Take any session, in any state, in which the lines `before` have
been served and `line` is refused. When `line` is taken out, the outputs of the session lose the one
that was its answer and are otherwise the same, in the same order, whatever comes after it; and the
session ends in the same state and in the same way. -/
theorem refused_leaves_no_trace {s now : Session} {before : List String} {line : String}
    {output : Output} (hBefore : Serves s before now output) (hRefuses : now.Refuses line)
    (after : List (Option String)) :
    let whole := before.map some ++ some line :: after
    let rest := before.map some ++ after
    (s.outputs whole)[before.length]? = some (now.step line).output ∧
      (s.outputs whole).eraseIdx before.length = s.outputs rest ∧
      (s.feed whole).session = (s.feed rest).session ∧
      (s.feed whole).course = (s.feed rest).course := by
  intro whole rest
  induction hBefore with
  | nil s =>
    obtain ⟨shown, message, more, hStep⟩ := hRefuses.step
    have hOngoing : (s.step line).course = .ongoing := by rw [hStep]
    have hSame : (s.step line).session = s := by rw [hStep]
    have hOutputs : s.outputs whole = (s.step line).output :: s.outputs rest := by
      show s.outputs (some line :: after) = _ :: s.outputs after
      rw [outputs_cons_ongoing after hOngoing, hSame]
    have hFeed : s.feed whole =
        { s.feed rest with output := (s.step line).output ++ (s.feed rest).output } := by
      show s.feed (some line :: after) = _
      rw [feed_cons after hOngoing, hSame]
      rfl
    rw [hOutputs, hFeed]
    exact ⟨rfl, rfl, rfl, rfl⟩
  | @cons s now first before output hFirst hMore ih =>
    obtain ⟨hAnswer, hOutputs, hSession, hCourse⟩ := ih hRefuses
    have hOngoing := hFirst.course
    have hWhole : s.outputs whole = (s.step first).output ::
        (s.step first).session.outputs (before.map some ++ some line :: after) :=
      outputs_cons_ongoing _ hOngoing
    have hRest : s.outputs rest =
        (s.step first).output :: (s.step first).session.outputs (before.map some ++ after) :=
      outputs_cons_ongoing _ hOngoing
    have hWholeFeed : s.feed whole = _ := feed_cons _ hOngoing
    have hRestFeed : s.feed rest = _ := feed_cons _ hOngoing
    rw [hWhole, hRest, hWholeFeed, hRestFeed]
    exact ⟨hAnswer, congrArg ((s.step first).output :: ·) hOutputs, hSession, hCourse⟩

/-- A command that is no JSON document is taken out of a session that shows its work. -/
theorem unreadable_command_leaves_no_trace :
    let s : Session := { format := some "infix", verbose := true, aliases := .canonical }
    let line := " alias ]"
    Serves s ["# a note"] s (.nothing ++ .nothing) ∧ s.Refuses line ∧
      let whole := ["# a note"].map some ++ [some line, some "2 * 3"]
      let rest := ["# a note"].map some ++ [some "2 * 3"]
      (s.outputs whole)[1]? = some (s.step line).output ∧
        (s.outputs whole).eraseIdx 1 = s.outputs rest ∧
        (s.feed whole).session = (s.feed rest).session ∧
        (s.feed whole).course = (s.feed rest).course := by
  have hFarewell : isFarewell (Text.strip "# a note") = false := by decide +kernel
  have hSilent : isSilent (Text.strip "# a note") = true := by decide +kernel
  have hAsks : Asks (Text.strip " alias ]") :=
    ⟨by decide +kernel, by decide +kernel, by decide +kernel⟩
  have hCommand : AliasCommand.argument? (Text.strip " alias ]") = some "]" := by decide +kernel
  have hRead : Json.readDocument Json.maxDepth "]".toList = .error (.fault .expectedValue 1) := rfl
  intro s line
  have hServes : Serves s ["# a note"] s (.nothing ++ .nothing) := by
    have hStep : s.step "# a note" = ⟨s, .nothing, .ongoing⟩ := by
      unfold Session.step
      dsimp only
      rw [hFarewell, if_neg Bool.false_ne_true, hSilent, if_pos rfl]
    have hServed : Served s "# a note" (s.step "# a note") := hStep ▸ .skipped hSilent
    have hMore : Serves (s.step "# a note").session [] s .nothing := by
      rw [hStep]
      exact .nil s
    have hOutput : (s.step "# a note").output = .nothing := by rw [hStep]
    exact hOutput ▸ .cons hServed hMore
  have hRefuses : s.Refuses line :=
    .command hAsks hCommand (.unreadable (by decide) hRead fun container => nofun)
  exact ⟨hServes, hRefuses, refused_leaves_no_trace hServes hRefuses [some "2 * 3"]⟩

end Session

end Reckoner
