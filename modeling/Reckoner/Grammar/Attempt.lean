import Reckoner.Node.Basic
import Reckoner.Token

/-!
# Attempts

A rule of the grammar is attempted on the tokens that are left. It either builds something or stops,
and it leaves a trail of the candidates that were rejected on the way. Three things stop an attempt:
a parse error, which another candidate may recover from; a nesting that is too deep; and a left
operand, built by hand, that lacks a child. Only parse errors are recovered from.
-/

namespace Reckoner

-- ---------------------------------------------------------------------------
-- Parse errors
-- ---------------------------------------------------------------------------

/-- Why a sequence of tokens is not an expression. -/
inductive ParseError where
  | expectedToken
  | expectedSymbol (found expected : Symbol) (token : Token)
  | invalidToken (expected : Symbol) (token : Token)
  | expectedNumber (token : Token)
  | expectedIdentifier (token : Token)
  | expectedParameter (token : Token)
  | expectedAssignee (token : Token)
  | unexpectedSymbol (symbol : Symbol) (token : Token)
  | unexpectedBlank (token : Token)
  | missingDot (cause : ParseError)
  | invalidMixedFraction
  | reservedJuxtaposition
  | unexpectedInput (token : Token)
  | tooDeep

namespace ParseError

/-- The token that an error is about. -/
def token? : ParseError → Option Token
  | expectedToken | invalidMixedFraction | reservedJuxtaposition | tooDeep => none
  | expectedSymbol _ _ t | invalidToken _ t | expectedNumber t | expectedIdentifier t
  | expectedParameter t | expectedAssignee t | unexpectedSymbol _ t | unexpectedBlank t
  | unexpectedInput t => some t
  | missingDot cause => cause.token?

/-- The wording of an error without its place. -/
def wording : ParseError → String
  | expectedToken => "expected a token"
  | expectedSymbol found expected _ =>
    "found '" ++ found.display ++ "' while expecting '" ++ expected.display ++ "'"
  | invalidToken expected _ => "found an invalid token while expecting '" ++ expected.display ++ "'"
  | expectedNumber _ => "expected a number"
  | expectedIdentifier _ | expectedParameter _ | expectedAssignee _ => "expected an identifier"
  | unexpectedSymbol symbol _ => "expected a value, instead found '" ++ symbol.display ++ "'"
  | unexpectedBlank _ => "unexpected whitespace"
  | missingDot _ => "missing '.' in lambda (expected e.g. \\x.x)"
  | invalidMixedFraction => "invalid mixed fraction"
  | reservedJuxtaposition => "juxtaposition reserved for another rule"
  | unexpectedInput _ => "unexpected input found"
  | tooDeep => "expression is nested too deeply"

/-- The message of an error. The place of its token is named when the line is known. -/
def message (e : ParseError) : String :=
  match e.token? with
  | some t => if t.place.line = 0 then e.wording else t.place.locate e.wording
  | none => e.wording

end ParseError

-- ---------------------------------------------------------------------------
-- Rejections
-- ---------------------------------------------------------------------------

/-- The candidates whose rejection is put on the trail. -/
inductive Candidate where
  | operand (symbol : Symbol)
  | mixedFraction
  | juxtaposition
  deriving DecidableEq, Repr

/-- The name of a candidate in a trace. -/
def Candidate.name : Candidate → String
  | operand symbol => "operand of " ++ symbol.display
  | mixedFraction => "parse_mixed_fraction"
  | juxtaposition => "parse_apply_cont"

/-- A rejected candidate, with the number of tokens that were left where it was tried. -/
structure Rejection where
  candidate : Candidate
  left : Nat
  error : ParseError

/-- The line that traces a rejection in a sequence of `size` tokens. -/
def Rejection.describe (size : Nat) (r : Rejection) : String :=
  s!"{r.candidate.name} rejected at {(size : Int) - r.left}: {r.error.message}"

-- ---------------------------------------------------------------------------
-- Attempts
-- ---------------------------------------------------------------------------

/-- What stops an attempt. -/
inductive Stop where
  | error (error : ParseError)
  | tooDeep
  | misshapen (fault : Node.ShapeFault)

/-- The outcome of an attempt and the trail of the candidates rejected on the way. -/
structure Attempt (α : Type) where
  trail : List Rejection
  result : Except Stop α

namespace Attempt

variable {α β : Type}

/-- An attempt that has an outcome at once. -/
def ofExcept (result : Except Stop α) : Attempt α := ⟨[], result⟩

/-- An attempt that fails with a parse error. -/
def reject (error : ParseError) : Attempt α := ofExcept (.error (.error error))

/-- An attempt that takes a node apart. -/
def shape (result : Except Node.ShapeFault α) : Attempt α := ofExcept (result.mapError .misshapen)

/-- Goes on with what was built. The trails are joined. -/
protected def bind (x : Attempt α) (f : α → Attempt β) : Attempt β :=
  match x.result with
  | .ok a => ⟨x.trail ++ (f a).trail, (f a).result⟩
  | .error stop => ⟨x.trail, .error stop⟩

instance : Monad Attempt where
  pure a := ofExcept (.ok a)
  bind := Attempt.bind

/-- Goes on after a parse error. Nothing else is recovered from. -/
def recover (x : Attempt α) (handle : ParseError → Attempt α) : Attempt α :=
  match x.result with
  | .error (.error e) => ⟨x.trail ++ (handle e).trail, (handle e).result⟩
  | _ => x

/-- Puts a rejection on the trail. -/
def note (candidate : Candidate) (left : Nat) (error : ParseError) : Attempt Unit :=
  ⟨[⟨candidate, left, error⟩], .ok ()⟩

/-- A candidate: none when it is rejected by a parse error, which is put on the trail. -/
def candidate (name : Candidate) (left : Nat) (x : Attempt α) : Attempt (Option α) :=
  recover (do return some (← x)) fun e => do
    note name left e
    return none

@[simp] theorem result_pure (a : α) : (pure a : Attempt α).result = .ok a := rfl

@[simp] theorem trail_pure (a : α) : (pure a : Attempt α).trail = [] := rfl

theorem result_bind (x : Attempt α) (f : α → Attempt β) :
    (x >>= f).result = x.result.bind fun a => (f a).result := by
  change (Attempt.bind x f).result = _
  unfold Attempt.bind
  cases x.result <;> rfl

@[simp] theorem result_reject (e : ParseError) :
    (reject e : Attempt α).result = .error (.error e) := rfl

end Attempt

end Reckoner
