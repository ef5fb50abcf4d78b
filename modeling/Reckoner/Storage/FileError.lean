import Reckoner.Text.Quoted
import Reckoner.Text.Utf8

/-!
# File errors

Why a file cannot be read, written or made, and the wording of each failure.
-/

namespace Reckoner

/-- Why the system refuses an operation on a path. -/
inductive Refusal where
  | missing
  | taken
  | notADirectory
  | isADirectory
  | nameTooLong
  /-- Any other refusal, by its number and wording. -/
  | other (number : Nat) (wording : String)
  deriving DecidableEq, Repr

namespace Refusal

/-- The number of a refusal. -/
def number : Refusal → Nat
  | missing => 2
  | taken => 17
  | notADirectory => 20
  | isADirectory => 21
  | nameTooLong => 36
  | other number _ => number

/-- The wording of a refusal. -/
def wording : Refusal → String
  | missing => "No such file or directory"
  | taken => "File exists"
  | notADirectory => "Not a directory"
  | isADirectory => "Is a directory"
  | nameTooLong => "File name too long"
  | other _ wording => wording

end Refusal

/-- Why an operation on a file fails. -/
inductive FileError where
  | refused (refusal : Refusal) (path : String)
  /-- The path holds a null character, which no path may. -/
  | nullInPath
  /-- The octets of the file are no text. -/
  | notText (error : Utf8.Error)
  deriving DecidableEq, Repr

/-- The message of an error. -/
def FileError.message : FileError → String
  | refused refusal path =>
    s!"[Errno {refusal.number}] {refusal.wording}: " ++ Text.quoted path
  | nullInPath => "embedded null byte"
  | notText error => error.message

end Reckoner
