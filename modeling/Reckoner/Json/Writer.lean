import Reckoner.Json.Value

/-!
# Writing JSON

A value is written on one line, with a space after each comma and colon. In a text only the double
quote, the backslash and the control characters below U+0020 are escaped; every other character
stands for itself.
-/

namespace Reckoner

namespace Json

/-- How one character is written in a JSON text. -/
def escapeChar (c : Char) : List Char :=
  if c = '"' ∨ c = '\\' then ['\\', c]
  else if c = '\n' then ['\\', 'n']
  else if c = '\r' then ['\\', 'r']
  else if c = '\t' then ['\\', 't']
  else if c = '\x08' then ['\\', 'b']
  else if c = '\x0c' then ['\\', 'f']
  else if c.toNat < 0x20 then '\\' :: 'u' :: Text.hexDigits 4 c.toNat
  else [c]

/-- A text between double quotes. -/
def writeString (s : String) : String :=
  String.ofList ('"' :: s.toList.flatMap escapeChar ++ ['"'])

/-- How documents spell the floating-point numbers that are not finite. -/
def writtenNames : Binary64.SpecialNames := ⟨"Infinity", "NaN"⟩

/-- Written items between brackets. -/
def writeArray (items : List String) : String :=
  "[" ++ ", ".intercalate items ++ "]"

/-- Written fields between braces. -/
def writeObject (fields : List (String × String)) : String :=
  let written := fields.map fun (key, value) => writeString key ++ ": " ++ value
  "\x7b" ++ ", ".intercalate written ++ "\x7d"

mutual

/-- The document of a value. -/
def write : Json → String
  | null => "null"
  | bool value => if value then "true" else "false"
  | int value => toString value
  | float value => value.text writtenNames
  | string s => writeString s
  | array items => writeArray (writeItems items)
  | object fields => writeObject (writeFields fields)

/-- The documents of the items of an array. -/
def writeItems : List Json → List String
  | [] => []
  | item :: items => write item :: writeItems items

/-- The documents of the fields of an object. -/
def writeFields : List (String × Json) → List (String × String)
  | [] => []
  | (key, value) :: fields => (key, write value) :: writeFields fields

end

end Json

end Reckoner
