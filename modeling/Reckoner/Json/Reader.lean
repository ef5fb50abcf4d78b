import Reckoner.Json.Value
import Reckoner.Number.DigitLimit

/-!
# Reading JSON

A reader of JSON documents on lists of characters. The spellings `NaN`, `Infinity` and `-Infinity`
are accepted as numbers, control characters inside a text are refused, and when a key occurs more
than once in an object its last value stands at the place of the first.

An escape may spell half a surrogate pair without the other half. A text is made of characters here and
has no room for it; it is read as U+FFFD, the replacement character.

An error names what was expected and where: the offset in the document and, counted from one, its
line and column. Arrays and objects may stand inside one another up to a bound. The recursion of the
reader is bounded by a number of steps that suffices for every document.
-/

namespace Reckoner

namespace Json

-- ---------------------------------------------------------------------------
-- Errors
-- ---------------------------------------------------------------------------

/-- What is wrong with a document. -/
inductive Fault where
  | byteOrderMark
  | expectedValue
  | extraData
  | expectedPropertyName
  | expectedColon
  | expectedComma
  | unterminatedString
  | controlCharacter
  | invalidEscape
  | invalidCodeEscape
  deriving DecidableEq, Repr

/-- The wording of a fault. -/
def Fault.message : Fault → String
  | byteOrderMark => "Unexpected UTF-8 BOM (decode using utf-8-sig)"
  | expectedValue => "Expecting value"
  | extraData => "Extra data"
  | expectedPropertyName => "Expecting property name enclosed in double quotes"
  | expectedColon => "Expecting ':' delimiter"
  | expectedComma => "Expecting ',' delimiter"
  | unterminatedString => "Unterminated string starting at"
  | controlCharacter => "Invalid control character at"
  | invalidEscape => "Invalid \\escape"
  | invalidCodeEscape => "Invalid \\uXXXX escape"

/-- What holds other values. -/
inductive Container where
  | array
  | object
  deriving DecidableEq, Repr

/-- The name of a container in messages. -/
def Container.name : Container → String
  | array => "array"
  | object => "object"

/-- Why reading stopped: a fault with the number of characters from it to the end of the document,
an integer that is too long, or a container inside too many others. -/
inductive Stop where
  | fault (fault : Fault) (left : Nat)
  | digits (limit : DigitLimit)
  | nesting (container : Container)
  deriving DecidableEq, Repr

/-- A fault at the start of the text `at`. -/
def faultAt {α : Type} (fault : Fault) (rest : List Char) : Except Stop α :=
  .error (.fault fault rest.length)

/-- The line and the column, counted from one, of the end of a text. -/
def endPosition (before : List Char) : Nat × Nat :=
  before.foldl (fun (line, col) c => if c = '\n' then (line + 1, 1) else (line, col + 1)) (1, 1)

/-- The message about a fault `left` characters before the end of a document. -/
def Fault.describe (fault : Fault) (document : List Char) (left : Nat) : String :=
  let offset := document.length - left
  let (line, col) := endPosition (document.take offset)
  s!"{fault.message}: line {line} column {col} (char {offset})"

-- ---------------------------------------------------------------------------
-- Blanks, texts and numbers
-- ---------------------------------------------------------------------------

/-- A character that may stand between the parts of a document. -/
def isSpace (c : Char) : Bool :=
  c = ' ' || c = '\t' || c = '\n' || c = '\r'

/-- The text after its leading blanks. -/
def skipSpace (cs : List Char) : List Char :=
  cs.dropWhile isSpace

/-- The value of a hexadecimal digit in either case. -/
def hexValue? (c : Char) : Option Nat :=
  if '0' ≤ c ∧ c ≤ '9' then some (c.toNat - '0'.toNat)
  else if 'a' ≤ c ∧ c ≤ 'f' then some (c.toNat - 'a'.toNat + 10)
  else if 'A' ≤ c ∧ c ≤ 'F' then some (c.toNat - 'A'.toNat + 10)
  else none

/-- The code unit that four hexadecimal digits write. -/
def codeUnit? : List Char → Option Nat
  | [a, b, c, d] => do
    return (((← hexValue? a) * 16 + (← hexValue? b)) * 16 + (← hexValue? c)) * 16 + (← hexValue? d)
  | _ => none

/-- The character that a one-letter escape stands for. -/
def escapedChar? (c : Char) : Option Char :=
  [('"', '"'), ('\\', '\\'), ('/', '/'), ('b', '\x08'), ('f', '\x0c'), ('n', '\n'), ('r', '\r'),
   ('t', '\t')].lookup c

/-- The code unit of an escape by code point whose digits start the text, of which at least one more
character must follow them. The fault is reported one character before the digits. -/
def readCodeUnit (digits : List Char) : Except Stop Nat :=
  match codeUnit? (digits.take 4) with
  | some n =>
    if digits.length ≤ 4 then .error (.fault .invalidCodeEscape (digits.length + 1)) else .ok n
  | none => .error (.fault .invalidCodeEscape (digits.length + 1))

/-- The second half of a surrogate pair at the start of a text. -/
def readLowSurrogate : List Char → Except Stop (Option Nat)
  | '\\' :: 'u' :: digits =>
    if digits.length ≤ 4 then .ok none
    else do
      let n ← readCodeUnit digits
      return if 0xDC00 ≤ n ∧ n < 0xE000 then some n else none
  | _ => .ok none

/-- The character that an escape by code point stands for, where `digits` start the text; and
whether a second escape belongs to it. Half a surrogate pair without the other half is no character
and is replaced by U+FFFD. -/
def readCodeEscape (digits : List Char) : Except Stop (Char × Bool) := do
  let high ← readCodeUnit digits
  if 0xD800 ≤ high ∧ high < 0xDC00 then
    match ← readLowSurrogate (digits.drop 4) with
    | some low => return (Char.ofNat (0x10000 + (high - 0xD800) * 0x400 + (low - 0xDC00)), true)
    | none => return ('\ufffd', false)
  else
    return (if 0xDC00 ≤ high ∧ high < 0xE000 then '\ufffd' else Char.ofNat high, false)

/-- The characters of a text up to its closing quote. `left` is the number of characters from the
opening quote to the end of the document. -/
def readChars (left : Nat) : Nat → List Char → Except Stop (List Char × List Char)
  | 0, _ => .error (.fault .unterminatedString left)
  | _, [] => .error (.fault .unterminatedString left)
  | steps + 1, c :: rest =>
    if c = '"' then .ok ([], rest)
    else if c = '\\' then
      match rest with
      | [] => .error (.fault .unterminatedString left)
      | 'u' :: digits => do
        let (char, pair) ← readCodeEscape digits
        let (chars, rest) ← readChars left steps (digits.drop (if pair then 10 else 4))
        return (char :: chars, rest)
      | e :: rest =>
        match escapedChar? e with
        | some char => do
          let (chars, rest) ← readChars left steps rest
          return (char :: chars, rest)
        | none => .error (.fault .invalidEscape (rest.length + 2))
    else if c.toNat < 0x20 then .error (.fault .controlCharacter (rest.length + 1))
    else do
      let (chars, rest) ← readChars left steps rest
      return (c :: chars, rest)

/-- A text whose opening quote has been read. -/
def readString (rest : List Char) : Except Stop (String × List Char) := do
  let (chars, rest) ← readChars (rest.length + 1) (rest.length + 1) rest
  return (String.ofList chars, rest)

/-- The digits of the integer part of a number: a zero, or a run that does not start with one. -/
def integerDigits : List Char → List Char
  | '0' :: _ => ['0']
  | cs => cs.takeWhile Char.isDigit

/-- A point and at least one digit. -/
def fractionDigits? : List Char → Option (List Char)
  | '.' :: rest => if rest.head?.any Char.isDigit then some (rest.takeWhile Char.isDigit) else none
  | _ => none

/-- The length and the value of an exponent with at least one digit. -/
def exponentPart? : List Char → Option (Nat × Int)
  | [] => none
  | e :: rest =>
    let (sign, digits) : List Char × List Char :=
      match rest with
      | '+' :: ds => (['+'], ds)
      | '-' :: ds => (['-'], ds)
      | ds => ([], ds)
    let digits := digits.takeWhile Char.isDigit
    if (e = 'e' ∨ e = 'E') ∧ digits ≠ [] then
      let n : Int := (digits.foldl (fun n d => 10 * n + (d.toNat - '0'.toNat)) 0 : Nat)
      some (1 + sign.length + digits.length, if sign = ['-'] then -n else n)
    else none

/-- The number that a run of ASCII digits writes. -/
def asciiValue (digits : List Char) : Nat :=
  digits.foldl (fun n d => 10 * n + (d.toNat - '0'.toNat)) 0

/-- A number whose sign has been read. -/
def readUnsigned (negative : Bool) (cs : List Char) : Option (Except DigitLimit Json × List Char) :=
  let whole := integerDigits cs
  if whole.isEmpty then none
  else
    let rest := cs.drop whole.length
    let fraction := fractionDigits? rest
    let rest := rest.drop (fraction.elim 0 (·.length + 1))
    let exponent := exponentPart? rest
    let rest := rest.drop (exponent.elim 0 (·.1))
    if fraction.isNone ∧ exponent.isNone then
      if maxDigits < whole.length then some (.error (.reading whole.length), rest)
      else
        let n : Int := asciiValue whole
        some (.ok (.int (if negative then -n else n)), rest)
    else
      let fraction := fraction.getD []
      let e := exponent.elim 0 (·.2) - fraction.length
      some (.ok (.float (.ofDecimal negative (asciiValue (whole ++ fraction)) e)), rest)

/-- A number at the start of a text. -/
def readNumber (cs : List Char) : Except Stop (Json × List Char) :=
  let number :=
    match cs with
    | '-' :: rest => readUnsigned true rest
    | _ => readUnsigned false cs
  match number with
  | some (.ok value, rest) => .ok (value, rest)
  | some (.error limit, _) => .error (.digits limit)
  | none => faultAt .expectedValue cs

/-- The values that are spelled by a word. -/
def wordValues : List (List Char × Json) :=
  [("null".toList, .null), ("true".toList, .bool true), ("false".toList, .bool false),
   ("NaN".toList, .float .nan), ("Infinity".toList, .float (.infinite false)),
   ("-Infinity".toList, .float (.infinite true))]

/-- A word or a number at the start of a text. -/
def readScalar (cs : List Char) : Except Stop (Json × List Char) :=
  match wordValues.find? (·.1.isPrefixOf cs) with
  | some (word, value) => .ok (value, cs.drop word.length)
  | none => readNumber cs

-- ---------------------------------------------------------------------------
-- Documents
-- ---------------------------------------------------------------------------

/-- The fields with one more: a key that is already there keeps its place and takes the new
value. -/
def putField (fields : List (String × Json)) (key : String) (value : Json) : List (String × Json) :=
  if fields.any (·.1 = key) then
    fields.map fun field => if field.1 = key then (key, value) else field
  else fields ++ [(key, value)]

/-- The most containers that may stand inside one another in a document. -/
def maxDepth : Nat := 990

mutual

/-- A value at the start of a text, with room for `depth` containers inside one another. -/
def readValue (depth : Nat) : Nat → List Char → Except Stop (Json × List Char)
  | 0, cs => faultAt .expectedValue cs
  | steps + 1, cs =>
    match cs with
    | '"' :: rest => do
      let (s, rest) ← readString rest
      return (.string s, rest)
    | '\x7b' :: rest =>
      if depth = 0 then .error (.nesting .object)
      else
        match skipSpace rest with
        | '\x7d' :: rest => .ok (.object [], rest)
        | rest => do
          let (fields, rest) ← readFields (depth - 1) steps [] rest
          return (.object fields, rest)
    | '[' :: rest =>
      if depth = 0 then .error (.nesting .array)
      else
        match skipSpace rest with
        | ']' :: rest => .ok (.array [], rest)
        | rest => do
          let (items, rest) ← readItems (depth - 1) steps rest
          return (.array items, rest)
    | cs => readScalar cs

/-- The items of an array from the next one on, and the closing bracket. -/
def readItems (depth : Nat) : Nat → List Char → Except Stop (List Json × List Char)
  | 0, cs => faultAt .expectedValue cs
  | steps + 1, cs => do
    let (item, rest) ← readValue depth steps cs
    match skipSpace rest with
    | ']' :: rest => return ([item], rest)
    | ',' :: rest =>
      let (items, rest) ← readItems depth steps (skipSpace rest)
      return (item :: items, rest)
    | rest => faultAt .expectedComma rest

/-- The fields of an object from the next one on, after those in `fields`, and the closing brace. -/
def readFields (depth : Nat) :
    Nat → List (String × Json) → List Char → Except Stop (List (String × Json) × List Char)
  | 0, _, cs => faultAt .expectedPropertyName cs
  | steps + 1, fields, cs =>
    match cs with
    | '"' :: rest => do
      let (key, rest) ← readString rest
      match skipSpace rest with
      | ':' :: rest =>
        let (value, rest) ← readValue depth steps (skipSpace rest)
        let fields := putField fields key value
        match skipSpace rest with
        | '\x7d' :: rest => return (fields, rest)
        | ',' :: rest => readFields depth steps fields (skipSpace rest)
        | rest => faultAt .expectedComma rest
      | rest => faultAt .expectedColon rest
    | cs => faultAt .expectedPropertyName cs

end

/-- A number of steps that suffices to read a text. -/
def stepsFor (cs : List Char) : Nat :=
  2 * cs.length + 2

/-- A whole document: one value, with blanks before and after it, and with room for `depth` containers
inside one another. -/
def readDocument (depth : Nat) (cs : List Char) : Except Stop Json :=
  if cs.head? = some '\ufeff' then faultAt .byteOrderMark cs
  else do
    let start := skipSpace cs
    let (value, rest) ← readValue depth (stepsFor start) start
    match skipSpace rest with
    | [] => return value
    | rest => faultAt .extraData rest

/-- The message about a container inside too many others. -/
def Container.tooDeep (container : Container) : String :=
  "maximum recursion depth exceeded while decoding a JSON " ++ container.name ++
    " from a unicode string"

/-- The message of a failed reading of a document. -/
def Stop.message (document : List Char) : Stop → String
  | fault f left => f.describe document left
  | digits limit => limit.message
  | nesting container => container.tooDeep

/-- The value of a document, or a message about what is wrong with it. -/
def ofText (s : String) : Except String Json :=
  (readDocument maxDepth s.toList).mapError (Stop.message s.toList)

end Json

end Reckoner
