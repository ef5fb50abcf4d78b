import Reckoner.Unicode.Blank

/-!
# Lines

Stripping blanks from both ends of a text, splitting a text into lines, and the uniform line ends of
a text that is read from a file.
-/

namespace Reckoner

namespace Text

/-- A text without the blanks at its start. -/
def trimStart (cs : List Char) : List Char :=
  cs.dropWhile Unicode.isBlank

/-- A text without the blanks at both ends. -/
def trim (cs : List Char) : List Char :=
  (trimStart (trimStart cs).reverse).reverse

/-- A text without the blanks at both ends. -/
def strip (s : String) : String :=
  String.ofList (trim s.toList)

/-- The lines of a text, without their ends. A carriage return and a newline end one line, and an
end of line at the end of the text starts no further line. -/
def linesOf : List Char → List (List Char)
  | [] => []
  | '\r' :: '\n' :: cs => [] :: linesOf cs
  | c :: cs =>
    if Unicode.isLineEnd c then [] :: linesOf cs
    else
      match linesOf cs with
      | [] => [[c]]
      | line :: lines => (c :: line) :: lines

/-- The lines of a text. -/
def splitLines (s : String) : List String :=
  (linesOf s.toList).map String.ofList

/-- A text in which every carriage return, with a newline behind it or not, is a newline. -/
def uniformLineEnds : List Char → List Char
  | [] => []
  | '\r' :: '\n' :: cs => '\n' :: uniformLineEnds cs
  | '\r' :: cs => '\n' :: uniformLineEnds cs
  | c :: cs => c :: uniformLineEnds cs

/-- The pieces of a text between the occurrences of a character. -/
def splitAt (separator : Char) : List Char → List (List Char)
  | [] => [[]]
  | c :: cs =>
    if c = separator then [] :: splitAt separator cs
    else
      match splitAt separator cs with
      | [] => [[c]]
      | piece :: pieces => (c :: piece) :: pieces

end Text

end Reckoner
