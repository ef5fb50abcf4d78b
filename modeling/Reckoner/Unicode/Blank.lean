import Reckoner.Unicode.Ranges

/-!
# Blanks and line ends

The characters that stripping removes from both ends of a line, and the characters that end a line.
-/

namespace Reckoner.Unicode

/-- The ranges of blank characters, ascending: the white space of Unicode 14 and the information
separators U+001C to U+001F. -/
def blankRanges : CodeRanges :=
  [(0x9, 0xD), (0x1C, 0x20), (0x85, 0x85), (0xA0, 0xA0), (0x1680, 0x1680), (0x2000, 0x200A),
   (0x2028, 0x2029), (0x202F, 0x202F), (0x205F, 0x205F), (0x3000, 0x3000)]

/-- A character that stripping removes. -/
def isBlank (c : Char) : Bool :=
  blankRanges.contains c.toNat

/-- The ranges of characters that end a line, ascending. -/
def lineEndRanges : CodeRanges :=
  [(0xA, 0xD), (0x1C, 0x1E), (0x85, 0x85), (0x2028, 0x2029)]

/-- A character that ends a line. -/
def isLineEnd (c : Char) : Bool :=
  lineEndRanges.contains c.toNat

end Reckoner.Unicode
