/-!
# Places in a text

A place is a line and a column, both counted from one. Moving past a newline goes to the first
column of the next line; moving past any other character goes one column on. The place `(0, 0)` says
that nothing is known.
-/

namespace Reckoner

/-- A line and a column. -/
structure Place where
  line : Int
  col : Int
  deriving DecidableEq, Repr, Inhabited

namespace Place

/-- The place of the first character of a text. -/
def start : Place := ⟨1, 1⟩

/-- No place is known. -/
def unknown : Place := ⟨0, 0⟩

/-- The place after a character that stands at `p`. -/
def after (p : Place) (c : Char) : Place :=
  if c = '\n' then ⟨p.line + 1, 1⟩ else ⟨p.line, p.col + 1⟩

/-- The place after a text that starts at `p`. -/
def advance (p : Place) (cs : List Char) : Place :=
  cs.foldl after p

/-- Each unknown coordinate of `p` is taken from `q`. -/
def orElse (p q : Place) : Place :=
  ⟨if p.line = 0 then q.line else p.line, if p.col = 0 then q.col else p.col⟩

/-- A message followed by the place it is about. -/
def locate (p : Place) (message : String) : String :=
  s!"{message} at line {p.line}, col {p.col}"

@[simp] theorem advance_nil (p : Place) : p.advance [] = p := rfl

@[simp] theorem advance_cons (p : Place) (c : Char) (cs : List Char) :
    p.advance (c :: cs) = (p.after c).advance cs := rfl

theorem advance_append (p : Place) (cs ds : List Char) :
    p.advance (cs ++ ds) = (p.advance cs).advance ds := by
  simp [advance]

end Place

end Reckoner
