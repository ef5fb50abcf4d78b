import Reckoner.Grammar.Parse
import Reckoner.Render.Format

/-!
# Bounds

How deeply an expression may be nested. Rules and writers call one another level by level, and how many
levels there is room for depends on where they are called from and, for writers, on the format. So the
bounds are not numbers of the grammar or of a format, but belong to what calls them.
-/

namespace Reckoner

/-- The room that there is for an expression. -/
structure Bounds where
  /-- The bound on the nesting of rules. -/
  nesting : Nat
  /-- The greatest height of a tree that is written in a format. -/
  height : Format → Nat
  deriving Inhabited

namespace Bounds

/-- The room at the entry of the program. -/
def outermost : Bounds := ⟨maxNesting, fun _ => maxTreeDepth⟩

/-- The room one call further down. -/
def below (b : Bounds) : Bounds := ⟨b.nesting - 1, fun format => b.height format - 1⟩

/-- Parses a whole sequence of tokens. -/
def parse (b : Bounds) (units : List String) (tokens : List Token) : Attempt Node :=
  Grammar.parseWithin b.nesting units tokens

/-- The text of a list of trees in a format, one line for each. -/
def render (b : Bounds) (format : Format) (trees : List Node) : Render.Writing :=
  format.renderWithin (b.height format) trees

end Bounds

end Reckoner
