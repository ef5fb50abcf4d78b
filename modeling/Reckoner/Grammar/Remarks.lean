import Reckoner.Grammar.Parse
import Reckoner.Output

/-!
# Remarks on parsing

Each candidate that was rejected while tokens were parsed is remarked on.
-/

namespace Reckoner

/-- The remarks on an attempt to parse tokens. -/
def Attempt.remarks {α : Type} (tokens : List Token) (x : Attempt α) : List Remark :=
  let size := (Grammar.significant tokens).length
  x.trail.map fun rejection => ⟨.grammar, rejection.describe size⟩

end Reckoner
