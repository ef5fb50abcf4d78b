import Reckoner.Alias.Table
import Reckoner.Text.Columns

/-!
# Reports of aliases

One line for each alias, in the order of the words, and a line with the prefix units.
-/

namespace Reckoner

namespace Aliases

/-- The line of one alias. -/
def row (word : String) (s : Symbol) : String :=
  Text.alignRight 12 word ++ " → " ++ Text.alignLeft 4 s.display ++ " (" ++ s.name ++ ")"

/-- The prefix units in the order of their code points. -/
def sortedUnits (a : Aliases) : List String :=
  Text.sortByKey id a.prefixUnits

/-- The lines of a report. -/
def reportLines (a : Aliases) : List String :=
  (Text.sortByKey (·.1) a.table).map (fun (word, s) => row word s) ++
    ["prefix units: " ++ " ".intercalate a.sortedUnits]

/-- The report of the aliases and prefix units. -/
def report (a : Aliases) : String :=
  "\n".intercalate a.reportLines

end Aliases

end Reckoner
