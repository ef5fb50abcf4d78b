import Reckoner.Json.Value

/-!
# Alias groups

The words of an alias group. A group is a text, a number, or a list of groups; the words of an
object are its keys, and anything else holds no word.
-/

namespace Reckoner

namespace Alias

mutual

/-- The words of a group, in order. -/
def words : Json → List String
  | .string s => [s]
  | .bool value => [(Json.bool value).display]
  | .int value => [(Json.int value).display]
  | .float value => [(Json.float value).display]
  | .object fields => fields.map (·.1)
  | .array items => allWords items
  | .null => []

/-- The words of a list of groups, in order. -/
def allWords : List Json → List String
  | [] => []
  | item :: items => words item ++ allWords items

end

end Alias

end Reckoner
