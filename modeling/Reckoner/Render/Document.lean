import Reckoner.Render.Fault

/-!
# Trees as JSON documents

A node is an object of six fields: its kind, its value, its type, its line and column, and its
children. The value of a number literal is its text, `n` or `n/d`, so that the number is exact.
-/

namespace Reckoner

namespace Render

/-- The value of a node in its document. -/
def documentValue (n : Node) : Except Fault Json :=
  if n.isNumber then return .string (← payload n)
  else
    match n.value with
    | .datum v => .ok v
    | .fraction _ => .error .unwritableFraction

/-- The document of a node, given that of a child. -/
def documentNode (document : Node → Except Fault Json) (n : Node) : Except Fault Json := do
  let value ← documentValue n
  let children ← n.children.mapM document
  return .object [
    ("kind", .string n.kind.name),
    ("value", value),
    ("type", n.type.elim .null .string),
    ("line", .int n.place.line),
    ("col", .int n.place.col),
    ("children", .array children)]

/-- The document of a tree of at most the given depth. -/
def document : Nat → Node → Except Fault Json
  | 0, _ => .error .tooDeep
  | depth + 1, n => documentNode (document depth) n

end Render

end Reckoner
