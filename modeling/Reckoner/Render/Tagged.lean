import Reckoner.Render.Fault

/-!
# Tagged text

Every node but a leaf is a list in parentheses: its tag, its name if it has one, and its children,
as in `(ImplicitPlus (ApplyMul 6 feet) (ApplyMul 1 inch))`. The tag of an operation is the name of
its operator.
-/

namespace Reckoner

namespace Render

/-- The tag of the kinds that have one. -/
def tag? : Kind → Option String
  | .literal | .identifier | .binary => none
  | .member => some "Of"
  | .parens => some "Parens"
  | .function => some "Fn"
  | .apply => some "Apply"
  | .call => some "ApplyFunctionCall"
  | .product => some "ApplyMul"
  | .negation => some "UnaryMinus"
  | .positive => some "UnaryPlus"
  | .reciprocal => some "UnaryDiv"
  | .factorial => some "Factorial"
  | .assignment => some "Assign"
  | .statements => some "Statements"
  | .conversion => some "As"

/-- The tagged text of a node, given that of a child. -/
def taggedNode (text : Node → Writing) (n : Node) : Writing :=
  match n.kind, tag? n.kind with
  | _, some tag => do
    let name ← if n.value.isAbsent then pure [] else pure [← payload n]
    let children ← n.children.mapM text
    return "(" ++ " ".intercalate (tag :: name ++ children) ++ ")"
  | .binary, none => do
    let (a, b) ← twoChildren n
    return "(" ++ " ".intercalate [← payload n, ← text a, ← text b] ++ ")"
  | _, none => leaf n

/-- The tagged text of a tree of at most the given depth. -/
def tagged : Nat → Node → Writing
  | 0, _ => .error .tooDeep
  | depth + 1, n => taggedNode (tagged depth) n

end Render

end Reckoner
