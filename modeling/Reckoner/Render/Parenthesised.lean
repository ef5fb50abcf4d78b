import Reckoner.Render.Fault

/-!
# Parenthesised text

Every operation stands between parentheses, so that the grouping is visible: `(2 + (3 / 4))`. A call
is written as in `sin(30)`, and statements are separated by `; ` without parentheses.
-/

namespace Reckoner

namespace Render

/-- The sign of an operator, between its operands. The parts of a compound quantity have none. -/
def operatorSign : Operator → String
  | .plus => "+"
  | .minus => "-"
  | .mul => "*"
  | .div => "/"
  | .mod => "%"
  | .pow => "^"
  | .implicitPlus => ""

/-- The text of an operation on two written operands. -/
def parenthesisedBinary (name lhs rhs : String) : Writing :=
  match Operator.ofName? name with
  | none => .error (.unknownOperator name)
  | some op =>
    let sign := operatorSign op
    .ok (if sign.isEmpty then "(" ++ lhs ++ " " ++ rhs ++ ")"
      else "(" ++ lhs ++ " " ++ sign ++ " " ++ rhs ++ ")")

/-- The text that is put around the text of the first child of a node. -/
def aroundChild (text : Node → Writing) (n : Node) (put : String → String) : Writing := do
  return put (← text (← child n 0))

/-- The text that joins those of the two children of a node. -/
def joinChildren (text : Node → Writing) (n : Node) (join : String → String → String) :
    Writing := do
  let (a, b) ← twoChildren n
  let left ← text a
  let right ← text b
  return join left right

/-- The text that joins the name of a node and the text of its first child. -/
def nameAndChild (text : Node → Writing) (n : Node) (join : String → String → String) :
    Writing := do
  let name ← payload n
  aroundChild text n (join name)

/-- The parenthesised text of a node, given that of a child. -/
def parenthesisedNode (text : Node → Writing) (n : Node) : Writing :=
  match n.kind with
  | .literal => literal n
  | .identifier => payload n
  | .member => nameAndChild text n fun name a => "(" ++ name ++ " of " ++ a ++ ")"
  | .parens => aroundChild text n fun a => "(" ++ a ++ ")"
  | .function => nameAndChild text n fun name a => "(\\" ++ name ++ "." ++ a ++ ")"
  | .apply | .product => joinChildren text n fun a b => "(" ++ a ++ " " ++ b ++ ")"
  | .call => joinChildren text n fun a b => a ++ "(" ++ b ++ ")"
  | .binary => do
    let lhs ← text (← child n 0)
    let rhs ← text (← child n 1)
    parenthesisedBinary (← payload n) lhs rhs
  | .negation => aroundChild text n fun a => "(-" ++ a ++ ")"
  | .positive => aroundChild text n fun a => "(+" ++ a ++ ")"
  | .reciprocal => aroundChild text n fun a => "(/" ++ a ++ ")"
  | .factorial => aroundChild text n fun a => "(" ++ a ++ "!)"
  | .assignment => nameAndChild text n fun name a => "(" ++ name ++ " = " ++ a ++ ")"
  | .statements => joinChildren text n fun a b => a ++ "; " ++ b
  | .conversion => joinChildren text n fun a b => "(" ++ a ++ " to " ++ b ++ ")"

/-- The parenthesised text of a tree of at most the given depth. -/
def parenthesised : Nat → Node → Writing
  | 0, _ => .error .tooDeep
  | depth + 1, n => parenthesisedNode (parenthesised depth) n

end Render

end Reckoner
