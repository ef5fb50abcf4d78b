import Reckoner.Json.Writer
import Reckoner.Node.Basic
import Reckoner.Number.Quotient

/-!
# Literals and faults of rendering

The text of a literal, which all written forms share, and what can go wrong when a tree is written:
the tree may be too deep, a number too long, and a tree that was built by hand may lack a child,
name an operator that does not exist, or carry a value that has no written form.
-/

namespace Reckoner

namespace Render

/-- Why a tree cannot be written. -/
inductive Fault where
  | tooDeep
  | unsupported (kind : Kind)
  | misshapen (fault : Node.ShapeFault)
  | unknownOperator (name : String)
  | digits (limit : DigitLimit)
  | unwritableFraction
  | notATree
  | unknownFormat (name : String)
  /-- The setting of the format names none. -/
  | noFormat
  deriving DecidableEq, Repr

/-- The wording of a fault. -/
def Fault.message : Fault → String
  | tooDeep => "expression is nested too deeply"
  | unsupported kind => "No expression emitter for kind '" ++ kind.name ++ "'"
  | misshapen fault => fault.message
  | unknownOperator name => Text.quoted name
  | digits limit => limit.message
  | unwritableFraction => "Object of type Fraction is not JSON serializable"
  | notATree => "All items to render must be ASTNode instances."
  | unknownFormat name => "Unknown output format: " ++ Text.quoted name
  | noFormat => "'list' object has no attribute 'lower'"

/-- Writing a part of a tree. -/
abbrev Writing := Except Fault String

/-- A text that may be too long a number. -/
def ofDigits (x : Except DigitLimit String) : Writing := x.mapError .digits

/-- The child of a node at an index. -/
def child (n : Node) (index : Nat) : Except Fault Node := (n.child index).mapError .misshapen

/-- The two children of a node. -/
def twoChildren (n : Node) : Except Fault (Node × Node) := n.twoChildren.mapError .misshapen

/-- The text of a number. An integer is written in full, any other fraction as a decimal. -/
def formatNumber : Payload → Except DigitLimit String
  | .fraction q => if q.den = 1 then writeInt q.num else .ok (Decimal.ofRat q).text
  | .datum v => .ok v.display

/-- The text of a literal. -/
def literal (n : Node) : Writing :=
  if n.type = some "unit" then .ok "()"
  else if n.type = some "string" then
    match n.value with
    | .datum v => .ok v.write
    | .fraction _ => .error .unwritableFraction
  else ofDigits (formatNumber n.value)

/-- The text of the payload of a node. -/
def payload (n : Node) : Writing := ofDigits n.value.display

/-- The text of a leaf: a literal or an identifier. Nodes of the other kinds have no text of their
own. -/
def leaf (n : Node) : Writing :=
  match n.kind with
  | .literal => literal n
  | .identifier => payload n
  | kind => .error (.unsupported kind)

end Render

end Reckoner
