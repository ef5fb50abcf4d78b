import Reckoner.Payload
import Reckoner.Place

/-!
# Expression trees

A node has a kind, a payload, a literal type, a place and a list of children. What each kind
carries:

* `literal`: a value, of type `number`, `string` or `unit`
* `identifier`: its name
* `member`: a name and the value it is taken from, `name of inner`
* `parens`, `negation`, `positive`, `reciprocal`, `factorial`: one child
* `function`: the name of its parameter and its body
* `apply`, `call`, `product`: juxtaposition of two children
* `binary`: the name of an operator and two operands
* `assignment`: a name and the value assigned
* `statements`: what comes first and the statement after it
* `conversion`: a value and its target

Trees that are built by hand need not keep to this list, so whoever takes a tree apart says what
happens when a child is missing.
-/

namespace Reckoner

-- ---------------------------------------------------------------------------
-- Kinds and operators
-- ---------------------------------------------------------------------------

/-- The variants of a node. -/
inductive Kind where
  | literal | identifier | member | parens | function
  | apply | call | product
  | binary | negation | positive | reciprocal | factorial
  | assignment | statements | conversion
  deriving DecidableEq, Repr, Inhabited

namespace Kind

/-- Every kind. -/
def all : List Kind :=
  [literal, identifier, member, parens, function, apply, call, product, binary, negation, positive,
   reciprocal, factorial, assignment, statements, conversion]

/-- The name of a kind in written trees. -/
def name : Kind → String
  | literal => "literal"
  | identifier => "identifier"
  | member => "of"
  | parens => "parens"
  | function => "fn"
  | apply => "apply"
  | call => "apply_function_call"
  | product => "apply_mul"
  | binary => "bop"
  | negation => "unary_minus"
  | positive => "unary_plus"
  | reciprocal => "unary_div"
  | factorial => "factorial"
  | assignment => "assign"
  | statements => "statements"
  | conversion => "as"

/-- The kind of a name. -/
def ofName? (name : String) : Option Kind :=
  all.find? (·.name = name)

theorem ofName?_name (k : Kind) : ofName? k.name = some k := by
  cases k <;> decide

end Kind

/-- The operators of `binary` nodes. `implicitPlus` joins the parts of a compound quantity. -/
inductive Operator where
  | plus | minus | mul | div | mod | pow | implicitPlus
  deriving DecidableEq, Repr, Inhabited

namespace Operator

/-- Every operator. -/
def all : List Operator :=
  [plus, minus, mul, div, mod, pow, implicitPlus]

/-- The name of an operator. -/
def name : Operator → String
  | plus => "Plus"
  | minus => "Minus"
  | mul => "Mul"
  | div => "Div"
  | mod => "Mod"
  | pow => "Pow"
  | implicitPlus => "ImplicitPlus"

/-- The operator of a name. -/
def ofName? (name : String) : Option Operator :=
  all.find? (·.name = name)

theorem ofName?_name (op : Operator) : ofName? op.name = some op := by
  cases op <;> decide

end Operator

-- ---------------------------------------------------------------------------
-- Nodes
-- ---------------------------------------------------------------------------

/-- A node of an expression tree. -/
inductive Node where
  | mk (kind : Kind) (value : Payload) (type : Option String) (place : Place) (children : List Node)
  deriving Inhabited

namespace Node

/-- The kind of a node. -/
def kind : Node → Kind
  | mk kind _ _ _ _ => kind

/-- The payload of a node. -/
def value : Node → Payload
  | mk _ value _ _ _ => value

/-- The literal type of a node. -/
def type : Node → Option String
  | mk _ _ type _ _ => type

/-- The place of a node. -/
def place : Node → Place
  | mk _ _ _ place _ => place

/-- The children of a node, in order. -/
def children : Node → List Node
  | mk _ _ _ _ children => children

@[simp] theorem kind_mk (k v t p cs) : (mk k v t p cs).kind = k := rfl
@[simp] theorem value_mk (k v t p cs) : (mk k v t p cs).value = v := rfl
@[simp] theorem type_mk (k v t p cs) : (mk k v t p cs).type = t := rfl
@[simp] theorem place_mk (k v t p cs) : (mk k v t p cs).place = p := rfl
@[simp] theorem children_mk (k v t p cs) : (mk k v t p cs).children = cs := rfl

/-- A number literal. -/
def number (value : Payload) (place : Place) : Node :=
  mk .literal value (some "number") place []

/-- A string literal. -/
def string (text : String) (place : Place) : Node :=
  mk .literal (.text text) (some "string") place []

/-- The empty value: `()`, and an empty list of statements. -/
def unit (place : Place) : Node :=
  mk .literal .absent (some "unit") place []

/-- An identifier. -/
def ident (name : String) (place : Place) : Node :=
  mk .identifier (.text name) none place []

/-- A node of two children; it stands where the first one does. -/
def pair (kind : Kind) (lhs rhs : Node) : Node :=
  mk kind .absent none lhs.place [lhs, rhs]

/-- An operator and its operands; it stands where the left one does. -/
def binary (op : Operator) (lhs rhs : Node) : Node :=
  mk .binary (.text op.name) none lhs.place [lhs, rhs]

/-- A node around one child; a coordinate that is not known is taken from the child. -/
def wrap (kind : Kind) (inner : Node) (place : Place) : Node :=
  mk kind .absent none (place.orElse inner.place) [inner]

/-- A node of a name and one child. -/
def named (kind : Kind) (name : Payload) (inner : Node) (place : Place) : Node :=
  mk kind name none place [inner]

-- ---------------------------------------------------------------------------
-- Shapes
-- ---------------------------------------------------------------------------

/-- What a node lacks when it is taken apart. -/
inductive ShapeFault where
  /-- A child that does not exist was asked for. -/
  | noChild
  /-- There are fewer than two children. -/
  | tooFew (count : Nat)
  /-- There are more than two children. -/
  | tooMany
  deriving DecidableEq, Repr

/-- The wording of a shape fault. -/
def ShapeFault.message : ShapeFault → String
  | noChild => "tuple index out of range"
  | tooFew count => s!"not enough values to unpack (expected 2, got {count})"
  | tooMany => "too many values to unpack (expected 2)"

/-- The child at an index. -/
def child (n : Node) (index : Nat) : Except ShapeFault Node :=
  match n.children[index]? with
  | some c => .ok c
  | none => .error .noChild

/-- The children of a node that must have exactly two. -/
def twoChildren (n : Node) : Except ShapeFault (Node × Node) :=
  match n.children with
  | [a, b] => .ok (a, b)
  | [] => .error (.tooFew 0)
  | [_] => .error (.tooFew 1)
  | _ => .error .tooMany

/-- A number literal. -/
def isNumber (n : Node) : Bool :=
  n.kind = .literal && n.type = some "number"

/-- A negated number literal. -/
def isNegatedNumber (n : Node) : Except ShapeFault Bool :=
  if n.kind = .negation then return (← n.child 0).isNumber else return false

/-- A node of the given operator. -/
def isBinary (n : Node) (op : Operator) : Bool :=
  n.kind = .binary && n.value.text? = some op.name

end Node

end Reckoner
