import Reckoner.Proofs.Grammar.Soundness

/-!
# No token is lost

A tree holds what its tokens hold. Read from left to right, it gives the payloads of the tokens, in
order and each once. Its nodes account for the symbols: most kinds of node are built for exactly one
symbol, and the differences that remain are listed in `Accounted`. A sum that was written as a mixed
fraction has no `+` or `-` of its own; a separator or an opening parenthesis need not leave a node.

Both are read off the derivation of the tree. The accounts are sums over the tokens and over the
nodes, so a derivation adds up those of its parts and of the node that it builds.

## Results

* `Derives.payloads`        — the payloads of a tree are those of its tokens.
* `Derives.accounted`       — the nodes of a tree account for the symbols of its tokens.
* `parseWithin_keeps_tokens` — both, for every tree that is parsed.
-/

namespace Reckoner

-- ---------------------------------------------------------------------------
-- Reading a tree
-- ---------------------------------------------------------------------------

namespace Node

mutual

/-- The nodes of a tree, each before its children. -/
def nodes : Node → List Node
  | mk k v t p cs => mk k v t p cs :: allNodes cs

/-- The nodes of a list of trees. -/
def allNodes : List Node → List Node
  | [] => []
  | n :: ns => nodes n ++ allNodes ns

end

/-- The payloads that a node gives before its children are read. -/
def ownPayloads (n : Node) : List Payload :=
  match n.kind with
  | .literal => if n.type = some "unit" then [] else [n.value]
  | .identifier | .member | .function | .assignment => [n.value]
  | _ => []

/-- The payloads of a tree, read from left to right. -/
def payloads (n : Node) : List Payload :=
  n.nodes.flatMap ownPayloads

/-- The shape `number/number`. -/
def isFraction (n : Node) : Bool :=
  n.isBinary .div &&
    match n.children with
    | [top, bottom] => top.isNumber && bottom.isNumber
    | _ => false

/-- The shape `number + number/number`. -/
def isMixedPlus (n : Node) : Bool :=
  n.isBinary .plus &&
    match n.children with
    | [whole, fraction] => whole.isNumber && fraction.isFraction
    | _ => false

/-- The shape `-number - number/number`. -/
def isMixedMinus (n : Node) : Bool :=
  n.isBinary .minus &&
    match n.children with
    | [whole, fraction] =>
      whole.kind = .negation && whole.children.all isNumber && fraction.isFraction
    | _ => false

/-- A node is a part of itself. -/
theorem self_mem_nodes (n : Node) : n ∈ n.nodes := by
  obtain ⟨k, v, t, p, cs⟩ := n
  exact List.mem_cons_self

theorem mem_allNodes {m : Node} {ns : List Node} : m ∈ allNodes ns ↔ ∃ n ∈ ns, m ∈ n.nodes := by
  induction ns with
  | nil => simp [allNodes]
  | cons n ns ih => simp [allNodes, ih]

/-- The parts of a tree are the tree and the parts of its children. -/
theorem mem_nodes {n m : Node} : m ∈ n.nodes ↔ m = n ∨ ∃ c ∈ n.children, m ∈ c.nodes := by
  obtain ⟨k, v, t, p, cs⟩ := n
  rw [nodes, List.mem_cons, mem_allNodes]
  rfl

/-- The parts of a child are parts of the node. -/
theorem mem_nodes_of_child {n c m : Node} (hc : c ∈ n.children) (hm : m ∈ c.nodes) : m ∈ n.nodes :=
  mem_nodes.mpr (Or.inr ⟨c, hc, hm⟩)

section

variable (v : Payload) (x : String) (p : Place) (k : Kind) (op : Operator) (n m : Node)

@[simp] theorem nodes_number : (number v p).nodes = [number v p] := rfl
@[simp] theorem nodes_string : (string x p).nodes = [string x p] := rfl
@[simp] theorem nodes_unit : (unit p).nodes = [unit p] := rfl
@[simp] theorem nodes_ident : (ident x p).nodes = [ident x p] := rfl

@[simp] theorem nodes_pair : (pair k n m).nodes = pair k n m :: (n.nodes ++ m.nodes) := by
  simp [pair, nodes, allNodes]

@[simp] theorem nodes_binary : (binary op n m).nodes = binary op n m :: (n.nodes ++ m.nodes) := by
  simp [binary, nodes, allNodes]

@[simp] theorem nodes_wrap : (wrap k n p).nodes = wrap k n p :: n.nodes := by
  simp [wrap, nodes, allNodes]

@[simp] theorem nodes_named : (named k v n p).nodes = named k v n p :: n.nodes := by
  simp [named, nodes, allNodes]

@[simp] theorem payloads_number : (number v p).payloads = [v] := rfl
@[simp] theorem payloads_string : (string x p).payloads = [.text x] := rfl
@[simp] theorem payloads_unit : (unit p).payloads = [] := rfl
@[simp] theorem payloads_ident : (ident x p).payloads = [.text x] := rfl

@[simp] theorem payloads_binary : (binary op n m).payloads = n.payloads ++ m.payloads := by
  simp [payloads, ownPayloads]

variable {k}

theorem payloads_pair (hk : k = .apply ∨ k = .call ∨ k = .product ∨ k = .conversion ∨
    k = .statements) : (pair k n m).payloads = n.payloads ++ m.payloads := by
  rcases hk with rfl | rfl | rfl | rfl | rfl <;> simp [payloads, ownPayloads]

theorem payloads_wrap (hk : k = .negation ∨ k = .positive ∨ k = .reciprocal ∨ k = .factorial ∨
    k = .parens) : (wrap k n p).payloads = n.payloads := by
  rcases hk with rfl | rfl | rfl | rfl | rfl <;> simp [payloads, ownPayloads]

theorem payloads_named (hk : k = .member ∨ k = .function ∨ k = .assignment) :
    (named k v n p).payloads = v :: n.payloads := by
  rcases hk with rfl | rfl | rfl <;> simp [payloads, ownPayloads]

end

end Node

-- ---------------------------------------------------------------------------
-- Reading tokens
-- ---------------------------------------------------------------------------

namespace Token

/-- The payload of a token that carries one. -/
def payload? (t : Token) : Option Payload :=
  match t.content with
  | .number v => some v
  | .ident x | .string x => some (.text x)
  | _ => none

end Token

namespace Grammar

open Cursor (solid)

/-- The payloads of tokens, in order. -/
def payloads (ts : List Token) : List Payload :=
  ts.filterMap Token.payload?

/-- How often each symbol occurs. -/
def tally (ts : List Token) (s : Symbol) : Nat :=
  ts.countP (·.isSymbol s)

@[simp] theorem payloads_nil : payloads [] = [] := rfl

@[simp] theorem payloads_symbol (s : Symbol) (p : Place) (ts : List Token) :
    payloads (⟨.symbol s, p⟩ :: ts) = payloads ts := rfl

@[simp] theorem payloads_number (v : Payload) (p : Place) (ts : List Token) :
    payloads (⟨.number v, p⟩ :: ts) = v :: payloads ts := rfl

@[simp] theorem payloads_string (x : String) (p : Place) (ts : List Token) :
    payloads (⟨.string x, p⟩ :: ts) = .text x :: payloads ts := rfl

@[simp] theorem payloads_ident (x : String) (p : Place) (ts : List Token) :
    payloads (⟨.ident x, p⟩ :: ts) = .text x :: payloads ts := rfl

@[simp] theorem payloads_append (ts ts' : List Token) :
    payloads (ts ++ ts') = payloads ts ++ payloads ts' :=
  List.filterMap_append

theorem tally_append (ts ts' : List Token) (s : Symbol) :
    tally (ts ++ ts') s = tally ts s + tally ts' s :=
  List.countP_append

/-- A token that is left out before parsing carries nothing and is no symbol. -/
theorem inert_of_left_out {t : Token} (h : t.isBlank = true ∨ t.isFinish = true) :
    t.payload? = none ∧ ∀ s, t.isSymbol s = false := by
  obtain ⟨content, place⟩ := t
  cases content <;> simp [Token.isBlank, Token.isFinish] at h <;>
    simp [Token.payload?, Token.isSymbol]

theorem payloads_solid_significant (ts : List Token) :
    payloads (solid (significant ts)) = payloads ts := by
  unfold payloads solid significant
  rw [List.filterMap_filter, List.filterMap_filter]
  refine congrArg (List.filterMap · ts) (funext fun t => ?_)
  by_cases h : t.isBlank = true ∨ t.isFinish = true
  · simp [(inert_of_left_out h).1]
  · simp only [not_or, Bool.not_eq_true] at h
    simp [h.1, h.2]

theorem tally_solid_significant (ts : List Token) : tally (solid (significant ts)) = tally ts := by
  funext s
  unfold tally solid significant
  rw [List.countP_filter, List.countP_filter]
  refine List.countP_congr fun t _ => ?_
  by_cases h : t.isBlank = true ∨ t.isFinish = true
  · simp [(inert_of_left_out h).2 s]
  · simp only [not_or, Bool.not_eq_true] at h
    simp [h.1, h.2]

-- ---------------------------------------------------------------------------
-- Accounts
-- ---------------------------------------------------------------------------

/-- The nodes account for symbols that occur as often as `count` says. -/
structure Accounted (count : Symbol → Nat) (ns : List Node) : Prop where
  pow : count .pow = ns.countP (·.isBinary .pow)
  factorial : count .factorial = ns.countP (·.kind = .factorial)
  mul : count .mul = ns.countP (·.isBinary .mul)
  mod : count .mod = ns.countP (·.isBinary .mod)
  div : count .div = ns.countP (·.isBinary .div) + ns.countP (·.kind = .reciprocal)
  of : count .of = ns.countP (·.kind = .member)
  equals : count .equals = ns.countP (·.kind = .assignment)
  conversion : count .conversion = ns.countP (·.kind = .conversion)
  functions : count .backslash + count .arrow = ns.countP (·.kind = .function)
  dot : count .dot = count .backslash
  openParens : ns.countP (·.kind = .parens) ≤ count .openParens
  closeParens : count .closeParens ≤ count .openParens
  semicolon : ns.countP (·.kind = .statements) ≤ count .semicolon
  add_le : count .add ≤ ns.countP (·.isBinary .plus) + ns.countP (·.kind = .positive)
  le_add : ns.countP (·.isBinary .plus) + ns.countP (·.kind = .positive) ≤
    count .add + ns.countP (·.isMixedPlus)
  sub_le : count .sub ≤ ns.countP (·.isBinary .minus) + ns.countP (·.kind = .negation)
  le_sub : ns.countP (·.isBinary .minus) + ns.countP (·.kind = .negation) ≤
    count .sub + ns.countP (·.isMixedMinus)

namespace Accounted

variable {ts ts' : List Token} {ns ns' : List Node} {t : Token} {n : Node}

/-- Accounts add up. -/
theorem append (h : Accounted (tally ts) ns) (h' : Accounted (tally ts') ns') :
    Accounted (tally (ts ++ ts')) (ns ++ ns') := by
  constructor <;> simp only [tally_append, List.countP_append]
  case pow => rw [h.pow, h'.pow]
  case factorial => rw [h.factorial, h'.factorial]
  case mul => rw [h.mul, h'.mul]
  case mod => rw [h.mod, h'.mod]
  case div => rw [h.div, h'.div]; omega
  case of => rw [h.of, h'.of]
  case equals => rw [h.equals, h'.equals]
  case conversion => rw [h.conversion, h'.conversion]
  case functions => rw [← h.functions, ← h'.functions]; omega
  case dot => rw [h.dot, h'.dot]
  case openParens => exact Nat.add_le_add h.openParens h'.openParens
  case closeParens => exact Nat.add_le_add h.closeParens h'.closeParens
  case semicolon => exact Nat.add_le_add h.semicolon h'.semicolon
  case add_le => have := h.add_le; have := h'.add_le; omega
  case le_add => have := h.le_add; have := h'.le_add; omega
  case sub_le => have := h.sub_le; have := h'.sub_le; omega
  case le_sub => have := h.le_sub; have := h'.le_sub; omega

/-- Tokens on both sides of what is in between. -/
theorem around (left right : List Token) (hOwn : Accounted (tally (left ++ right)) ns')
    (h : Accounted (tally ts) ns) : Accounted (tally (left ++ (ts ++ right))) (ns' ++ ns) := by
  have hSame : tally (left ++ right ++ ts) = tally (left ++ (ts ++ right)) := by
    funext s
    simp only [tally_append]
    omega
  exact hSame ▸ hOwn.append h

/-- A token between the children of its node. -/
theorem between (hOwn : Accounted (tally [t]) [n]) (h : Accounted (tally ts) ns)
    (h' : Accounted (tally ts') ns') : Accounted (tally (ts ++ t :: ts')) (n :: (ns ++ ns')) := by
  have hSame : tally ([t] ++ (ts ++ ts')) = tally (ts ++ ([t] ++ ts')) := by
    funext s
    simp only [tally_append]
    omega
  exact hSame ▸ hOwn.append (h.append h')

end Accounted

-- ---------------------------------------------------------------------------
-- What each node accounts for
-- ---------------------------------------------------------------------------

section Nodes

variable {y : Symbol} {n m : Node} {p q : Place}

theorem accounted_prefixed {k : Kind} (hy : (y, k) ∈ prefixes) :
    Accounted (tally [⟨.symbol y, p⟩]) [.wrap k n q] := by
  rcases prefixes_cases hy with ⟨rfl, rfl⟩ | ⟨rfl, rfl⟩ | ⟨rfl, rfl⟩ <;>
    constructor <;> simp [tally]

theorem accounted_product {op : Operator} (hy : (y, op) ∈ productOperators) :
    Accounted (tally [⟨.symbol y, p⟩]) [.binary op n m] := by
  rcases productOperators_cases hy with ⟨rfl, rfl⟩ | ⟨rfl, rfl⟩ | ⟨rfl, rfl⟩ <;>
    constructor <;> simp [tally]

theorem accounted_sum {build : Node → Node → Node} (hy : (y, build) ∈ sumOperators) :
    Accounted (tally [⟨.symbol y, p⟩]) [build n m] := by
  rcases sumOperators_cases hy with ⟨rfl, rfl⟩ | ⟨rfl, rfl⟩ | ⟨rfl, rfl⟩ <;>
    constructor <;> simp [tally]

theorem nodes_sum {build : Node → Node → Node} (hy : (y, build) ∈ sumOperators) :
    (build n m).nodes = build n m :: (n.nodes ++ m.nodes) := by
  rcases sumOperators_cases hy with ⟨-, rfl⟩ | ⟨-, rfl⟩ | ⟨-, rfl⟩
  · exact Node.nodes_binary _ _ _
  · exact Node.nodes_binary _ _ _
  · exact Node.nodes_pair _ _ _

theorem payloads_sum {build : Node → Node → Node} (hy : (y, build) ∈ sumOperators) :
    (build n m).payloads = n.payloads ++ m.payloads := by
  rcases sumOperators_cases hy with ⟨-, rfl⟩ | ⟨-, rfl⟩ | ⟨-, rfl⟩
  · exact Node.payloads_binary _ _ _
  · exact Node.payloads_binary _ _ _
  · exact Node.payloads_pair _ _ (by simp)

/-- Separators need no node. -/
theorem accounted_separators (ps : List Place) :
    Accounted (tally (ps.map fun p => ⟨.symbol .semicolon, p⟩)) [] := by
  induction ps with
  | nil => constructor <;> simp [tally]
  | cons p ps ih =>
    have hOwn : Accounted (tally [⟨.symbol .semicolon, p⟩]) [] := by constructor <;> simp [tally]
    exact hOwn.append ih

theorem accounted_juxtaposition {k : Kind} (hk : k = .apply ∨ k = .call ∨ k = .product) :
    Accounted (tally []) [.pair k n m] := by
  rcases hk with rfl | rfl | rfl <;> constructor <;> simp [tally]

theorem accounted_mixedPlus {v w u : Payload} {p q r t : Place} :
    Accounted
      (tally [⟨.number v, p⟩, ⟨.number w, q⟩, ⟨.symbol .div, r⟩, ⟨.number u, t⟩])
      (Node.binary .plus (.number v p) (.binary .div (.number w q) (.number u t))).nodes := by
  constructor <;> simp [tally, List.countP_cons, Node.isMixedPlus, Node.isFraction]

theorem accounted_mixedMinus {v w u : Payload} {o p q r t : Place} :
    Accounted
      (tally [⟨.symbol .sub, o⟩, ⟨.number v, p⟩, ⟨.number w, q⟩, ⟨.symbol .div, r⟩, ⟨.number u, t⟩])
      (Node.binary .minus (.wrap .negation (.number v p) o)
        (.binary .div (.number w q) (.number u t))).nodes := by
  constructor <;> simp [tally, List.countP_cons, Node.isMixedMinus, Node.isFraction]

end Nodes

-- ---------------------------------------------------------------------------
-- Derivations
-- ---------------------------------------------------------------------------

namespace Derives

variable {units : List String} {s : Stratum} {used : List Token} {n : Node}

/-- **Payloads are kept in order**: a tree reads as its tokens do. -/
theorem payloads_eq (h : Derives units s used n) : n.payloads = payloads used := by
  induction h with
  | widen _ _ ih => exact ih
  | number v p => rfl
  | string x p => rfl
  | ident x p => rfl
  | unit p q => rfl
  | member x p q _ ih => rw [Node.payloads_named _ _ _ (by simp), ih, payloads_ident, payloads_symbol]
  | parens p q _ ih => rw [Node.payloads_wrap _ _ (by simp), ih]; simp
  | unclosed p _ ih => rw [Node.payloads_wrap _ _ (by simp), ih, payloads_symbol]
  | lambda x p q r _ ih => rw [Node.payloads_named _ _ _ (by simp), ih]; simp
  | factorial p _ ih => rw [Node.payloads_wrap _ _ (by simp), ih]; simp
  | pow p _ _ ih ih' => rw [Node.payloads_binary, ih, ih', payloads_append, payloads_symbol]
  | prefixed p hy _ ih =>
    have hk := prefixes_kind hy
    rw [Node.payloads_wrap _ _ (by grind), ih, payloads_symbol]
  | mixedPlus => simp
  | mixedMinus => simp [Node.payloads_wrap]
  | product p _ _ _ ih ih' => rw [Node.payloads_binary, ih, ih', payloads_append, payloads_symbol]
  | timesMixed p _ _ ih ih' => rw [Node.payloads_binary, ih, ih', payloads_append, payloads_symbol]
  | juxtaposed _ _ hj ih ih' =>
    have hk := juxtapositionKind_mem hj
    rw [Node.payloads_pair _ _ (by grind), ih, ih', payloads_append]
  | compound _ _ _ _ ih ih' => rw [Node.payloads_binary, ih, ih', payloads_append]
  | sum p hy _ _ ih ih' => rw [payloads_sum hy, ih, ih', payloads_append, payloads_symbol]
  | arrow x p q _ ih => rw [Node.payloads_named _ _ _ (by simp), ih, payloads_ident, payloads_symbol]
  | assignment x p q _ ih =>
    rw [Node.payloads_named _ _ _ (by simp), ih, payloads_ident, payloads_symbol]
  | leading p _ ih => rw [ih, payloads_symbol]
  | trailing p _ ih => rw [ih]; simp
  | sequence p _ _ ih ih' =>
    rw [Node.payloads_pair _ _ (by simp), ih, ih', payloads_append, payloads_symbol]
  | nothing ps =>
    induction ps with
    | nil => rfl
    | cons p ps ih => rw [List.map_cons, payloads_symbol, ← ih]

/-- **Symbols are accounted for** by the nodes of the tree. -/
theorem accounted (h : Derives units s used n) : Accounted (tally used) n.nodes := by
  induction h with
  | widen _ _ ih => exact ih
  | number v p => constructor <;> simp [tally]
  | string x p => constructor <;> simp [tally]
  | ident x p => constructor <;> simp [tally]
  | unit p q => constructor <;> simp [tally]
  | @member _ n x p q _ ih =>
    have hOwn : Accounted (tally [⟨.ident x, p⟩, ⟨.symbol .of, q⟩])
        [.named .member (.text x) n p] := by constructor <;> simp [tally]
    rw [Node.nodes_named]
    exact hOwn.append ih
  | @parens _ n p q _ ih =>
    have hOwn : Accounted (tally [⟨.symbol .openParens, p⟩, ⟨.symbol .closeParens, q⟩])
        [.wrap .parens n p] := by constructor <;> simp [tally]
    rw [Node.nodes_wrap]
    exact Accounted.around [_] [_] hOwn ih
  | @unclosed _ n p _ ih =>
    have hOwn : Accounted (tally [⟨.symbol .openParens, p⟩]) [.wrap .parens n p] := by
      constructor <;> simp [tally]
    rw [Node.nodes_wrap]
    exact hOwn.append ih
  | @lambda _ n x p q r _ ih =>
    have hOwn : Accounted (tally [⟨.symbol .backslash, p⟩, ⟨.ident x, q⟩, ⟨.symbol .dot, r⟩])
        [.named .function (.text x) n p] := by constructor <;> simp [tally]
    rw [Node.nodes_named]
    exact hOwn.append ih
  | @factorial _ n p _ ih =>
    have hOwn : Accounted (tally [⟨.symbol .factorial, p⟩]) [.wrap .factorial n .unknown] := by
      constructor <;> simp [tally]
    rw [Node.nodes_wrap]
    exact Accounted.around [] [_] hOwn ih
  | @pow _ _ n m p _ _ ih ih' =>
    have hOwn : Accounted (tally [⟨.symbol .pow, p⟩]) [.binary .pow n m] := by
      constructor <;> simp [tally]
    rw [Node.nodes_binary]
    exact hOwn.between ih ih'
  | prefixed p hy _ ih =>
    rw [Node.nodes_wrap]
    exact (accounted_prefixed hy).append ih
  | mixedPlus => exact accounted_mixedPlus
  | mixedMinus => exact accounted_mixedMinus
  | product p hy _ _ ih ih' =>
    rw [Node.nodes_binary]
    exact (accounted_product hy).between ih ih'
  | timesMixed p _ _ ih ih' =>
    rw [Node.nodes_binary]
    exact (accounted_product (by decide)).between ih ih'
  | juxtaposed _ _ hj ih ih' =>
    rw [Node.nodes_pair]
    exact (accounted_juxtaposition (juxtapositionKind_mem hj)).append (ih.append ih')
  | @compound _ _ n m _ _ _ _ ih ih' =>
    have hOwn : Accounted (tally []) [.binary .implicitPlus n m] := by
      constructor <;> simp [tally]
    rw [Node.nodes_binary]
    exact hOwn.append (ih.append ih')
  | sum p hy _ _ ih ih' =>
    rw [nodes_sum hy]
    exact (accounted_sum hy).between ih ih'
  | @arrow _ n x p q _ ih =>
    have hOwn : Accounted (tally [⟨.ident x, p⟩, ⟨.symbol .arrow, q⟩])
        [.named .function (.text x) n p] := by constructor <;> simp [tally]
    rw [Node.nodes_named]
    exact hOwn.append ih
  | @assignment _ n x p q _ ih =>
    have hOwn : Accounted (tally [⟨.ident x, p⟩, ⟨.symbol .equals, q⟩])
        [.named .assignment (.text x) n p] := by constructor <;> simp [tally]
    rw [Node.nodes_named]
    exact hOwn.append ih
  | leading p _ ih => exact (accounted_separators [p]).append ih
  | trailing p _ ih => exact Accounted.around [] [_] (accounted_separators [p]) ih
  | @sequence _ _ n m p _ _ ih ih' =>
    have hOwn : Accounted (tally [⟨.symbol .semicolon, p⟩]) [.pair .statements n m] := by
      constructor <;> simp [tally]
    rw [Node.nodes_pair]
    exact hOwn.between ih ih'
  | nothing ps =>
    have hOwn : Accounted (tally []) [.unit .unknown] := by constructor <;> simp [tally]
    exact Accounted.around [] _ (accounted_separators ps) hOwn

end Derives

-- ---------------------------------------------------------------------------
-- Trees that are parsed
-- ---------------------------------------------------------------------------

/-- **No token is lost, repeated or moved.** A tree that is parsed, under any bound on the nesting,
reads as its tokens do, and its nodes account for their symbols. -/
theorem parseWithin_keeps_tokens {depth : Nat} {units : List String} {tokens : List Token}
    {t : Node} (h : (parseWithin depth units tokens).result = .ok t) :
    t.payloads = payloads tokens ∧ Accounted (tally tokens) t.nodes := by
  have hDerives := parseWithin_derives h
  have hPayloads := hDerives.payloads_eq
  have hAccounted := hDerives.accounted
  rw [payloads_solid_significant] at hPayloads
  rw [tally_solid_significant] at hAccounted
  exact ⟨hPayloads, hAccounted⟩

/-- `2 * 1 3/4`, where a product is taken apart for a mixed fraction and put together again. -/
theorem mixed_product_keeps_tokens :
    let tokens : List Token :=
      [⟨.number (.fraction 2), ⟨1, 1⟩⟩, ⟨.symbol .mul, ⟨1, 3⟩⟩, ⟨.number (.fraction 1), ⟨1, 5⟩⟩,
       ⟨.blank " ", ⟨1, 6⟩⟩, ⟨.number (.fraction 3), ⟨1, 7⟩⟩, ⟨.symbol .div, ⟨1, 8⟩⟩,
       ⟨.number (.fraction 4), ⟨1, 9⟩⟩, ⟨.finish "", ⟨1, 10⟩⟩]
    let t : Node :=
      .binary .mul (.number (.fraction 2) ⟨1, 1⟩)
        (.binary .plus (.number (.fraction 1) ⟨1, 5⟩)
          (.binary .div (.number (.fraction 3) ⟨1, 7⟩) (.number (.fraction 4) ⟨1, 9⟩)))
    (parse [] tokens).result = .ok t ∧ t.payloads = payloads tokens ∧
      Accounted (tally tokens) t.nodes := by
  intro tokens t
  have h : (parseWithin maxNesting [] tokens).result = .ok t := by rfl
  exact ⟨h, parseWithin_keeps_tokens h⟩

end Grammar

end Reckoner
