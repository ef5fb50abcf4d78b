import Reckoner.Node.Basic

/-!
# Views of trees

A tree without its places, equality of trees, and the form in which a tree is traced.
-/

namespace Reckoner

namespace Node

-- ---------------------------------------------------------------------------
-- Places
-- ---------------------------------------------------------------------------

mutual

/-- The same tree with every place forgotten. -/
def withoutPlaces : Node → Node
  | mk kind value type _ children => mk kind value type .unknown (allWithoutPlaces children)

/-- The same trees with every place forgotten. -/
def allWithoutPlaces : List Node → List Node
  | [] => []
  | n :: ns => withoutPlaces n :: allWithoutPlaces ns

end

theorem allWithoutPlaces_eq_map (ns : List Node) : allWithoutPlaces ns = ns.map withoutPlaces := by
  induction ns with
  | nil => rfl
  | cons n ns ih => simp [allWithoutPlaces, ih]

-- ---------------------------------------------------------------------------
-- Equality
-- ---------------------------------------------------------------------------

mutual

/-- Whether two trees are equal, places included; payloads that are numbers are compared by
value. -/
def alike : Node → Node → Bool
  | mk k v t p cs, mk k' v' t' p' cs' =>
    k = k' && v.alike v' && t = t' && p = p' && allAlike cs cs'

/-- Whether two lists of trees are equal. -/
def allAlike : List Node → List Node → Bool
  | [], [] => true
  | n :: ns, m :: ms => alike n m && allAlike ns ms
  | _, _ => false

end

mutual

/-- The word for the first payload in a tree that cannot serve as a key. -/
def containerName? : Node → Option String
  | mk _ (.datum v) _ _ cs => v.containerName? <|> anyContainerName? cs
  | mk _ _ _ _ cs => anyContainerName? cs

/-- The word for the first payload in a list of trees that cannot serve as a key. -/
def anyContainerName? : List Node → Option String
  | [] => none
  | n :: ns => containerName? n <|> anyContainerName? ns

end

-- ---------------------------------------------------------------------------
-- Traced form
-- ---------------------------------------------------------------------------

/-- How many children of a node are traced. -/
def tracedChildren : Nat := 3

/-- The traced form of a node, given those of its first children. -/
def tracedWith (n : Node) (first : List String) : Except DigitLimit String := do
  let value ← if n.value.isAbsent then pure [] else pure ["value=" ++ (← n.value.quoted)]
  let type := n.type.toList.map ("type_=" ++ ·)
  let shown := first ++ (if tracedChildren < n.children.length then ["..."] else [])
  let list := if n.children.isEmpty then [] else ["children=[" ++ ", ".intercalate shown ++ "]"]
  return "ASTNode(" ++ ", ".intercalate ([n.kind.name] ++ value ++ type ++ list) ++ ")"

mutual

/-- The form in which a tree is traced. -/
def traced : Node → Except DigitLimit String
  | mk k v t p cs => do tracedWith (mk k v t p cs) (← firstTraced tracedChildren cs)

/-- The forms in which the first `count` trees of a list are traced. -/
def firstTraced : Nat → List Node → Except DigitLimit (List String)
  | 0, _ => .ok []
  | _, [] => .ok []
  | count + 1, n :: ns => do return (← traced n) :: (← firstTraced count ns)

end

end Node

end Reckoner
