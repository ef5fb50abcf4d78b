import Reckoner.Proofs.Node
import Reckoner.Render.Format

/-!
# Places are not written

Neither parenthesised nor tagged text shows where a tree stands: both are told by the kinds, the
payloads and the literal types of the nodes. So trees that differ in their places only are written in
the same way, or fail to be written in the same way. Documents do show places.

Each writer of a node is handed the writer of its children. A node without places asks it for children
without places (`parenthesisedNode_withoutPlaces`, `taggedNode_withoutPlaces`), and an induction on the
depth goes through the tree.

## Results

* `parenthesised_withoutPlaces`, `tagged_withoutPlaces` — a tree is written as it is without places.
* `Format.renderWithin_congr` — trees that differ in their places only have the same text.
-/

namespace Reckoner

namespace Render

-- ---------------------------------------------------------------------------
-- Parts of a node
-- ---------------------------------------------------------------------------

section Parts

variable (text : Node → Writing) (n : Node)

theorem payload_withoutPlaces : payload n.withoutPlaces = payload n := by
  rw [payload, payload, Node.value_withoutPlaces]

theorem literal_withoutPlaces : literal n.withoutPlaces = literal n := by
  rw [literal, literal, Node.type_withoutPlaces, Node.value_withoutPlaces]

theorem leaf_withoutPlaces : leaf n.withoutPlaces = leaf n := by
  rw [leaf, leaf, Node.kind_withoutPlaces, literal_withoutPlaces, payload_withoutPlaces]

/-- What is done with a child of a node without places is done with a child without places. -/
theorem bind_child_withoutPlaces (f : Node → Writing) (index : Nat) :
    (child n.withoutPlaces index >>= f) = (child n index >>= (f ·.withoutPlaces)) := by
  unfold child
  rw [Node.child_withoutPlaces]
  cases n.child index <;> rfl

theorem aroundChild_withoutPlaces (put : String → String) :
    aroundChild text n.withoutPlaces put = aroundChild (text ·.withoutPlaces) n put :=
  bind_child_withoutPlaces n _ 0

/-- What is done with the two children of a node without places is done with children without
places. -/
theorem bind_twoChildren_withoutPlaces (f : Node × Node → Writing) :
    (twoChildren n.withoutPlaces >>= f) =
      (twoChildren n >>= fun pair => f (pair.1.withoutPlaces, pair.2.withoutPlaces)) := by
  unfold twoChildren
  rw [Node.twoChildren_withoutPlaces]
  cases n.twoChildren <;> rfl

theorem joinChildren_withoutPlaces (join : String → String → String) :
    joinChildren text n.withoutPlaces join = joinChildren (text ·.withoutPlaces) n join :=
  bind_twoChildren_withoutPlaces n _

theorem nameAndChild_withoutPlaces (join : String → String → String) :
    nameAndChild text n.withoutPlaces join = nameAndChild (text ·.withoutPlaces) n join := by
  unfold nameAndChild
  rw [payload_withoutPlaces]
  simp only [aroundChild_withoutPlaces]

end Parts

-- ---------------------------------------------------------------------------
-- Nodes and trees
-- ---------------------------------------------------------------------------

theorem parenthesisedNode_withoutPlaces (text : Node → Writing) (n : Node) :
    parenthesisedNode text n.withoutPlaces = parenthesisedNode (text ·.withoutPlaces) n := by
  unfold parenthesisedNode
  rw [Node.kind_withoutPlaces]
  simp only [literal_withoutPlaces, payload_withoutPlaces, bind_child_withoutPlaces,
    aroundChild_withoutPlaces, joinChildren_withoutPlaces, nameAndChild_withoutPlaces]

theorem taggedNode_withoutPlaces (text : Node → Writing) (n : Node) :
    taggedNode text n.withoutPlaces = taggedNode (text ·.withoutPlaces) n := by
  have hChildren : n.withoutPlaces.children.mapM text =
      n.children.mapM (text ·.withoutPlaces) := by
    rw [Node.children_withoutPlaces, List.mapM_map]
    rfl
  unfold taggedNode
  rw [Node.kind_withoutPlaces, Node.value_withoutPlaces, payload_withoutPlaces, hChildren,
    leaf_withoutPlaces]
  simp only [bind_twoChildren_withoutPlaces]

/-- **Parenthesised text shows no places.** -/
theorem parenthesised_withoutPlaces (depth : Nat) (n : Node) :
    parenthesised depth n.withoutPlaces = parenthesised depth n := by
  induction depth generalizing n with
  | zero => rfl
  | succ depth ih =>
    rw [parenthesised, parenthesised, parenthesisedNode_withoutPlaces]
    exact congrArg (parenthesisedNode · n) (funext ih)

/-- **Tagged text shows no places.** -/
theorem tagged_withoutPlaces (depth : Nat) (n : Node) :
    tagged depth n.withoutPlaces = tagged depth n := by
  induction depth generalizing n with
  | zero => rfl
  | succ depth ih =>
    rw [tagged, tagged, taggedNode_withoutPlaces]
    exact congrArg (taggedNode · n) (funext ih)

end Render

/-- Trees that differ in their places only have the same text in a format that shows no places. -/
theorem Format.renderWithin_congr {format : Format} (hFormat : format ≠ .document) {n m : Node}
    (h : n.withoutPlaces = m.withoutPlaces) (height : Nat) :
    format.renderWithin height [n] = format.renderWithin height [m] := by
  have hWrite : format.writeWithin height n = format.writeWithin height m := by
    cases format with
    | parenthesised =>
      show Render.parenthesised height n = Render.parenthesised height m
      rw [← Render.parenthesised_withoutPlaces, h, Render.parenthesised_withoutPlaces]
    | tagged =>
      show Render.tagged height n = Render.tagged height m
      rw [← Render.tagged_withoutPlaces, h, Render.tagged_withoutPlaces]
    | document => exact absurd rfl hFormat
  rw [renderWithin, renderWithin, List.mapM_cons, List.mapM_cons, hWrite]

end Reckoner
