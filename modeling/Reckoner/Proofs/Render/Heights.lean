import Reckoner.Proofs.Outcome
import Reckoner.Render.Format

/-!
# Bounds on heights

A larger bound on the height of trees changes nothing but writings that stopped at the smaller one. So a
tree that is not too deep under either of two bounds is written alike under both, whichever of them is
larger, and however the writing ends.

Each writer of a node is monotone in the writer of its children (`parenthesisedNode_below`,
`taggedNode_below`, `documentNode_below`), and the trees follow by induction on the smaller bound
(`within_below`).

## Results

* `Format.renderWithin_below` — under a larger bound trees are written as under a smaller one, or they
  were too deep for that.
* `Format.renderWithin_eq`    — trees that are not too deep under either bound are written alike.
-/

namespace Reckoner

namespace Render

-- ---------------------------------------------------------------------------
-- Writings in order
-- ---------------------------------------------------------------------------

section Order

variable {α β : Type} {x y : Except Fault α}

/-- `y` ends as `x` does, unless `x` stopped at too deep a tree. -/
def Below (x y : Except Fault α) : Prop :=
  x = .error .tooDeep ∨ y = x

theorem Below.refl (x : Except Fault α) : Below x x :=
  Or.inr rfl

theorem Below.bind {f g : α → Except Fault β} (hxy : Below x y) (hfg : ∀ a, Below (f a) (g a)) :
    Below (x >>= f) (y >>= g) := by
  rcases hxy with rfl | rfl
  · exact Or.inl rfl
  · cases y with
    | error e => exact .refl _
    | ok a => exact hfg a

theorem Below.map (h : Below x y) (f : α → β) :
    Below (x >>= fun a => Except.ok (f a)) (y >>= fun a => Except.ok (f a)) :=
  h.bind fun _ => .refl _

theorem Below.mapM {f g : α → Except Fault β} (h : ∀ a, Below (f a) (g a)) (as : List α) :
    Below (as.mapM f) (as.mapM g) := by
  induction as with
  | nil => exact .refl _
  | cons a as ih =>
    rw [List.mapM_cons, List.mapM_cons]
    exact (h a).bind fun b => ih.map _

end Order

-- ---------------------------------------------------------------------------
-- Nodes
-- ---------------------------------------------------------------------------

section Nodes

variable {text text' : Node → Writing} (h : ∀ n, Below (text n) (text' n)) (n : Node)
include h

theorem aroundChild_below (put : String → String) :
    Below (aroundChild text n put) (aroundChild text' n put) :=
  .bind (.refl _) fun child => (h child).map put

theorem joinChildren_below (join : String → String → String) :
    Below (joinChildren text n join) (joinChildren text' n join) :=
  .bind (.refl _) fun pair => .bind (h pair.1) fun left => (h pair.2).map (join left)

theorem nameAndChild_below (join : String → String → String) :
    Below (nameAndChild text n join) (nameAndChild text' n join) :=
  .bind (.refl _) fun name => aroundChild_below h n (join name)

theorem parenthesisedNode_below : Below (parenthesisedNode text n) (parenthesisedNode text' n) := by
  unfold parenthesisedNode
  cases n.kind with
  | literal | identifier => exact .refl _
  | member | function | assignment => exact nameAndChild_below h n _
  | parens | negation | positive | reciprocal | factorial => exact aroundChild_below h n _
  | apply | product | call | statements | conversion => exact joinChildren_below h n _
  | binary =>
    exact .bind (.refl _) fun l => .bind (h l) fun _ => .bind (.refl _) fun r => .bind (h r) fun _ =>
      .refl _

theorem taggedNode_below : Below (taggedNode text n) (taggedNode text' n) := by
  unfold taggedNode
  split
  · dsimp only
    split
    · exact .bind (.refl _) fun name => (Below.mapM h n.children).map _
    · exact .bind (.refl _) fun _ => .bind (.refl _) fun name => (Below.mapM h n.children).map _
  · exact .bind (.refl _) fun pair => .bind (.refl _) fun _ => .bind (h pair.1) fun _ =>
      (h pair.2).map _
  · exact .refl _

end Nodes

theorem documentNode_below {document document' : Node → Except Fault Json}
    (h : ∀ n, Below (document n) (document' n)) (n : Node) :
    Below (documentNode document n) (documentNode document' n) :=
  .bind (.refl _) fun _ => (Below.mapM h n.children).map _

-- ---------------------------------------------------------------------------
-- Trees
-- ---------------------------------------------------------------------------

/-- What is monotone node by node is monotone in the bound on the height. -/
theorem within_below {α : Type} {node : (Node → Except Fault α) → Node → Except Fault α}
    {within : Nat → Node → Except Fault α} (hZero : ∀ n, within 0 n = .error .tooDeep)
    (hSucc : ∀ height n, within (height + 1) n = node (within height) n)
    (hNode : ∀ {text text' : Node → Except Fault α}, (∀ n, Below (text n) (text' n)) →
      ∀ n, Below (node text n) (node text' n))
    {height height' : Nat} (hHeight : height ≤ height') (n : Node) :
    Below (within height n) (within height' n) := by
  induction height generalizing height' n with
  | zero => exact Or.inl (hZero n)
  | succ height ih =>
    obtain ⟨k, rfl⟩ := Nat.exists_eq_add_of_le' hHeight
    rw [← Nat.add_assoc, hSucc, hSucc]
    exact hNode (fun m => ih (Nat.le_add_left height k) m) n

end Render

namespace Format

open Render (Below)

/-- **A larger bound on the height changes nothing** but writings that the smaller one stopped. -/
theorem writeWithin_below (format : Format) {height height' : Nat} (hHeight : height ≤ height')
    (n : Node) : Below (format.writeWithin height n) (format.writeWithin height' n) := by
  cases format with
  | parenthesised =>
    show Below (Render.parenthesised height n) (Render.parenthesised height' n)
    exact Render.within_below (fun _ => rfl) (fun _ _ => rfl) Render.parenthesisedNode_below hHeight n
  | tagged =>
    show Below (Render.tagged height n) (Render.tagged height' n)
    exact Render.within_below (fun _ => rfl) (fun _ _ => rfl) Render.taggedNode_below hHeight n
  | document =>
    have hDocument : Below (Render.document height n) (Render.document height' n) :=
      Render.within_below (fun _ => rfl) (fun _ _ => rfl) Render.documentNode_below hHeight n
    exact hDocument.map _

theorem renderWithin_below (format : Format) {height height' : Nat} (hHeight : height ≤ height')
    (trees : List Node) :
    Below (format.renderWithin height trees) (format.renderWithin height' trees) :=
  (Below.mapM (format.writeWithin_below hHeight) trees).map _

/-- **Trees that are not too deep under either of two bounds are written alike.** -/
theorem renderWithin_eq (format : Format) {height height' : Nat} {trees : List Node}
    (h : format.renderWithin height trees ≠ .error .tooDeep)
    (h' : format.renderWithin height' trees ≠ .error .tooDeep) :
    format.renderWithin height trees = format.renderWithin height' trees := by
  rcases Nat.le_total height height' with hHeight | hHeight
  · exact ((format.renderWithin_below hHeight trees).resolve_left h).symm
  · exact (format.renderWithin_below hHeight trees).resolve_left h'

end Format

end Reckoner
