import Reckoner.Node.Views

/-!
# Shapes of built nodes

What the tests on shapes say about the nodes that the constructors build, so that nobody else
unfolds either of them. No test looks at places. A tree that is put together by these constructors
alone (`Formed`) lacks no child that a test asks for.
-/

namespace Reckoner

theorem Operator.name_inj {op op' : Operator} : op.name = op'.name ↔ op = op' := by
  constructor
  · intro h
    have hName := Operator.ofName?_name op
    rw [h, Operator.ofName?_name] at hName
    exact (Option.some.inj hName).symm
  · exact congrArg Operator.name

namespace Node

variable (v : Payload) (x : String) (p : Place) (k : Kind) (op op' : Operator) (n m : Node)

-- ---------------------------------------------------------------------------
-- Kinds
-- ---------------------------------------------------------------------------

@[simp] theorem kind_number : (number v p).kind = .literal := rfl
@[simp] theorem kind_string : (string x p).kind = .literal := rfl
@[simp] theorem kind_unit : (unit p).kind = .literal := rfl
@[simp] theorem kind_ident : (ident x p).kind = .identifier := rfl
@[simp] theorem kind_pair : (pair k n m).kind = k := rfl
@[simp] theorem kind_binary : (binary op n m).kind = .binary := rfl
@[simp] theorem kind_wrap : (wrap k n p).kind = k := rfl
@[simp] theorem kind_named : (named k v n p).kind = k := rfl

@[simp] theorem children_number : (number v p).children = [] := rfl
@[simp] theorem children_string : (string x p).children = [] := rfl
@[simp] theorem children_unit : (unit p).children = [] := rfl
@[simp] theorem children_ident : (ident x p).children = [] := rfl
@[simp] theorem children_binary : (binary op n m).children = [n, m] := rfl
@[simp] theorem children_wrap : (wrap k n p).children = [n] := rfl
@[simp] theorem children_pair : (pair k n m).children = [n, m] := rfl
@[simp] theorem children_named : (named k v n p).children = [n] := rfl

@[simp] theorem value_number : (number v p).value = v := rfl
@[simp] theorem value_string : (string x p).value = .text x := rfl
@[simp] theorem value_unit : (unit p).value = .absent := rfl
@[simp] theorem value_ident : (ident x p).value = .text x := rfl
@[simp] theorem value_named : (named k v n p).value = v := rfl
@[simp] theorem value_wrap : (wrap k n p).value = .absent := rfl
@[simp] theorem value_pair : (pair k n m).value = .absent := rfl
@[simp] theorem value_binary : (binary op n m).value = .text op.name := rfl

-- ---------------------------------------------------------------------------
-- Numbers
-- ---------------------------------------------------------------------------

@[simp] theorem isNumber_number : (number v p).isNumber = true := rfl
@[simp] theorem isNumber_string : (string x p).isNumber = false := rfl
@[simp] theorem isNumber_unit : (unit p).isNumber = false := rfl

variable {k op n m}

theorem isNumber_of_kind_ne (h : n.kind ≠ .literal) : n.isNumber = false := by
  simp [isNumber, h]

theorem kind_of_isNumber (h : n.isNumber = true) : n.kind = .literal := by
  by_cases hk : n.kind = .literal
  · exact hk
  · rw [isNumber_of_kind_ne hk] at h
    cases h

@[simp] theorem isNegatedNumber_wrap : (wrap .negation n p).isNegatedNumber = .ok n.isNumber := rfl

theorem isNegatedNumber_of_kind_ne (h : n.kind ≠ .negation) : n.isNegatedNumber = .ok false := by
  unfold isNegatedNumber
  rw [if_neg h]
  rfl

theorem kind_of_isNegatedNumber (h : n.isNegatedNumber = .ok true) : n.kind = .negation := by
  by_cases hk : n.kind = .negation
  · exact hk
  · rw [isNegatedNumber_of_kind_ne hk] at h
    cases h

-- ---------------------------------------------------------------------------
-- Operators
-- ---------------------------------------------------------------------------

@[simp] theorem isBinary_binary : (binary op n m).isBinary op' = decide (op = op') := by
  simp [isBinary, binary, Payload.text, Payload.text?, Operator.name_inj]

theorem isBinary_of_kind_ne (h : n.kind ≠ .binary) : n.isBinary op = false := by
  simp [isBinary, h]

@[simp] theorem isBinary_number : (number v p).isBinary op = false := rfl
@[simp] theorem isBinary_string : (string x p).isBinary op = false := rfl
@[simp] theorem isBinary_unit : (unit p).isBinary op = false := rfl
@[simp] theorem isBinary_ident : (ident x p).isBinary op = false := rfl

@[simp] theorem isBinary_wrap : (wrap k n p).isBinary op = false := by
  simp [isBinary, wrap, Payload.text?, Payload.absent]

@[simp] theorem isBinary_pair : (pair k n m).isBinary op = false := by
  simp [isBinary, pair, Payload.text?, Payload.absent]

@[simp] theorem isBinary_named (h : k ≠ .binary) : (named k v n p).isBinary op = false :=
  isBinary_of_kind_ne h

@[simp] theorem child_binary : (binary op n m).child 0 = .ok n := rfl

@[simp] theorem twoChildren_binary : (binary op n m).twoChildren = .ok (n, m) := rfl

-- ---------------------------------------------------------------------------
-- Places
-- ---------------------------------------------------------------------------

@[simp] theorem kind_withoutPlaces (n : Node) : n.withoutPlaces.kind = n.kind := by
  cases n
  rfl

@[simp] theorem value_withoutPlaces (n : Node) : n.withoutPlaces.value = n.value := by
  cases n
  rfl

@[simp] theorem type_withoutPlaces (n : Node) : n.withoutPlaces.type = n.type := by
  cases n
  rfl

@[simp] theorem children_withoutPlaces (n : Node) :
    n.withoutPlaces.children = n.children.map withoutPlaces := by
  cases n
  exact allWithoutPlaces_eq_map _

@[simp] theorem isNumber_withoutPlaces (n : Node) : n.withoutPlaces.isNumber = n.isNumber := by
  simp [isNumber]

@[simp] theorem isBinary_withoutPlaces (n : Node) (op : Operator) :
    n.withoutPlaces.isBinary op = n.isBinary op := by
  simp [isBinary]

theorem child_withoutPlaces (n : Node) (i : Nat) :
    n.withoutPlaces.child i = (n.child i).map withoutPlaces := by
  unfold child
  rw [children_withoutPlaces, List.getElem?_map]
  cases n.children[i]? <;> rfl

theorem twoChildren_withoutPlaces (n : Node) :
    n.withoutPlaces.twoChildren = n.twoChildren.map (Prod.map withoutPlaces withoutPlaces) := by
  unfold twoChildren
  rw [children_withoutPlaces]
  rcases n.children with _ | ⟨a, _ | ⟨b, _ | ⟨c, more⟩⟩⟩ <;> rfl

@[simp] theorem isNegatedNumber_withoutPlaces (n : Node) :
    n.withoutPlaces.isNegatedNumber = n.isNegatedNumber := by
  unfold isNegatedNumber
  rw [kind_withoutPlaces, child_withoutPlaces]
  cases n.child 0 with
  | error fault => rfl
  | ok c =>
    show (if _ then Except.ok c.withoutPlaces.isNumber else _) = _
    rw [isNumber_withoutPlaces]
    rfl

-- ---------------------------------------------------------------------------
-- Formed trees
-- ---------------------------------------------------------------------------

/-- A tree whose nodes have the children of their kind. -/
inductive Formed : Node → Prop where
  | number (v : Payload) (p : Place) : Formed (.number v p)
  | string (x : String) (p : Place) : Formed (.string x p)
  | unit (p : Place) : Formed (.unit p)
  | ident (x : String) (p : Place) : Formed (.ident x p)
  | named {k : Kind} {n : Node} (hk : k ∈ [.member, .function, .assignment]) (v : Payload)
      (p : Place) (h : Formed n) : Formed (.named k v n p)
  | wrap {k : Kind} {n : Node} (hk : k ∈ [.parens, .negation, .positive, .reciprocal, .factorial])
      (p : Place) (h : Formed n) : Formed (.wrap k n p)
  | pair {k : Kind} {n m : Node} (hk : k ∈ [.apply, .call, .product, .conversion, .statements])
      (h : Formed n) (h' : Formed m) : Formed (.pair k n m)
  | binary (op : Operator) {n m : Node} (h : Formed n) (h' : Formed m) : Formed (.binary op n m)

namespace Formed

theorem child {c : Node} (h : Formed n) (hc : c ∈ n.children) : Formed c := by
  cases h with
  | number _ _ => cases hc
  | string _ _ => cases hc
  | unit _ => cases hc
  | ident _ _ => cases hc
  | named _ _ _ h => exact List.mem_singleton.mp hc ▸ h
  | wrap _ _ h => exact List.mem_singleton.mp hc ▸ h
  | pair _ h h' =>
    rcases (by simpa using hc : c = _ ∨ c = _) with rfl | rfl
    · exact h
    · exact h'
  | binary _ h h' =>
    rcases (by simpa using hc : c = _ ∨ c = _) with rfl | rfl
    · exact h
    · exact h'

/-- A formed tree can be asked whether it is a negated number. -/
theorem isNegatedNumber_ok (h : Formed n) : ∃ b, n.isNegatedNumber = .ok b := by
  cases h with
  | @wrap k n _ p _ =>
    by_cases hk : k = .negation
    · subst hk
      exact ⟨_, isNegatedNumber_wrap p⟩
    · exact ⟨false, isNegatedNumber_of_kind_ne hk⟩
  | named hk _ _ _ =>
    refine ⟨false, isNegatedNumber_of_kind_ne ?_⟩
    rintro rfl
    simp at hk
  | pair hk _ _ =>
    refine ⟨false, isNegatedNumber_of_kind_ne ?_⟩
    rintro rfl
    simp at hk
  | _ => exact ⟨false, isNegatedNumber_of_kind_ne (by simp)⟩

/-- An operation in a formed tree has two operands. -/
theorem eq_binary (h : Formed n) (hn : n.isBinary op = true) :
    ∃ l r, n = .binary op l r ∧ Formed l ∧ Formed r := by
  cases h with
  | @binary op' l r h h' =>
    obtain rfl : op' = op := by simpa using hn
    exact ⟨l, r, rfl, h, h'⟩
  | @named k _ hk _ _ _ =>
    have hKind : k ≠ .binary := by
      rintro rfl
      simp at hk
    rw [isBinary_of_kind_ne (by simpa using hKind)] at hn
    cases hn
  | _ => simp at hn

end Formed

end Node

end Reckoner
