import Reckoner.Proofs.Grammar.Derivation

/-!
# What prefix units attach

A prefix unit before a number is applied to it, and any other identifier before a number is called
with it. `AlikeUnder units units' n m` says that `n` and `m` are the trees that two lists of prefix
units make of the same tokens: they differ in nothing but the kind of a juxtaposition whose left side
is an identifier that belongs to exactly one of the lists and whose right side is a number.

None of the tests on shapes tells such trees apart, and the constructors of nodes keep them alike. So
no decision of the grammar can depend on which of the two kinds was chosen.
-/

namespace Reckoner

/-- The kinds of nodes that juxtaposition makes. -/
def Kind.isJuxtaposition : Kind → Bool
  | .apply | .call | .product => true
  | _ => false

namespace Grammar

-- ---------------------------------------------------------------------------
-- Trees alike
-- ---------------------------------------------------------------------------

/-- Whether an identifier that is a prefix unit for exactly one of two lists stands before a
number. -/
def isAttachedByOne (units units' : List String) : List Node → Bool
  | [l, r] => r.isNumber && isPrefixUnit units l != isPrefixUnit units' l
  | _ => false

/-- The kind of the juxtaposition of an identifier and a number. -/
def attachedKind (units : List String) : List Node → Kind
  | l :: _ => if isPrefixUnit units l then .apply else .call
  | [] => .call

/-- The kinds that two lists of prefix units give to a node with these children. -/
def KindsUnder (units units' : List String) (cs : List Node) (k k' : Kind) : Prop :=
  if k.isJuxtaposition && isAttachedByOne units units' cs then
    k = attachedKind units cs ∧ k' = attachedKind units' cs
  else k' = k

mutual

/-- The same tree but for what prefix units attach. -/
def AlikeUnder (units units' : List String) : Node → Node → Prop
  | .mk k v t p cs, .mk k' v' t' p' cs' =>
    (v' = v ∧ t' = t ∧ p' = p ∧ KindsUnder units units' cs k k') ∧ AllAlikeUnder units units' cs cs'

/-- The same trees but for what prefix units attach. -/
def AllAlikeUnder (units units' : List String) : List Node → List Node → Prop
  | [], [] => True
  | n :: ns, m :: ms => AlikeUnder units units' n m ∧ AllAlikeUnder units units' ns ms
  | _, _ => False

end

variable {units units' : List String} {n m l l' r r' : Node}

-- ---------------------------------------------------------------------------
-- One list of units
-- ---------------------------------------------------------------------------

theorem isAttachedByOne_self (units : List String) (cs : List Node) :
    isAttachedByOne units units cs = false := by
  unfold isAttachedByOne
  split <;> simp

mutual

/-- One list of units makes one tree. -/
theorem eq_of_alikeUnder (units : List String) :
    (n m : Node) → AlikeUnder units units n m → n = m
  | .mk k v t p cs, .mk k' v' t' p' cs', h => by
    obtain ⟨⟨rfl, rfl, rfl, hKinds⟩, hChildren⟩ := h
    unfold KindsUnder at hKinds
    rw [isAttachedByOne_self, Bool.and_false, if_neg (by simp)] at hKinds
    rw [hKinds, eq_of_allAlikeUnder units cs cs' hChildren]

theorem eq_of_allAlikeUnder (units : List String) :
    (ns ms : List Node) → AllAlikeUnder units units ns ms → ns = ms
  | [], [], _ => rfl
  | n :: ns, m :: ms, h => by
    rw [eq_of_alikeUnder units n m h.1, eq_of_allAlikeUnder units ns ms h.2]
  | [], _ :: _, h => h.elim
  | _ :: _, [], h => h.elim

end

-- ---------------------------------------------------------------------------
-- Building nodes
-- ---------------------------------------------------------------------------

/-- A node that is no juxtaposition is alike when its children are. -/
theorem AlikeUnder.mk {k : Kind} (hk : k.isJuxtaposition = false) (v : Payload) (t : Option String)
    (p : Place) {cs cs' : List Node} (h : AllAlikeUnder units units' cs cs') :
    AlikeUnder units units' (.mk k v t p cs) (.mk k v t p cs') := by
  refine ⟨⟨rfl, rfl, rfl, ?_⟩, h⟩
  unfold KindsUnder
  rw [hk, Bool.false_and, if_neg (by simp)]

theorem AlikeUnder.leaf {k : Kind} (hk : k.isJuxtaposition = false) (v : Payload)
    (t : Option String) (p : Place) :
    AlikeUnder units units' (.mk k v t p []) (.mk k v t p []) :=
  .mk hk v t p trivial

-- ---------------------------------------------------------------------------
-- Looking at nodes
-- ---------------------------------------------------------------------------

theorem AlikeUnder.value_eq (h : AlikeUnder units units' n m) : m.value = n.value := by
  cases n; cases m
  exact h.1.1

theorem AlikeUnder.type_eq (h : AlikeUnder units units' n m) : m.type = n.type := by
  cases n; cases m
  exact h.1.2.1

theorem AlikeUnder.place_eq (h : AlikeUnder units units' n m) : m.place = n.place := by
  cases n; cases m
  exact h.1.2.2.1

theorem AlikeUnder.children (h : AlikeUnder units units' n m) :
    AllAlikeUnder units units' n.children m.children := by
  cases n; cases m
  exact h.2

/-- Kinds that differ are `apply` and `call`. -/
theorem AlikeUnder.kind_eq (h : AlikeUnder units units' n m) :
    m.kind = n.kind ∨
      (n.kind = .apply ∨ n.kind = .call) ∧ (m.kind = .apply ∨ m.kind = .call) := by
  cases n with | mk k v t p cs =>
  cases m with | mk k' v' t' p' cs' =>
  have hKinds := h.1.2.2.2
  unfold KindsUnder at hKinds
  split at hKinds
  · rename_i hOne
    refine Or.inr ?_
    simp only [Node.kind_mk]
    rw [hKinds.1, hKinds.2]
    unfold attachedKind
    split <;> grind
  · exact Or.inl hKinds

/-- No other kind differs. -/
theorem AlikeUnder.kind_iff (h : AlikeUnder units units' n m) {k : Kind} (hApply : k ≠ .apply)
    (hCall : k ≠ .call) : m.kind = k ↔ n.kind = k := by
  rcases h.kind_eq with hSame | ⟨hn, hm⟩
  · rw [hSame]
  · grind

theorem AlikeUnder.isNumber_eq (h : AlikeUnder units units' n m) : m.isNumber = n.isNumber := by
  have hKind := h.kind_iff (k := .literal) (by decide) (by decide)
  simp [Node.isNumber, hKind, h.type_eq]

theorem AlikeUnder.isBinary_eq (h : AlikeUnder units units' n m) (op : Operator) :
    m.isBinary op = n.isBinary op := by
  have hKind := h.kind_iff (k := .binary) (by decide) (by decide)
  simp [Node.isBinary, hKind, h.value_eq]

theorem AlikeUnder.isPrefixUnit_eq (h : AlikeUnder units units' n m) (us : List String) :
    isPrefixUnit us m = isPrefixUnit us n := by
  have hKind := h.kind_iff (k := .identifier) (by decide) (by decide)
  simp [isPrefixUnit, hKind, h.value_eq]

theorem AlikeUnder.isQuantityPart_eq (h : AlikeUnder units units' n m) :
    isQuantityPart m = isQuantityPart n := by
  have hProduct := h.kind_iff (k := .product) (by decide) (by decide)
  have hLiteral := h.kind_iff (k := .literal) (by decide) (by decide)
  simp [isQuantityPart, hProduct, hLiteral, h.isBinary_eq]

/-- The first children of two trees alike are missing in both or alike. -/
theorem AlikeUnder.child_zero (h : AlikeUnder units units' n m) :
    (n.child 0 = .error .noChild ∧ m.child 0 = .error .noChild) ∨
      ∃ c c', n.child 0 = .ok c ∧ m.child 0 = .ok c' ∧ AlikeUnder units units' c c' := by
  have hChildren := h.children
  unfold Node.child
  cases hn : n.children with
  | nil =>
    cases hm : m.children with
    | nil => exact Or.inl ⟨rfl, rfl⟩
    | cons c' cs' => simp [hn, hm, AllAlikeUnder] at hChildren
  | cons c cs =>
    cases hm : m.children with
    | nil => simp [hn, hm, AllAlikeUnder] at hChildren
    | cons c' cs' =>
      rw [hn, hm] at hChildren
      exact Or.inr ⟨c, c', rfl, rfl, hChildren.1⟩

theorem AlikeUnder.child_isNumber_eq (h : AlikeUnder units units' n m) :
    (do return (← m.child 0).isNumber : Except Node.ShapeFault Bool) =
      do return (← n.child 0).isNumber := by
  rcases h.child_zero with ⟨hn, hm⟩ | ⟨c, c', hn, hm, hc⟩
  · rw [hn, hm]
  · rw [hn, hm]
    exact congrArg Except.ok hc.isNumber_eq

theorem AlikeUnder.isNegatedNumber_eq (h : AlikeUnder units units' n m) :
    m.isNegatedNumber = n.isNegatedNumber := by
  have hKind := h.kind_iff (k := .negation) (by decide) (by decide)
  unfold Node.isNegatedNumber
  rw [h.child_isNumber_eq]
  simp only [hKind]

theorem AlikeUnder.isPowerOfNumber_eq (h : AlikeUnder units units' n m) :
    isPowerOfNumber m = isPowerOfNumber n := by
  unfold isPowerOfNumber
  rw [h.isBinary_eq, h.child_isNumber_eq]

/-- The two children of two trees alike are missing in both, in the same way, or alike. -/
theorem AlikeUnder.twoChildren (h : AlikeUnder units units' n m) :
    (∃ fault, n.twoChildren = .error fault ∧ m.twoChildren = .error fault) ∨
      ∃ a b a' b', n.twoChildren = .ok (a, b) ∧ m.twoChildren = .ok (a', b') ∧
        AlikeUnder units units' a a' ∧ AlikeUnder units units' b b' := by
  have hChildren := h.children
  unfold Node.twoChildren
  generalize n.children = cs at hChildren
  generalize m.children = cs' at hChildren
  match cs, cs', hChildren with
  | [], [], _ => exact Or.inl ⟨_, rfl, rfl⟩
  | [_], [_], _ => exact Or.inl ⟨_, rfl, rfl⟩
  | [a, b], [a', b'], h => exact Or.inr ⟨a, b, a', b', rfl, rfl, h.1, h.2.1⟩
  | _ :: _ :: _ :: _, _ :: _ :: _ :: _, _ => exact Or.inl ⟨_, rfl, rfl⟩
  | [], _ :: _, h => exact h.elim
  | _ :: _, [], h => exact h.elim
  | [_], _ :: _ :: _, h => exact h.2.elim
  | _ :: _ :: _, [_], h => exact h.2.elim
  | [_, _], _ :: _ :: _ :: _, h => exact h.2.2.elim
  | _ :: _ :: _ :: _, [_, _], h => exact h.2.2.elim

/-- The parts of a mixed fraction are looked for in the same way. -/
theorem AlikeUnder.wholePart (h : AlikeUnder units units' n m) :
    (∃ fault, Grammar.wholePart n = .error fault ∧ Grammar.wholePart m = .error fault) ∨
      ∃ a b, Grammar.wholePart n = .ok a ∧ Grammar.wholePart m = .ok b ∧
        Option.Rel (AlikeUnder units units') a.1 b.1 ∧ AlikeUnder units units' a.2 b.2 := by
  unfold Grammar.wholePart
  rw [h.isBinary_eq]
  split
  · rcases h.twoChildren with ⟨fault, hn, hm⟩ | ⟨a, b, a', b', hn, hm, ha, hb⟩
    · rw [hn, hm]
      exact Or.inl ⟨fault, rfl, rfl⟩
    · rw [hn, hm]
      exact Or.inr ⟨_, _, rfl, rfl, .some ha, hb⟩
  · exact Or.inr ⟨_, _, rfl, rfl, .none, h⟩

-- ---------------------------------------------------------------------------
-- The nodes of the grammar
-- ---------------------------------------------------------------------------

theorem AlikeUnder.wrap {k : Kind} (hk : k.isJuxtaposition = false) (h : AlikeUnder units units' n m)
    (p : Place) : AlikeUnder units units' (.wrap k n p) (.wrap k m p) := by
  unfold Node.wrap
  rw [h.place_eq]
  exact .mk hk _ _ _ ⟨h, trivial⟩

theorem AlikeUnder.named {k : Kind} (hk : k.isJuxtaposition = false) (v : Payload)
    (h : AlikeUnder units units' n m) (p : Place) :
    AlikeUnder units units' (.named k v n p) (.named k v m p) :=
  .mk hk _ _ _ ⟨h, trivial⟩

theorem AlikeUnder.pair {k k' : Kind} (hl : AlikeUnder units units' l l')
    (hr : AlikeUnder units units' r r') (hk : KindsUnder units units' [l, r] k k') :
    AlikeUnder units units' (.pair k l r) (.pair k' l' r') :=
  ⟨⟨rfl, rfl, hl.place_eq, hk⟩, hl, hr, trivial⟩

theorem AlikeUnder.pair_same {k : Kind} (hk : k.isJuxtaposition = false)
    (hl : AlikeUnder units units' l l') (hr : AlikeUnder units units' r r') :
    AlikeUnder units units' (.pair k l r) (.pair k l' r') := by
  unfold Node.pair
  rw [hl.place_eq]
  exact .mk hk _ _ _ ⟨hl, hr, trivial⟩

theorem AlikeUnder.binary (op : Operator) (hl : AlikeUnder units units' l l')
    (hr : AlikeUnder units units' r r') :
    AlikeUnder units units' (.binary op l r) (.binary op l' r') := by
  unfold Node.binary
  rw [hl.place_eq]
  exact .mk rfl _ _ _ ⟨hl, hr, trivial⟩

-- ---------------------------------------------------------------------------
-- Juxtaposition
-- ---------------------------------------------------------------------------

/-- A right side that is no number leaves nothing to a prefix unit. -/
theorem kindsUnder_of_not_number (k : Kind) (hr : r.isNumber = false) :
    KindsUnder units units' [l, r] k k := by
  unfold KindsUnder isAttachedByOne
  simp [hr]

/-- Before a number, each list of units chooses between `apply` and `call`. -/
theorem kindsUnder_of_number (l : Node) (hr : r.isNumber = true) :
    KindsUnder units units' [l, r] (if isPrefixUnit units l then .apply else .call)
      (if isPrefixUnit units' l then .apply else .call) := by
  have hJuxtaposition :
      (if isPrefixUnit units l then Kind.apply else Kind.call).isJuxtaposition = true := by
    split <;> rfl
  unfold KindsUnder
  rw [hJuxtaposition, Bool.true_and]
  split
  · exact ⟨rfl, rfl⟩
  · rename_i hNot
    have hSame : isPrefixUnit units l = isPrefixUnit units' l := by
      simpa [isAttachedByOne, hr] using hNot
    rw [hSame]

/-- The table asks only what does not tell two trees alike apart. -/
theorem AlikeUnder.juxtapositionKind_same (hl : AlikeUnder units units' l l')
    (hr : AlikeUnder units units' r r') (us : List String) :
    juxtapositionKind us l' r' = juxtapositionKind us l r := by
  have hProduct := hl.kind_iff (k := .product) (by decide) (by decide)
  unfold juxtapositionKind isLikeNumber
  rw [hl.isNumber_eq, hl.isNegatedNumber_eq, hr.isNumber_eq, hr.isPowerOfNumber_eq,
    hl.isPrefixUnit_eq]
  simp only [hProduct]

/-- **The table of juxtaposition decides alike** for two lists of units: it takes the same sides, and
the nodes that it makes of them are alike. -/
theorem AlikeUnder.juxtaposed (hl : AlikeUnder units units' l l')
    (hr : AlikeUnder units units' r r') :
    (∃ fault, juxtapositionKind units l r = .error fault ∧
        juxtapositionKind units' l' r' = .error fault) ∨
      ∃ a b, juxtapositionKind units l r = .ok a ∧ juxtapositionKind units' l' r' = .ok b ∧
        Option.Rel (fun k k' => AlikeUnder units units' (.pair k l r) (.pair k' l' r')) a b := by
  rw [hl.juxtapositionKind_same hr]
  cases hNegated : l.isNegatedNumber with
  | error fault =>
    refine Or.inl ⟨fault, ?_⟩
    unfold juxtapositionKind isLikeNumber
    rw [hNegated]
    exact ⟨rfl, rfl⟩
  | ok negated =>
    cases hPower : isPowerOfNumber r with
    | error fault =>
      refine Or.inl ⟨fault, ?_⟩
      unfold juxtapositionKind isLikeNumber
      rw [hNegated, hPower]
      exact ⟨rfl, rfl⟩
    | ok power =>
      refine Or.inr ⟨_, _, juxtapositionKind_eq units hNegated hPower,
        juxtapositionKind_eq units' hNegated hPower, ?_⟩
      split
      · exact .none
      · by_cases hNumber : r.isNumber = true
        · rw [if_pos hNumber, if_pos hNumber]
          exact .some (hl.pair hr (kindsUnder_of_number l hNumber))
        · rw [if_neg hNumber, if_neg hNumber]
          exact .some (hl.pair hr (kindsUnder_of_not_number _ (by simpa using hNumber)))

end Grammar

end Reckoner
