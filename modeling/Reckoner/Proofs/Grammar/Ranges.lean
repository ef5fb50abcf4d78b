import Reckoner.Proofs.Grammar.Empties
import Reckoner.Proofs.Grammar.Inventory
import Reckoner.Proofs.Grammar.Soundness

/-!
# Every node points at its own text

Each node of a parsed tree can be given a range of the tokens, and its place is the place of the first
token of that range (`Spans`). A leaf has its own token. A node that is opened by tokens of its own
starts with all of them in front of its child (`Heads`): a parenthesis, a sign, or a name in its whole
notation, so that a function in backslash notation starts at the backslash and one in arrow notation at
its name. Every other node starts where its first child does. The ranges of children lie in the range of
their parent, one after the other. An empty list of statements is the one thing without a place: it is
the whole tree, or the child of the last parenthesis that opens, behind which no statement stands.

Indices count all tokens, blanks and end marks included, and the derivation of a tree knows nothing of
them. So the tokens of a derivation are laid over a stretch of the whole sequence (`Occurs`), which is
divided as the derivation is; each rule then finds its node in the stretch of its tokens.

## Results

* `Spans.bounds`, `Spans.place` — a range is not empty, and its first token is where the node stands.
* `Spans.nodes`            — all nodes of a tree with a range have ranges within it.
* `Derives.found`          — what is derived from tokens is found in each stretch that has them.
* `parseWithin_spans`      — each node of a parsed tree has a range, in which it stands first, unless it
  is an empty list of statements where nothing is left.
-/

namespace Reckoner

namespace Grammar

open Cursor (solid)

variable {tokens : List Token}

-- ---------------------------------------------------------------------------
-- Stretches
-- ---------------------------------------------------------------------------

/-- Whether a token leaves nothing in a tree when it stands between statements. -/
def isIdle (t : Token) : Bool :=
  t.isBlank || t.isFinish || t.isSymbol .semicolon

/-- From index `i` up to index `j` there are only blanks, end marks and separators. -/
def AllIdle (tokens : List Token) (i j : Nat) : Prop :=
  ∀ k t, i ≤ k → k < j → tokens[k]? = some t → isIdle t = true

theorem lt_of_getElem? {i : Nat} {t : Token} (h : tokens[i]? = some t) : i < tokens.length :=
  (List.getElem?_eq_some_iff.mp h).1

/-- From index `i` up to index `j` the tokens `used` stand in their order, with nothing between them but
blanks and end marks. -/
inductive Occurs (tokens : List Token) : Nat → Nat → List Token → Prop
  | nil {i : Nat} (inside : i ≤ tokens.length) : Occurs tokens i i []
  | skip {i j : Nat} {t : Token} {used : List Token} (here : tokens[i]? = some t)
      (leftOut : (t.isBlank || t.isFinish) = true) (more : Occurs tokens (i + 1) j used) :
      Occurs tokens i j used
  | take {i j : Nat} {t : Token} {used : List Token} (here : tokens[i]? = some t)
      (more : Occurs tokens (i + 1) j used) : Occurs tokens i j (t :: used)

namespace Occurs

variable {i j : Nat} {t : Token} {used used' : List Token}

theorem le (h : Occurs tokens i j used) : i ≤ j ∧ j ≤ tokens.length := by
  induction h with
  | nil inside => exact ⟨Nat.le_refl _, inside⟩
  | skip here leftOut more ih => omega
  | take here more ih => omega

/-- A stretch of tokens is divided as they are. -/
theorem split (h : Occurs tokens i j (used ++ used')) :
    ∃ m, Occurs tokens i m used ∧ Occurs tokens m j used' := by
  generalize hAll : used ++ used' = all at h
  induction h generalizing used with
  | nil inside =>
    obtain ⟨rfl, rfl⟩ := List.append_eq_nil_iff.mp hAll
    exact ⟨_, .nil inside, .nil inside⟩
  | skip here leftOut more ih =>
    obtain ⟨m, hLeft, hRight⟩ := ih hAll
    exact ⟨m, .skip here leftOut hLeft, hRight⟩
  | take here more ih =>
    rename_i i j t all
    cases used with
    | nil =>
      have hAll : used' = t :: all := hAll
      rw [hAll]
      exact ⟨i, .nil (Nat.le_of_lt (lt_of_getElem? here)), .take here more⟩
    | cons u used =>
      obtain ⟨rfl, hRest⟩ := List.cons.inj hAll
      obtain ⟨m, hLeft, hRight⟩ := ih hRest
      exact ⟨m, .take here hLeft, hRight⟩

/-- The first token of a stretch is at some index of it, and the others come later. -/
theorem first (h : Occurs tokens i j (t :: used)) :
    ∃ k, i ≤ k ∧ tokens[k]? = some t ∧ Occurs tokens (k + 1) j used := by
  generalize hAll : t :: used = all at h
  induction h with
  | nil inside => cases hAll
  | skip here leftOut more ih =>
    obtain ⟨k, hAfter, hHere, hMore⟩ := ih hAll
    exact ⟨k, by omega, hHere, hMore⟩
  | take here more ih =>
    obtain ⟨rfl, rfl⟩ := List.cons.inj hAll
    exact ⟨_, Nat.le_refl _, here, more⟩

/-- A stretch that ends with a token is a stretch up to an index with that token. -/
theorem last (h : Occurs tokens i j (used ++ [t])) :
    ∃ m k, Occurs tokens i m used ∧ m ≤ k ∧ k < j ∧ tokens[k]? = some t := by
  obtain ⟨m, hUsed, hLast⟩ := h.split
  obtain ⟨k, hAfter, hHere, hMore⟩ := hLast.first
  have hEnd := hMore.le
  exact ⟨m, k, hUsed, hAfter, by omega, hHere⟩

/-- A stretch of separators is idle. -/
theorem allIdle {ps : List Place} (h : Occurs tokens i j (separators ps)) : AllIdle tokens i j := by
  generalize hAll : separators ps = all at h
  induction h generalizing ps with
  | nil inside =>
    intro k t hFrom hTo
    omega
  | skip here leftOut more ih =>
    intro k t hFrom hTo hAt
    rcases Nat.eq_or_lt_of_le hFrom with rfl | hLater
    · obtain rfl := Option.some.inj (here.symm.trans hAt)
      rw [isIdle, leftOut, Bool.true_or]
    · exact ih hAll k t hLater hTo hAt
  | take here more ih =>
    cases ps with
    | nil => cases hAll
    | cons p ps =>
      obtain ⟨rfl, hRest⟩ := List.cons.inj hAll
      intro k t hFrom hTo hAt
      rcases Nat.eq_or_lt_of_le hFrom with rfl | hLater
      · obtain rfl := Option.some.inj (here.symm.trans hAt)
        rfl
      · exact ih hRest k t hLater hTo hAt

end Occurs

/-- The tokens that are parsed occur in all the tokens. -/
theorem occurs_significant (tokens : List Token) :
    Occurs tokens 0 tokens.length (solid (significant tokens)) := by
  suffices h : ∀ before after, tokens = before ++ after →
      Occurs tokens before.length tokens.length (solid (significant after)) from h [] tokens rfl
  intro before after
  induction after generalizing before with
  | nil =>
    rintro rfl
    rw [List.append_nil]
    exact .nil (Nat.le_refl _)
  | cons t after ih =>
    intro hSplit
    have hHere : tokens[before.length]? = some t := by
      rw [hSplit, List.getElem?_append_right (Nat.le_refl _), Nat.sub_self]
      rfl
    have hMore := ih (before ++ [t]) (by rw [hSplit, List.append_assoc]; rfl)
    rw [List.length_append] at hMore
    cases hFinish : t.isFinish with
    | true =>
      have hSame : significant (t :: after) = significant after := by simp [significant, hFinish]
      rw [hSame]
      exact .skip hHere (by rw [hFinish, Bool.or_true]) hMore
    | false =>
      have hCons : significant (t :: after) = t :: significant after := by
        simp [significant, hFinish]
      rw [hCons]
      cases hBlank : t.isBlank with
      | true =>
        have hSame : solid (t :: significant after) = solid (significant after) := by
          simp [solid, hBlank]
        rw [hSame]
        exact .skip hHere (by rw [hBlank, Bool.true_or]) hMore
      | false =>
        have hTake : solid (t :: significant after) = t :: solid (significant after) := by
          simp [solid, hBlank]
        rw [hTake]
        exact .take hHere hMore

-- ---------------------------------------------------------------------------
-- Ranges
-- ---------------------------------------------------------------------------

/-- The tokens that open nodes of a kind and a name: a parenthesis, a sign, or the head of a notation
with the name in it. -/
inductive Heads : List Content → Kind → Payload → Prop
  | parens : Heads [.symbol .openParens] .parens .absent
  | sign {y : Symbol} {k : Kind} (sign : (y, k) ∈ prefixes) : Heads [.symbol y] k .absent
  | lambda (x : String) :
      Heads [.symbol .backslash, .ident x, .symbol .dot] .function (.text x)
  | arrow (x : String) : Heads [.ident x, .symbol .arrow] .function (.text x)
  | member (x : String) : Heads [.ident x, .symbol .of] .member (.text x)
  | assignment (x : String) : Heads [.ident x, .symbol .equals] .assignment (.text x)

/-- The kinds of nodes of two children. -/
def joiningKinds : List Kind :=
  [.apply, .call, .product, .binary, .statements, .conversion]

/-- The tokens from index `i` up to index `j` are a range for a tree: it stands at the first of them,
and so do its parts in ranges of their own. -/
inductive Spans (tokens : List Token) : Nat → Nat → Node → Prop
  | number {i : Nat} {v : Payload} {p : Place} (own : tokens[i]? = some ⟨.number v, p⟩) :
      Spans tokens i (i + 1) (.number v p)
  | string {i : Nat} {x : String} {p : Place} (own : tokens[i]? = some ⟨.string x, p⟩) :
      Spans tokens i (i + 1) (.string x p)
  | ident {i : Nat} {x : String} {p : Place} (own : tokens[i]? = some ⟨.ident x, p⟩) :
      Spans tokens i (i + 1) (.ident x p)
  | unit {i j : Nat} {p q : Place} (first : tokens[i]? = some ⟨.symbol .openParens, p⟩) (order : i < j)
      (last : tokens[j]? = some ⟨.symbol .closeParens, q⟩) : Spans tokens i (j + 1) (.unit p)
  /-- The other tokens of the head stand behind the first, and the child stands behind them all. -/
  | opened {i m i' j' j : Nat} {c : Content} {k : Kind} {x : Payload} {p : Place} {inner : Node}
      {more : List Token} (first : tokens[i]? = some ⟨c, p⟩) (others : Occurs tokens (i + 1) m more)
      (heads : Heads (c :: more.map Token.content) k x) (after : m ≤ i')
      (child : Spans tokens i' j' inner) (inside : j' ≤ j) (ends : j ≤ tokens.length) :
      Spans tokens i j (.mk k x none p [inner])
  /-- The child is an empty list of statements and has no place. -/
  | hollow {i j : Nat} {p : Place} (first : tokens[i]? = some ⟨.symbol .openParens, p⟩) (order : i < j)
      (ends : j ≤ tokens.length) : Spans tokens i j (.mk .parens .absent none p [.unit .unknown])
  | factorial {i j' j : Nat} {c : Content} {p q : Place} {inner : Node}
      (first : tokens[i]? = some ⟨c, p⟩) (child : Spans tokens i j' inner) (order : j' ≤ j)
      (last : tokens[j]? = some ⟨.symbol .factorial, q⟩) :
      Spans tokens i (j + 1) (.mk .factorial .absent none p [inner])
  | joined {i j' i' j : Nat} {c : Content} {k : Kind} {x : Payload} {p : Place} {lhs rhs : Node}
      (first : tokens[i]? = some ⟨c, p⟩) (joins : k ∈ joiningKinds) (left : Spans tokens i j' lhs)
      (order : j' ≤ i') (right : Spans tokens i' j rhs) :
      Spans tokens i j (.mk k x none p [lhs, rhs])

namespace Spans

variable {i j : Nat} {n : Node}

/-- A range holds a token and ends with the tokens. -/
theorem bounds (h : Spans tokens i j n) : i < j ∧ j ≤ tokens.length := by
  induction h with
  | number own => exact ⟨Nat.lt_succ_self _, lt_of_getElem? own⟩
  | string own => exact ⟨Nat.lt_succ_self _, lt_of_getElem? own⟩
  | ident own => exact ⟨Nat.lt_succ_self _, lt_of_getElem? own⟩
  | unit first order last =>
    have hLast := lt_of_getElem? last
    omega
  | opened first others heads after child inside ends ih =>
    have hOthers := others.le
    omega
  | hollow first order ends => exact ⟨order, ends⟩
  | factorial first child order last ih =>
    have hLast := lt_of_getElem? last
    omega
  | joined first joins left order right ihLeft ihRight => omega

/-- **A node stands at the first token of its range.** -/
theorem place (h : Spans tokens i j n) : ∃ c, tokens[i]? = some ⟨c, n.place⟩ := by
  cases h with
  | number own => exact ⟨_, own⟩
  | string own => exact ⟨_, own⟩
  | ident own => exact ⟨_, own⟩
  | unit first order last => exact ⟨_, first⟩
  | opened first others heads after child inside ends => exact ⟨_, first⟩
  | hollow first order ends => exact ⟨_, first⟩
  | factorial first child order last => exact ⟨_, first⟩
  | joined first joins left order right => exact ⟨_, first⟩

end Spans

/-- A node has a range of its own within the given one, or it is an empty list of statements. -/
def HasRange (tokens : List Token) (i j : Nat) (n : Node) : Prop :=
  n = .unit .unknown ∨ ∃ i' j', i ≤ i' ∧ j' ≤ j ∧ Spans tokens i' j' n

theorem HasRange.widen {i i' j' j : Nat} {n : Node} (h : HasRange tokens i' j' n) (hFrom : i ≤ i')
    (hTo : j' ≤ j) : HasRange tokens i j n := by
  rcases h with hEmpty | ⟨i'', j'', hFrom', hTo', hSpans⟩
  · exact Or.inl hEmpty
  · exact Or.inr ⟨i'', j'', by omega, by omega, hSpans⟩

namespace Spans

variable {i j : Nat} {n : Node}

theorem hasRange (h : Spans tokens i j n) : HasRange tokens i j n :=
  Or.inr ⟨i, j, Nat.le_refl _, Nat.le_refl _, h⟩

/-- **All nodes of a tree with a range have ranges within it.** -/
theorem nodes (h : Spans tokens i j n) : ∀ m ∈ n.nodes, HasRange tokens i j m := by
  have hSelf := h.hasRange
  induction h with
  | number own => exact List.forall_mem_singleton.mpr hSelf
  | string own => exact List.forall_mem_singleton.mpr hSelf
  | ident own => exact List.forall_mem_singleton.mpr hSelf
  | unit first order last => exact List.forall_mem_singleton.mpr hSelf
  | opened first others heads after child inside ends ih =>
    have hOthers := others.le
    rw [Node.nodes, Node.allNodes, Node.allNodes, List.append_nil]
    refine List.forall_mem_cons.mpr ⟨hSelf, fun m hm => ?_⟩
    exact (ih child.hasRange m hm).widen (by omega) inside
  | hollow first order ends =>
    exact List.forall_mem_cons.mpr ⟨hSelf, List.forall_mem_singleton.mpr (Or.inl rfl)⟩
  | factorial first child order last ih =>
    rw [Node.nodes, Node.allNodes, Node.allNodes, List.append_nil]
    refine List.forall_mem_cons.mpr ⟨hSelf, fun m hm => ?_⟩
    exact (ih child.hasRange m hm).widen (Nat.le_refl _) (Nat.le_succ_of_le order)
  | joined first joins left order right ihLeft ihRight =>
    have hLeft := left.bounds
    have hRight := right.bounds
    rw [Node.nodes, Node.allNodes, Node.allNodes, Node.allNodes, List.append_nil]
    refine List.forall_mem_cons.mpr ⟨hSelf, fun m hm => ?_⟩
    rcases List.mem_append.mp hm with hm | hm
    · exact (ihLeft left.hasRange m hm).widen (Nat.le_refl _) (by omega)
    · exact (ihRight right.hasRange m hm).widen (by omega) (Nat.le_refl _)

end Spans

-- ---------------------------------------------------------------------------
-- Derivations over stretches
-- ---------------------------------------------------------------------------

/-- Whether the line and the column of a place are known. -/
def IsKnown (p : Place) : Prop :=
  1 ≤ p.line ∧ 1 ≤ p.col

/-- A tree is found in a stretch of the tokens: it has a range there, or it is an empty list of
statements and nothing stands there. -/
inductive Found (tokens : List Token) (s : Stratum) (i j : Nat) (n : Node) : Prop
  | spans {i' j' : Nat} (start : i ≤ i') (stop : j' ≤ j) (spans : Spans tokens i' j' n)
  | nothing (list : s = .statements) (empty : n = .unit .unknown) (idle : AllIdle tokens i j)

/-- Only lists of statements can be empty. -/
theorem Found.exists_spans {s : Stratum} {i j : Nat} {n : Node} (h : Found tokens s i j n)
    (hs : s ≠ .statements) : ∃ i' j', i ≤ i' ∧ j' ≤ j ∧ Spans tokens i' j' n := by
  cases h with
  | spans start stop spans => exact ⟨_, _, start, stop, spans⟩
  | nothing list empty idle => exact absurd list hs

/-- What is found in a part of a stretch is found in the stretch. -/
theorem Found.of_part {s s' : Stratum} {i i' j' j : Nat} {n : Node} (h : Found tokens s i' j' n)
    (hs : s ≠ .statements) (hStart : i ≤ i') (hStop : j' ≤ j) : Found tokens s' i j n := by
  obtain ⟨i'', j'', hFrom, hTo, hSpans⟩ := h.exists_spans hs
  exact .spans (by omega) (by omega) hSpans

/-- A place that is known is not replaced. -/
theorem IsKnown.orElse {p : Place} (h : IsKnown p) (q : Place) : p.orElse q = p := by
  obtain ⟨hLine, hCol⟩ := h
  have hLine : p.line ≠ 0 := by omega
  have hCol : p.col ≠ 0 := by omega
  rw [Place.orElse, if_neg hLine, if_neg hCol]

/-- Two trees that are found one after the other are found joined. -/
theorem found_joined {s s' s'' : Stratum} {i m m' j : Nat} {k : Kind} {x : Payload} {lhs rhs : Node}
    (hLeft : Found tokens s i m lhs) (hs : s ≠ .statements) (hOrder : m ≤ m')
    (hRight : Found tokens s' m' j rhs) (hs' : s' ≠ .statements) (hJoins : k ∈ joiningKinds) :
    Found tokens s'' i j (.mk k x none lhs.place [lhs, rhs]) := by
  obtain ⟨i₁, j₁, hFrom, hTo, hLeft⟩ := hLeft.exists_spans hs
  obtain ⟨i₂, j₂, hFrom', hTo', hRight⟩ := hRight.exists_spans hs'
  obtain ⟨c, hFirst⟩ := hLeft.place
  exact .spans hFrom hTo' (.joined hFirst hJoins hLeft (by omega) hRight)

section

variable {s s' s'' : Stratum} {used used' : List Token} {k : Kind} {x : Payload} {lhs rhs : Node}
  (ih : ∀ {i j : Nat}, Occurs tokens i j used → Found tokens s i j lhs)
  (ih' : ∀ {i j : Nat}, Occurs tokens i j used' → Found tokens s' i j rhs)
include ih ih'

/-- Operands that are found in all their stretches are found joined where they stand side by side. -/
theorem found_beside {i j : Nat} (hs : s ≠ .statements) (hs' : s' ≠ .statements)
    (hJoins : k ∈ joiningKinds) (h : Occurs tokens i j (used ++ used')) :
    Found tokens s'' i j (.mk k x none lhs.place [lhs, rhs]) := by
  obtain ⟨m, hLeft, hRight⟩ := h.split
  exact found_joined (ih hLeft) hs (Nat.le_refl _) (ih' hRight) hs' hJoins

/-- Operands that are found in all their stretches are found joined around an operator. -/
theorem found_around {i j : Nat} {t : Token} (hs : s ≠ .statements) (hs' : s' ≠ .statements)
    (hJoins : k ∈ joiningKinds) (h : Occurs tokens i j (used ++ t :: used')) :
    Found tokens s'' i j (.mk k x none lhs.place [lhs, rhs]) := by
  obtain ⟨m, hLeft, hMore⟩ := h.split
  obtain ⟨l, hOrder, -, hRight⟩ := hMore.first
  exact found_joined (ih hLeft) hs (by omega) (ih' hRight) hs' hJoins

end

/-- A tree that is found in all its stretches is found inside a node, where it stands behind the head of
this node. -/
theorem found_opened {s s' : Stratum} {i j : Nat} {c : Content} {k : Kind} {x : Payload} {p : Place}
    {inner : Node} {used : List Token} (more : List Token)
    (ih : ∀ {i j : Nat}, Occurs tokens i j used → Found tokens s i j inner) (hs : s ≠ .statements)
    (hHeads : Heads (c :: more.map Token.content) k x)
    (h : Occurs tokens i j (⟨c, p⟩ :: (more ++ used))) :
    Found tokens s' i j (.mk k x none p [inner]) := by
  obtain ⟨l, hFrom, hFirst, hBehind⟩ := h.first
  obtain ⟨m, hOthers, hUsed⟩ := hBehind.split
  obtain ⟨i', j', hStart, hStop, hSpans⟩ := (ih hUsed).exists_spans hs
  exact .spans hFrom hStop
    (.opened hFirst hOthers hHeads hStart hSpans (Nat.le_refl _) hSpans.bounds.2)

/-- What is found behind an opening parenthesis is found in parentheses, also when it is nothing. -/
theorem found_parens {s : Stratum} {i k m l j : Nat} {p : Place} {inner : Node} (hFrom : i ≤ k)
    (hFirst : tokens[k]? = some ⟨.symbol .openParens, p⟩) (hAfter : k < m)
    (hInner : Found tokens .statements (k + 1) m inner) (hEnd : m ≤ l) (hTo : l ≤ j)
    (hInside : l ≤ tokens.length) : Found tokens s i j (.mk .parens .absent none p [inner]) := by
  cases hInner with
  | spans start stop spans =>
    have hHead : Occurs tokens (k + 1) (k + 1) [] := .nil (lt_of_getElem? hFirst)
    exact .spans hFrom hTo (.opened hFirst hHead .parens start spans (by omega) hInside)
  | nothing list empty idle =>
    rw [empty]
    exact .spans hFrom hTo (.hollow hFirst (by omega) hInside)

/-- Two numbers and the bar between them have a range. -/
theorem spans_fraction {i k : Nat} {w u : Payload} {q t : Place}
    (hTop : tokens[i]? = some ⟨.number w, q⟩) (hOrder : i < k)
    (hBottom : tokens[k]? = some ⟨.number u, t⟩) :
    Spans tokens i (k + 1) (.binary .div (.number w q) (.number u t)) :=
  .joined hTop (by decide) (.number hTop) hOrder (.number hBottom)

namespace Derives

variable {units : List String} {s : Stratum} {used : List Token} {n : Node}

/-- **What is derived from tokens is found in each stretch that has them.** -/
theorem found (hKnown : ∀ t ∈ tokens, IsKnown t.place) (h : Derives units s used n) :
    ∀ {i j : Nat}, Occurs tokens i j used → Found tokens s i j n := by
  have hKnownAt {k : Nat} {t : Token} (hAt : tokens[k]? = some t) : IsKnown t.place :=
    hKnown t (List.mem_of_getElem? hAt)
  induction h with
  | @widen s s' used n hs h ih =>
    intro i j hOccurs
    have hProper : ∀ e ∈ inclusions, e.1 ≠ .statements := by decide
    exact (ih hOccurs).of_part (hProper _ hs) (Nat.le_refl _) (Nat.le_refl _)
  | number v p =>
    intro i j hOccurs
    obtain ⟨k, hFrom, hHere, hMore⟩ := hOccurs.first
    exact .spans hFrom hMore.le.1 (.number hHere)
  | string x p =>
    intro i j hOccurs
    obtain ⟨k, hFrom, hHere, hMore⟩ := hOccurs.first
    exact .spans hFrom hMore.le.1 (.string hHere)
  | ident x p =>
    intro i j hOccurs
    obtain ⟨k, hFrom, hHere, hMore⟩ := hOccurs.first
    exact .spans hFrom hMore.le.1 (.ident hHere)
  | unit p q =>
    intro i j hOccurs
    obtain ⟨k, hFrom, hFirst, hOccurs⟩ := hOccurs.first
    obtain ⟨l, hAfter, hLast, hMore⟩ := hOccurs.first
    exact .spans hFrom hMore.le.1 (.unit hFirst hAfter hLast)
  | member x p q h ih =>
    intro i j hOccurs
    exact found_opened [⟨.symbol .of, q⟩] ih (by decide) (.member x) hOccurs
  | parens p q h ih =>
    intro i j hOccurs
    obtain ⟨k, hFrom, hFirst, hOccurs⟩ := hOccurs.first
    obtain ⟨m, l, hOccurs, hOrder, hInside, hLast⟩ := hOccurs.last
    have hInner := hOccurs.le
    rw [Node.wrap, (hKnownAt hFirst).orElse]
    exact found_parens hFrom hFirst hInner.1 (ih hOccurs) (by omega) hInside (lt_of_getElem? hLast)
  | unclosed p h ih =>
    intro i j hOccurs
    obtain ⟨k, hFrom, hFirst, hOccurs⟩ := hOccurs.first
    have hInner := hOccurs.le
    rw [Node.wrap, (hKnownAt hFirst).orElse]
    exact found_parens hFrom hFirst hInner.1 (ih hOccurs) (Nat.le_refl _) (Nat.le_refl _) hInner.2
  | lambda x p q r h ih =>
    intro i j hOccurs
    exact found_opened [⟨.ident x, q⟩, ⟨.symbol .dot, r⟩] ih (by decide) (.lambda x) hOccurs
  | factorial p h ih =>
    intro i j hOccurs
    obtain ⟨m, k, hOccurs, hOrder, hInside, hLast⟩ := hOccurs.last
    obtain ⟨i', j', hFrom, hTo, hSpans⟩ := (ih hOccurs).exists_spans (by decide)
    obtain ⟨c, hFirst⟩ := hSpans.place
    exact .spans hFrom hInside (.factorial hFirst hSpans (by omega) hLast)
  | pow p h h' ih ih' =>
    intro i j hOccurs
    exact found_around ih ih' (by decide) (by decide) (by decide) hOccurs
  | prefixed p hy h ih =>
    intro i j hOccurs
    obtain ⟨k, -, hFirst, -⟩ := hOccurs.first
    rw [Node.wrap, (hKnownAt hFirst).orElse]
    exact found_opened [] ih (by decide) (.sign hy) hOccurs
  | mixedPlus v w u p q r t =>
    intro i j hOccurs
    obtain ⟨k, hFrom, hWhole, hOccurs⟩ := hOccurs.first
    obtain ⟨l, hTopAfter, hTop, hOccurs⟩ := hOccurs.first
    obtain ⟨b, hBar, -, hOccurs⟩ := hOccurs.first
    obtain ⟨m, hBottomAfter, hBottom, hOccurs⟩ := hOccurs.first
    have hFraction := spans_fraction hTop (by omega) hBottom
    exact .spans hFrom hOccurs.le.1 (.joined hWhole (by decide) (.number hWhole) hTopAfter hFraction)
  | mixedMinus v w u o p q r t =>
    intro i j hOccurs
    obtain ⟨k, hFrom, hSign, hOccurs⟩ := hOccurs.first
    obtain ⟨k', hWholeAfter, hWhole, hOccurs⟩ := hOccurs.first
    obtain ⟨l, hTopAfter, hTop, hOccurs⟩ := hOccurs.first
    obtain ⟨b, hBar, -, hOccurs⟩ := hOccurs.first
    obtain ⟨m, hBottomAfter, hBottom, hOccurs⟩ := hOccurs.first
    have hNegated : Spans tokens k (k' + 1) (.wrap .negation (.number v p) o) := by
      rw [Node.wrap, (hKnownAt hSign).orElse]
      have hHead : Occurs tokens (k + 1) (k + 1) [] := .nil (lt_of_getElem? hSign)
      exact .opened hSign hHead (.sign (by decide)) hWholeAfter (.number hWhole) (Nat.le_refl _)
        (lt_of_getElem? hWhole)
    obtain ⟨c, hFirst⟩ := hNegated.place
    have hFraction := spans_fraction hTop (by omega) hBottom
    exact .spans hFrom hOccurs.le.1 (.joined hFirst (by decide) hNegated hTopAfter hFraction)
  | product p hy h h' ih ih' =>
    intro i j hOccurs
    exact found_around ih ih' (by decide) (by decide) (by decide) hOccurs
  | timesMixed p h h' ih ih' =>
    intro i j hOccurs
    exact found_around ih ih' (by decide) (by decide) (by decide) hOccurs
  | juxtaposed h h' hk ih ih' =>
    intro i j hOccurs
    refine found_beside ih ih' (by decide) (by decide) ?_ hOccurs
    rcases juxtapositionKind_mem hk with rfl | rfl | rfl <;> decide
  | compound h hn h' hm ih ih' =>
    intro i j hOccurs
    exact found_beside ih ih' (by decide) (by decide) (by decide) hOccurs
  | sum p hy h h' ih ih' =>
    intro i j hOccurs
    rcases sumOperators_cases hy with ⟨-, rfl⟩ | ⟨-, rfl⟩ | ⟨-, rfl⟩
    · exact found_around ih ih' (by decide) (by decide) (by decide) hOccurs
    · exact found_around ih ih' (by decide) (by decide) (by decide) hOccurs
    · exact found_around ih ih' (by decide) (by decide) (by decide) hOccurs
  | arrow x p q h ih =>
    intro i j hOccurs
    exact found_opened [⟨.symbol .arrow, q⟩] ih (by decide) (.arrow x) hOccurs
  | assignment x p q h ih =>
    intro i j hOccurs
    exact found_opened [⟨.symbol .equals, q⟩] ih (by decide) (.assignment x) hOccurs
  | leading p h ih =>
    intro i j hOccurs
    obtain ⟨k, hFrom, -, hOccurs⟩ := hOccurs.first
    exact (ih hOccurs).of_part (by decide) (by omega) (Nat.le_refl _)
  | trailing p h ih =>
    intro i j hOccurs
    obtain ⟨m, k, hOccurs, hOrder, hInside, -⟩ := hOccurs.last
    exact (ih hOccurs).of_part (by decide) (Nat.le_refl _) (by omega)
  | sequence p h h' ih ih' =>
    intro i j hOccurs
    exact found_around ih ih' (by decide) (by decide) (by decide) hOccurs
  | nothing ps =>
    intro i j hOccurs
    exact .nothing rfl rfl hOccurs.allIdle

end Derives

-- ---------------------------------------------------------------------------
-- Parsed trees
-- ---------------------------------------------------------------------------

/-- A parenthesis that opens last has nothing but idle tokens behind it. -/
theorem OpensLast.allIdle {p : Place} (h : OpensLast (significant tokens) p) :
    ∃ i, tokens[i]? = some ⟨.symbol .openParens, p⟩ ∧ AllIdle tokens (i + 1) tokens.length := by
  obtain ⟨front, ps, hSolid⟩ := h
  have hOccurs := occurs_significant tokens
  rw [hSolid] at hOccurs
  obtain ⟨m, -, hLast⟩ := hOccurs.split
  obtain ⟨i, -, hOpen, hSeparators⟩ := hLast.first
  exact ⟨i, hOpen, hSeparators.allIdle⟩

/-- A known place is not the one that stands for none. -/
theorem IsKnown.ne_unknown {p : Place} (h : IsKnown p) : p ≠ .unknown := by
  rintro rfl
  exact absurd h.1 (by decide)

/-- **Every node of a parsed tree points at its own text.** When the places of all tokens are known, the
tree has a range of the tokens in which it and its parts stand where their tokens do; or it is an empty
list of statements, and all tokens are blanks, end marks and separators. So each node stands at the first
token of a range of its own, unless it is an empty list of statements; and an empty list in a parenthesis
is in the last one that opens, with nothing but blanks, end marks and separators behind it. -/
theorem parseWithin_spans {units : List String} {depth : Nat} {n : Node}
    (hKnown : ∀ t ∈ tokens, IsKnown t.place) (h : (parseWithin depth units tokens).result = .ok n) :
    ((∃ i j, Spans tokens i j n) ∨ (n = .unit .unknown ∧ ∀ t ∈ tokens, isIdle t = true)) ∧
      (∀ m ∈ n.nodes, m = .unit .unknown ∨
        ∃ i j, Spans tokens i j m ∧ ∃ c, tokens[i]? = some ⟨c, m.place⟩) ∧
      ∀ p, .mk .parens .absent none p [.unit .unknown] ∈ n.nodes →
        ∃ i, tokens[i]? = some ⟨.symbol .openParens, p⟩ ∧ AllIdle tokens (i + 1) tokens.length := by
  have hPlaces : ∀ t ∈ tokens, t.place ≠ .unknown := fun t ht => (hKnown t ht).ne_unknown
  have hEmpties : ∀ p, .mk .parens .absent none p [.unit .unknown] ∈ n.nodes →
      ∃ i, tokens[i]? = some ⟨.symbol .openParens, p⟩ ∧ AllIdle tokens (i + 1) tokens.length :=
    fun p hp => (parseWithin_opensLast hPlaces h p hp).allIdle
  cases (parseWithin_derives h).found hKnown (occurs_significant tokens) with
  | spans start stop spans =>
    refine ⟨Or.inl ⟨_, _, spans⟩, fun m hm => (spans.nodes m hm).imp_right ?_, hEmpties⟩
    rintro ⟨i, j, -, -, hSpans⟩
    exact ⟨i, j, hSpans, hSpans.place⟩
  | nothing list empty idle =>
    refine ⟨Or.inr ⟨empty, fun t ht => ?_⟩, ?_, hEmpties⟩
    · obtain ⟨k, hk, hAt⟩ := List.mem_iff_getElem.mp ht
      exact idle k t (Nat.zero_le _) hk (List.getElem?_eq_some_iff.mpr ⟨hk, hAt⟩)
    · rw [empty]
      exact List.forall_mem_singleton.mpr (Or.inl rfl)

/-- A product whose right factor is a parenthesis with nothing behind it but a separator. -/
theorem product_with_nothing_spans :
    let tokens : List Token :=
      [⟨.ident "x", ⟨1, 1⟩⟩, ⟨.blank " ", ⟨1, 2⟩⟩, ⟨.symbol .mul, ⟨1, 3⟩⟩,
       ⟨.symbol .openParens, ⟨1, 4⟩⟩, ⟨.symbol .semicolon, ⟨1, 5⟩⟩, ⟨.finish "EOF", ⟨1, 6⟩⟩]
    let t : Node := .binary .mul (.ident "x" ⟨1, 1⟩) (.wrap .parens (.unit .unknown) ⟨1, 4⟩)
    (∀ token ∈ tokens, IsKnown token.place) ∧ (parse [] tokens).result = .ok t ∧
      ((∃ i j, Spans tokens i j t) ∨ (t = .unit .unknown ∧ ∀ token ∈ tokens, isIdle token = true)) ∧
        (∀ m ∈ t.nodes, m = .unit .unknown ∨
          ∃ i j, Spans tokens i j m ∧ ∃ c, tokens[i]? = some ⟨c, m.place⟩) ∧
        ∀ p, .mk .parens .absent none p [.unit .unknown] ∈ t.nodes →
          ∃ i, tokens[i]? = some ⟨.symbol .openParens, p⟩ ∧ AllIdle tokens (i + 1) tokens.length := by
  intro tokens t
  have hKnown : ∀ token ∈ tokens, IsKnown token.place := by
    simp only [tokens, List.forall_mem_cons, IsKnown]
    decide
  have h : (parseWithin maxNesting [] tokens).result = .ok t := by rfl
  exact ⟨hKnown, h, parseWithin_spans hKnown h⟩

end Grammar

end Reckoner
