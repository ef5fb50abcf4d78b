import Reckoner.Proofs.Grammar.Indifference
import Reckoner.Proofs.Grammar.Products
import Reckoner.Proofs.Grammar.RoundTrip
import Reckoner.Proofs.Render.Printed

/-!
# Parsing printed pieces

The tokens of a printed tree are parsed to a tree with the same essence: places are forgotten,
parentheses are left out, and it does not matter which of the four kinds of juxtaposition a node is.
A tree that is printed closed is read as a primary expression, a call as a product, and statements as
statements, so each operation on the tree is read by the rule for it. The nesting that is needed grows
with the height of the tree.

## Results

* `Joins.areReadBack`  — an operation is read back with its operands.
* `Prints.areReadBack` — the tokens of a printed tree are read back.
-/

namespace Reckoner

-- ---------------------------------------------------------------------------
-- Essences
-- ---------------------------------------------------------------------------

namespace Node

/-- A node over the essences of its children: it is left out if it is a pair of parentheses, and the
four kinds of juxtaposition become one. -/
def distilled (kind : Kind) (value : Payload) (type : Option String) (children : List Node) : Node :=
  match kind, children with
  | .parens, [inner] => inner
  | .apply, _ | .call, _ | .product, _ => mk .apply value type .unknown children
  | .binary, _ =>
    if value.text? = some Operator.implicitPlus.name then mk .apply .absent type .unknown children
    else mk .binary value type .unknown children
  | _, _ => mk kind value type .unknown children

mutual

/-- A tree without places and parentheses, in which the four kinds of juxtaposition are one. -/
def essence : Node → Node
  | mk kind value type _ children => distilled kind value type (essences children)

/-- The essences of some trees. -/
def essences : List Node → List Node
  | [] => []
  | n :: ns => essence n :: essences ns

end

variable (v : Payload) (x : String) (p : Place) (k : Kind) (op : Operator) (n m : Node)

theorem essence_wrap : (wrap k n p).essence = distilled k .absent none [n.essence] := rfl

theorem essence_named : (named k v n p).essence = distilled k v none [n.essence] := rfl

theorem essence_pair :
    (pair k n m).essence = distilled k .absent none [n.essence, m.essence] := rfl

theorem essence_binary :
    (binary op n m).essence = distilled .binary (.text op.name) none [n.essence, m.essence] := rfl

@[simp] theorem essence_parens : (wrap .parens n p).essence = n.essence := rfl

theorem essence_compound : (binary .implicitPlus n m).essence = (pair .apply n m).essence := by
  simp [essence_binary, essence_pair, distilled, Payload.text, Payload.text?]

/-- The four kinds of juxtaposition are one. -/
theorem essence_juxtaposed {k : Kind} (hk : k = .apply ∨ k = .call ∨ k = .product) :
    (pair k n m).essence = (pair .apply n m).essence := by
  rcases hk with rfl | rfl | rfl <;> rfl

end Node

namespace Render

open Grammar (squeeze Phrase Layers productOperators sumOperators)
open Grammar.Phrase (aboveProducts)
open Lexer (Piece)

-- ---------------------------------------------------------------------------
-- Blanks
-- ---------------------------------------------------------------------------

/-- The tokens `used` are left of the tokens `all` when the blanks are squeezed out. -/
structure Squeezes (used all : List Token) : Prop where
  squeeze : ∀ rest, squeeze false (all ++ rest) = used ++ squeeze false rest
  significant : ∀ t ∈ all, t.isFinish = false

variable {used used' all all' tokens tokens' : List Token}

theorem Squeezes.append (h : Squeezes used all) (h' : Squeezes used' all') :
    Squeezes (used ++ used') (all ++ all') := by
  refine ⟨fun rest => ?_, fun t ht => ?_⟩
  · rw [List.append_assoc, h.squeeze, h'.squeeze, List.append_assoc]
  · rcases List.mem_append.mp ht with ht | ht
    · exact h.significant t ht
    · exact h'.significant t ht

theorem squeezes_nil : Squeezes [] [] :=
  ⟨fun _ => rfl, by simp⟩

theorem squeezes_token {t : Token} (hBlank : t.isBlank = false) (hFinish : t.isFinish = false)
    (hSlash : t.isSymbol .backslash = false) : Squeezes [t] [t] := by
  refine ⟨fun rest => ?_, by simpa using hFinish⟩
  rw [List.cons_append, squeeze, hBlank, hSlash]
  rfl

theorem squeezes_blank (x : String) (p : Place) : Squeezes [] [⟨.blank x, p⟩] :=
  ⟨fun _ => rfl, by simp [Token.isFinish]⟩

theorem squeezes_symbol {y : Symbol} (hy : y ≠ .backslash) (p : Place) :
    Squeezes [⟨.symbol y, p⟩] [⟨.symbol y, p⟩] :=
  squeezes_token rfl rfl (by simpa using hy)

theorem squeezes_parameter (x : String) (p q : Place) :
    Squeezes [⟨.symbol .backslash, p⟩, ⟨.ident x, q⟩] [⟨.symbol .backslash, p⟩, ⟨.ident x, q⟩] :=
  ⟨fun _ => rfl, by simp [Token.isFinish]⟩

-- ---------------------------------------------------------------------------
-- Tokens of pieces
-- ---------------------------------------------------------------------------

/-- The tokens are what the pieces stand for, at whatever places. -/
def StandFor (tokens : List Token) (pieces : List Piece) : Prop :=
  tokens.map Token.content = pieces.map Piece.content

variable {pieces pieces' left right : List Piece}

theorem StandFor.nil (h : StandFor tokens []) : tokens = [] :=
  List.map_eq_nil_iff.mp h

theorem StandFor.cons {piece : Piece} (h : StandFor tokens (piece :: pieces)) :
    ∃ p tokens', tokens = ⟨piece.content, p⟩ :: tokens' ∧ StandFor tokens' pieces := by
  obtain ⟨⟨content, p⟩, tokens', rfl, hContent, hTokens⟩ := List.map_eq_cons_iff.mp h
  obtain rfl : content = piece.content := hContent
  exact ⟨p, tokens', rfl, hTokens⟩

theorem StandFor.append (h : StandFor tokens (pieces ++ pieces')) :
    ∃ ts ts', tokens = ts ++ ts' ∧ StandFor ts pieces ∧ StandFor ts' pieces' := by
  unfold StandFor at h
  rw [List.map_append] at h
  obtain ⟨ts, ts', rfl, h, h'⟩ := List.map_eq_append_iff.mp h
  exact ⟨ts, ts', rfl, h, h'⟩

theorem StandFor.inParens (h : StandFor tokens (inParens pieces)) :
    ∃ p q inner, tokens = ⟨.symbol .openParens, p⟩ :: (inner ++ [⟨.symbol .closeParens, q⟩]) ∧
      StandFor inner pieces := by
  obtain ⟨p, tokens, rfl, hTokens⟩ := h.cons
  obtain ⟨inner, last, rfl, hInner, hLast⟩ := hTokens.append
  obtain ⟨q, none, rfl, hNone⟩ := hLast.cons
  obtain rfl := hNone.nil
  exact ⟨p, q, inner, rfl, hInner⟩

/-- The tokens of two texts with a blank between them. -/
theorem StandFor.spaced (h : StandFor tokens (left ++ .space :: right)) :
    ∃ ts p ts', tokens = ts ++ ⟨.blank " ", p⟩ :: ts' ∧ StandFor ts left ∧ StandFor ts' right := by
  obtain ⟨ts, last, rfl, hLeft, hLast⟩ := h.append
  obtain ⟨p, ts', rfl, hRight⟩ := hLast.cons
  exact ⟨ts, p, ts', rfl, hLeft, hRight⟩

theorem StandFor.around {y : Symbol}
    (h : StandFor tokens (left ++ .space :: .symbol y :: .space :: right)) :
    ∃ ts p q r ts',
      tokens = ts ++ ⟨.blank " ", p⟩ :: ⟨.symbol y, q⟩ :: ⟨.blank " ", r⟩ :: ts' ∧
      StandFor ts left ∧ StandFor ts' right := by
  obtain ⟨ts, p, last, rfl, hLeft, hSymbol⟩ := h.spaced
  obtain ⟨q, last, rfl, hBlank⟩ := hSymbol.cons
  obtain ⟨r, ts', rfl, hRight⟩ := hBlank.cons
  exact ⟨ts, p, q, r, ts', rfl, hLeft, hRight⟩

theorem Squeezes.spaced (h : Squeezes used all) (p : Place) (h' : Squeezes used' all') :
    Squeezes (used ++ used') (all ++ ⟨.blank " ", p⟩ :: all') :=
  h.append ((squeezes_blank " " p).append h')

theorem Squeezes.around {y : Symbol} (hy : y ≠ .backslash) (h : Squeezes used all) (p q r : Place)
    (h' : Squeezes used' all') :
    Squeezes (used ++ ⟨.symbol y, q⟩ :: used')
      (all ++ ⟨.blank " ", p⟩ :: ⟨.symbol y, q⟩ :: ⟨.blank " ", r⟩ :: all') := by
  have hRight := (squeezes_symbol hy q).append ((squeezes_blank " " r).append h')
  exact h.spaced p hRight

theorem Squeezes.inParens (p q : Place) (h : Squeezes used all) :
    Squeezes (⟨.symbol .openParens, p⟩ :: (used ++ [⟨.symbol .closeParens, q⟩]))
      (⟨.symbol .openParens, p⟩ :: (all ++ [⟨.symbol .closeParens, q⟩])) :=
  (squeezes_symbol (by decide) p).append (h.append (squeezes_symbol (by decide) q))

-- ---------------------------------------------------------------------------
-- Phrases for trees
-- ---------------------------------------------------------------------------

variable {units : List String} {form : Form} {n l r : Node} {ph e : Phrase}

/-- What the tokens of a form are read as. -/
def Form.IsRead (units : List String) : Form → Phrase → Prop
  | closed => Phrase.IsPrimary units
  | opened => Phrase.IsProduct units
  | listed => Phrase.IsStatements units

/-- How much nesting a form needs beyond that of a closed text. -/
def Form.allowance : Form → Nat
  | closed => 0
  | opened => 2
  | listed => 8

/-- A phrase for the tokens of a tree. -/
structure ReadsBack (units : List String) (form : Form) (n : Node) (tokens : List Token)
    (ph : Phrase) : Prop where
  tokens : Squeezes ph.used tokens
  phrase : form.IsRead units ph
  essence : ph.node.essence = n.essence
  isNumber : ph.node.isNumber = n.isNumber
  nesting : ph.nesting ≤ 21 * n.height + form.allowance

theorem ReadsBack.opened (h : ReadsBack units .closed n tokens ph) :
    ReadsBack units .opened n tokens ph.above.above := by
  refine ⟨h.tokens, Phrase.IsPrimary.isProduct h.phrase, h.essence, h.isNumber, ?_⟩
  have hNesting : ph.nesting ≤ 21 * n.height + 0 := h.nesting
  show ph.nesting + 2 ≤ 21 * n.height + 2
  omega

/-- A product on its own is read as a function. -/
theorem ReadsBack.function (h : ReadsBack units .opened n tokens ph) :
    ph.alone.Reads units Layers.function .function ∧ ph.alone.nesting ≤ 21 * n.height + 7 := by
  refine ⟨Phrase.IsProduct.single h.phrase, ?_⟩
  have hNesting : ph.nesting ≤ 21 * n.height + 2 := h.nesting
  have hPos := n.height_pos
  show aboveProducts ph.nesting ≤ _
  unfold aboveProducts
  omega

theorem ReadsBack.listed (h : ReadsBack units .opened n tokens ph) :
    ReadsBack units .listed n tokens ph.alone.above := by
  obtain ⟨hReads, hNesting⟩ := h.function
  refine ⟨h.tokens, hReads.assignment.isStatements, h.essence, h.isNumber, ?_⟩
  show ph.alone.nesting + 1 ≤ 21 * n.height + 8
  omega

/-- What is read as statements is read between parentheses. -/
theorem readsBack_inParens (h : e.IsStatements units) (hTokens : Squeezes e.used tokens)
    (hEssence : e.node.essence = n.essence) (hNumber : n.isNumber = false)
    (hNesting : e.nesting + 4 ≤ 21 * n.height) (p q : Place) :
    ReadsBack units .closed n (⟨.symbol .openParens, p⟩ :: (tokens ++ [⟨.symbol .closeParens, q⟩]))
      (e.above.above.parens p q) :=
  ⟨hTokens.inParens p q, h.isExpression.parens p q, hEssence, hNumber.symm, hNesting⟩

/-- What is read as a function is read between parentheses. -/
theorem readsBack_function (h : e.Reads units Layers.function .function)
    (hTokens : Squeezes e.used tokens) (hEssence : e.node.essence = n.essence)
    (hNumber : n.isNumber = false) (hNesting : e.nesting + 5 ≤ 21 * n.height) (p q : Place) :
    ReadsBack units .closed n (⟨.symbol .openParens, p⟩ :: (tokens ++ [⟨.symbol .closeParens, q⟩]))
      (e.above.above.above.parens p q) :=
  readsBack_inParens h.assignment.isStatements hTokens hEssence hNumber hNesting p q

-- ---------------------------------------------------------------------------
-- Leaves and single children
-- ---------------------------------------------------------------------------

/-- Whatever tokens stand for the pieces, they are read back as the tree. -/
def AreReadBack (units : List String) (form : Form) (n : Node) (pieces : List Piece) : Prop :=
  ∀ tokens, StandFor tokens pieces → ∃ ph, ReadsBack units form n tokens ph

theorem StandFor.ident {x : String} (h : StandFor tokens [.ident x]) :
    ∃ p, tokens = [⟨.ident x, p⟩] := by
  obtain ⟨p, none, rfl, hNone⟩ := h.cons
  obtain rfl := hNone.nil
  exact ⟨p, rfl⟩

theorem squeezes_ident (x : String) (p : Place) : Squeezes [⟨.ident x, p⟩] [⟨.ident x, p⟩] :=
  squeezes_token rfl rfl rfl

theorem areReadBack_number (units : List String) (num : Numeral) (q : ℚ) (p : Place) :
    AreReadBack units .closed (.number (.fraction q) p) [.number num q] := by
  intro tokens hTokens
  obtain ⟨p', none, rfl, hNone⟩ := hTokens.cons
  obtain rfl := hNone.nil
  exact ⟨.number (.fraction q) p', squeezes_token rfl rfl rfl, Phrase.isPrimary_number _ _, rfl, rfl,
    (by decide : 2 ≤ 21)⟩

theorem areReadBack_string (units : List String) (x : String) (p : Place) :
    AreReadBack units .closed (.string x p) [.string x] := by
  intro tokens hTokens
  obtain ⟨p', none, rfl, hNone⟩ := hTokens.cons
  obtain rfl := hNone.nil
  exact ⟨.string x p', squeezes_token rfl rfl rfl, Phrase.isPrimary_string _ _, rfl, rfl,
    (by decide : 1 ≤ 21)⟩

theorem areReadBack_unit (units : List String) (p : Place) :
    AreReadBack units .closed (.unit p) (inParens []) := by
  intro tokens hTokens
  obtain ⟨p', q', inner, rfl, hInner⟩ := hTokens.inParens
  obtain rfl := hInner.nil
  exact ⟨.unit p' q', squeezes_nil.inParens p' q', Phrase.isPrimary_unit p' q', rfl, rfl,
    (by decide : 2 ≤ 21)⟩

theorem areReadBack_ident (units : List String) (x : String) (p : Place) :
    AreReadBack units .closed (.ident x p) [.ident x] := by
  intro tokens hTokens
  obtain ⟨p', rfl⟩ := hTokens.ident
  exact ⟨.ident x p', squeezes_ident x p', Phrase.isPrimary_ident _ _, rfl, rfl,
    (by decide : 2 ≤ 21)⟩

theorem AreReadBack.opened (h : AreReadBack units .closed n pieces) :
    AreReadBack units .opened n pieces := by
  intro tokens hTokens
  obtain ⟨ph, h⟩ := h tokens hTokens
  exact ⟨_, h.opened⟩

theorem AreReadBack.listed (h : AreReadBack units .opened n pieces) :
    AreReadBack units .listed n pieces := by
  intro tokens hTokens
  obtain ⟨ph, h⟩ := h tokens hTokens
  exact ⟨_, h.listed⟩

theorem AreReadBack.parens (p : Place) (h : AreReadBack units .listed n pieces) :
    AreReadBack units .closed (.wrap .parens n p) (inParens pieces) := by
  intro tokens hTokens
  obtain ⟨o, c, inner, rfl, hInner⟩ := hTokens.inParens
  obtain ⟨ph, h⟩ := h inner hInner
  refine ⟨_, readsBack_inParens h.phrase h.tokens ?_ rfl ?_ o c⟩
  · rw [Node.essence_parens, h.essence]
  · have hNesting : ph.nesting ≤ 21 * n.height + 8 := h.nesting
    rw [Node.height_wrap]
    omega

theorem AreReadBack.member (x : String) (p : Place) (h : AreReadBack units .closed n pieces) :
    AreReadBack units .closed (.named .member (.text x) n p) (between .of [.ident x] pieces) := by
  intro tokens hTokens
  obtain ⟨o, c, inner, rfl, hInner⟩ := hTokens.inParens
  obtain ⟨ts, a, q, b, ts', rfl, hName, hRight⟩ := hInner.around
  obtain ⟨p', rfl⟩ := hName.ident
  obtain ⟨ph, h⟩ := h ts' hRight
  have hReads := (Phrase.IsPrimary.member x p' q h.phrase).isProduct.single
  refine ⟨_, readsBack_function hReads ?_ ?_ rfl ?_ o c⟩
  · exact (squeezes_ident x p').around (by decide) a q b h.tokens
  · show (Node.named .member (.text x) ph.node p').essence = _
    rw [Node.essence_named, Node.essence_named, h.essence]
  · have hNesting : ph.nesting ≤ 21 * n.height := h.nesting
    show aboveProducts (ph.nesting + 4) + 5 ≤ _
    rw [Node.height_named, aboveProducts]
    omega

theorem AreReadBack.function (x : String) (p : Place) (h : AreReadBack units .opened n pieces) :
    AreReadBack units .closed (.named .function (.text x) n p)
      (inParens (.symbol .backslash :: .ident x :: .symbol .dot :: pieces)) := by
  intro tokens hTokens
  obtain ⟨o, c, inner, rfl, hInner⟩ := hTokens.inParens
  obtain ⟨p', ts, rfl, hName⟩ := hInner.cons
  obtain ⟨q, ts, rfl, hDot⟩ := hName.cons
  obtain ⟨r, ts, rfl, hBody⟩ := hDot.cons
  obtain ⟨ph, h⟩ := h ts hBody
  obtain ⟨hReads, hNesting⟩ := h.function
  refine ⟨_, readsBack_function (hReads.lambda x p' q r) ?_ ?_ rfl ?_ o c⟩
  · exact (squeezes_parameter x p' q).append ((squeezes_symbol (by decide) r).append h.tokens)
  · show (Node.named .function (.text x) ph.node p').essence = _
    rw [Node.essence_named, Node.essence_named, h.essence]
  · show aboveProducts (ph.alone.nesting + 4) + 5 ≤ _
    rw [Node.height_named, aboveProducts]
    omega

theorem AreReadBack.assignment (x : String) (p : Place) (h : AreReadBack units .opened n pieces) :
    AreReadBack units .closed (.named .assignment (.text x) n p)
      (between .equals [.ident x] pieces) := by
  intro tokens hTokens
  obtain ⟨o, c, inner, rfl, hInner⟩ := hTokens.inParens
  obtain ⟨ts, a, q, b, ts', rfl, hName, hRight⟩ := hInner.around
  obtain ⟨p', rfl⟩ := hName.ident
  obtain ⟨ph, h⟩ := h ts' hRight
  obtain ⟨hReads, hNesting⟩ := h.function
  have hAssigns := (hReads.assignment.assign x p' q).isStatements
  refine ⟨_, readsBack_inParens hAssigns ?_ ?_ rfl ?_ o c⟩
  · exact (squeezes_ident x p').around (by decide) a q b h.tokens
  · show (Node.named .assignment (.text x) ph.node p').essence = _
    rw [Node.essence_named, Node.essence_named, h.essence]
  · show max 9 (ph.alone.nesting + 1) + 1 + 4 ≤ _
    rw [Node.height_named]
    omega

theorem AreReadBack.factorial (p : Place) (h : AreReadBack units .closed n pieces) :
    AreReadBack units .closed (.wrap .factorial n p)
      (inParens (pieces ++ [.symbol .factorial])) := by
  intro tokens hTokens
  obtain ⟨o, c, inner, rfl, hInner⟩ := hTokens.inParens
  obtain ⟨ts, last, rfl, hLeft, hLast⟩ := hInner.append
  obtain ⟨p', none, rfl, hNone⟩ := hLast.cons
  obtain rfl := hNone.nil
  obtain ⟨ph, h⟩ := h ts hLeft
  refine ⟨_, readsBack_function (Phrase.IsPrimary.factorial p' h.phrase) ?_ ?_ rfl ?_ o c⟩
  · exact h.tokens.append (squeezes_symbol (by decide) p')
  · show (Node.wrap .factorial ph.node .unknown).essence = _
    rw [Node.essence_wrap, Node.essence_wrap, h.essence]
  · have hNesting : ph.nesting ≤ 21 * n.height := h.nesting
    show aboveProducts (ph.nesting + 2) + 5 ≤ _
    rw [Node.height_wrap, aboveProducts]
    omega

theorem AreReadBack.prefixed (s : Grammar.Sign) (p : Place)
    (h : AreReadBack units .closed n pieces) :
    AreReadBack units .closed (.wrap s.kind n p) (inParens (.symbol s.symbol :: pieces)) := by
  intro tokens hTokens
  obtain ⟨o, c, inner, rfl, hInner⟩ := hTokens.inParens
  obtain ⟨p', ts, rfl, hRight⟩ := hInner.cons
  obtain ⟨ph, h⟩ := h ts hRight
  refine ⟨_, readsBack_function (Phrase.IsPrimary.prefixed s p' h.phrase) ?_ ?_ ?_ ?_ o c⟩
  · exact (squeezes_symbol (by cases s <;> decide) p').append h.tokens
  · show (Node.wrap s.kind ph.node p').essence = _
    rw [Node.essence_wrap, Node.essence_wrap, h.essence]
  · cases s <;> rfl
  · have hNesting : ph.nesting ≤ 21 * n.height := h.nesting
    show aboveProducts (ph.nesting + 3) + 5 ≤ _
    rw [Node.height_wrap, aboveProducts]
    omega

-- ---------------------------------------------------------------------------
-- Two children
-- ---------------------------------------------------------------------------

/-- The node that a symbol between two texts makes, when the texts stand in certain forms. -/
structure Joins (units : List String) (fl fr : Form) (y : Symbol) (build : Node → Node → Node) :
    Prop where
  symbol : y ≠ .backslash
  reads : ∀ q ph ph', fl.IsRead units ph → fr.IsRead units ph' →
    ∃ e : Phrase, e.Reads units Layers.function .function ∧
      e.used = ph.used ++ ⟨.symbol y, q⟩ :: ph'.used ∧ e.node = build ph.node ph'.node ∧
      e.nesting ≤ aboveProducts (max ph.nesting ph'.nesting + 3)
  shape : (∃ op, build = .binary op) ∨ ∃ k, k ≠ .literal ∧ build = .pair k
  forms : fl.allowance ≤ 2 ∧ fr.allowance ≤ 2

theorem joins_pow (units : List String) : Joins units .closed .closed .pow (.binary .pow) where
  symbol := by decide
  reads q _ _ hl hr :=
    ⟨_, Phrase.IsPrimary.binary .pow q hl hr, rfl, rfl, Nat.le_refl _⟩
  shape := Or.inl ⟨_, rfl⟩
  forms := by decide

theorem joins_product (units : List String) {y : Symbol} {op : Operator}
    (hy : (y, op) ∈ productOperators) : Joins units .opened .closed y (.binary op) where
  symbol := by
    rcases Grammar.productOperators_cases hy with ⟨rfl, -⟩ | ⟨rfl, -⟩ | ⟨rfl, -⟩ <;> decide
  reads q _ _ hl hr :=
    ⟨_, Phrase.IsProduct.product hy q hl hr, rfl, rfl, Grammar.Phrase.aboveProducts_mono (by omega)⟩
  shape := Or.inl ⟨_, rfl⟩
  forms := by decide

theorem joins_sum (units : List String) {y : Symbol} {build : Node → Node → Node}
    (hy : (y, build) ∈ sumOperators) : Joins units .opened .opened y build where
  symbol := by
    rcases Grammar.sumOperators_cases hy with ⟨rfl, -⟩ | ⟨rfl, -⟩ | ⟨rfl, -⟩ <;> decide
  reads q _ _ hl hr :=
    ⟨_, Phrase.IsProduct.sum hy q hl hr, rfl, rfl, Grammar.Phrase.aboveProducts_mono (by omega)⟩
  shape := by
    rcases Grammar.sumOperators_cases hy with ⟨-, rfl⟩ | ⟨-, rfl⟩ | ⟨-, rfl⟩
    · exact Or.inl ⟨_, rfl⟩
    · exact Or.inl ⟨_, rfl⟩
    · exact Or.inr ⟨_, by decide, rfl⟩
  forms := by decide

/-- **An operation with its symbol between two texts is read back.** -/
theorem Joins.areReadBack {fl fr : Form} {y : Symbol} {build : Node → Node → Node}
    (hJoins : Joins units fl fr y build) (hl : AreReadBack units fl l left)
    (hr : AreReadBack units fr r right) :
    AreReadBack units .closed (build l r) (between y left right) := by
  intro tokens hTokens
  obtain ⟨o, c, inner, rfl, hInner⟩ := hTokens.inParens
  obtain ⟨ts, a, q, b, ts', rfl, hLeft, hRight⟩ := hInner.around
  obtain ⟨ph, h⟩ := hl ts hLeft
  obtain ⟨ph', h'⟩ := hr ts' hRight
  obtain ⟨e, hReads, hUsed, hNode, hNesting⟩ := hJoins.reads q ph ph' h.phrase h'.phrase
  refine ⟨_, readsBack_function hReads ?_ ?_ ?_ ?_ o c⟩
  · rw [hUsed]
    exact h.tokens.around hJoins.symbol a q b h'.tokens
  · rw [hNode]
    rcases hJoins.shape with ⟨op, rfl⟩ | ⟨k, -, rfl⟩
    · rw [Node.essence_binary, Node.essence_binary, h.essence, h'.essence]
    · rw [Node.essence_pair, Node.essence_pair, h.essence, h'.essence]
  · rcases hJoins.shape with ⟨op, rfl⟩ | ⟨k, hk, rfl⟩
    · rfl
    · exact Node.isNumber_of_kind_ne hk
  · have hHeight : (build l r).height = max l.height r.height + 1 := by
      rcases hJoins.shape with ⟨op, rfl⟩ | ⟨k, -, rfl⟩ <;> simp
    have hPos := l.height_pos
    obtain ⟨hForm, hForm'⟩ := hJoins.forms
    have hLeft := h.nesting
    have hRight := h'.nesting
    rw [hHeight]
    unfold aboveProducts at hNesting
    omega

theorem AreReadBack.adjoined (hn : Adjoins l r n) (hOne : l.isNumber = false ∨ r.isNumber = false)
    (hl : AreReadBack units .opened l left) (hr : AreReadBack units .closed r right) :
    AreReadBack units .closed n (inParens (left ++ .space :: right)) := by
  intro tokens hTokens
  obtain ⟨o, c, inner, rfl, hInner⟩ := hTokens.inParens
  obtain ⟨ts, a, ts', rfl, hLeft, hRight⟩ := hInner.spaced
  obtain ⟨ph, h⟩ := hl ts hLeft
  obtain ⟨ph', h'⟩ := hr ts' hRight
  have hOne : ph.node.isNumber = false ∨ ph'.node.isNumber = false := by
    rwa [h.isNumber, h'.isNumber]
  obtain ⟨k, hk, -⟩ := Phrase.IsProduct.juxtapositionKind h.phrase h'.phrase hOne
  have hReads := Phrase.IsProduct.juxtaposed h.phrase h'.phrase hOne hk
  refine ⟨_, readsBack_function hReads (h.tokens.spaced a h'.tokens) ?_ ?_ ?_ o c⟩
  · have hSame : n.essence = (Node.pair .apply l r).essence := by
      cases hn
      · rfl
      · rfl
      · exact Node.essence_compound l r
    show (Node.pair k ph.node ph'.node).essence = _
    rw [Node.essence_juxtaposed _ _ (Grammar.juxtapositionKind_mem hk), hSame, Node.essence_pair,
      Node.essence_pair, h.essence, h'.essence]
  · cases hn <;> rfl
  · have hNesting : ph.nesting ≤ 21 * l.height + 2 := h.nesting
    have hNesting' : ph'.nesting ≤ 21 * r.height := h'.nesting
    have hHeight : n.height = max l.height r.height + 1 := by
      cases hn <;> simp
    show aboveProducts (max ph.nesting (ph'.nesting + 4)) + 5 ≤ _
    rw [hHeight, aboveProducts]
    omega

/-- A call is read as something that is applied to its argument in parentheses. -/
theorem AreReadBack.call (hNumber : l.isNumber = false) (hl : AreReadBack units .opened l left)
    (hr : AreReadBack units .closed r right) :
    AreReadBack units .opened (.pair .call l r) (left ++ inParens right) := by
  intro tokens hTokens
  obtain ⟨ts, last, rfl, hLeft, hLast⟩ := hTokens.append
  obtain ⟨o, c, inner, rfl, hInner⟩ := hLast.inParens
  obtain ⟨ph, h⟩ := hl ts hLeft
  obtain ⟨ph', h'⟩ := hr inner hInner
  have hArgument := h'.opened.listed
  have hParens := (Phrase.IsStatements.isExpression hArgument.phrase).parens o c
  have hApplied := Phrase.IsProduct.applied h.phrase hParens (h.isNumber.trans hNumber) rfl
  refine ⟨_, h.tokens.append (h'.tokens.inParens o c), hApplied, ?_, rfl, ?_⟩
  · show (Node.pair .apply ph.node (.wrap .parens ph'.node o)).essence = _
    rw [Node.essence_pair, Node.essence_parens, h.essence, h'.essence]
    rfl
  · have hNesting : ph.nesting ≤ 21 * l.height + 2 := h.nesting
    have hNesting' : ph'.above.above.alone.above.nesting ≤ 21 * r.height + 8 := hArgument.nesting
    show max ph.nesting (ph'.above.above.alone.above.nesting + 4 + 4) ≤ 21 * _ + 2
    rw [Node.height_pair]
    omega

theorem AreReadBack.sequence (hl : AreReadBack units .listed l left)
    (hr : AreReadBack units .opened r right) :
    AreReadBack units .listed (.pair .statements l r)
      (left ++ .symbol .semicolon :: .space :: right) := by
  intro tokens hTokens
  obtain ⟨ts, last, rfl, hLeft, hLast⟩ := hTokens.append
  obtain ⟨p, last, rfl, hBlank⟩ := hLast.cons
  obtain ⟨q, ts', rfl, hRight⟩ := hBlank.cons
  obtain ⟨ph, h⟩ := hl ts hLeft
  obtain ⟨ph', h'⟩ := hr ts' hRight
  obtain ⟨hReads, hNesting'⟩ := h'.function
  have hStatements := Phrase.IsStatements.sequence p h.phrase hReads.assignment
  refine ⟨_, ?_, hStatements, ?_, rfl, ?_⟩
  · exact h.tokens.append ((squeezes_symbol (by decide) p).append
      ((squeezes_blank " " q).append h'.tokens))
  · show (Node.pair .statements ph.node ph'.node).essence = _
    rw [Node.essence_pair, Node.essence_pair, h.essence, h'.essence]
  · have hNesting : ph.nesting ≤ 21 * l.height + 8 := h.nesting
    show max ph.nesting (ph'.alone.nesting + 1) ≤ 21 * _ + 8
    rw [Node.height_pair]
    omega

-- ---------------------------------------------------------------------------
-- Trees
-- ---------------------------------------------------------------------------

/-- **The tokens of a printed tree are read back** as a tree with the same essence. -/
theorem Prints.areReadBack (units : List String) (h : Prints form n pieces) :
    AreReadBack units form n pieces := by
  induction h with
  | opened _ ih => exact ih.opened
  | listed _ ih => exact ih.listed
  | number p _ => exact areReadBack_number units _ _ p
  | string p _ => exact areReadBack_string units _ p
  | unit p => exact areReadBack_unit units p
  | ident p _ => exact areReadBack_ident units _ p
  | member p _ _ ih => exact ih.member _ p
  | parens p _ ih => exact ih.parens p
  | function p _ _ ih => exact ih.function _ p
  | factorial p _ ih => exact ih.factorial p
  | prefixed p hy _ ih =>
    obtain ⟨s, rfl, rfl⟩ := Grammar.Sign.of_mem hy
    exact ih.prefixed s p
  | assignment p _ _ ih => exact ih.assignment _ p
  | pow _ _ ihl ihr => exact (joins_pow units).areReadBack ihl ihr
  | product hy _ _ ihl ihr => exact (joins_product units hy).areReadBack ihl ihr
  | sum hy _ _ ihl ihr => exact (joins_sum units hy).areReadBack ihl ihr
  | adjoined hn hOne _ _ ihl ihr => exact ihl.adjoined hn hOne ihr
  | call hNumber _ _ ihl ihr => exact ihl.call hNumber ihr
  | sequence _ _ ihl ihr => exact ihl.sequence ihr

end Render

end Reckoner
