import Reckoner.Proofs.Grammar.Derivation
import Reckoner.Proofs.Lexer.Pieces
import Reckoner.Render.Parenthesised

/-!
# The pieces of parenthesised text

`Prints form n pieces` says that the parenthesised text of the tree `n` consists of the pieces, and in
which form: nearly every tree is closed, that is a leaf or between parentheses. A call has nothing
around it, and neither have statements. The relation holds only where each form is allowed: what is
juxtaposed, raised or negated is closed on its right, and statements stand between parentheses or
alone.

What is printed is both the text that is written and the tokens that the text is read as.

## Results

* `Prints.hasText` — the text of a tree that is printed, under every bound that allows its height.
* `Prints.spells`  — the text is tokenized to what its pieces stand for.
-/

namespace Reckoner

-- ---------------------------------------------------------------------------
-- Heights
-- ---------------------------------------------------------------------------

namespace Node

mutual

/-- The height of a tree. A leaf has height one. -/
def height : Node → Nat
  | mk _ _ _ _ cs => maxHeight cs + 1

/-- The greatest height of some trees. -/
def maxHeight : List Node → Nat
  | [] => 0
  | n :: ns => max (height n) (maxHeight ns)

end

variable (v : Payload) (x : String) (p : Place) (k : Kind) (op : Operator) (n m : Node)

@[simp] theorem height_number : (number v p).height = 1 := rfl
@[simp] theorem height_string : (string x p).height = 1 := rfl
@[simp] theorem height_unit : (unit p).height = 1 := rfl
@[simp] theorem height_ident : (ident x p).height = 1 := rfl

@[simp] theorem height_wrap : (wrap k n p).height = n.height + 1 := by
  simp [wrap, height, maxHeight]

@[simp] theorem height_named : (named k v n p).height = n.height + 1 := by
  simp [named, height, maxHeight]

@[simp] theorem height_pair : (pair k n m).height = max n.height m.height + 1 := by
  simp [pair, height, maxHeight]

@[simp] theorem height_binary : (binary op n m).height = max n.height m.height + 1 := by
  simp [binary, height, maxHeight]

theorem lt_maxHeight {d : Nat} {ns : List Node} : d < maxHeight ns ↔ ∃ n ∈ ns, d < n.height := by
  induction ns with
  | nil => simp [maxHeight]
  | cons n ns ih => simp [maxHeight, ih]

theorem height_eq : n.height = maxHeight n.children + 1 := by
  obtain ⟨k, v, t, p, cs⟩ := n
  rfl

theorem height_pos : 0 < n.height := by
  rw [height_eq]
  omega

/-- A node is higher than a bound where a child is higher than the bound below. -/
theorem succ_lt_height {n : Node} {d : Nat} : d + 1 < n.height ↔ ∃ c ∈ n.children, d < c.height := by
  rw [height_eq, Nat.succ_lt_succ_iff, lt_maxHeight]

/-- A child is less high than the node. -/
theorem height_lt_of_child {n c : Node} (hc : c ∈ n.children) : c.height < n.height := by
  have hPos := c.height_pos
  have hLess : c.height - 1 + 1 < n.height := succ_lt_height.mpr ⟨c, hc, by omega⟩
  omega

end Node

namespace Render

open Grammar (prefixes productOperators sumOperators)
open Lexer (AllRead IsName IsWritableText Piece blankStep spelled)

-- ---------------------------------------------------------------------------
-- Texts
-- ---------------------------------------------------------------------------

/-- The text of a tree. It is written under every bound that allows the height of the tree, and a
smaller bound can do no more than to be exhausted. -/
def HasText (n : Node) (text : String) : Prop :=
  ∀ depth, (n.height ≤ depth → parenthesised depth n = .ok text) ∧
    (parenthesised depth n = .ok text ∨ parenthesised depth n = .error .tooDeep)

variable {n m l r : Node} {a b : String}

theorem hasText_leaf (h : ∀ text, parenthesisedNode text n = .ok a) : HasText n a := by
  intro depth
  cases depth with
  | zero => exact ⟨fun hn => absurd hn (by have := n.height_pos; omega), Or.inr rfl⟩
  | succ depth => exact ⟨fun _ => h _, Or.inl (h _)⟩

/-- A text is put around that of a child. -/
theorem HasText.around (h : HasText m a) (put : String → String) (hHeight : n.height = m.height + 1)
    (hNode : ∀ text, parenthesisedNode text n = (do return put (← text m))) : HasText n (put a) := by
  intro depth
  cases depth with
  | zero => exact ⟨fun hn => absurd hn (by omega), Or.inr rfl⟩
  | succ depth =>
    obtain ⟨hWithin, hAlways⟩ := h depth
    rw [parenthesised, hNode]
    refine ⟨fun hn => ?_, ?_⟩
    · rw [hWithin (by omega)]
      rfl
    · rcases hAlways with hText | hDeep
      · exact Or.inl (by rw [hText]; rfl)
      · exact Or.inr (by rw [hDeep]; rfl)

/-- The texts of two children are joined. -/
theorem HasText.join (hl : HasText l a) (hr : HasText r b) (join : String → String → String)
    (hHeight : n.height = max l.height r.height + 1)
    (hNode : ∀ text, parenthesisedNode text n =
      (do let left ← text l; let right ← text r; return join left right)) :
    HasText n (join a b) := by
  intro depth
  cases depth with
  | zero => exact ⟨fun hn => absurd hn (by omega), Or.inr rfl⟩
  | succ depth =>
    obtain ⟨hWithin, hAlways⟩ := hl depth
    obtain ⟨hWithin', hAlways'⟩ := hr depth
    rw [parenthesised, hNode]
    refine ⟨fun hn => ?_, ?_⟩
    · rw [hWithin (by omega), hWithin' (by omega)]
      rfl
    · rcases hAlways with hText | hDeep
      · rcases hAlways' with hText' | hDeep'
        · exact Or.inl (by rw [hText, hText']; rfl)
        · exact Or.inr (by rw [hText, hDeep']; rfl)
      · exact Or.inr (by rw [hDeep]; rfl)

-- ---------------------------------------------------------------------------
-- What is printed
-- ---------------------------------------------------------------------------

/-- Pieces between parentheses. -/
def inParens (pieces : List Piece) : List Piece :=
  .symbol .openParens :: (pieces ++ [.symbol .closeParens])

/-- Two lists of pieces with a symbol between them, and blanks around the symbol. -/
def between (y : Symbol) (left right : List Piece) : List Piece :=
  inParens (left ++ .space :: .symbol y :: .space :: right)

/-- How a text stands: alone or between parentheses, as a call, or as statements. -/
inductive Form where
  | closed | opened | listed
  deriving DecidableEq

/-- The nodes that are written as two texts with a blank between them. -/
inductive Adjoins (l r : Node) : Node → Prop where
  | apply : Adjoins l r (.pair .apply l r)
  | product : Adjoins l r (.pair .product l r)
  | compound : Adjoins l r (.binary .implicitPlus l r)

/-- The pieces of a tree. -/
inductive Prints : Form → Node → List Piece → Prop where
  | opened {n : Node} {pieces : List Piece} (h : Prints .closed n pieces) : Prints .opened n pieces
  | listed {n : Node} {pieces : List Piece} (h : Prints .opened n pieces) : Prints .listed n pieces
  -- leaves
  | number {num : Numeral} {q : ℚ} (p : Place) (h : num.Writes q) :
      Prints .closed (.number (.fraction q) p) [.number num q]
  | string {s : String} (p : Place) (h : IsWritableText s) : Prints .closed (.string s p) [.string s]
  | unit (p : Place) : Prints .closed (.unit p) (inParens [])
  | ident {x : String} (p : Place) (h : IsName x) : Prints .closed (.ident x p) [.ident x]
  -- one child
  | member {x : String} {n : Node} {pieces : List Piece} (p : Place) (hx : IsName x)
      (h : Prints .closed n pieces) :
      Prints .closed (.named .member (.text x) n p) (between .of [.ident x] pieces)
  | parens {n : Node} {pieces : List Piece} (p : Place) (h : Prints .listed n pieces) :
      Prints .closed (.wrap .parens n p) (inParens pieces)
  | function {x : String} {n : Node} {pieces : List Piece} (p : Place) (hx : IsName x)
      (h : Prints .opened n pieces) :
      Prints .closed (.named .function (.text x) n p)
        (inParens (.symbol .backslash :: .ident x :: .symbol .dot :: pieces))
  | factorial {n : Node} {pieces : List Piece} (p : Place) (h : Prints .closed n pieces) :
      Prints .closed (.wrap .factorial n p) (inParens (pieces ++ [.symbol .factorial]))
  | prefixed {n : Node} {pieces : List Piece} {y : Symbol} {k : Kind} (p : Place)
      (hy : (y, k) ∈ prefixes) (h : Prints .closed n pieces) :
      Prints .closed (.wrap k n p) (inParens (.symbol y :: pieces))
  | assignment {x : String} {n : Node} {pieces : List Piece} (p : Place) (hx : IsName x)
      (h : Prints .opened n pieces) :
      Prints .closed (.named .assignment (.text x) n p) (between .equals [.ident x] pieces)
  -- two children
  | pow {l r : Node} {left right : List Piece} (hl : Prints .closed l left)
      (hr : Prints .closed r right) : Prints .closed (.binary .pow l r) (between .pow left right)
  | product {l r : Node} {left right : List Piece} {y : Symbol} {op : Operator}
      (hy : (y, op) ∈ productOperators) (hl : Prints .opened l left) (hr : Prints .closed r right) :
      Prints .closed (.binary op l r) (between y left right)
  | sum {l r : Node} {left right : List Piece} {y : Symbol} {build : Node → Node → Node}
      (hy : (y, build) ∈ sumOperators) (hl : Prints .opened l left) (hr : Prints .opened r right) :
      Prints .closed (build l r) (between y left right)
  | adjoined {l r n : Node} {left right : List Piece} (hn : Adjoins l r n)
      (hOne : l.isNumber = false ∨ r.isNumber = false) (hl : Prints .opened l left)
      (hr : Prints .closed r right) : Prints .closed n (inParens (left ++ .space :: right))
  | call {l r : Node} {left right : List Piece} (hNumber : l.isNumber = false)
      (hl : Prints .opened l left) (hr : Prints .closed r right) :
      Prints .opened (.pair .call l r) (left ++ inParens right)
  | sequence {l r : Node} {left right : List Piece} (hl : Prints .listed l left)
      (hr : Prints .opened r right) :
      Prints .listed (.pair .statements l r) (left ++ .symbol .semicolon :: .space :: right)

variable {form : Form} {pieces left right : List Piece}

/-- What has no text between parentheses is a call. -/
theorem Prints.closed_of_kind_ne (h : Prints .opened n pieces) (hn : n.kind ≠ .call) :
    Prints .closed n pieces := by
  cases h with
  | opened h => exact h
  | call _ _ _ => exact absurd rfl hn

-- ---------------------------------------------------------------------------
-- What is written
-- ---------------------------------------------------------------------------

@[simp] theorem spelled_inParens (pieces : List Piece) :
    spelled (inParens pieces) = '(' :: (spelled pieces ++ [')']) := by
  simp [inParens, Piece.symbol, Symbol.display]

@[simp] theorem spelled_between (y : Symbol) (left right : List Piece) :
    spelled (between y left right) =
      '(' :: (spelled left ++ ' ' :: (y.display.toList ++ ' ' :: (spelled right ++ [')']))) := by
  simp [between, Piece.space, Piece.symbol]

theorem literal_number (v : Payload) (p : Place) : literal (.number v p) = ofDigits (formatNumber v) :=
  rfl

theorem hasText_number {v : Payload} {text : String} (p : Place) (h : formatNumber v = .ok text) :
    HasText (.number v p) text := by
  refine hasText_leaf fun _ => ?_
  show literal (.number v p) = .ok text
  rw [literal_number, h]
  rfl

theorem hasText_string (s : String) (p : Place) : HasText (.string s p) (Json.writeString s) := by
  refine hasText_leaf fun _ => ?_
  show literal (.string s p) = _
  simp [literal, Node.string, Payload.text, Json.write]

theorem append_to (a : String) : a ++ " " ++ "to" ++ " " = a ++ " to " :=
  String.toList_inj.mp (by simp)

/-- **The text of a tree** consists of its pieces. -/
theorem Prints.hasText (h : Prints form n pieces) :
    ∃ text, HasText n text ∧ text.toList = spelled pieces := by
  induction h with
  | opened _ ih => exact ih
  | listed _ ih => exact ih
  | number p h =>
    obtain ⟨text, hText, hChars⟩ := h.text
    exact ⟨text, hasText_number p hText, by simp [hChars, Piece.number]⟩
  | @string s p h => exact ⟨_, hasText_string s p, by simp [Piece.string]⟩
  | unit p => exact ⟨"()", hasText_leaf fun _ => rfl, by simp⟩
  | @ident x p h => exact ⟨x, hasText_leaf fun _ => rfl, by simp [Piece.ident]⟩
  | @member x n pieces p hx h ih =>
    obtain ⟨a, ha, hChars⟩ := ih
    refine ⟨_, ha.around (fun a => "(" ++ x ++ " of " ++ a ++ ")") (by simp) fun _ => rfl, ?_⟩
    simp [hChars, Piece.ident, Symbol.display]
  | parens p h ih =>
    obtain ⟨a, ha, hChars⟩ := ih
    refine ⟨_, ha.around (fun a => "(" ++ a ++ ")") (by simp) fun _ => rfl, ?_⟩
    simp [hChars]
  | @function x n pieces p hx h ih =>
    obtain ⟨a, ha, hChars⟩ := ih
    refine ⟨_, ha.around (fun a => "(\\" ++ x ++ "." ++ a ++ ")") (by simp) fun _ => rfl, ?_⟩
    simp [hChars, Piece.ident, Piece.symbol, Symbol.display]
  | factorial p h ih =>
    obtain ⟨a, ha, hChars⟩ := ih
    refine ⟨_, ha.around (fun a => "(" ++ a ++ "!)") (by simp) fun _ => rfl, ?_⟩
    simp [hChars, Piece.symbol, Symbol.display]
  | @prefixed n pieces y k p hy h ih =>
    obtain ⟨a, ha, hChars⟩ := ih
    refine ⟨_, ha.around (fun a => "(" ++ y.display ++ a ++ ")") (by simp) fun _ => ?_, ?_⟩
    · rcases Grammar.prefixes_cases hy with ⟨rfl, rfl⟩ | ⟨rfl, rfl⟩ | ⟨rfl, rfl⟩ <;> rfl
    · simp [hChars, Piece.symbol]
  | @assignment x n pieces p hx h ih =>
    obtain ⟨a, ha, hChars⟩ := ih
    refine ⟨_, ha.around (fun a => "(" ++ x ++ " = " ++ a ++ ")") (by simp) fun _ => rfl, ?_⟩
    simp [hChars, Piece.ident, Symbol.display]
  | pow hl hr ihl ihr =>
    obtain ⟨a, ha, hChars⟩ := ihl
    obtain ⟨b, hb, hChars'⟩ := ihr
    refine ⟨_, ha.join hb (fun a b => "(" ++ a ++ " " ++ "^" ++ " " ++ b ++ ")") (by simp)
      fun _ => rfl, ?_⟩
    simp [hChars, hChars', Symbol.display]
  | @product l r left right y op hy hl hr ihl ihr =>
    obtain ⟨a, ha, hChars⟩ := ihl
    obtain ⟨b, hb, hChars'⟩ := ihr
    refine ⟨_, ha.join hb (fun a b => "(" ++ a ++ " " ++ y.display ++ " " ++ b ++ ")") (by simp)
      fun _ => ?_, ?_⟩
    · rcases Grammar.productOperators_cases hy with ⟨rfl, rfl⟩ | ⟨rfl, rfl⟩ | ⟨rfl, rfl⟩ <;> rfl
    · simp [hChars, hChars']
  | @sum l r left right y build hy hl hr ihl ihr =>
    obtain ⟨a, ha, hChars⟩ := ihl
    obtain ⟨b, hb, hChars'⟩ := ihr
    refine ⟨_, ha.join hb (fun a b => "(" ++ a ++ " " ++ y.display ++ " " ++ b ++ ")") ?_
      fun _ => ?_, ?_⟩
    · rcases Grammar.sumOperators_cases hy with ⟨-, rfl⟩ | ⟨-, rfl⟩ | ⟨-, rfl⟩ <;> simp
    · rcases Grammar.sumOperators_cases hy with ⟨rfl, rfl⟩ | ⟨rfl, rfl⟩ | ⟨rfl, rfl⟩
      · rfl
      · rfl
      · simp only [Symbol.display, append_to]
        rfl
    · simp [hChars, hChars']
  | @adjoined l r n left right hn hOne hl hr ihl ihr =>
    obtain ⟨a, ha, hChars⟩ := ihl
    obtain ⟨b, hb, hChars'⟩ := ihr
    refine ⟨_, ha.join hb (fun a b => "(" ++ a ++ " " ++ b ++ ")") ?_ fun _ => ?_, ?_⟩
    · cases hn <;> simp
    · cases hn <;> rfl
    · simp [hChars, hChars', Piece.space]
  | call hNumber hl hr ihl ihr =>
    obtain ⟨a, ha, hChars⟩ := ihl
    obtain ⟨b, hb, hChars'⟩ := ihr
    refine ⟨_, ha.join hb (fun a b => a ++ "(" ++ b ++ ")") (by simp) fun _ => rfl, ?_⟩
    simp [hChars, hChars']
  | sequence hl hr ihl ihr =>
    obtain ⟨a, ha, hChars⟩ := ihl
    obtain ⟨b, hb, hChars'⟩ := ihr
    refine ⟨_, ha.join hb (fun a b => a ++ "; " ++ b) (by simp) fun _ => rfl, ?_⟩
    simp [hChars, hChars', Piece.space, Piece.symbol, Symbol.display]

-- ---------------------------------------------------------------------------
-- What is read
-- ---------------------------------------------------------------------------

/-- What may follow the text of a tree. -/
def Follows (rest : List Char) : Prop :=
  ∀ c ∈ rest.head?, c ∈ [' ', '(', ')', '!', ';']

theorem follows_cons {c : Char} (hc : c ∈ [' ', '(', ')', '!', ';']) (rest : List Char) :
    Follows (c :: rest) := by
  intro d hd
  obtain rfl : c = d := Option.some.inj hd
  exact hc

theorem Follows.not_isWordChar {rest : List Char} (h : Follows rest) :
    ∀ c ∈ rest.head?, Lexer.isWordChar c = false := by
  have hAll : ∀ c ∈ [' ', '(', ')', '!', ';'], Lexer.isWordChar c = false :=
    List.all_iff_forall_prop.mp (by decide +kernel)
  exact fun c hc => hAll c (h c hc)

theorem Follows.endsNumeral {rest : List Char} (h : Follows rest) : EndsNumeral rest := by
  have hAll : ∀ c ∈ [' ', '(', ')', '!', ';'],
      Unicode.isDecimalDigit c = false ∧ c ≠ '.' ∧ c ≠ 'e' ∧ c ≠ 'E' :=
    List.all_iff_forall_prop.mp (by decide +kernel)
  exact fun c hc => hAll c (h c hc)

/-- A text that a blank may stand in front of. -/
def Begins (pieces : List Piece) : Prop :=
  ∃ c, (spelled pieces).head? = some c ∧ (blankStep false c).isSome = false

theorem Begins.append (h : Begins left) (right : List Piece) : Begins (left ++ right) := by
  obtain ⟨c, hLeft, hc⟩ := h
  exact ⟨c, by simp [hLeft], hc⟩

theorem begins_number {num : Numeral} {q : ℚ} (h : num.Writes q) : Begins [.number num q] := by
  obtain ⟨d, ds, hWhole⟩ := List.exists_cons_of_ne_nil h.regular.nonempty
  have hd := isDecimalDigit_of_isDigit
    (h.regular.whole d (by rw [hWhole]; exact List.mem_cons_self))
  exact ⟨d, by simp [Piece.number, Numeral.text, hWhole], (Lexer.isDecimalDigit_start hd).1⟩

theorem begins_ident {x : String} (h : IsName x) : Begins [.ident x] := by
  cases h with
  | @word c cs hStart _ _ =>
    exact ⟨c, by simp [Piece.ident], Lexer.blankStep_of_isWordStart hStart⟩
  | @unit c hc =>
    have hAll : ∀ d ∈ Lexer.unitChars, (blankStep false d).isSome = false :=
      List.all_iff_forall_prop.mp (by decide)
    exact ⟨c, by simp [Piece.ident], hAll c hc⟩

/-- The pieces of a tree are read in front of whatever may follow them. -/
structure Spells (pieces : List Piece) : Prop where
  begins : Begins pieces
  reads : ∀ rest, Follows rest → AllRead pieces rest

theorem reads_space (h : Begins pieces) (rest : List Char) :
    Piece.space.Reads (spelled pieces ++ rest) := by
  obtain ⟨c, hPieces, hc⟩ := h
  refine Piece.reads_space fun d hd => ?_
  rw [List.head?_append, hPieces] at hd
  obtain rfl : c = d := Option.some.inj hd
  exact hc

/-- Pieces behind a blank. -/
theorem Spells.behindSpace (h : Spells pieces) {rest : List Char} (hRest : Follows rest) :
    AllRead (.space :: pieces) rest :=
  ⟨reads_space h.begins rest, h.reads rest hRest⟩

/-- A symbol is read whatever follows it, if it ends by itself. -/
theorem allRead_symbol {y : Symbol} (hy : y ∈ Lexer.selfEnding) {rest : List Char}
    (h : AllRead pieces rest) : AllRead (.symbol y :: pieces) rest := by
  refine ⟨Piece.reads_symbol ?_ fun hNot => absurd hy hNot, h⟩
  rintro rfl
  exact absurd hy (by decide)

theorem spells_inParens (h : ∀ rest, AllRead pieces (')' :: rest)) : Spells (inParens pieces) := by
  refine ⟨⟨'(', by simp, by decide⟩, fun rest _ => ?_⟩
  refine allRead_symbol (by decide) (Lexer.allRead_append.mpr ⟨h rest, ?_⟩)
  exact allRead_symbol (by decide) trivial

/-- Two texts with a symbol between them. -/
theorem Spells.between {y : Symbol} (hy : y ≠ .arrow) (hl : Spells left) (hr : Spells right) :
    Spells (between y left right) := by
  refine spells_inParens fun rest => ?_
  have hRight := hr.behindSpace (follows_cons (c := ')') (by decide) rest)
  have hSymbol : AllRead (.symbol y :: .space :: right) (')' :: rest) := by
    refine ⟨Piece.reads_symbol hy fun _ c hc => ?_, hRight⟩
    obtain rfl : ' ' = c := Option.some.inj hc
    rfl
  have hBlank : Piece.space.Reads (spelled (.symbol y :: .space :: right) ++ ')' :: rest) := by
    refine Piece.reads_space ?_
    cases y <;> (intro c hc; obtain rfl := Option.some.inj hc; decide)
  refine Lexer.allRead_append.mpr ⟨hl.reads _ ?_, hBlank, hSymbol⟩
  exact follows_cons (by decide) _

theorem spells_ident {x : String} (hx : IsName x) : Spells [.ident x] :=
  ⟨begins_ident hx, fun _ hRest => ⟨Piece.reads_ident hx hRest.not_isWordChar, trivial⟩⟩

/-- **The text of a tree is tokenized to what its pieces stand for.** -/
theorem Prints.spells (h : Prints form n pieces) : Spells pieces := by
  induction h with
  | opened _ ih => exact ih
  | listed _ ih => exact ih
  | number p h =>
    exact ⟨begins_number h, fun rest hRest =>
      ⟨Piece.reads_number h.regular h.value hRest.endsNumeral, trivial⟩⟩
  | @string s p h =>
    refine ⟨⟨'"', ?_, by decide⟩, fun rest _ => ⟨Piece.reads_string h, trivial⟩⟩
    simp [Piece.string, Json.writeString]
  | unit p => exact spells_inParens fun _ => trivial
  | ident p h => exact spells_ident h
  | member p hx h ih => exact (spells_ident hx).between (by decide) ih
  | parens p h ih => exact spells_inParens fun rest => ih.reads _ (follows_cons (by decide) rest)
  | @function x n pieces p hx h ih =>
    refine spells_inParens fun rest => allRead_symbol (by decide) ⟨?_, ?_⟩
    · refine Piece.reads_ident hx fun c hc => ?_
      obtain rfl : '.' = c := Option.some.inj hc
      decide +kernel
    · exact allRead_symbol (by decide) (ih.reads _ (follows_cons (by decide) rest))
  | factorial p h ih =>
    refine spells_inParens fun rest => Lexer.allRead_append.mpr ⟨?_, ?_⟩
    · exact ih.reads _ (follows_cons (by decide) _)
    · exact allRead_symbol (by decide) trivial
  | prefixed p hy h ih =>
    refine spells_inParens fun rest => allRead_symbol ?_ ?_
    · rcases Grammar.prefixes_cases hy with ⟨rfl, -⟩ | ⟨rfl, -⟩ | ⟨rfl, -⟩ <;> decide
    · exact ih.reads _ (follows_cons (by decide) rest)
  | assignment p hx h ih => exact (spells_ident hx).between (by decide) ih
  | pow hl hr ihl ihr => exact ihl.between (by decide) ihr
  | product hy hl hr ihl ihr =>
    refine ihl.between ?_ ihr
    rcases Grammar.productOperators_cases hy with ⟨rfl, -⟩ | ⟨rfl, -⟩ | ⟨rfl, -⟩ <;> decide
  | sum hy hl hr ihl ihr =>
    refine ihl.between ?_ ihr
    rcases Grammar.sumOperators_cases hy with ⟨rfl, -⟩ | ⟨rfl, -⟩ | ⟨rfl, -⟩ <;> decide
  | adjoined hn hOne hl hr ihl ihr =>
    refine spells_inParens fun rest => Lexer.allRead_append.mpr ⟨?_, ?_⟩
    · exact ihl.reads _ (follows_cons (by decide) _)
    · exact ihr.behindSpace (follows_cons (by decide) rest)
  | call hNumber hl hr ihl ihr =>
    have hRight := spells_inParens fun rest => ihr.reads _ (follows_cons (by decide) rest)
    refine ⟨ihl.begins.append _, fun rest hRest => Lexer.allRead_append.mpr ⟨?_, ?_⟩⟩
    · rw [spelled_inParens]
      exact ihl.reads _ (follows_cons (by decide) _)
    · exact hRight.reads rest hRest
  | sequence hl hr ihl ihr =>
    refine ⟨ihl.begins.append _, fun rest hRest => Lexer.allRead_append.mpr ⟨?_, ?_⟩⟩
    · exact ihl.reads _ (follows_cons (by decide) _)
    · exact allRead_symbol (by decide) (ihr.behindSpace hRest)

end Render

end Reckoner
