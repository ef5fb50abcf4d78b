import Reckoner.Proofs.Grammar.Rows

/-!
# Precedence

Expressions of operators only: atoms, each between prefix operators and some `!`, with operators
between them. Such a chain may be as long as one likes, and its atoms may hold chains in turn. It is
parsed as precedence says, with the same tree for every set of prefix units: no mixed fraction,
juxtaposition or compound quantity is found in it.

The bound on the nesting is the only thing that can stop it. How deep a nesting a chain needs does
not depend on how many terms and factors it has (`Chain.nesting_le_of_flat`).

## Results

* `Chain.reads`              — each operand of a chain is read on its own.
* `parseWithin_chain`        — a chain is parsed as its reading by precedence.
* `Chain.nesting_le_of_flat` — the length of a chain adds nothing to the nesting that it needs.
-/

namespace Reckoner

namespace Grammar

-- ---------------------------------------------------------------------------
-- Chains
-- ---------------------------------------------------------------------------

mutual

/-- A number, a string, an identifier, `()`, `name of atom`, or a chain in parentheses. -/
inductive Atom where
  | number (v : Payload) (p : Place)
  | string (x : String) (p : Place)
  | ident (x : String) (p : Place)
  | unit (p q : Place)
  | member (x : String) (p q : Place) (inner : Atom)
  | parens (p q : Place) (inner : Chain)

/-- An atom between prefix operators and some `!`. -/
inductive Operand where
  | mk (signs : List (Sign × Place)) (atom : Atom) (bangs : List Place)

/-- Operands with operators between them. -/
inductive Chain where
  | last (o : Operand)
  | link (o : Operand) (op : Binop) (p : Place) (rest : Chain)

end

mutual

/-- The tokens, the tree and the nesting of an atom. -/
def Atom.phrase : Atom → Phrase
  | .number v p => .number v p
  | .string x p => .string x p
  | .ident x p => .ident x p
  | .unit p q => .unit p q
  | .member x p q inner => .member x p q inner.phrase
  | .parens p q inner => .parens p q inner.row.phrase.above.above.above

def Operand.part : Operand → Part
  | .mk signs atom bangs => atom.phrase.part signs bangs

/-- The row of the operands of a chain. -/
def Chain.row : Chain → Row Part
  | .last o => ⟨o.part, []⟩
  | .link o op p rest => ⟨o.part, ⟨op, p, rest.row.head⟩ :: rest.row.tail⟩

end

namespace Chain

def phrase (c : Chain) : Phrase :=
  c.row.phrase.above.above.above

def tokens (c : Chain) : List Token :=
  c.row.tokens Part.tokens

/-- The tree of a chain by precedence. -/
def tree (c : Chain) : Node :=
  c.row.sum

def nesting (c : Chain) : Nat :=
  c.phrase.nesting

end Chain

-- ---------------------------------------------------------------------------
-- Reading chains
-- ---------------------------------------------------------------------------

mutual

theorem Atom.reads (units : List String) : (a : Atom) → a.phrase.IsPrimary units
  | .number v p => by
    rw [Atom.phrase]
    exact Phrase.isPrimary_number v p
  | .string x p => by
    rw [Atom.phrase]
    exact Phrase.isPrimary_string x p
  | .ident x p => by
    rw [Atom.phrase]
    exact Phrase.isPrimary_ident x p
  | .unit p q => by
    rw [Atom.phrase]
    exact Phrase.isPrimary_unit p q
  | .member x p q inner => by
    rw [Atom.phrase]
    exact (inner.reads units).member x p q
  | .parens p q inner => by
    have hAssignment := (inner.reads units).reads_function.assignment
    rw [Atom.phrase]
    exact hAssignment.isStatements.isExpression.parens p q

theorem Operand.reads (units : List String) : (o : Operand) → o.part.Reads units
  | .mk signs atom bangs => by
    rw [Operand.part]
    exact (atom.reads units).part signs bangs

/-- Each operand of a chain is read on its own. -/
theorem Chain.reads (units : List String) : (c : Chain) → c.row.All (Part.Reads units) fun _ => True
  | .last o => by
    rw [Chain.row]
    exact ⟨o.reads units, by simp⟩
  | .link o op p rest => by
    obtain ⟨hHead, hTail⟩ := rest.reads units
    rw [Chain.row]
    refine ⟨o.reads units, fun l hl => ?_⟩
    rcases List.mem_cons.mp hl with rfl | hl
    · exact ⟨trivial, hHead⟩
    · exact hTail l hl

end

-- ---------------------------------------------------------------------------
-- Parsing chains
-- ---------------------------------------------------------------------------

/-- A chain is a whole expression. -/
theorem Chain.isExpression (units : List String) (c : Chain) :
    c.row.phrase.above.above.above.IsExpression units :=
  (c.reads units).reads_function.assignment.isStatements.isExpression

/-- **A chain is parsed as precedence says**, whatever the prefix units: under a bound that allows
its nesting it has its tree, and a smaller bound can do no more than to be exhausted. -/
theorem parseWithin_chain (units : List String) (c : Chain) (depth : Nat) :
    (c.nesting ≤ depth → (parseWithin depth units c.tokens).result = .ok c.tree) ∧
      ((parseWithin depth units c.tokens).result = .ok c.tree ∨
        (parseWithin depth units c.tokens).result = .error (.error .tooDeep)) :=
  (c.isExpression units).parseWithin depth

/-- `-2 ^ -x! / (1 - 2 - 3) % y of "z" to m`, under the bound that the program has. -/
theorem mixed_chain_parses :
    let inner : Chain :=
      .link (.mk [] (.number (.fraction 1) ⟨1, 13⟩) []) .sub ⟨1, 15⟩
        (.link (.mk [] (.number (.fraction 2) ⟨1, 17⟩) []) .sub ⟨1, 19⟩
          (.last (.mk [] (.number (.fraction 3) ⟨1, 21⟩) [])))
    let c : Chain :=
      .link (.mk [(.minus, ⟨1, 1⟩)] (.number (.fraction 2) ⟨1, 2⟩) []) .pow ⟨1, 4⟩
        (.link (.mk [(.minus, ⟨1, 6⟩)] (.ident "x" ⟨1, 7⟩) [⟨1, 8⟩]) .div ⟨1, 10⟩
          (.link (.mk [] (.parens ⟨1, 12⟩ ⟨1, 22⟩ inner) []) .mod ⟨1, 24⟩
            (.link (.mk [] (.member "y" ⟨1, 26⟩ ⟨1, 28⟩ (.string "z" ⟨1, 31⟩)) []) .conversion
              ⟨1, 35⟩ (.last (.mk [] (.ident "m" ⟨1, 38⟩) [])))))
    c.nesting ≤ maxNesting ∧ (parseWithin maxNesting [] c.tokens).result = .ok c.tree := by
  intro inner c
  have h : c.nesting ≤ maxNesting := by decide
  exact ⟨h, (parseWithin_chain [] c maxNesting).1 h⟩

/-- **Length adds no nesting**: a chain without `^` needs what its operands need, however many there
are. -/
theorem Chain.nesting_le_of_flat {c : Chain} {k : Nat}
    (h : c.row.All (fun a => powerNesting a [] ≤ k) (· ≠ .pow)) :
    c.nesting ≤ Phrase.aboveProducts k + 3 := by
  have hRow : c.row.phrase.nesting ≤ Phrase.aboveProducts k :=
    Phrase.aboveProducts_mono (Row.nesting_le_of_flat h)
  exact Nat.add_le_add_right hRow 3

end Grammar

end Reckoner
