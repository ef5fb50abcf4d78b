import Reckoner.Proofs.Grammar.Rows

/-!
# Every expression can be written

Expressions with parentheses around every operand that is more than a leaf. The tokens of such an
expression are parsed to the expression again, whatever its operands hold: an operand ends at its
own closing parenthesis, so no rule that goes on as long as it can takes a token that is not its own.

An expression is written with one operator, one `name of`, one juxtaposition, or as a function, an
assignment or a list of statements. The types keep to what can be written: a function has no bare
assignment as its body, and two bare numbers are not juxtaposed, for these would be left to a mixed
fraction.

## Results

* `Expr.used_eq`        — the tokens of an expression are the same for all prefix units.
* `Expr.reads`          — the statements of an expression are read back.
* `parseWithin_written` — the tokens of an expression are parsed to its tree.
-/

namespace Reckoner

namespace Grammar

-- ---------------------------------------------------------------------------
-- One operator
-- ---------------------------------------------------------------------------

namespace Phrase

variable {units : List String} {ph l r : Phrase}

def single (ph : Phrase) : Phrase :=
  ⟨ph.used, ph.node, aboveProducts (ph.nesting + 2)⟩

def prefixed (s : Sign) (p : Place) (ph : Phrase) : Phrase :=
  ⟨⟨.symbol s.symbol, p⟩ :: ph.used, .wrap s.kind ph.node p, aboveProducts (ph.nesting + 3)⟩

def factorial (ph : Phrase) (p : Place) : Phrase :=
  ⟨ph.used ++ [⟨.symbol .factorial, p⟩], .wrap .factorial ph.node .unknown,
    aboveProducts (ph.nesting + 2)⟩

def binary (op : Binop) (p : Place) (l r : Phrase) : Phrase :=
  ⟨l.used ++ ⟨.symbol op.symbol, p⟩ :: r.used, op.build l.node r.node,
    aboveProducts (max l.nesting r.nesting + 3)⟩

/-- What is written as a row of operands is read back. -/
theorem Reads.of_row (row : Row Part) (h : row.All (Part.Reads units) fun _ => True)
    (hUsed : row.tokens Part.tokens = ph.used) (hNode : row.sum = ph.node)
    (hNesting : aboveProducts row.nesting ≤ ph.nesting) :
    ph.Reads units Layers.function .function := by
  have hReads := h.reads_function
  refine ⟨hUsed ▸ hReads.plain, fun rest hRest => ?_⟩
  rw [← hUsed, ← hNode]
  exact ((within_below units hNesting).function _).ok (hReads.reads rest hRest)

theorem IsPrimary.single (h : ph.IsPrimary units) :
    ph.single.Reads units Layers.function .function := by
  refine .of_row ⟨ph.part [] [], []⟩ ⟨h.part [] [], by simp⟩ ?_ rfl ?_
  · simp [Row.tokens, Part.tokens, Phrase.part, signTokens, bangTokens, Phrase.single]
  · refine aboveProducts_mono ?_
    show 0 + (ph.nesting + 1 + 1) ≤ ph.nesting + 2
    omega

theorem IsPrimary.prefixed (s : Sign) (p : Place) (h : ph.IsPrimary units) :
    (ph.prefixed s p).Reads units Layers.function .function := by
  refine .of_row ⟨ph.part [(s, p)] [], []⟩ ⟨h.part [(s, p)] [], by simp⟩ ?_ rfl ?_
  · simp [Row.tokens, Part.tokens, Phrase.part, signTokens, bangTokens, Phrase.prefixed]
  · refine aboveProducts_mono ?_
    show 1 + (ph.nesting + 1 + 1) ≤ ph.nesting + 3
    omega

theorem IsPrimary.factorial (p : Place) (h : ph.IsPrimary units) :
    (ph.factorial p).Reads units Layers.function .function := by
  refine .of_row ⟨ph.part [] [p], []⟩ ⟨h.part [] [p], by simp⟩ ?_ rfl ?_
  · simp [Row.tokens, Part.tokens, Phrase.part, signTokens, bangTokens, Phrase.factorial]
  · refine aboveProducts_mono ?_
    show 0 + (ph.nesting + 1 + 1) ≤ ph.nesting + 2
    omega

theorem IsPrimary.binary (op : Binop) (p : Place) (hl : l.IsPrimary units)
    (hr : r.IsPrimary units) : (Phrase.binary op p l r).Reads units Layers.function .function := by
  have hRow : Row.All (Part.Reads units) (fun _ => True)
      ⟨l.part [] [], [⟨op, p, r.part [] []⟩]⟩ := by
    refine ⟨hl.part [] [], ?_⟩
    intro link hLink
    obtain rfl := List.mem_singleton.mp hLink
    exact ⟨trivial, hr.part [] []⟩
  refine .of_row _ hRow ?_ ?_ (aboveProducts_mono ?_)
  · simp [Row.tokens, Link.tokens, Part.tokens, Phrase.part, signTokens, bangTokens, Phrase.binary]
  · cases op <;> rfl
  · cases op <;>
      simp [Row.nesting, Row.split, Row.splitFrom, Row.sup, Binop.isSum, Binop.isProduct,
        powerNesting, Phrase.part] <;>
      omega

end Phrase

-- ---------------------------------------------------------------------------
-- Written expressions
-- ---------------------------------------------------------------------------

namespace Written

mutual

/-- A leaf other than a number, or an expression in parentheses. -/
inductive Simple where
  | string (x : String) (p : Place)
  | ident (x : String) (p : Place)
  | unit (p q : Place)
  | parens (p q : Place) (inner : Expr)

inductive Item where
  | number (v : Payload) (p : Place)
  | simple (s : Simple)

/-- An expression that is neither an assignment nor a list of statements. A function is written as
`\x.body` or as `x => body`. -/
inductive Body where
  | item (i : Item)
  | binary (l : Item) (op : Binop) (p : Place) (r : Item)
  | prefixed (s : Sign) (p : Place) (i : Item)
  | factorial (i : Item) (p : Place)
  | member (x : String) (p q : Place) (i : Item)
  | times (v : Payload) (p : Place) (r : Simple)
  | applied (l : Simple) (r : Item)
  | lambda (x : String) (p q r : Place) (body : Body)
  | arrow (x : String) (p q : Place) (body : Body)

/-- An expression that is no list of statements. -/
inductive Value where
  | body (b : Body)
  | assign (x : String) (p q : Place) (value : Value)

/-- An expression: one statement, or several that are nested to the left. -/
inductive Expr where
  | value (v : Value)
  | sequence (first : Expr) (p : Place) (second : Value)

end

/-- The kind of node that a juxtaposition makes when something other than a number comes first. -/
def Simple.kindBefore (units : List String) : Simple → Item → Kind
  | .ident x _, .number _ _ => if units.contains x then .apply else .call
  | _, .number _ _ => .call
  | _, .simple _ => .apply

mutual

/-- The tokens, the tree and the nesting of an expression, and of each of its parts. -/
def Simple.phrase (units : List String) : Simple → Phrase
  | .string x p => .string x p
  | .ident x p => .ident x p
  | .unit p q => .unit p q
  | .parens p q inner => .parens p q (inner.phrase units).above.above

@[inherit_doc Simple.phrase]
def Item.phrase (units : List String) : Item → Phrase
  | .number v p => .number v p
  | .simple s => s.phrase units

@[inherit_doc Simple.phrase]
def Body.phrase (units : List String) : Body → Phrase
  | .item i => (i.phrase units).single
  | .binary l op p r => .binary op p (l.phrase units) (r.phrase units)
  | .prefixed s p i => .prefixed s p (i.phrase units)
  | .factorial i p => (i.phrase units).factorial p
  | .member x p q i => (Phrase.member x p q (i.phrase units)).single
  | .times v p r => .juxtaposed .product (.number v p) (r.phrase units)
  | .applied l r => .juxtaposed (l.kindBefore units r) (l.phrase units) (r.phrase units)
  | .lambda x p q r body => .lambda x p q r (body.phrase units)
  | .arrow x p q body => .arrow x p q (body.phrase units)

@[inherit_doc Simple.phrase]
def Value.phrase (units : List String) : Value → Phrase
  | .body b => (b.phrase units).above
  | .assign x p q value => .assign x p q (value.phrase units)

@[inherit_doc Simple.phrase]
def Expr.phrase (units : List String) : Expr → Phrase
  | .value v => v.phrase units
  | .sequence first p second => .sequence (first.phrase units) p (second.phrase units)

end

-- ---------------------------------------------------------------------------
-- Their tokens
-- ---------------------------------------------------------------------------

section Tokens

variable (units units' : List String)

mutual

theorem Simple.used_eq : (s : Simple) → (s.phrase units).used = (s.phrase units').used
  | .string x p => by rw [Simple.phrase, Simple.phrase]
  | .ident x p => by rw [Simple.phrase, Simple.phrase]
  | .unit p q => by rw [Simple.phrase, Simple.phrase]
  | .parens p q inner => by
    rw [Simple.phrase, Simple.phrase]
    show _ :: ((inner.phrase units).used ++ _) = _ :: ((inner.phrase units').used ++ _)
    rw [inner.used_eq]

theorem Item.used_eq : (i : Item) → (i.phrase units).used = (i.phrase units').used
  | .number v p => by rw [Item.phrase, Item.phrase]
  | .simple s => by
    rw [Item.phrase, Item.phrase]
    exact s.used_eq

theorem Body.used_eq : (b : Body) → (b.phrase units).used = (b.phrase units').used
  | .item i => by
    rw [Body.phrase, Body.phrase]
    exact i.used_eq
  | .binary l op p r => by
    rw [Body.phrase, Body.phrase]
    show (l.phrase units).used ++ _ :: (r.phrase units).used = (l.phrase units').used ++ _
    rw [l.used_eq, r.used_eq]
  | .prefixed s p i => by
    rw [Body.phrase, Body.phrase]
    exact congrArg (_ :: ·) i.used_eq
  | .factorial i p => by
    rw [Body.phrase, Body.phrase]
    exact congrArg (· ++ _) i.used_eq
  | .member x p q i => by
    rw [Body.phrase, Body.phrase]
    exact congrArg (_ :: _ :: ·) i.used_eq
  | .times v p r => by
    rw [Body.phrase, Body.phrase]
    exact congrArg (_ :: ·) r.used_eq
  | .applied l r => by
    rw [Body.phrase, Body.phrase]
    show (l.phrase units).used ++ (r.phrase units).used = (l.phrase units').used ++ _
    rw [l.used_eq, r.used_eq]
  | .lambda x p q r body => by
    rw [Body.phrase, Body.phrase]
    exact congrArg (_ :: _ :: _ :: ·) body.used_eq
  | .arrow x p q body => by
    rw [Body.phrase, Body.phrase]
    exact congrArg (_ :: _ :: ·) body.used_eq

theorem Value.used_eq : (v : Value) → (v.phrase units).used = (v.phrase units').used
  | .body b => by
    rw [Value.phrase, Value.phrase]
    exact b.used_eq
  | .assign x p q value => by
    rw [Value.phrase, Value.phrase]
    exact congrArg (_ :: _ :: ·) value.used_eq

/-- The tokens of an expression do not depend on the prefix units: these only decide which kind of
node a juxtaposition is. -/
theorem Expr.used_eq : (e : Expr) → (e.phrase units).used = (e.phrase units').used
  | .value v => by
    rw [Expr.phrase, Expr.phrase]
    exact v.used_eq
  | .sequence first p second => by
    rw [Expr.phrase, Expr.phrase]
    show (first.phrase units).used ++ _ :: (second.phrase units).used =
      (first.phrase units').used ++ _
    rw [first.used_eq, second.used_eq]

end

end Tokens

-- ---------------------------------------------------------------------------
-- Reading them back
-- ---------------------------------------------------------------------------

variable {units : List String}

theorem Simple.isNumber_node (s : Simple) : (s.phrase units).node.isNumber = false := by
  cases s <;> rw [Simple.phrase] <;> rfl

/-- The table of juxtaposition, for a number first. -/
theorem kind_times (v : Payload) (p : Place) (r : Simple) :
    juxtapositionKind units (.number v p) (r.phrase units).node = .ok (some .product) := by
  cases r <;> rw [Simple.phrase] <;> rfl

/-- The table of juxtaposition, for anything else first. -/
theorem kind_applied (l : Simple) (r : Item) :
    juxtapositionKind units (l.phrase units).node (r.phrase units).node =
      .ok (some (l.kindBefore units r)) := by
  cases r with
  | number v p => cases l <;> rw [Simple.phrase, Item.phrase] <;> rfl
  | simple r => cases l <;> cases r <;> rw [Simple.phrase, Item.phrase, Simple.phrase] <;> rfl

mutual

theorem Simple.reads (units : List String) : (s : Simple) → (s.phrase units).IsPrimary units
  | .string x p => by
    rw [Simple.phrase]
    exact Phrase.isPrimary_string x p
  | .ident x p => by
    rw [Simple.phrase]
    exact Phrase.isPrimary_ident x p
  | .unit p q => by
    rw [Simple.phrase]
    exact Phrase.isPrimary_unit p q
  | .parens p q inner => by
    rw [Simple.phrase]
    exact (inner.reads units).isExpression.parens p q

theorem Item.reads (units : List String) : (i : Item) → (i.phrase units).IsPrimary units
  | .number v p => by
    rw [Item.phrase]
    exact Phrase.isPrimary_number v p
  | .simple s => by
    rw [Item.phrase]
    exact s.reads units

theorem Body.reads (units : List String) :
    (b : Body) → (b.phrase units).Reads units Layers.function .function
  | .item i => by
    rw [Body.phrase]
    exact (i.reads units).single
  | .binary l op p r => by
    rw [Body.phrase]
    exact (l.reads units).binary op p (r.reads units)
  | .prefixed s p i => by
    rw [Body.phrase]
    exact (i.reads units).prefixed s p
  | .factorial i p => by
    rw [Body.phrase]
    exact (i.reads units).factorial p
  | .member x p q i => by
    rw [Body.phrase]
    exact ((i.reads units).member x p q).single
  | .times v p r => by
    rw [Body.phrase]
    exact (Phrase.isPrimary_number v p).juxtaposed (r.reads units) (Or.inr r.isNumber_node)
      (kind_times v p r)
  | .applied l r => by
    rw [Body.phrase]
    exact (l.reads units).juxtaposed (r.reads units) (Or.inl l.isNumber_node) (kind_applied l r)
  | .lambda x p q r body => by
    rw [Body.phrase]
    exact (body.reads units).lambda x p q r
  | .arrow x p q body => by
    rw [Body.phrase]
    exact (body.reads units).arrow x p q

theorem Value.reads (units : List String) :
    (v : Value) → (v.phrase units).Reads units Layers.assignment .assignment
  | .body b => by
    rw [Value.phrase]
    exact (b.reads units).assignment
  | .assign x p q value => by
    rw [Value.phrase]
    exact (value.reads units).assign x p q

/-- The statements of an expression are read back. -/
theorem Expr.reads (units : List String) : (e : Expr) → (e.phrase units).IsStatements units
  | .value v => by
    rw [Expr.phrase]
    exact (v.reads units).isStatements
  | .sequence first p second => by
    rw [Expr.phrase]
    exact (first.reads units).sequence p (second.reads units)

end

namespace Expr

def tokens (units : List String) (e : Expr) : List Token :=
  (e.phrase units).used

def tree (units : List String) (e : Expr) : Node :=
  (e.phrase units).node

def nesting (units : List String) (e : Expr) : Nat :=
  (e.phrase units).above.above.nesting

end Expr

end Written

/-- **What is written is parsed back**: the tokens of an expression have its tree, under every bound
that allows its nesting, and a smaller bound can do no more than to be exhausted. -/
theorem parseWithin_written (units : List String) (e : Written.Expr) (depth : Nat) :
    (e.nesting units ≤ depth →
        (parseWithin depth units (e.tokens units)).result = .ok (e.tree units)) ∧
      ((parseWithin depth units (e.tokens units)).result = .ok (e.tree units) ∨
        (parseWithin depth units (e.tokens units)).result = .error (.error .tooDeep)) :=
  (e.reads units).isExpression.parseWithin depth

/-- `f = \x.(x / 2); f $; $ 5`, where `$` is a prefix unit. -/
theorem function_of_prefix_unit_written :
    let half : Written.Body :=
      .binary (.simple (.ident "x" ⟨1, 9⟩)) .div ⟨1, 11⟩ (.number (.fraction 2) ⟨1, 13⟩)
    let f : Written.Value :=
      .assign "f" ⟨1, 1⟩ ⟨1, 3⟩
        (.body (.lambda "x" ⟨1, 5⟩ ⟨1, 6⟩ ⟨1, 7⟩
          (.item (.simple (.parens ⟨1, 8⟩ ⟨1, 14⟩ (.value (.body half)))))))
    let e : Written.Expr :=
      .sequence
        (.sequence (.value f) ⟨1, 15⟩
          (.body (.applied (.ident "f" ⟨1, 17⟩) (.simple (.ident "$" ⟨1, 19⟩)))))
        ⟨1, 20⟩ (.body (.applied (.ident "$" ⟨1, 22⟩) (.number (.fraction 5) ⟨1, 24⟩)))
    e.nesting ["$"] ≤ maxNesting ∧
      (parseWithin maxNesting ["$"] (e.tokens ["$"])).result = .ok (e.tree ["$"]) := by
  intro half f e
  have h : e.nesting ["$"] ≤ maxNesting := by decide
  exact ⟨h, (parseWithin_written ["$"] e maxNesting).1 h⟩

end Grammar

end Reckoner
