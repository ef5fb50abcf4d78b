import Reckoner.Proofs.Grammar.Phrases

/-!
# Rows of operands

What precedence says about operands with operators between them, with no word about how they are
parsed. A row is read by splitting it at its loosest operators:

* at `+`, `-` and `to`, and the terms are joined from the left;
* each term at `*`, `/` and `%`, and the factors are joined from the left;
* each factor has only `^` left, which joins from the right, and a prefix operator wraps the whole
  power behind it.

The second half shows that the layers of the grammar read a row in this way, whatever its operands
are, as long as each of them is read on its own.

## Results

* `Row.split_tokens`, `Row.split_all` — splitting loses nothing and separates the operators.
* `power_reads_factor`, `multiplicative_reads_term`, `additive_reads_sum` — the layers read a row as
  precedence does.
* `Phrase.IsPrimary.part` — every primary expression may be an operand.
-/

namespace Reckoner

namespace Grammar

open Cursor (Avoids Closes solid)

-- ---------------------------------------------------------------------------
-- Operators
-- ---------------------------------------------------------------------------

inductive Sign where
  | minus | plus | inverse
  deriving DecidableEq, Repr

inductive Binop where
  | pow | mul | div | mod | add | sub | conversion
  deriving DecidableEq, Repr

namespace Sign

def symbol : Sign → Symbol
  | minus => .sub
  | plus => .add
  | inverse => .div

def kind : Sign → Kind
  | minus => .negation
  | plus => .positive
  | inverse => .reciprocal

theorem mem_prefixes (s : Sign) : (s.symbol, s.kind) ∈ prefixes := by
  cases s <;> decide

theorem of_mem {y : Symbol} {k : Kind} (h : (y, k) ∈ prefixes) :
    ∃ s : Sign, s.symbol = y ∧ s.kind = k := by
  rcases prefixes_cases h with ⟨rfl, rfl⟩ | ⟨rfl, rfl⟩ | ⟨rfl, rfl⟩
  · exact ⟨minus, rfl, rfl⟩
  · exact ⟨plus, rfl, rfl⟩
  · exact ⟨inverse, rfl, rfl⟩

end Sign

namespace Binop

def symbol : Binop → Symbol
  | pow => .pow
  | mul => .mul
  | div => .div
  | mod => .mod
  | add => .add
  | sub => .sub
  | conversion => .conversion

def build : Binop → Node → Node → Node
  | pow => .binary .pow
  | mul => .binary .mul
  | div => .binary .div
  | mod => .binary .mod
  | add => .binary .plus
  | sub => .binary .minus
  | conversion => .pair .conversion

/-- The loosest operators. -/
def isSum : Binop → Bool
  | add | sub | conversion => true
  | _ => false

/-- The operators of products. -/
def isProduct : Binop → Bool
  | mul | div | mod => true
  | _ => false

theorem mem_sumOperators {op : Binop} (h : op.isSum = true) :
    (op.symbol, op.build) ∈ sumOperators := by
  cases op with
  | add => simp [symbol, build, sumOperators]
  | sub => simp [symbol, build, sumOperators]
  | conversion => simp [symbol, build, sumOperators]
  | _ => cases h

theorem mem_productOperators {op : Binop} (h : op.isProduct = true) :
    ∃ o, (op.symbol, o) ∈ productOperators ∧ op.build = .binary o := by
  cases op with
  | mul => exact ⟨.mul, by decide, rfl⟩
  | div => exact ⟨.div, by decide, rfl⟩
  | mod => exact ⟨.mod, by decide, rfl⟩
  | _ => cases h

theorem eq_pow {op : Binop} (hSum : op.isSum = false) (hProduct : op.isProduct = false) :
    op = .pow := by
  cases op <;> simp [isSum, isProduct] at hSum hProduct ⊢

end Binop

-- ---------------------------------------------------------------------------
-- Rows
-- ---------------------------------------------------------------------------

/-- An operator and the operand after it. -/
structure Link (α : Type) where
  op : Binop
  place : Place
  operand : α

/-- An operand, and more of them behind operators. -/
structure Row (α : Type) where
  head : α
  tail : List (Link α)

variable {α : Type}

def Link.tokens (text : α → List Token) (l : Link α) : List Token :=
  ⟨.symbol l.op.symbol, l.place⟩ :: text l.operand

namespace Row

def tokens (text : α → List Token) (row : Row α) : List Token :=
  text row.head ++ row.tail.flatMap (Link.tokens text)

/-- What holds of every operand and of every operator. -/
def All (P : α → Prop) (Q : Binop → Prop) (row : Row α) : Prop :=
  P row.head ∧ ∀ l ∈ row.tail, Q l.op ∧ P l.operand

/-- The operands joined from the left. -/
def joined (leaf : α → Node) (row : Row α) : Node :=
  row.tail.foldl (fun n l => l.op.build n (leaf l.operand)) (leaf row.head)

def sup (f : α → Nat) (row : Row α) : Nat :=
  row.tail.foldr (fun l k => max (f l.operand) k) (f row.head)

/-- The rows between the operators that are cut, after the operand `a`. -/
def splitFrom (cut : Binop → Bool) (a : α) : List (Link α) → Row (Row α)
  | [] => ⟨⟨a, []⟩, []⟩
  | l :: ls =>
    let rows := splitFrom cut l.operand ls
    if cut l.op then ⟨⟨a, []⟩, ⟨l.op, l.place, rows.head⟩ :: rows.tail⟩
    else ⟨⟨a, ⟨l.op, l.place, rows.head.head⟩ :: rows.head.tail⟩, rows.tail⟩

def split (cut : Binop → Bool) (row : Row α) : Row (Row α) :=
  splitFrom cut row.head row.tail

theorem splitFrom_tokens (cut : Binop → Bool) (text : α → List Token) (a : α)
    (ls : List (Link α)) :
    (splitFrom cut a ls).tokens (tokens text) = text a ++ ls.flatMap (Link.tokens text) := by
  induction ls generalizing a with
  | nil => simp [splitFrom, tokens]
  | cons l ls ih =>
    have hRest := ih l.operand
    rw [splitFrom]
    split
    · simp only [tokens, Link.tokens, List.flatMap_cons, List.flatMap_nil] at hRest ⊢
      simp [hRest]
    · simp only [tokens, Link.tokens, List.flatMap_cons] at hRest ⊢
      simp [← hRest]

theorem split_tokens (cut : Binop → Bool) (text : α → List Token) (row : Row α) :
    (row.split cut).tokens (tokens text) = row.tokens text :=
  splitFrom_tokens cut text row.head row.tail

theorem splitFrom_all (cut : Binop → Bool) {P : α → Prop} {Q : Binop → Prop} {a : α}
    {ls : List (Link α)} (ha : P a) (h : ∀ l ∈ ls, Q l.op ∧ P l.operand) :
    (splitFrom cut a ls).All (All P fun op => Q op ∧ cut op = false)
      fun op => Q op ∧ cut op = true := by
  induction ls generalizing a with
  | nil => exact ⟨⟨ha, by simp [splitFrom]⟩, by simp [splitFrom]⟩
  | cons l ls ih =>
    obtain ⟨hOp, hOperand⟩ := h l (by simp)
    obtain ⟨hHead, hTail⟩ := ih hOperand fun l' hl' => h l' (by simp [hl'])
    rw [splitFrom]
    split
    · rename_i hCut
      refine ⟨⟨ha, by simp⟩, ?_⟩
      intro l' hl'
      rcases List.mem_cons.mp hl' with rfl | hl'
      · exact ⟨⟨hOp, hCut⟩, hHead⟩
      · exact hTail l' hl'
    · rename_i hCut
      refine ⟨⟨ha, ?_⟩, hTail⟩
      intro l' hl'
      rcases List.mem_cons.mp hl' with rfl | hl'
      · exact ⟨⟨hOp, by simpa using hCut⟩, hHead.1⟩
      · exact hHead.2 l' hl'

/-- Splitting separates the operators: those that are cut stand between the new rows, and the others
within them. -/
theorem split_all (cut : Binop → Bool) {P : α → Prop} {Q : Binop → Prop} {row : Row α}
    (h : row.All P Q) :
    (row.split cut).All (All P fun op => Q op ∧ cut op = false) fun op => Q op ∧ cut op = true :=
  splitFrom_all cut h.1 h.2

theorem All.imp {P P' : α → Prop} {Q Q' : Binop → Prop} {row : Row α} (h : row.All P Q)
    (hP : ∀ a, P a → P' a) (hQ : ∀ op, Q op → Q' op) : row.All P' Q' :=
  ⟨hP _ h.1, fun l hl => ⟨hQ _ (h.2 l hl).1, hP _ (h.2 l hl).2⟩⟩

theorem All.and {P P' : α → Prop} {Q : Binop → Prop} {row : Row α} (h : row.All P Q)
    (h' : row.All P' fun _ => True) : row.All (fun a => P a ∧ P' a) Q :=
  ⟨⟨h.1, h'.1⟩, fun l hl => ⟨(h.2 l hl).1, (h.2 l hl).2, (h'.2 l hl).2⟩⟩

theorem sup_le_iff (f : α → Nat) (row : Row α) {k : Nat} :
    row.sup f ≤ k ↔ row.All (fun a => f a ≤ k) fun _ => True := by
  obtain ⟨a, ls⟩ := row
  unfold sup All
  dsimp only
  induction ls with
  | nil => simp
  | cons l ls ih =>
    rw [List.foldr_cons, Nat.max_le, ih]
    simp only [List.forall_mem_cons, true_and]
    exact and_left_comm

end Row

-- ---------------------------------------------------------------------------
-- Reading by precedence
-- ---------------------------------------------------------------------------

/-- An operand: its prefix operators, the tokens behind them, the node that these make, and how deep
a nesting the rule for factorials needs to read it. -/
structure Part where
  signs : List (Sign × Place)
  used : List Token
  node : Node
  nesting : Nat

def signTokens (signs : List (Sign × Place)) : List Token :=
  signs.map fun s => ⟨.symbol s.1.symbol, s.2⟩

def withSigns (signs : List (Sign × Place)) (n : Node) : Node :=
  signs.foldr (fun s m => .wrap s.1.kind m s.2) n

def Part.tokens (a : Part) : List Token :=
  signTokens a.signs ++ a.used

/-- The power of an operand and those behind it: a prefix operator wraps all of it. -/
def powerFrom (a : Part) : List (Link Part) → Node
  | [] => withSigns a.signs a.node
  | l :: ls => withSigns a.signs (.binary .pow a.node (powerFrom l.operand ls))

def powerNesting (a : Part) : List (Link Part) → Nat
  | [] => a.signs.length + (a.nesting + 1)
  | l :: ls => a.signs.length + (max a.nesting (powerNesting l.operand ls) + 1)

namespace Row

/-- The tree of a row that has only `^` left. -/
def factor (row : Row Part) : Node :=
  powerFrom row.head row.tail

/-- The tree of a row that has no sum or conversion left. -/
def term (row : Row Part) : Node :=
  (row.split Binop.isProduct).joined factor

def sum (row : Row Part) : Node :=
  (row.split Binop.isSum).joined term

/-- How deep a nesting the powers of a row need. -/
def nesting (row : Row Part) : Nat :=
  (row.split Binop.isSum).sup fun term =>
    (term.split Binop.isProduct).sup fun factor => powerNesting factor.head factor.tail

/-- A row without `^` needs what its operands need, however many there are. -/
theorem nesting_le_of_flat {row : Row Part} {k : Nat}
    (h : row.All (fun a => powerNesting a [] ≤ k) (· ≠ .pow)) : row.nesting ≤ k := by
  have hTerms := split_all Binop.isSum h
  refine (sup_le_iff _ _).mpr (hTerms.imp (fun term hTerm => ?_) fun _ _ => trivial)
  have hFactors := split_all Binop.isProduct hTerm
  refine (sup_le_iff _ _).mpr (hFactors.imp (fun factor hFactor => ?_) fun _ _ => trivial)
  -- a factor without `^` has only one operand
  have hTail : factor.tail = [] := by
    rw [List.eq_nil_iff_forall_not_mem]
    intro l hl
    obtain ⟨⟨hPow, hSum⟩, hProduct⟩ := (hFactor.2 l hl).1
    exact hPow (Binop.eq_pow hSum hProduct)
  rw [hTail]
  exact hFactor.1

end Row

-- ---------------------------------------------------------------------------
-- The layers read a row
-- ---------------------------------------------------------------------------

/-- An operand is read on its own, wherever no factorial goes on. -/
structure Part.Reads (units : List String) (a : Part) : Prop where
  plain : Plain a.used
  reads : ∀ rest, Avoids [.of, .factorial] rest →
    ((Layers.within units a.nesting).factorial (a.used ++ rest)).result = .ok (a.node, rest)

variable {units : List String} {ts rest : List Token} {n m : Node} {d : Nat}

theorem power_reads_signs (signs : List (Sign × Place))
    (h : ((Layers.within units d).power true ts).result = .ok (n, rest)) :
    ((Layers.within units (signs.length + d)).power true (signTokens signs ++ ts)).result =
      .ok (withSigns signs n, rest) := by
  induction signs with
  | nil => simpa [signTokens, withSigns] using h
  | cons s signs ih =>
    obtain ⟨s, p⟩ := s
    have hDepth : ((s, p) :: signs).length + d = signs.length + d + 1 := by
      simp only [List.length_cons]
      omega
    rw [hDepth]
    exact power_prefixed s.mem_prefixes p ih

theorem power_reads_from {a : Part} {ls : List (Link Part)} (ha : a.Reads units)
    (h : ∀ l ∈ ls, l.op = .pow ∧ l.operand.Reads units) (hRest : Avoids tightSymbols rest) :
    ((Layers.within units (powerNesting a ls)).power true
      (a.tokens ++ (ls.flatMap (Link.tokens Part.tokens) ++ rest))).result =
      .ok (powerFrom a ls, rest) := by
  induction ls generalizing a with
  | nil =>
    have hFactorial := ha.reads rest (hRest.mono (by decide))
    have hPower := power_of_factorial true hFactorial hRest
    rw [Part.tokens, List.append_assoc]
    exact power_reads_signs a.signs hPower
  | cons l ls ih =>
    obtain ⟨hOp, hOperand⟩ := h l (by simp)
    have hExponent := ih hOperand fun l' hl' => h l' (by simp [hl'])
    have hAvoids : Avoids [.of, .factorial] (⟨.symbol .pow, l.place⟩ ::
        (l.operand.tokens ++ (ls.flatMap (Link.tokens Part.tokens) ++ rest))) :=
      (Cursor.closes_cons (List.mem_singleton_self _) _ _).avoids (by decide)
    -- both sides of `^` are read under the larger of their bounds
    have hLeft := Nat.le_max_left a.nesting (powerNesting l.operand ls)
    have hRight := Nat.le_max_right a.nesting (powerNesting l.operand ls)
    have hBase := ((within_below units hLeft).factorial _).ok (ha.reads _ hAvoids)
    have hExponent := ((within_below units hRight).power _ _).ok hExponent
    have hPower := power_pow true hBase hExponent
    have hTokens : a.tokens ++ ((l :: ls).flatMap (Link.tokens Part.tokens) ++ rest) =
        signTokens a.signs ++ (a.used ++ ⟨.symbol .pow, l.place⟩ ::
          (l.operand.tokens ++ (ls.flatMap (Link.tokens Part.tokens) ++ rest))) := by
      simp [Part.tokens, Link.tokens, hOp, Binop.symbol]
    rw [hTokens]
    exact power_reads_signs a.signs hPower

/-- **A factor is read as its power.** -/
theorem power_reads_factor {row : Row Part} (hRow : row.All (Part.Reads units) (· = .pow))
    (hRest : Avoids tightSymbols rest) (hd : powerNesting row.head row.tail ≤ d) :
    ((Layers.within units d).power true (row.tokens Part.tokens ++ rest)).result =
      .ok (row.factor, rest) := by
  have hPower := power_reads_from hRow.1 hRow.2 hRest
  rw [← List.append_assoc] at hPower
  exact ((within_below units hd).power _ _).ok hPower

theorem closes_links (text : α → List Token) {ys : List Symbol} {ls : List (Link α)}
    (hOps : ∀ l ∈ ls, l.op.symbol ∈ ys) (hRest : Closes ys rest) :
    Closes ys (ls.flatMap (Link.tokens text) ++ rest) := by
  cases ls with
  | nil => exact hRest
  | cons l ls => exact Cursor.closes_cons (hOps l (by simp)) _ _

/-- A loop joins operands from the left when each of its steps takes one of them and none applies
after the last. -/
theorem runs_joined {step : Node → List Token → Attempt (Option (Node × List Token))}
    {text : α → List Token} {leaf : α → Node} {ys : List Symbol} {P : Node → Prop}
    {ls : List (Link α)} (hOps : ∀ l ∈ ls, l.op.symbol ∈ ys) (hRest : Closes ys rest)
    (hStep : ∀ l ∈ ls, ∀ {n after}, P n → Closes ys after →
      (step n (l.tokens text ++ after)).result = .ok (some (l.op.build n (leaf l.operand), after)) ∧
        P (l.op.build n (leaf l.operand)))
    (hStop : ∀ {n}, P n → (step n rest).result = .ok none) (hn : P n) :
    let joined := ls.foldl (fun n l => l.op.build n (leaf l.operand)) n
    Runs step n (ls.flatMap (Link.tokens text) ++ rest) joined rest ∧ P joined := by
  induction ls generalizing n with
  | nil => exact ⟨.done (hStop hn), hn⟩
  | cons l ls ih =>
    have hOps' : ∀ l' ∈ ls, l'.op.symbol ∈ ys := fun l' hl' => hOps l' (by simp [hl'])
    obtain ⟨hTaken, hKept⟩ := hStep l (by simp) hn (closes_links text hOps' hRest)
    obtain ⟨hRuns, hJoined⟩ := ih hOps' (fun l' hl' => hStep l' (by simp [hl'])) hKept
    rw [List.flatMap_cons, List.append_assoc]
    refine ⟨.more hTaken ?_ hRuns, hJoined⟩
    simp only [Link.tokens, List.cons_append, List.length_cons, List.length_append]
    omega

def factorFollowers : List Symbol :=
  [.mul, .div, .mod] ++ followers .multiplicative

theorem Binop.symbol_mem_factorFollowers {op : Binop} (h : op.isProduct = true) :
    op.symbol ∈ factorFollowers := by
  cases op <;> first | decide | cases h

/-- A factor is read at every place where a product may go on or end. -/
theorem reads_of_factor {factor : Row Part}
    (h : factor.All (Part.Reads units) fun op => op.isSum = false ∧ op.isProduct = false)
    (hd : powerNesting factor.head factor.tail ≤ d) :
    ∀ rest, Closes factorFollowers rest →
      ((Layers.within units d).power true (factor.tokens Part.tokens ++ rest)).result =
        .ok (factor.factor, rest) := by
  intro rest hRest
  have hPow := h.imp (fun _ ha => ha) fun _ hOp => Binop.eq_pow hOp.1 hOp.2
  exact power_reads_factor hPow (hRest.avoids (by decide)) hd

/-- What the loop of a product keeps: its node is derived, and no juxtaposition was read. -/
def IsPlainProduct (units : List String) (n : Node) : Prop :=
  (∃ left, Derives units .multiplicative left n) ∧ n.kind ≠ .product

/-- The loop of a product takes an operator with the factor behind it. -/
theorem continuation_takes_link {l : Link (Row Part)} (hOp : l.op.isProduct = true)
    (h : ((Layers.within units d).power true (l.operand.tokens Part.tokens ++ rest)).result =
      .ok (l.operand.factor, rest)) (hn : IsPlainProduct units n) :
    ((Layers.within units (d + 1)).continuation n
      (l.tokens (Row.tokens Part.tokens) ++ rest)).result =
        .ok (some (l.op.build n l.operand.factor, rest)) ∧
      IsPlainProduct units (l.op.build n l.operand.factor) := by
  obtain ⟨op, hMem, hBuild⟩ := Binop.mem_productOperators hOp
  obtain ⟨left, hLeft⟩ := hn.1
  have hTaken : ((Layers.within units (d + 1)).continuation n
      (l.tokens (Row.tokens Part.tokens) ++ rest)).result =
      .ok (some (.binary op n l.operand.factor, rest)) := continuation_operator hMem n l.place h
  obtain ⟨used, -, -, -, hDerives⟩ := (within_sound units (d + 1)).continuation hLeft hTaken
  rw [hBuild]
  exact ⟨hTaken, ⟨_, hDerives⟩, by simp⟩

/-- **A term is read as its product.** -/
theorem multiplicative_reads_term {row : Row Part}
    (hRow : row.All (Part.Reads units) fun op => op.isSum = false)
    (hd : ((row.split Binop.isProduct).sup fun f => powerNesting f.head f.tail) ≤ d + 4)
    (hRest : Closes (followers .multiplicative) rest) :
    ((Layers.within units (d + 6)).multiplicative (row.tokens Part.tokens ++ rest)).result =
      .ok (row.term, rest) ∧ row.term.kind ≠ .product := by
  have hFactors := (Row.split_all Binop.isProduct hRow).and ((Row.sup_le_iff _ _).mp hd)
  obtain ⟨hHead, hTail⟩ := hFactors.imp (fun f hf => reads_of_factor hf.1 hf.2) fun _ h => h.2
  have hOps : ∀ l ∈ (row.split Binop.isProduct).tail, l.op.symbol ∈ factorFollowers :=
    fun l hl => Binop.symbol_mem_factorFollowers (hTail l hl).1
  have hEnd : Closes factorFollowers rest := hRest.mono (by decide)
  have hFirst := hHead _ (closes_links (Row.tokens Part.tokens) hOps hEnd)
  have hStart : IsPlainProduct units (row.split Binop.isProduct).head.factor := by
    obtain ⟨used, -, hDerives⟩ := (within_sound units (d + 4)).power hFirst
    exact ⟨⟨used, .widen (by decide) hDerives⟩, hDerives.power_kind_ne⟩
  have hStop : ∀ {n}, IsPlainProduct units n →
      ((Layers.within units (d + 5)).continuation n rest).result = .ok none := by
    intro n hn
    obtain ⟨left, hLeft⟩ := hn.1
    exact continuation_none hLeft hRest
  obtain ⟨hRuns, hKept⟩ := runs_joined hOps hEnd
    (fun l hl _ _ hn hAfter => continuation_takes_link (hTail l hl).1 ((hTail l hl).2 _ hAfter) hn)
    hStop hStart
  have hFirst := ((within_below units (Nat.le_succ (d + 4))).power _ _).ok hFirst
  rw [← Row.split_tokens Binop.isProduct, Row.tokens, List.append_assoc]
  exact ⟨multiplicative_of_runs hFirst hRuns, hKept.2⟩

/-- A term is read at every place where a sum may go on or end. -/
theorem reads_of_term {term : Row Part}
    (h : term.All (Part.Reads units) fun op => op.isSum = false)
    (hd : ((term.split Binop.isProduct).sup fun f => powerNesting f.head f.tail) ≤ d + 4) :
    ∀ rest, Closes (followers .multiplicative) rest →
      ((Layers.within units (d + 7)).implicitSum (term.tokens Part.tokens ++ rest)).result =
        .ok (term.term, rest) := by
  intro rest hRest
  obtain ⟨hTerm, hKind⟩ := multiplicative_reads_term h hd hRest
  exact implicitSum_of_multiplicative hTerm hKind

theorem Binop.symbol_mem_followers {op : Binop} (h : op.isSum = true) :
    op.symbol ∈ followers .multiplicative := by
  cases op <;> first | decide | cases h

/-- **A row is read as precedence says.** -/
theorem additive_reads_sum {row : Row Part} (hRow : row.All (Part.Reads units) fun _ => True)
    (hd : row.nesting ≤ d + 4) (hRest : Closes (followers .additive) rest) :
    ((Layers.within units (d + 8)).additive (row.tokens Part.tokens ++ rest)).result =
      .ok (row.sum, rest) := by
  have hTerms := (Row.split_all Binop.isSum hRow).and ((Row.sup_le_iff _ _).mp hd)
  obtain ⟨hHead, hTail⟩ := hTerms.imp
    (fun t ht => reads_of_term (ht.1.imp (fun _ ha => ha) fun _ hOp => hOp.2) ht.2)
    fun _ h => h.2
  have hOps : ∀ l ∈ (row.split Binop.isSum).tail, l.op.symbol ∈ followers .multiplicative :=
    fun l hl => Binop.symbol_mem_followers (hTail l hl).1
  have hEnd : Closes (followers .multiplicative) rest := hRest.mono (by decide)
  have hFirst := hHead _ (closes_links (Row.tokens Part.tokens) hOps hEnd)
  have hStep : ∀ l ∈ (row.split Binop.isSum).tail, ∀ {n after}, True →
      Closes (followers .multiplicative) after →
      (sumStep (Layers.within units (d + 7)) n (l.tokens (Row.tokens Part.tokens) ++ after)).result =
        .ok (some (l.op.build n l.operand.term, after)) ∧ True := by
    intro l hl n after _ hAfter
    obtain ⟨hOp, hOperand⟩ := hTail l hl
    exact ⟨sumStep_operator (Binop.mem_sumOperators hOp) n l.place (hOperand after hAfter), trivial⟩
  obtain ⟨hRuns, -⟩ := runs_joined hOps hEnd hStep (fun {n} _ => sumStep_none n hRest) trivial
  rw [← Row.split_tokens Binop.isSum, Row.tokens, List.append_assoc]
  exact additive_of_runs hFirst hRuns

theorem plain_signTokens (signs : List (Sign × Place)) : Plain (signTokens signs) := by
  intro t ht
  obtain ⟨s, -, rfl⟩ := List.mem_map.mp ht
  exact ⟨rfl, rfl⟩

theorem plain_row {Q : Binop → Prop} {row : Row Part} (hRow : row.All (Part.Reads units) Q) :
    Plain (row.tokens Part.tokens) := by
  have hPart : ∀ {a : Part}, a.Reads units → Plain a.tokens := by
    intro a ha
    exact plain_append.mpr ⟨plain_signTokens a.signs, ha.plain⟩
  refine plain_append.mpr ⟨hPart hRow.1, ?_⟩
  intro t ht
  obtain ⟨l, hl, ht⟩ := List.mem_flatMap.mp ht
  rcases List.mem_cons.mp ht with rfl | ht
  · exact ⟨rfl, rfl⟩
  · exact hPart (hRow.2 l hl).2 t ht

/-- A row as a phrase, read by the rule for functions. -/
def Row.phrase (row : Row Part) : Phrase :=
  ⟨row.tokens Part.tokens, row.sum, Phrase.aboveProducts row.nesting⟩

theorem Row.All.reads_function {row : Row Part} (h : row.All (Part.Reads units) fun _ => True) :
    row.phrase.Reads units Layers.function .function := by
  refine ⟨plain_row h, fun rest hRest => ?_⟩
  obtain ⟨d, hd⟩ : ∃ d, max row.nesting 4 = d + 4 := ⟨max row.nesting 4 - 4, by omega⟩
  have hSum := additive_reads_sum h (by omega : row.nesting ≤ d + 4) (hRest.mono (by decide))
  show ((Layers.within units (Phrase.aboveProducts row.nesting)).function _).result = _
  rw [Phrase.aboveProducts, hd]
  exact function_of_additive hSum hRest

-- ---------------------------------------------------------------------------
-- Primary expressions as operands
-- ---------------------------------------------------------------------------

/-- A primary expression between prefix operators and some `!`. -/
def Phrase.part (signs : List (Sign × Place)) (ph : Phrase) (bangs : List Place) : Part where
  signs := signs
  used := ph.used ++ bangTokens bangs
  node := withBangs bangs ph.node
  nesting := ph.nesting + 1

theorem Phrase.IsPrimary.part {ph : Phrase} (h : ph.IsPrimary units) (signs : List (Sign × Place))
    (bangs : List Place) : (ph.part signs bangs).Reads units := by
  refine ⟨plain_append.mpr ⟨h.plain, ?_⟩, fun rest hRest => ?_⟩
  · intro t ht
    obtain ⟨p, -, rfl⟩ := List.mem_map.mp ht
    exact ⟨rfl, rfl⟩
  · have hBangs : Avoids [.of] (bangTokens bangs ++ rest) := by
      cases bangs with
      | nil => exact hRest.mono (by decide)
      | cons p bangs =>
        exact (Cursor.closes_cons (List.mem_singleton_self Symbol.factorial) _ _).avoids (by decide)
    show ((Layers.within units (ph.nesting + 1)).factorial
      (ph.used ++ bangTokens bangs ++ rest)).result = _
    rw [List.append_assoc]
    exact factorial_of_primary bangs (h.reads _ hBangs) hRest

end Grammar

end Reckoner
