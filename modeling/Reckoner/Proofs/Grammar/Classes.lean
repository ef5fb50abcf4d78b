import Reckoner.Proofs.Grammar.Reports
import Reckoner.Proofs.Grammar.SideBySide

/-!
# Token classes

The grammar looks only at the classes of tokens: at their types, at the symbol of a symbol, and at
whether an identifier is a prefix unit. Two sequences of the same classes run side by side, with the
tokens at one index as twins, and the tree of the second is that of the first with the payload and the
place of each token replaced by those of its twin.

`Copies pairs n m` says this of two trees. A place is taken over as the token has it, so a coordinate
that a prefix operator or a parenthesis does not know is still taken from the operand, in each tree
from its own. Where two tokens of a sequence are equal, a tree does not tell which of them a part is
from, so the tree of the numbered tokens is given as well, of which both trees are copies.

## Results

* `parseWithin_classes`        — sequences of the same classes are parsed alike.
* `renamed_lambda_classes`     — such sequences with a lambda, a prefix unit and a number.
* `unknown_place_not_replaced` — the place of a token that does not know its own is not taken over.
-/

namespace Reckoner

/-- Tokens of one class: of the same type, of the same symbol if they are symbols, and both or neither
of them prefix units if they are identifiers. -/
def Token.SameClass (units : List String) (t t' : Token) : Prop :=
  t.content.Alike t'.content ∧
    ∀ x x', t.content = .ident x → t'.content = .ident x' → (x ∈ units ↔ x' ∈ units)

theorem Token.SameClass.isFinish_eq {units : List String} {t t' : Token}
    (h : t.SameClass units t') : t'.isFinish = t.isFinish := by
  obtain ⟨content, place⟩ := t
  obtain ⟨content', place'⟩ := t'
  cases h.1 <;> rfl

theorem Token.SameClass.isBlank_eq {units : List String} {t t' : Token}
    (h : t.SameClass units t') : t'.isBlank = t.isBlank := by
  obtain ⟨content, place⟩ := t
  obtain ⟨content', place'⟩ := t'
  cases h.1 <;> rfl

namespace Grammar

open Attempt (Agrees)
open Cursor (next?)

-- ---------------------------------------------------------------------------
-- Sequences of the same classes
-- ---------------------------------------------------------------------------

/-- Sequences of the same length that agree index by index in the classes of their tokens. -/
def SameClasses (units : List String) (tokens tokens' : List Token) : Prop :=
  tokens.length = tokens'.length ∧ ∀ q ∈ tokens.zip tokens', q.1.SameClass units q.2

/-- The tokens at the same index, but for the marks of the end. -/
def twinsOf (tokens tokens' : List Token) : List (Token × Token) :=
  (tokens.zip tokens').filter fun q => !q.1.isFinish

/-- The tokens, each with its own number as its place. -/
def numbered (tokens : List Token) : List Token :=
  tokens.mapIdx fun i t => ⟨t.content, ⟨i + 1, i + 1⟩⟩

variable {units : List String} {tokens tokens' : List Token}

theorem SameClasses.significant (h : SameClasses units tokens tokens') :
    Grammar.significant tokens = (twinsOf tokens tokens').map Prod.fst ∧
      Grammar.significant tokens' = (twinsOf tokens tokens').map Prod.snd := by
  obtain ⟨hLength, hClass⟩ := h
  unfold Grammar.significant twinsOf
  induction tokens generalizing tokens' with
  | nil =>
    obtain rfl : tokens' = [] := List.length_eq_zero_iff.mp hLength.symm
    exact ⟨rfl, rfl⟩
  | cons t ts ih =>
    cases tokens' with
    | nil => cases hLength
    | cons t' ts' =>
      rw [List.zip_cons_cons] at hClass ⊢
      obtain ⟨ih, ih'⟩ := ih (Nat.succ.inj hLength) fun q hq => hClass q (List.mem_cons_of_mem _ hq)
      have hFinish : t'.isFinish = t.isFinish := (hClass (t, t') List.mem_cons_self).isFinish_eq
      simp only [List.filter_cons, hFinish]
      split
      · exact ⟨congrArg _ ih, congrArg _ ih'⟩
      · exact ⟨ih, ih'⟩

theorem SameClasses.twins (h : SameClasses units tokens tokens') :
    ∀ q ∈ twinsOf tokens tokens', q.1.SameClass units q.2 :=
  fun q hq => h.2 q (List.mem_filter.mp hq).1

theorem SameClasses.numbered (h : SameClasses units tokens tokens') :
    SameClasses units (Grammar.numbered tokens) tokens' := by
  refine ⟨by simp [Grammar.numbered, h.1], fun q hq => ?_⟩
  obtain ⟨i, hi, rfl⟩ := List.mem_iff_getElem.mp hq
  have hTwins := h.2 _ (List.getElem_mem (by simpa [Grammar.numbered] using hi))
  simpa [Grammar.numbered, Token.SameClass] using hTwins

theorem SameClasses.refl (units : List String) (tokens : List Token) :
    SameClasses units tokens tokens := by
  refine ⟨rfl, fun q hq => ?_⟩
  obtain ⟨i, hi, rfl⟩ := List.mem_iff_getElem.mp hq
  rw [List.getElem_zip]
  refine ⟨.refl _, fun x x' hx hx' => ?_⟩
  obtain rfl := Content.ident.inj (hx.symm.trans hx')
  exact Iff.rfl

-- ---------------------------------------------------------------------------
-- Copies of trees
-- ---------------------------------------------------------------------------

/-- The second tree is the first with the payload and the place of each token replaced by those of its
twin. -/
inductive Copies (pairs : List (Token × Token)) : Node → Node → Prop where
  | number {v v' : Payload} {p p' : Place} (h : (⟨.number v, p⟩, ⟨.number v', p'⟩) ∈ pairs) :
      Copies pairs (.number v p) (.number v' p')
  | string {x x' : String} {p p' : Place} (h : (⟨.string x, p⟩, ⟨.string x', p'⟩) ∈ pairs) :
      Copies pairs (.string x p) (.string x' p')
  | ident {x x' : String} {p p' : Place} (h : (⟨.ident x, p⟩, ⟨.ident x', p'⟩) ∈ pairs) :
      Copies pairs (.ident x p) (.ident x' p')
  | unit {p p' : Place} (h : (⟨.symbol .openParens, p⟩, ⟨.symbol .openParens, p'⟩) ∈ pairs) :
      Copies pairs (.unit p) (.unit p')
  | nothing : Copies pairs (.unit .unknown) (.unit .unknown)
  | member {x x' : String} {p p' : Place} {n m : Node}
      (h : (⟨.ident x, p⟩, ⟨.ident x', p'⟩) ∈ pairs) (hInner : Copies pairs n m) :
      Copies pairs (.named .member (.text x) n p) (.named .member (.text x') m p')
  /-- The name of the parameter is the token directly behind the backslash. -/
  | lambda {x x' : String} {p p' q q' : Place} {n m : Node}
      (h : [(⟨.symbol .backslash, p⟩, ⟨.symbol .backslash, p'⟩),
        (⟨.ident x, q⟩, ⟨.ident x', q'⟩)] <:+: pairs) (hBody : Copies pairs n m) :
      Copies pairs (.named .function (.text x) n p) (.named .function (.text x') m p')
  | bound {kind : Kind} {x x' : String} {p p' : Place} {n m : Node}
      (hKind : kind ∈ [.function, .assignment])
      (h : (⟨.ident x, p⟩, ⟨.ident x', p'⟩) ∈ pairs) (hInner : Copies pairs n m) :
      Copies pairs (.named kind (.text x) n p) (.named kind (.text x') m p')
  | wrap {y : Symbol} {kind : Kind} {p p' : Place} {n m : Node}
      (hKind : (y, kind) ∈ (.openParens, .parens) :: prefixes)
      (h : (⟨.symbol y, p⟩, ⟨.symbol y, p'⟩) ∈ pairs) (hInner : Copies pairs n m) :
      Copies pairs (.wrap kind n p) (.wrap kind m p')
  | factorial {n m : Node} (hInner : Copies pairs n m) :
      Copies pairs (.wrap .factorial n .unknown) (.wrap .factorial m .unknown)
  | binary (op : Operator) {l l' r r' : Node} (hLeft : Copies pairs l l')
      (hRight : Copies pairs r r') : Copies pairs (.binary op l r) (.binary op l' r')
  | pair {kind : Kind} {l l' r r' : Node}
      (hKind : kind ∈ [.apply, .call, .product, .conversion, .statements])
      (hLeft : Copies pairs l l') (hRight : Copies pairs r r') :
      Copies pairs (.pair kind l r) (.pair kind l' r')

namespace Copies

variable {pairs : List (Token × Token)} {n m l l' r r' : Node}

theorem kind_eq (h : Copies pairs n m) : m.kind = n.kind := by
  cases h <;> rfl

theorem type_eq (h : Copies pairs n m) : m.type = n.type := by
  cases h <;> rfl

theorem isNumber_eq (h : Copies pairs n m) : m.isNumber = n.isNumber := by
  unfold Node.isNumber
  rw [h.kind_eq, h.type_eq]

/-- A copy of an operation is the same operation on copies. -/
theorem eq_binary (h : Copies pairs n m) (hKind : n.kind = .binary) :
    ∃ op l r l' r', n = .binary op l r ∧ m = .binary op l' r' ∧ Copies pairs l l' ∧
      Copies pairs r r' := by
  cases h with
  | binary op hLeft hRight => exact ⟨op, _, _, _, _, rfl, rfl, hLeft, hRight⟩
  | bound hMem _ _ =>
    obtain rfl : _ = Kind.binary := hKind
    simp at hMem
  | wrap hMem _ _ =>
    obtain rfl : _ = Kind.binary := hKind
    simp [prefixes] at hMem
  | pair hMem _ _ =>
    obtain rfl : _ = Kind.binary := hKind
    simp at hMem
  | _ => cases hKind

/-- A copy of an identifier is the identifier of the twin. -/
theorem eq_ident (h : Copies pairs n m) (hKind : n.kind = .identifier) :
    ∃ x x' p p', n = .ident x p ∧ m = .ident x' p' ∧
      (⟨.ident x, p⟩, ⟨.ident x', p'⟩) ∈ pairs := by
  cases h with
  | ident h => exact ⟨_, _, _, _, rfl, rfl, h⟩
  | bound hMem _ _ =>
    obtain rfl : _ = Kind.identifier := hKind
    simp at hMem
  | wrap hMem _ _ =>
    obtain rfl : _ = Kind.identifier := hKind
    simp [prefixes] at hMem
  | pair hMem _ _ =>
    obtain rfl : _ = Kind.identifier := hKind
    simp at hMem
  | _ => cases hKind

theorem isBinary_eq (h : Copies pairs n m) (op : Operator) : m.isBinary op = n.isBinary op := by
  by_cases hKind : n.kind = .binary
  · obtain ⟨op', l, r, l', r', rfl, rfl, -, -⟩ := h.eq_binary hKind
    simp
  · rw [Node.isBinary_of_kind_ne hKind, Node.isBinary_of_kind_ne (h.kind_eq ▸ hKind)]

theorem isQuantityPart_eq (h : Copies pairs n m) : isQuantityPart m = isQuantityPart n := by
  unfold isQuantityPart
  rw [h.kind_eq, h.isBinary_eq]

theorem isNegatedNumber_eq (h : Copies pairs n m) : m.isNegatedNumber = n.isNegatedNumber := by
  by_cases hKind : n.kind = .negation
  · cases h with
    | @wrap y kind p p' n m _ _ hInner =>
      obtain rfl : kind = .negation := hKind
      rw [Node.isNegatedNumber_wrap, Node.isNegatedNumber_wrap, hInner.isNumber_eq]
    | bound hMem _ _ =>
      obtain rfl : _ = Kind.negation := hKind
      simp at hMem
    | pair hMem _ _ =>
      obtain rfl : _ = Kind.negation := hKind
      simp at hMem
    | _ => cases hKind
  · rw [Node.isNegatedNumber_of_kind_ne hKind, Node.isNegatedNumber_of_kind_ne (h.kind_eq ▸ hKind)]

theorem isPowerOfNumber_eq (h : Copies pairs n m) : isPowerOfNumber m = isPowerOfNumber n := by
  by_cases hKind : n.kind = .binary
  · obtain ⟨op, l, r, l', r', rfl, rfl, hLeft, -⟩ := h.eq_binary hKind
    unfold isPowerOfNumber
    rw [h.isBinary_eq, Node.child_binary, Node.child_binary]
    split
    · exact congrArg Except.ok hLeft.isNumber_eq
    · rfl
  · rw [isPowerOfNumber_of_kind_ne hKind, isPowerOfNumber_of_kind_ne (h.kind_eq ▸ hKind)]

theorem wholePart (h : Copies pairs n m) :
    ∃ a b, Grammar.wholePart n = .ok a ∧ Grammar.wholePart m = .ok b ∧
      Option.Rel (Copies pairs) a.1 b.1 ∧ Copies pairs a.2 b.2 := by
  unfold Grammar.wholePart
  rw [h.isBinary_eq]
  by_cases hKind : n.kind = .binary
  · obtain ⟨op, l, r, l', r', rfl, rfl, hLeft, hRight⟩ := h.eq_binary hKind
    split
    · exact ⟨_, _, rfl, rfl, .some hLeft, hRight⟩
    · exact ⟨_, _, rfl, rfl, .none, h⟩
  · rw [Node.isBinary_of_kind_ne hKind]
    exact ⟨_, _, rfl, rfl, .none, h⟩

/-- Twins are prefix units or not alike. -/
theorem isPrefixUnit_eq (hClass : ∀ q ∈ pairs, q.1.SameClass units q.2) (h : Copies pairs n m) :
    isPrefixUnit units m = isPrefixUnit units n := by
  by_cases hKind : n.kind = .identifier
  · obtain ⟨x, x', p, p', rfl, rfl, hTwins⟩ := h.eq_ident hKind
    have hIff : x ∈ units ↔ x' ∈ units := (hClass _ hTwins).2 x x' rfl rfl
    simp [isPrefixUnit, Node.ident, Payload.text, Payload.text?, hIff]
  · simp [isPrefixUnit, h.kind_eq, hKind]

/-- The table of juxtaposition cannot tell copies apart. -/
theorem juxtapositionKind_eq (hClass : ∀ q ∈ pairs, q.1.SameClass units q.2)
    (hLeft : Copies pairs l l') (hRight : Copies pairs r r') :
    juxtapositionKind units l' r' = juxtapositionKind units l r := by
  unfold juxtapositionKind isLikeNumber
  rw [hLeft.isNumber_eq, hLeft.isNegatedNumber_eq, hRight.isNumber_eq, hRight.isPowerOfNumber_eq,
    hLeft.isPrefixUnit_eq hClass, hLeft.kind_eq]

end Copies

-- ---------------------------------------------------------------------------
-- Two runs on the same classes
-- ---------------------------------------------------------------------------

/-- Tokens that are left of both sequences from the same index on. -/
def inStep (pairs : List (Token × Token)) : Pairing where
  errors := ParseError.Alike fun t t' => (t, t') ∈ pairs
  tokens _ ts ts' := ∃ left, left <:+ pairs ∧ ts = left.map Prod.fst ∧ ts' = left.map Prod.snd
  twins t t' := (t, t') ∈ pairs

section InStep

variable {pairs left : List (Token × Token)} (hClass : ∀ q ∈ pairs, q.1.SameClass units q.2)

theorem inStep_tokens (hLeft : left <:+ pairs) (k : Nat) :
    (inStep pairs).tokens k (left.map Prod.fst) (left.map Prod.snd) :=
  ⟨left, hLeft, rfl, rfl⟩

include hClass

/-- In both sequences nothing but blanks is left, or tokens at the same index come next. -/
theorem next?_inStep (hLeft : left <:+ pairs) :
    next? (left.map Prod.fst) = none ∧ next? (left.map Prod.snd) = none ∨
      ∃ q rest, q :: rest <:+ pairs ∧ next? (left.map Prod.fst) = some (q.1, rest.map Prod.fst) ∧
        next? (left.map Prod.snd) = some (q.2, rest.map Prod.snd) := by
  induction left with
  | nil => exact Or.inl ⟨rfl, rfl⟩
  | cons q rest ih =>
    have hRest : rest <:+ pairs := (List.suffix_cons q rest).trans hLeft
    have hBlank := (hClass q (hLeft.subset List.mem_cons_self)).isBlank_eq
    simp only [List.map_cons, next?, hBlank]
    split
    · exact ih hRest
    · exact Or.inr ⟨q, rest, hLeft, rfl, rfl⟩

theorem fresh_inStep (hLeft : left <:+ pairs) (k : Nat) :
    (inStep pairs).Fresh k (left.map Prod.fst) (left.map Prod.snd) := by
  refine ⟨inStep_tokens hLeft k, fun hNone => ?_⟩
  rcases next?_inStep hClass hLeft with ⟨-, h⟩ | ⟨q, rest, -, h, -⟩
  · exact h
  · rw [hNone] at h
    cases h

theorem after_inStep {q : Token × Token} (hLeft : q :: left <:+ pairs) (k : Nat) :
    (inStep pairs).After k q.1.content (left.map Prod.fst) (left.map Prod.snd) := by
  have hRest : left <:+ pairs := (List.suffix_cons q left).trans hLeft
  unfold Pairing.After
  split
  · exact fresh_inStep hClass hRest _
  · exact fun j _ => inStep_tokens hRest j
  · exact fun _ => fresh_inStep hClass hRest k
  · cases left with
    | nil => exact .ended
    | cons q' rest =>
      have hMem : q' ∈ pairs := hRest.subset List.mem_cons_self
      exact .same hMem fun _ _ => inStep_tokens ((List.suffix_cons q' rest).trans hRest) k
  · exact inStep_tokens hRest k

theorem skipSeparators_inStep (hLeft : left <:+ pairs) :
    ∃ rest, rest <:+ pairs ∧ Cursor.skipSeparators (left.map Prod.fst) = rest.map Prod.fst ∧
      Cursor.skipSeparators (left.map Prod.snd) = rest.map Prod.snd := by
  unfold Cursor.skipSeparators
  induction left with
  | nil => exact ⟨[], List.nil_suffix, rfl, rfl⟩
  | cons q rest ih =>
    have hTwins := hClass q (hLeft.subset List.mem_cons_self)
    simp only [List.map_cons, List.dropWhile_cons, hTwins.isBlank_eq, hTwins.1.isSymbol_eq]
    split
    · exact ih ((List.suffix_cons q rest).trans hLeft)
    · exact ⟨q :: rest, hLeft, rfl, rfl⟩

theorem inStep_coherent : (inStep pairs).Coherent where
  alike_errors h := h
  missingDot h := .missingDot h
  alike_twins h := (hClass _ h).1
  facing := by
    rintro k _ _ ⟨left, hLeft, rfl, rfl⟩
    rcases next?_inStep hClass hLeft with ⟨h, h'⟩ | ⟨q, rest, hRest, h, h'⟩
    · exact .ended h h' (fun _ => ⟨[], List.nil_suffix, rfl, rfl⟩) fun j _ => inStep_tokens hLeft j
    · have hMem : q ∈ pairs := hRest.subset List.mem_cons_self
      exact .same hMem h h' (after_inStep hClass hRest k)
  skipSeparators := by
    rintro k _ _ - ⟨⟨left, hLeft, rfl, rfl⟩, -⟩
    obtain ⟨rest, hRest, h, h'⟩ := skipSeparators_inStep hClass hLeft
    rw [h, h']
    exact fresh_inStep hClass hRest k
  outermost := by
    rintro _ _ - ⟨left, hLeft, rfl, rfl⟩ hNone
    exact (fresh_inStep hClass hLeft 0).2 hNone

/-- The rules build copies of trees. -/
theorem inStep_trees : (inStep pairs).Trees units units (Copies pairs) where
  number h := .number h
  string h := .string h
  ident h := .ident h
  unit h := .unit h
  nothing := .nothing
  member h hInner := .member h hInner
  lambda := by
    rintro k _ _ p p' x x' q q' rest rest' n m ⟨left, hLeft, rfl, rfl⟩ hNext hNext' hBody
    rcases next?_inStep hClass hLeft with ⟨h, -⟩ | ⟨slash, behind, hBehind, h, h'⟩
    · rw [h] at hNext
      cases hNext
    rw [h] at hNext
    rw [h'] at hNext'
    obtain ⟨hSlash, hName⟩ := Prod.mk.inj (Option.some.inj hNext)
    obtain ⟨hSlash', hName'⟩ := Prod.mk.inj (Option.some.inj hNext')
    cases behind with
    | nil => cases hName
    | cons name behind =>
      have hPair : slash = (⟨.symbol .backslash, p⟩, ⟨.symbol .backslash, p'⟩) :=
        Prod.ext hSlash hSlash'
      have hPair' : name = (⟨.ident x, q⟩, ⟨.ident x', q'⟩) :=
        Prod.ext (List.cons.inj hName).1 (List.cons.inj hName').1
      subst hPair hPair'
      obtain ⟨front, hFront⟩ := hBehind
      exact .lambda ⟨front, behind, by simpa using hFront⟩ hBody
  bound := by
    intro kind l l' n m hKind hName hLeft hInner
    obtain ⟨x, x', p, p', rfl, rfl, hTwins⟩ := hLeft.eq_ident hName
    exact .bound hKind hTwins hInner
  wrap hKind h hInner := .wrap hKind h hInner
  factorial hInner := .factorial hInner
  binary op hLeft hRight := .binary op hLeft hRight
  pair hKind hLeft hRight := by
    refine .pair ?_ hLeft hRight
    simp only [List.mem_cons, List.not_mem_nil, or_false] at hKind ⊢
    exact Or.inr (Or.inr (Or.inr hKind))
  juxtaposed := by
    intro l l' r r' hLeft hRight
    rw [hLeft.juxtapositionKind_eq hClass hRight]
    cases hFound : juxtapositionKind units l r with
    | error fault => exact Or.inl ⟨fault, rfl, rfl⟩
    | ok found =>
      refine Or.inr ⟨found, found, rfl, rfl, ?_⟩
      cases found with
      | none => exact .none
      | some kind =>
        refine .some (.pair ?_ hLeft hRight)
        rcases juxtapositionKind_mem hFound with rfl | rfl | rfl <;> decide
  isNumber_eq h := h.isNumber_eq
  isNegatedNumber_eq h := h.isNegatedNumber_eq
  kind_iff _ h := by rw [h.kind_eq]
  isQuantityPart_eq h := h.isQuantityPart_eq
  wholePart h := Or.inr h.wholePart

end InStep

-- ---------------------------------------------------------------------------
-- Whole sequences of tokens
-- ---------------------------------------------------------------------------

/-- What two sequences of the same classes are parsed into. -/
theorem SameClasses.agrees (depth : Nat) (h : SameClasses units tokens tokens') :
    Agrees (ParseError.Alike fun t t' => (t, t') ∈ twinsOf tokens tokens')
      (Copies (twinsOf tokens tokens')) (parseWithin depth units tokens)
      (parseWithin depth units tokens') := by
  refine parseWithin_twinned (inStep_coherent h.twins) (inStep_trees h.twins) depth ?_
  rw [h.significant.1, h.significant.2]
  exact fresh_inStep h.twins List.suffix_rfl 0

/-- The tree of the second sequence is a copy of that of the first. -/
theorem SameClasses.copies {depth : Nat} {n : Node} (h : SameClasses units tokens tokens')
    (hParsed : (parseWithin depth units tokens).result = .ok n) :
    ∃ n', (parseWithin depth units tokens').result = .ok n' ∧
      Copies (twinsOf tokens tokens') n n' := by
  have hAgrees := h.agrees depth
  unfold Attempt.Agrees at hAgrees
  rw [hParsed] at hAgrees
  generalize (parseWithin depth units tokens').result = outcome' at hAgrees ⊢
  cases hAgrees with
  | ok hCopies => exact ⟨_, rfl, hCopies⟩

/-- The error of the second sequence is that of the first about the tokens at the same indices. -/
theorem SameClasses.alike {depth : Nat} {e : ParseError} (h : SameClasses units tokens tokens')
    (hFailed : (parseWithin depth units tokens).result = .error (.error e)) :
    ∃ e', (parseWithin depth units tokens').result = .error (.error e') ∧
      e.Alike (fun t t' => (t, t') ∈ twinsOf tokens tokens') e' := by
  have hAgrees := h.agrees depth
  unfold Attempt.Agrees at hAgrees
  rw [hFailed] at hAgrees
  generalize (parseWithin depth units tokens').result = outcome' at hAgrees ⊢
  cases hAgrees with
  | error hAlike => exact ⟨_, rfl, hAlike⟩

/-- **Parsing looks only at token classes.** Of sequences that agree index by index in the classes of
their tokens, either both are parsed, and each tree is a copy of the other and of the tree `pattern` of
the numbered tokens, whose places tell which tokens the parts of a tree are from; or both fail with the
same error, about the tokens at the same index if it is about tokens. -/
theorem parseWithin_classes (depth : Nat) (h : SameClasses units tokens tokens') :
    (∃ n n' pattern, (parseWithin depth units tokens).result = .ok n ∧
      (parseWithin depth units tokens').result = .ok n' ∧
      (parseWithin depth units (numbered tokens)).result = .ok pattern ∧
      Copies (twinsOf tokens tokens') n n' ∧
      Copies (twinsOf (numbered tokens) tokens) pattern n ∧
      Copies (twinsOf (numbered tokens) tokens') pattern n') ∨
    ∃ e e' pattern, (parseWithin depth units tokens).result = .error (.error e) ∧
      (parseWithin depth units tokens').result = .error (.error e') ∧
      (parseWithin depth units (numbered tokens)).result = .error (.error pattern) ∧
      e.Alike (fun t t' => (t, t') ∈ twinsOf tokens tokens') e' ∧
      pattern.Alike (fun t t' => (t, t') ∈ twinsOf (numbered tokens) tokens) e ∧
      pattern.Alike (fun t t' => (t, t') ∈ twinsOf (numbered tokens) tokens') e' := by
  have hSelf := (SameClasses.refl units tokens).numbered
  have hAll : AllSolid (fun _ => True) (significant (numbered tokens)) := fun _ _ => trivial
  rcases parseWithin_reports depth units hAll with ⟨pattern, hPattern⟩ | ⟨pattern, hPattern, -⟩
  · obtain ⟨n, hParsed, hCopies⟩ := hSelf.copies hPattern
    obtain ⟨n', hParsed', hCopies'⟩ := h.numbered.copies hPattern
    obtain ⟨m, hm, hBoth⟩ := h.copies hParsed
    obtain rfl : n' = m := Except.ok.inj (hParsed'.symm.trans hm)
    exact Or.inl ⟨n, n', pattern, hParsed, hParsed', hPattern, hBoth, hCopies, hCopies'⟩
  · obtain ⟨e, hFailed, hAlike⟩ := hSelf.alike hPattern
    obtain ⟨e', hFailed', hAlike'⟩ := h.numbered.alike hPattern
    obtain ⟨e'', he, hBoth⟩ := h.alike hFailed
    obtain rfl : e' = e'' := by
      have hSame := hFailed'.symm.trans he
      cases hSame
      rfl
    exact Or.inr ⟨e, e', pattern, hFailed, hFailed', hPattern, hBoth, hAlike, hAlike'⟩

/-- `\x.x $5` and `\y.z €7`: the parameter, the name in the body, the unit and the number are those of
the tokens of each sequence. -/
theorem renamed_lambda_classes :
    let units : List String := ["$", "€"]
    let tokens : List Token :=
      [⟨.symbol .backslash, ⟨1, 1⟩⟩, ⟨.ident "x", ⟨1, 2⟩⟩, ⟨.symbol .dot, ⟨1, 3⟩⟩,
       ⟨.ident "x", ⟨1, 4⟩⟩, ⟨.ident "$", ⟨1, 6⟩⟩, ⟨.number (.fraction 5), ⟨1, 7⟩⟩]
    let tokens' : List Token :=
      [⟨.symbol .backslash, ⟨2, 1⟩⟩, ⟨.ident "y", ⟨2, 2⟩⟩, ⟨.symbol .dot, ⟨2, 3⟩⟩,
       ⟨.ident "z", ⟨2, 4⟩⟩, ⟨.ident "€", ⟨3, 1⟩⟩, ⟨.number (.fraction 7), ⟨3, 2⟩⟩]
    let t : Node :=
      .named .function (.text "x")
        (.pair .call (.pair .apply (.ident "x" ⟨1, 4⟩) (.ident "$" ⟨1, 6⟩))
          (.number (.fraction 5) ⟨1, 7⟩)) ⟨1, 1⟩
    let t' : Node :=
      .named .function (.text "y")
        (.pair .call (.pair .apply (.ident "z" ⟨2, 4⟩) (.ident "€" ⟨3, 1⟩))
          (.number (.fraction 7) ⟨3, 2⟩)) ⟨2, 1⟩
    SameClasses units tokens tokens' ∧ (parse units tokens).result = .ok t ∧
      (parse units tokens').result = .ok t' ∧ Copies (twinsOf tokens tokens') t t' := by
  intro units tokens tokens' t t'
  have hClasses : SameClasses units tokens tokens' := by
    refine ⟨rfl, fun q hq => ?_⟩
    simp only [tokens, tokens', List.zip_cons_cons, List.zip_nil_left, List.mem_cons,
      List.not_mem_nil, or_false] at hq
    rcases hq with rfl | rfl | rfl | rfl | rfl | rfl
    · exact ⟨.symbol _, by simp⟩
    · exact ⟨.ident _ _, by simp [units]⟩
    · exact ⟨.symbol _, by simp⟩
    · exact ⟨.ident _ _, by simp [units]⟩
    · exact ⟨.ident _ _, by simp [units]⟩
    · exact ⟨.number _ _, by simp⟩
  have hParsed : (parse units tokens).result = .ok t := rfl
  have hParsed' : (parse units tokens').result = .ok t' := rfl
  refine ⟨hClasses, hParsed, hParsed', ?_⟩
  rcases parseWithin_classes maxNesting hClasses with
    ⟨n, n', pattern, hn, hn', -, hCopies, -⟩ | ⟨e, e', pattern, he, -⟩
  · obtain rfl : t = n := Except.ok.inj (hParsed.symm.trans hn)
    obtain rfl : t' = n' := Except.ok.inj (hParsed'.symm.trans hn')
    exact hCopies
  · cases hParsed.symm.trans he

/-- `-5`, where the sign of the second sequence does not know its place: the negation stands where the
sign does in the first tree and where the number does in the second, so no token at one index of both
sequences has the places of both. -/
theorem unknown_place_not_replaced :
    let tokens : List Token := [⟨.symbol .sub, ⟨1, 1⟩⟩, ⟨.number (.fraction 5), ⟨1, 2⟩⟩]
    let tokens' : List Token := [⟨.symbol .sub, ⟨0, 0⟩⟩, ⟨.number (.fraction 5), ⟨1, 2⟩⟩]
    let t : Node := .wrap .negation (.number (.fraction 5) ⟨1, 2⟩) ⟨1, 1⟩
    let t' : Node := .wrap .negation (.number (.fraction 5) ⟨1, 2⟩) ⟨0, 0⟩
    SameClasses [] tokens tokens' ∧ (parse [] tokens).result = .ok t ∧
      (parse [] tokens').result = .ok t' ∧
      ¬∃ q ∈ tokens.zip tokens', t.place = q.1.place ∧ t'.place = q.2.place := by
  intro tokens tokens' t t'
  refine ⟨⟨rfl, fun q hq => ?_⟩, rfl, rfl, by decide⟩
  simp only [tokens, tokens', List.zip_cons_cons, List.zip_nil_left, List.mem_cons,
    List.not_mem_nil, or_false] at hq
  rcases hq with rfl | rfl
  · exact ⟨.symbol _, by simp⟩
  · exact ⟨.number _ _, by simp⟩

end Grammar

end Reckoner
