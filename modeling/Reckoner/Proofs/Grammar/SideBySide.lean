import Reckoner.Proofs.Grammar.Attachment
import Reckoner.Proofs.Grammar.Soundness

/-!
# Two runs side by side

The grammar is run twice, with two lists of prefix units and on two sequences of tokens. A `Pairing`
says which tokens may be left to the two runs at the same moment, under the number of parentheses
that are open there, under how many of them lists of statements are compared, which tokens count as
twins, and which of their parse errors count as the same. It is coherent when the two runs always face
the same thing: twins, which are of the same class, the end of the tokens, or what only the second run
has left where the first run is at its end. This is a `)`, or a separator where no lists of statements
are compared: for every other rule it is as good as the end. It is lawful when moreover a token is its
own only twin.

What the two runs build is compared by a relation `T` on trees. It has to contain what the rules make
of twins and of trees that it relates, and no test of the rules on shapes may tell related trees apart
(`Pairing.Trees`).

Under a coherent pairing no rule can tell the runs apart (`Layers.Paired`): a candidate is accepted in
both or in neither, a loop takes as many steps, a parenthesis that the first run leaves open is closed
in the second, and the trees are related. One lemma for each rule takes this from the rules below to
the next record, and induction on the bound does the rest. The trails of rejected candidates are not
compared.

## Results

* `within_paired`       — the rules under one bound pair under every coherent pairing.
* `parseWithin_twinned` — so does parsing as a whole.
* `parseWithin_paired`  — under a lawful pairing the trees differ only in what prefix units attach.
-/

namespace Reckoner

/-- Contents of one class: of the same type and, if they are symbols, the same symbol. -/
inductive Content.Alike : Content → Content → Prop where
  | number (v v' : Payload) : Alike (.number v) (.number v')
  | ident (x x' : String) : Alike (.ident x) (.ident x')
  | string (x x' : String) : Alike (.string x) (.string x')
  | symbol (s : Symbol) : Alike (.symbol s) (.symbol s)
  | blank (x x' : String) : Alike (.blank x) (.blank x')
  | stray (x x' : String) : Alike (.stray x) (.stray x')
  | finish (x x' : String) : Alike (.finish x) (.finish x')
  | other (type x x' : String) : Alike (.other type x) (.other type x')

theorem Content.Alike.refl (c : Content) : c.Alike c := by
  cases c with
  | number v => exact .number v v
  | ident x => exact .ident x x
  | string x => exact .string x x
  | symbol s => exact .symbol s
  | blank x => exact .blank x x
  | stray x => exact .stray x x
  | finish x => exact .finish x x
  | other type x => exact .other type x x

theorem Content.Alike.isSymbol_eq {t t' : Token} (h : t.content.Alike t'.content) (s : Symbol) :
    t'.isSymbol s = t.isSymbol s := by
  obtain ⟨content, place⟩ := t
  obtain ⟨content', place'⟩ := t'
  cases h <;> rfl

theorem Content.Alike.isNumber_eq {t t' : Token} (h : t.content.Alike t'.content) :
    t'.isNumber = t.isNumber := by
  obtain ⟨content, place⟩ := t
  obtain ⟨content', place'⟩ := t'
  cases h <;> rfl

/-- The same error about tokens that are twins. -/
inductive ParseError.Alike (twins : Token → Token → Prop) : ParseError → ParseError → Prop where
  | expectedToken : Alike twins .expectedToken .expectedToken
  | expectedSymbol (found expected : Symbol) {t t' : Token} (h : twins t t') :
      Alike twins (.expectedSymbol found expected t) (.expectedSymbol found expected t')
  | invalidToken (expected : Symbol) {t t' : Token} (h : twins t t') :
      Alike twins (.invalidToken expected t) (.invalidToken expected t')
  | expectedNumber {t t' : Token} (h : twins t t') :
      Alike twins (.expectedNumber t) (.expectedNumber t')
  | expectedIdentifier {t t' : Token} (h : twins t t') :
      Alike twins (.expectedIdentifier t) (.expectedIdentifier t')
  | expectedParameter {t t' : Token} (h : twins t t') :
      Alike twins (.expectedParameter t) (.expectedParameter t')
  | expectedAssignee {t t' : Token} (h : twins t t') :
      Alike twins (.expectedAssignee t) (.expectedAssignee t')
  | unexpectedSymbol (symbol : Symbol) {t t' : Token} (h : twins t t') :
      Alike twins (.unexpectedSymbol symbol t) (.unexpectedSymbol symbol t')
  | unexpectedBlank {t t' : Token} (h : twins t t') :
      Alike twins (.unexpectedBlank t) (.unexpectedBlank t')
  | missingDot {cause cause' : ParseError} (h : Alike twins cause cause') :
      Alike twins (.missingDot cause) (.missingDot cause')
  | invalidMixedFraction : Alike twins .invalidMixedFraction .invalidMixedFraction
  | reservedJuxtaposition : Alike twins .reservedJuxtaposition .reservedJuxtaposition
  | unexpectedInput {t t' : Token} (h : twins t t') :
      Alike twins (.unexpectedInput t) (.unexpectedInput t')
  | tooDeep : Alike twins .tooDeep .tooDeep

/-- Where a token is its own only twin, errors alike are the same. -/
theorem ParseError.Alike.eq {twins : Token → Token → Prop} {e e' : ParseError}
    (hSame : ∀ {t t'}, twins t t' → t = t') (h : e.Alike twins e') : e = e' := by
  induction h with
  | missingDot _ ih => rw [ih]
  | expectedToken => rfl
  | invalidMixedFraction => rfl
  | reservedJuxtaposition => rfl
  | tooDeep => rfl
  | _ => rename_i hTwins; rw [hSame hTwins]

namespace Grammar

open Attempt (Agrees)
open Cursor (next? after? solid)

-- ---------------------------------------------------------------------------
-- Pairings
-- ---------------------------------------------------------------------------

/-- Whether the very first token is an identifier, as behind a backslash it has to be. -/
def namesParameter : List Token → Bool
  | ⟨.ident _, _⟩ :: _ => true
  | _ => false

/-- What may happen at the same moment of two runs: which parse errors, which tokens that are left
under a number of open parentheses, and which tokens that are looked at. -/
structure Pairing where
  errors : ParseError → ParseError → Prop
  tokens : Nat → List Token → List Token → Prop
  twins : Token → Token → Prop := Eq
  /-- Under which numbers of open parentheses lists of statements are compared. -/
  lists : Nat → Prop := fun _ => True

namespace Pairing

variable (P : Pairing)

/-- Tokens that pair where an expression starts: they are at their end in both runs or in neither. -/
def Fresh (k : Nat) (ts ts' : List Token) : Prop :=
  P.tokens k ts ts' ∧ (next? ts = none → next? ts' = none)

/-- The tokens behind a backslash, where blanks are not skipped. Without the name of a parameter both
runs fail. -/
inductive Behind (k : Nat) : List Token → List Token → Prop where
  | same {t t' : Token} (twins : P.twins t t') {rest rest' : List Token}
      (h : ∀ x, t.content = .ident x → P.tokens k rest rest') : Behind k (t :: rest) (t' :: rest')
  | ended : Behind k [] []
  | refused {rest rest' : List Token} (unnamed : namesParameter rest = false)
      (unnamed' : namesParameter rest' = false) (h : ∀ e e', P.errors e e') : Behind k rest rest'

/-- What pairs after twins. A `)` that closes no parenthesis is never taken. -/
def After (k : Nat) (c : Content) (rest rest' : List Token) : Prop :=
  match c with
  | .symbol .openParens => P.Fresh (k + 1) rest rest'
  | .symbol .closeParens => ∀ j, k = j + 1 → P.tokens j rest rest'
  | .symbol .semicolon => P.lists k → P.Fresh k rest rest'
  | .symbol .backslash => P.Behind k rest rest'
  | _ => P.tokens k rest rest'

variable {P} in
/-- Behind any other symbol the tokens pair as they did before it. -/
theorem After.tokens {k : Nat} {y : Symbol} {rest rest' : List Token}
    (h : P.After k (.symbol y) rest rest')
    (hy : y ∉ [.openParens, .closeParens, .semicolon, .backslash]) : P.tokens k rest rest' := by
  cases y <;> first | exact h | simp at hy

/-- What two runs face. -/
inductive Facing (k : Nat) (ts ts' : List Token) : Prop where
  | same {t t' : Token} (twins : P.twins t t') {rest rest' : List Token}
      (h : next? ts = some (t, rest)) (h' : next? ts' = some (t', rest'))
      (after : P.After k t.content rest rest')
  | ended (h : next? ts = none) (h' : next? ts' = none) (nothing : P.lists k → P.tokens k [] [])
      (outside : ∀ j, k = j + 1 → P.tokens j ts ts')
  | closing (y : Symbol) (p : Place) {rest' : List Token} (h : next? ts = none)
      (h' : next? ts' = some (⟨.symbol y, p⟩, rest')) (errors : ∀ e e', P.errors e e')
      (closer : y = .closeParens ∧ (∀ j, k = j + 1 → P.tokens j ts rest') ∨
        y = .semicolon ∧ ¬ P.lists k)

/-- The laws of a pairing. -/
structure Coherent : Prop where
  alike_errors : ∀ {e e'}, e.Alike P.twins e' → P.errors e e'
  missingDot : ∀ {e e'}, P.errors e e' → P.errors (.missingDot e) (.missingDot e')
  alike_twins : ∀ {t t'}, P.twins t t' → t.content.Alike t'.content
  facing : ∀ {k ts ts'}, P.tokens k ts ts' → P.Facing k ts ts'
  skipSeparators : ∀ {k ts ts'}, P.lists k → P.Fresh k ts ts' →
    P.Fresh k (Cursor.skipSeparators ts) (Cursor.skipSeparators ts')
  /-- Under no open parenthesis both runs end together. -/
  outermost : ∀ {ts ts'}, P.lists 0 → P.tokens 0 ts ts' → next? ts = none → next? ts' = none
  lists_inside : ∀ k, P.lists (k + 1) := by intro; trivial

/-- What the second run has left at the end of the first one is a `)` or a separator. -/
theorem mem_of_closer {y : Symbol} {A B : Prop} (h : y = .closeParens ∧ A ∨ y = .semicolon ∧ B) :
    y ∈ [.closeParens, .semicolon] := by
  rcases h with ⟨rfl, -⟩ | ⟨rfl, -⟩ <;> decide

theorem not_closer {y : Symbol} (h : y ∉ [.openParens, .closeParens, .semicolon, .backslash]) :
    y ∉ [.closeParens, .semicolon] := by
  intro hy
  rcases (by simpa using hy : _ ∨ _) with rfl | rfl <;> simp at h

/-- The laws of a pairing in which a token is its own only twin. -/
structure Lawful : Prop extends P.Coherent where
  same_token : ∀ {t t'}, P.twins t t' → t = t'

/-- The laws of a relation on the trees that two runs build of tokens that pair. -/
structure Trees (units units' : List String) (T : Node → Node → Prop) : Prop where
  -- what is built
  number : ∀ {v v' p p'}, P.twins ⟨.number v, p⟩ ⟨.number v', p'⟩ → T (.number v p) (.number v' p')
  string : ∀ {x x' p p'}, P.twins ⟨.string x, p⟩ ⟨.string x', p'⟩ → T (.string x p) (.string x' p')
  ident : ∀ {x x' p p'}, P.twins ⟨.ident x, p⟩ ⟨.ident x', p'⟩ → T (.ident x p) (.ident x' p')
  unit : ∀ {p p'}, P.twins ⟨.symbol .openParens, p⟩ ⟨.symbol .openParens, p'⟩ →
    T (.unit p) (.unit p')
  nothing : T (.unit .unknown) (.unit .unknown)
  member : ∀ {x x' p p' n m}, P.twins ⟨.ident x, p⟩ ⟨.ident x', p'⟩ → T n m →
    T (.named .member (.text x) n p) (.named .member (.text x') m p')
  /-- The name of the parameter stands directly behind the backslash. -/
  lambda : ∀ {k ts ts' p p' x x' q q' rest rest' n m}, P.tokens k ts ts' →
    next? ts = some (⟨.symbol .backslash, p⟩, ⟨.ident x, q⟩ :: rest) →
    next? ts' = some (⟨.symbol .backslash, p'⟩, ⟨.ident x', q'⟩ :: rest') → T n m →
    T (.named .function (.text x) n p) (.named .function (.text x') m p')
  bound : ∀ {kind l l' n m}, kind ∈ [.function, .assignment] → l.kind = .identifier → T l l' →
    T n m → T (.named kind l.value n l.place) (.named kind l'.value m l'.place)
  wrap : ∀ {y kind p p' n m}, (y, kind) ∈ (.openParens, .parens) :: prefixes →
    P.twins ⟨.symbol y, p⟩ ⟨.symbol y, p'⟩ → T n m → T (.wrap kind n p) (.wrap kind m p')
  factorial : ∀ {n m}, T n m → T (.wrap .factorial n .unknown) (.wrap .factorial m .unknown)
  binary : ∀ {l l' r r'} (op : Operator), T l l' → T r r' → T (.binary op l r) (.binary op l' r')
  pair : ∀ {kind l l' r r'}, kind ∈ [.conversion, .statements] → T l l' → T r r' →
    T (.pair kind l r) (.pair kind l' r')
  /-- The table of juxtaposition takes the same sides. -/
  juxtaposed : ∀ {l l' r r'}, T l l' → T r r' →
    (∃ fault, juxtapositionKind units l r = .error fault ∧
        juxtapositionKind units' l' r' = .error fault) ∨
      ∃ a b, juxtapositionKind units l r = .ok a ∧ juxtapositionKind units' l' r' = .ok b ∧
        Option.Rel (fun kind kind' => T (.pair kind l r) (.pair kind' l' r')) a b
  -- what is asked
  isNumber_eq : ∀ {n m}, T n m → m.isNumber = n.isNumber
  isNegatedNumber_eq : ∀ {n m}, T n m → m.isNegatedNumber = n.isNegatedNumber
  kind_iff : ∀ {k n m}, k ∈ [.product, .identifier] → T n m → (m.kind = k ↔ n.kind = k)
  isQuantityPart_eq : ∀ {n m}, T n m → isQuantityPart m = isQuantityPart n
  wholePart : ∀ {n m}, T n m →
    (∃ fault, Grammar.wholePart n = .error fault ∧ Grammar.wholePart m = .error fault) ∨
      ∃ a b, Grammar.wholePart n = .ok a ∧ Grammar.wholePart m = .ok b ∧
        Option.Rel T a.1 b.1 ∧ T a.2 b.2

variable (T : Node → Node → Prop)

/-- What two runs of a rule build: trees that are related, and tokens that pair. -/
def Built (k : Nat) (a b : Node × List Token) : Prop :=
  T a.1 b.1 ∧ P.tokens k a.2 b.2

/-- Two runs of a rule agree. -/
def Rules (k : Nat) (x y : Attempt (Node × List Token)) : Prop :=
  Agrees P.errors (P.Built T k) x y

/-- Two runs of a step agree. -/
def Steps (k : Nat) (x y : Attempt (Option (Node × List Token))) : Prop :=
  Agrees P.errors (Option.Rel (P.Built T k)) x y

variable {P T}

/-- A mixed fraction is put together from parts that are related. -/
theorem Trees.mixedSum {units units' : List String} (h : P.Trees units units' T)
    {outer outer' : Option Node} {whole whole' top top' bottom bottom' : Node}
    (hOuter : Option.Rel T outer outer') (hWhole : T whole whole') (hTop : T top top')
    (hBottom : T bottom bottom') (negated : Bool) :
    T (Grammar.mixedSum outer negated whole top bottom)
      (Grammar.mixedSum outer' negated whole' top' bottom') := by
  have hSum := h.binary (if negated then .minus else .plus) hWhole (h.binary .div hTop hBottom)
  cases hOuter with
  | none => exact hSum
  | some hFactor => exact h.binary .mul hFactor hSum

end Pairing

variable {P : Pairing} {T : Node → Node → Prop} {k : Nat} {ts ts' : List Token}

-- ---------------------------------------------------------------------------
-- Cursors
-- ---------------------------------------------------------------------------

section Cursors

variable (hP : P.Coherent)
include hP

/-- Both runs take the next token; where the second run is left with a `)`, it must fail as the first
one does. -/
theorem next_bind_paired {α β : Type} {R : α → β → Prop}
    {f : Token × List Token → Attempt α} {g : Token × List Token → Attempt β}
    (hTokens : P.tokens k ts ts')
    (hSame : ∀ t t' rest rest', P.twins t t' → next? ts = some (t, rest) →
      next? ts' = some (t', rest') → P.After k t.content rest rest' →
        Agrees P.errors R (f (t, rest)) (g (t', rest')))
    (hClosing : ∀ y p rest', y ∈ [.closeParens, .semicolon] →
      next? ts' = some (⟨.symbol y, p⟩, rest') →
        ∃ e, (g (⟨.symbol y, p⟩, rest')).result = .error (.error e)) :
    Agrees P.errors R (Cursor.next ts >>= f) (Cursor.next ts' >>= g) := by
  unfold Cursor.next
  cases hP.facing hTokens with
  | same twins h h' after =>
    rw [h, h']
    exact hSame _ _ _ _ twins h h' after
  | ended h h' nothing outside =>
    rw [h, h']
    exact .reject (hP.alike_errors .expectedToken)
  | closing y p h h' errors closer =>
    obtain ⟨e, he⟩ := hClosing y p _ (Pairing.mem_of_closer closer) h'
    rw [h, h']
    exact .of_error rfl he (errors _ _)

theorem after?_paired {s : Symbol}
    (hs : s ∉ [.closeParens, .semicolon] ∨ s = .semicolon ∧ P.lists k) (hTokens : P.tokens k ts ts') :
    Option.Rel (P.After k (.symbol s)) (after? s ts) (after? s ts') := by
  unfold Cursor.after?
  cases hP.facing hTokens with
  | same twins h h' after =>
    rw [h, h']
    dsimp only
    rw [(hP.alike_twins twins).isSymbol_eq]
    split
    · rename_i hSymbol
      rw [Token.isSymbol_iff.mp hSymbol] at after
      exact .some after
    · exact .none
  | ended h h' nothing outside =>
    rw [h, h']
    exact .none
  | closing y p h h' errors closer =>
    have hNe : y ≠ s := by
      rintro rfl
      rcases hs with hs | ⟨rfl, hLists⟩
      · exact hs (Pairing.mem_of_closer closer)
      · rcases closer with ⟨hClose, -⟩ | ⟨-, hUnlisted⟩
        · cases hClose
        · exact hUnlisted hLists
    have hOther : Token.isSymbol ⟨.symbol y, p⟩ s = false := by simpa using hNe
    rw [h, h']
    simp only [hOther]
    exact .none

theorem take_paired {s : Symbol} (hs : s ∉ [.closeParens, .semicolon]) (hTokens : P.tokens k ts ts') :
    Agrees P.errors (P.After k (.symbol s)) (Cursor.take s ts) (Cursor.take s ts') := by
  refine next_bind_paired hP hTokens ?_ ?_
  · rintro ⟨content, place⟩ ⟨content', place'⟩ rest rest' hTwins - - after
    cases hP.alike_twins hTwins with
    | symbol found =>
      dsimp only
      split
      · rename_i hFound
        rw [hFound] at after
        exact .pure after
      · exact .reject (hP.alike_errors (.expectedSymbol _ _ hTwins))
    | _ => exact .reject (hP.alike_errors (.invalidToken _ hTwins))
  · intro y p rest' hy _
    dsimp only
    rw [if_neg (ne_of_mem_of_not_mem hy hs)]
    exact ⟨_, rfl⟩

omit hP in
theorem take_other {s s' : Symbol} {p : Place} {rest : List Token} (hs : s' ≠ s)
    (h : next? ts = some (⟨.symbol s', p⟩, rest)) :
    ∃ e, (Cursor.take s ts).result = .error (.error e) := by
  unfold Cursor.take Cursor.next
  rw [h]
  refine ⟨.expectedSymbol s' s ⟨.symbol s', p⟩, ?_⟩
  show (if s' = s then pure rest else Attempt.reject _ : Attempt (List Token)).result = _
  rw [if_neg hs]
  rfl

omit hP in
/-- A symbol that is taken is the next token. -/
theorem take_next {s : Symbol} {t : Token} {after rest : List Token} (h : next? ts = some (t, after))
    (hTake : (Cursor.take s ts).result = .ok rest) : rest = after ∧ t = ⟨.symbol s, t.place⟩ := by
  obtain ⟨found, hFound, hTake⟩ := Attempt.bind_ok.mp hTake
  obtain rfl := Cursor.next_eq h hFound
  obtain ⟨content, place⟩ := t
  cases content with
  | symbol s' =>
    dsimp only at hTake
    split at hTake
    · rename_i hSame
      exact ⟨(Except.ok.inj hTake).symm, by rw [hSame]⟩
    · cases hTake
  | _ => cases hTake

/-- A parenthesis is empty in both runs or in neither. -/
theorem after?_close_paired (hFresh : P.Fresh (k + 1) ts ts') :
    Option.Rel (P.tokens k) (after? .closeParens ts) (after? .closeParens ts') := by
  obtain ⟨hTokens, hEnd⟩ := hFresh
  unfold Cursor.after?
  cases hP.facing hTokens with
  | same twins h h' after =>
    rw [h, h']
    dsimp only
    rw [(hP.alike_twins twins).isSymbol_eq]
    split
    · rename_i hSymbol
      rw [Token.isSymbol_iff.mp hSymbol] at after
      exact .some (after k rfl)
    · exact .none
  | ended h h' nothing outside =>
    rw [h, h']
    exact .none
  | closing y p h h' errors closer =>
    rw [hEnd h] at h'
    cases h'

/-- What closes a parenthesis: `)` in both runs, the end in both, or the end in the first run and
`)` in the second. -/
theorem closing_bind_paired {α β : Type} {R : α → β → Prop} {f : List Token → Attempt α}
    {g : List Token → Attempt β} (hTokens : P.tokens (k + 1) ts ts')
    (hRest : ∀ rest rest', P.tokens k rest rest' → Agrees P.errors R (f rest) (g rest')) :
    Agrees P.errors R
      (if Cursor.atEnd ts then pure ts >>= f else Cursor.take .closeParens ts >>= f)
      (if Cursor.atEnd ts' then pure ts' >>= g else Cursor.take .closeParens ts' >>= g) := by
  unfold Cursor.atEnd Cursor.peek? Cursor.take Cursor.next
  cases hP.facing hTokens with
  | @same t t' hTwins _ _ h h' after =>
    obtain ⟨content, place⟩ := t
    obtain ⟨content', place'⟩ := t'
    rw [h, h']
    cases hP.alike_twins hTwins with
    | symbol found =>
      by_cases hFound : found = .closeParens
      · subst hFound
        exact hRest _ _ (after k rfl)
      · show Agrees _ _ ((if found = .closeParens then pure _ else Attempt.reject _) >>= f)
          ((if found = .closeParens then pure _ else Attempt.reject _) >>= g)
        rw [if_neg hFound, if_neg hFound]
        exact .error (hP.alike_errors (.expectedSymbol _ _ hTwins))
    | _ => exact .error (hP.alike_errors (.invalidToken _ hTwins))
  | ended h h' nothing outside =>
    rw [h, h']
    exact hRest _ _ (outside k rfl)
  | closing y p h h' errors closer =>
    rcases closer with ⟨rfl, outside⟩ | ⟨-, hUnlisted⟩
    · rw [h, h']
      exact hRest _ _ (outside k rfl)
    · exact absurd (hP.lists_inside k) hUnlisted

theorem select?_paired {α : Type} (table : List (Symbol × α))
    (hTable : ∀ e ∈ table, e.1 ∉ [.closeParens, .semicolon]) (hTokens : P.tokens k ts ts') :
    Option.Rel (fun a b => a.1 = b.1 ∧ a.1 ∈ table ∧
        P.twins ⟨.symbol a.1.1, a.2.1.place⟩ ⟨.symbol a.1.1, b.2.1.place⟩ ∧
        P.After k (.symbol a.1.1) a.2.2 b.2.2)
      (Cursor.select? table ts) (Cursor.select? table ts') := by
  unfold Cursor.select?
  cases hP.facing hTokens with
  | @same t t' hTwins _ _ h h' after =>
    have hAlike := hP.alike_twins hTwins
    have hFinds : (table.find? fun e => t'.isSymbol e.1) = table.find? fun e => t.isSymbol e.1 := by
      simp only [hAlike.isSymbol_eq]
    rw [h, h']
    dsimp only
    rw [hFinds]
    cases hFind : table.find? fun e => t.isSymbol e.1 with
    | none => exact .none
    | some e =>
      have hSymbol : t.isSymbol e.1 = true := by
        have := List.find?_some hFind
        exact this
      have hSymbol' := (hAlike.isSymbol_eq e.1).trans hSymbol
      rw [Token.isSymbol_iff.mp hSymbol] at after
      rw [Token.isSymbol_iff.mp hSymbol, Token.isSymbol_iff.mp hSymbol'] at hTwins
      exact .some ⟨rfl, List.mem_of_find?_eq_some hFind, hTwins, after⟩
  | ended h h' nothing outside =>
    rw [h, h']
    exact .none
  | closing y p h h' errors closer =>
    have hNone : (table.find? fun e => Token.isSymbol ⟨.symbol y, p⟩ e.1) = none := by
      rw [List.find?_eq_none]
      intro e he
      simpa using ne_of_mem_of_not_mem (Pairing.mem_of_closer closer) (hTable e he)
    rw [h, h']
    dsimp only
    rw [hNone]
    exact .none

theorem nextIs?_paired {s : Symbol} (hs : s ∉ [.closeParens, .semicolon])
    (hTokens : P.tokens k ts ts') :
    Option.Rel (fun a b => P.twins a.1 b.1 ∧ P.After k (.symbol s) a.2 b.2)
      (nextIs? s ts) (nextIs? s ts') := by
  unfold nextIs?
  cases hP.facing hTokens with
  | @same t t' hTwins _ _ h h' after =>
    have hSame := (hP.alike_twins hTwins).isSymbol_eq s
    rw [h, h', Option.filter_some, Option.filter_some]
    by_cases hSymbol : t.isSymbol s = true
    · rw [if_pos hSymbol, if_pos (hSame.trans hSymbol)]
      rw [Token.isSymbol_iff.mp hSymbol] at after
      exact .some ⟨hTwins, after⟩
    · rw [if_neg hSymbol, if_neg fun h => hSymbol (hSame.symm.trans h)]
      exact .none
  | ended h h' nothing outside =>
    rw [h, h']
    exact .none
  | closing y p h h' errors closer =>
    have hOther : Token.isSymbol ⟨.symbol y, p⟩ s = false := by
      simpa using ne_of_mem_of_not_mem (Pairing.mem_of_closer closer) hs
    rw [h, h', Option.filter_some, if_neg (by simp [hOther])]
    exact .none

theorem nextIsNumber_paired (hTokens : P.tokens k ts ts') :
    (Cursor.peek? ts').any Token.isNumber = (Cursor.peek? ts).any Token.isNumber := by
  unfold Cursor.peek?
  cases hP.facing hTokens with
  | same twins h h' after =>
    rw [h, h']
    exact (hP.alike_twins twins).isNumber_eq
  | ended h h' nothing outside => rw [h, h']
  | closing y p h h' errors closer =>
    rw [h, h']
    rfl

/-- Where an expression may start, both runs are at the end or neither is. -/
theorem atEnd_paired (hFresh : P.Fresh k ts ts') : Cursor.atEnd ts' = Cursor.atEnd ts := by
  obtain ⟨hTokens, hEnd⟩ := hFresh
  unfold Cursor.atEnd Cursor.peek?
  cases hP.facing hTokens with
  | same twins h h' after =>
    rw [h, h']
    rfl
  | ended h h' nothing outside => rw [h, h']
  | closing y p h h' errors closer => rw [hEnd h, h]

/-- Where both runs are at the end, they may go on from no tokens at all. -/
theorem nothing_paired (hLists : P.lists k) (hFresh : P.Fresh k ts ts')
    (hEnd : Cursor.atEnd ts = true) : P.tokens k [] [] := by
  have hNone : next? ts = none := by simpa [Cursor.atEnd, Cursor.peek?] using hEnd
  cases hP.facing hFresh.1 with
  | same twins h h' after => simp [hNone] at h
  | ended h h' nothing outside => exact nothing hLists
  | closing y p h h' errors closer => simp [hFresh.2 hNone] at h'

end Cursors

-- ---------------------------------------------------------------------------
-- Records of rules
-- ---------------------------------------------------------------------------

variable {units units' : List String}

/-- Every rule of `L` agrees with the same rule of `M` where their tokens pair. -/
structure Layers.Paired (P : Pairing) (T : Node → Node → Prop) (L M : Layers) : Prop where
  expression : ∀ {k ts ts'}, P.lists k → P.Fresh k ts ts' →
    P.Rules T k (L.expression ts) (M.expression ts')
  statements : ∀ {k ts ts'}, P.lists k → P.Fresh k ts ts' →
    P.Rules T k (L.statements ts) (M.statements ts')
  assignment : ∀ {k ts ts'}, P.tokens k ts ts' →
    P.Rules T k (L.assignment ts) (M.assignment ts')
  function : ∀ {k ts ts'}, P.tokens k ts ts' →
    P.Rules T k (L.function ts) (M.function ts')
  additive : ∀ {k ts ts'}, P.tokens k ts ts' →
    P.Rules T k (L.additive ts) (M.additive ts')
  implicitSum : ∀ {k ts ts'}, P.tokens k ts ts' →
    P.Rules T k (L.implicitSum ts) (M.implicitSum ts')
  multiplicative : ∀ {k ts ts'}, P.tokens k ts ts' →
    P.Rules T k (L.multiplicative ts) (M.multiplicative ts')
  continuation : ∀ {k n m ts ts'}, T n m → P.tokens k ts ts' →
    P.Steps T k (L.continuation n ts) (M.continuation m ts')
  mixedFraction : ∀ {k n m ts ts'}, T n m → P.tokens k ts ts' →
    P.Rules T k (L.mixedFraction n ts) (M.mixedFraction m ts')
  juxtaposition : ∀ {k n m ts ts'}, T n m → P.tokens k ts ts' →
    P.Rules T k (L.juxtaposition n ts) (M.juxtaposition m ts')
  power : ∀ {k ts ts'} (allowed : Bool), P.tokens k ts ts' →
    P.Rules T k (L.power allowed ts) (M.power allowed ts')
  factorial : ∀ {k ts ts'}, P.tokens k ts ts' →
    P.Rules T k (L.factorial ts) (M.factorial ts')
  primary : ∀ {k ts ts'}, P.tokens k ts ts' →
    P.Rules T k (L.primary ts) (M.primary ts')
  number : ∀ {k ts ts'}, P.tokens k ts ts' →
    P.Rules T k (L.number ts) (M.number ts')
  ident : ∀ {k ts ts'}, P.tokens k ts ts' → P.Rules T k (L.ident ts) (M.ident ts')
  parens : ∀ {k ts ts'}, P.tokens k ts ts' → P.Rules T k (L.parens ts) (M.parens ts')
  lambda : ∀ {k ts ts'}, P.tokens k ts ts' → P.Rules T k (L.lambda ts) (M.lambda ts')

/-- The rules in which no call is allowed are stopped alike. -/
theorem exhausted_paired : Layers.exhausted.Paired P T Layers.exhausted := by
  constructor <;> intros <;> exact .tooDeep

-- ---------------------------------------------------------------------------
-- Loops
-- ---------------------------------------------------------------------------

/-- A step that finds more takes a token that is not blank. -/
def Shortens (step : Node → List Token → Attempt (Option (Node × List Token))) : Prop :=
  ∀ n ts m rest, (step n ts).result = .ok (some (m, rest)) →
    (solid rest).length < (solid ts).length

theorem factorialStep_shortens : Shortens factorialStep := by
  intro n ts m rest h
  obtain ⟨rest₁, hBang, hNode⟩ := Option.map_eq_some_iff.mp (Except.ok.inj h)
  obtain ⟨p, hSolid⟩ := Cursor.solid_of_after? hBang
  obtain rfl : rest₁ = rest := congrArg Prod.snd hNode
  simp [hSolid]

theorem sumStep_shortens (units : List String) (depth : Nat) :
    Shortens (sumStep (Layers.within units depth)) := by
  intro n ts m rest h
  obtain ⟨entry, t, after, rhs, hSelect, hRead, -⟩ := sumStep_some.mp h
  obtain ⟨-, -, hSolid⟩ := Cursor.solid_of_select? hSelect
  have hShorter := ((within_sound units depth).implicitSum hRead).shorter rfl
  simp only [hSolid, List.length_cons]
  omega

theorem operatorFactor_shortens (units : List String) (depth : Nat) :
    Shortens (operatorFactor (Layers.within units depth)) := by
  intro n ts m rest h
  obtain ⟨entry, t, after, rhs, hSelect, hRead, -⟩ := operatorFactor_some.mp h
  obtain ⟨-, -, hSolid⟩ := Cursor.solid_of_select? hSelect
  have hShorter := ((within_sound units depth).power hRead).shorter rfl
  simp only [hSolid, List.length_cons]
  omega

theorem mixedFraction_shortens (units : List String) (depth : Nat) {n m : Node}
    {ts rest : List Token}
    (h : ((Layers.within units depth).mixedFraction n ts).result = .ok (m, rest)) :
    (solid rest).length < (solid ts).length := by
  cases depth with
  | zero => cases h
  | succ depth =>
    obtain ⟨_, _, _, top, mid, after, bottom, -, -, -, hTop, hDiv, hBottom, -⟩ := mixedFraction_ok.mp h
    obtain ⟨_, _, hSolid₁, -⟩ := fractionTerm_sound (within_sound units depth) hTop
    obtain ⟨_, hSolid₂⟩ := Cursor.solid_of_after? hDiv
    obtain ⟨_, _, hSolid₃, -⟩ := fractionTerm_sound (within_sound units depth) hBottom
    simp only [hSolid₁, hSolid₂, hSolid₃, List.length_cons]
    omega

theorem juxtaposition_shortens (units : List String) (depth : Nat) {n m : Node}
    {ts rest : List Token}
    (h : ((Layers.within units depth).juxtaposition n ts).result = .ok (m, rest)) :
    (solid rest).length < (solid ts).length := by
  cases depth with
  | zero => cases h
  | succ depth =>
    obtain ⟨k, rhs, hRead, -, -⟩ := juxtaposition_ok.mp h
    exact ((within_sound units depth).power hRead).shorter rfl

theorem continuation_shortens (units : List String) (depth : Nat) :
    Shortens (Layers.within units depth).continuation := by
  intro n ts m rest h
  cases depth with
  | zero => cases h
  | succ depth =>
    rcases continuation_ok.mp h with ⟨x, hx, hFactor⟩ | ⟨-, ⟨x, hx, hMixed⟩ | ⟨-, hPair⟩⟩
    · obtain rfl := Option.some.inj hx
      exact operatorFactor_shortens units depth _ _ _ _ hFactor
    · obtain rfl := Option.some.inj hx
      exact mixedFraction_shortens units depth hMixed
    · exact juxtaposition_shortens units depth (Attempt.candidate_some.mp hPair)

theorem statementStep_shortens (units : List String) (depth : Nat) :
    Shortens (statementStep (Layers.within units depth)) := by
  intro n ts m rest h
  obtain ⟨after, hSeparator, ⟨-, -, rfl⟩ | ⟨-, next, hRead, -⟩⟩ := statementStep_some.mp h
  · obtain ⟨p, hSolid⟩ := Cursor.solid_of_after? hSeparator
    simp [hSolid]
  · obtain ⟨p, hSolid⟩ := Cursor.solid_of_after? hSeparator
    have hShorter := ((within_sound units depth).assignment hRead).shorter rfl
    simp only [hSolid, List.length_cons]
    omega

section Loops

variable {step step' : Node → List Token → Attempt (Option (Node × List Token))}

/-- Loops agree when their steps do. Blanks may give the two loops different fuel, but it runs out in
neither. -/
theorem chain_paired (hShort : Shortens step) (hShort' : Shortens step')
    (hStep : ∀ {n m ts ts'}, T n m → P.tokens k ts ts' →
      P.Steps T k (step n ts) (step' m ts'))
    {fuel fuel' : Nat} {n m : Node} (hFuel : (solid ts).length < fuel)
    (hFuel' : (solid ts').length < fuel') (hNode : T n m)
    (hTokens : P.tokens k ts ts') :
    P.Rules T k (chain step fuel n ts) (chain step' fuel' m ts') := by
  induction fuel generalizing fuel' n m ts ts' with
  | zero => omega
  | succ fuel ih =>
    obtain ⟨fuel', rfl⟩ : ∃ j, fuel' = j + 1 := ⟨fuel' - 1, by omega⟩
    refine (hStep hNode hTokens).bind_of_ok fun found found' hFound hFound' hBuilt => ?_
    cases hBuilt with
    | none => exact .pure ⟨hNode, hTokens⟩
    | @some next next' hNext =>
      have hLess := hShort _ _ _ _ hFound
      have hLess' := hShort' _ _ _ _ hFound'
      exact ih (by omega) (by omega) hNext.1 hNext.2

theorem extend_paired (hShort : Shortens step) (hShort' : Shortens step')
    (hStep : ∀ {n m ts ts'}, T n m → P.tokens k ts ts' →
      P.Steps T k (step n ts) (step' m ts'))
    {n m : Node} (hNode : T n m) (hTokens : P.tokens k ts ts') :
    P.Rules T k (extend step n ts) (extend step' m ts') := by
  have hLength : (solid ts).length ≤ ts.length := List.length_filter_le _ _
  have hLength' : (solid ts').length ≤ ts'.length := List.length_filter_le _ _
  exact chain_paired hShort hShort' hStep (by omega) (by omega) hNode hTokens

end Loops

-- ---------------------------------------------------------------------------
-- Operands and bindings
-- ---------------------------------------------------------------------------

section Operands

variable {read read' : Rule} (hP : P.Coherent)
  (hRead : ∀ {k ts ts'}, P.tokens k ts ts' → P.Rules T k (read ts) (read' ts'))
include hP hRead

theorem operand_paired {α : Type} {table : List (Symbol × α)} {build build' : α → Node → Node}
    (hTable : ∀ e ∈ table, e.1 ∉ [.openParens, .closeParens, .semicolon, .backslash])
    (hBuild : ∀ {y a n m}, (y, a) ∈ table → T n m → T (build a n) (build' a m))
    (hTokens : P.tokens k ts ts') :
    P.Steps T k (operand table read build ts) (operand table read' build' ts') := by
  have hOperator := select?_paired hP table (fun e he => Pairing.not_closer (hTable e he)) hTokens
  unfold operand
  generalize Cursor.select? table ts = found at hOperator ⊢
  generalize Cursor.select? table ts' = found' at hOperator ⊢
  cases hOperator with
  | none => exact .pure .none
  | @some a b hEntry =>
    obtain ⟨⟨symbol, a⟩, t, rest⟩ := a
    obtain ⟨entry, t', rest'⟩ := b
    dsimp only at hEntry
    obtain ⟨rfl, hMem, -, hAfter⟩ := hEntry
    refine Agrees.candidate _ _ _ _ ?_
    exact (hRead (hAfter.tokens (hTable _ hMem))).bind fun _ _ hOperand =>
      .pure ⟨hBuild hMem hOperand.1, hOperand.2⟩

theorem binding_paired (hT : P.Trees units units' T) {y : Symbol} {kind : Kind}
    {refuse : Token → ParseError} (hy : y ∉ [.openParens, .closeParens, .semicolon, .backslash])
    (hKind : kind ∈ [.function, .assignment])
    (hRefuse : ∀ {t t'}, P.twins t t' → (refuse t).Alike P.twins (refuse t')) {n m : Node}
    (hNode : T n m) (hTokens : P.tokens k ts ts') :
    P.Rules T k (binding y kind refuse read n ts) (binding y kind refuse read' m ts') := by
  have hNext := nextIs?_paired hP (Pairing.not_closer hy) hTokens
  unfold binding
  generalize nextIs? y ts = found at hNext ⊢
  generalize nextIs? y ts' = found' at hNext ⊢
  cases hNext with
  | none => exact .pure ⟨hNode, hTokens⟩
  | @some a b hAfter =>
    obtain ⟨t, after⟩ := a
    obtain ⟨t', after'⟩ := b
    obtain ⟨hTwins, hAfter⟩ := hAfter
    dsimp only
    simp only [hT.kind_iff (k := .identifier) (by decide) hNode]
    split
    · rename_i hName
      exact (hRead (hAfter.tokens hy)).bind fun _ _ hBody =>
        .pure ⟨hT.bound hKind hName hNode hBody.1, hBody.2⟩
    · exact .reject (hP.alike_errors (hRefuse hTwins))

end Operands

-- ---------------------------------------------------------------------------
-- Primary expressions
-- ---------------------------------------------------------------------------

theorem number_paired (hP : P.Coherent) (hT : P.Trees units units' T)
    (hTokens : P.tokens k ts ts') : P.Rules T k (number ts) (number ts') := by
  refine next_bind_paired hP hTokens ?_ ?_
  · rintro ⟨content, place⟩ ⟨content', place'⟩ rest rest' hTwins - - after
    cases hP.alike_twins hTwins with
    | number v v' => exact .pure ⟨hT.number hTwins, after⟩
    | _ => exact .reject (hP.alike_errors (.expectedNumber hTwins))
  · intro y p rest' _ _
    exact ⟨_, rfl⟩

section Rules

variable {L M : Layers} (hP : P.Coherent) (hT : P.Trees units units' T) (h : L.Paired P T M)
include hP hT h

theorem ident_paired (hTokens : P.tokens k ts ts') :
    P.Rules T k (ident L ts) (ident M ts') := by
  refine next_bind_paired hP hTokens ?_ ?_
  · rintro ⟨content, place⟩ ⟨content', place'⟩ rest rest' hTwins - - after
    cases hP.alike_twins hTwins with
    | ident x x' =>
      have hOf := after?_paired hP (s := .of) (.inl (by decide)) after
      dsimp only
      generalize after? .of rest = found at hOf ⊢
      generalize after? .of rest' = found' at hOf ⊢
      cases hOf with
      | none => exact .pure ⟨hT.ident hTwins, after⟩
      | some hRest =>
        exact (h.primary hRest).bind fun _ _ hInner =>
          .pure ⟨hT.member hTwins hInner.1, hInner.2⟩
    | _ => exact .reject (hP.alike_errors (.expectedIdentifier hTwins))
  · intro y p rest' _ _
    exact ⟨_, rfl⟩

theorem parens_paired (hTokens : P.tokens k ts ts') :
    P.Rules T k (parens L ts) (parens M ts') := by
  refine next_bind_paired hP hTokens ?_ ?_
  · intro t t' _ _ hTwins hNext hNext' _
    refine (take_paired hP (by decide) hTokens).bind_of_ok fun rest rest' hOpen hOpen' hFresh => ?_
    rw [(take_next hNext hOpen).2, (take_next hNext' hOpen').2] at hTwins
    have hClose := after?_close_paired hP hFresh
    dsimp only
    generalize after? .closeParens rest = found at hClose ⊢
    generalize after? .closeParens rest' = found' at hClose ⊢
    cases hClose with
    | some hRest => exact .pure ⟨hT.unit hTwins, hRest⟩
    | none =>
      refine (h.expression (hP.lists_inside k) hFresh).bind fun inner inner' hInner => ?_
      exact closing_bind_paired hP hInner.2 fun _ _ hRest =>
        .pure ⟨hT.wrap (by decide) hTwins hInner.1, hRest⟩
  · intro y p rest' hy hNext
    have hNe := ne_of_mem_of_not_mem hy (by decide : Symbol.openParens ∉ [.closeParens, .semicolon])
    obtain ⟨e, he⟩ := take_other hNe hNext
    exact ⟨e, Attempt.result_bind_of_error he _⟩

omit hP hT h in
/-- What refuses every other token than an identifier is refused where no name of a parameter comes
first. -/
theorem unnamed_refused {α : Type} {rest : List Token} {f : Token × List Token → Attempt α}
    (h : namesParameter rest = false)
    (hf : ∀ t more, (∀ x, t.content ≠ .ident x) → ∃ e, (f (t, more)).result = .error (.error e)) :
    ∃ e, (Cursor.nextRaw rest >>= f).result = .error (.error e) := by
  cases rest with
  | nil => exact ⟨_, rfl⟩
  | cons t more =>
    refine hf t more fun x hx => ?_
    obtain ⟨content, place⟩ := t
    obtain rfl : content = .ident x := hx
    cases h

theorem lambda_paired (hTokens : P.tokens k ts ts') :
    P.Rules T k (lambda L ts) (lambda M ts') := by
  refine next_bind_paired hP hTokens ?_ ?_
  · intro t t' _ _ _ hNext hNext' _
    refine (take_paired hP (by decide) hTokens).bind_of_ok fun rest rest' hSlash hSlash' hBehind => ?_
    obtain ⟨hSlash, hToken⟩ := take_next hNext hSlash
    obtain ⟨hSlash', hToken'⟩ := take_next hNext' hSlash'
    subst hSlash hSlash'
    change P.Behind k _ _ at hBehind
    cases hBehind with
    | ended => exact .reject (hP.alike_errors .expectedToken)
    | refused hUnnamed hUnnamed' hErrors =>
      refine .of_errors (unnamed_refused hUnnamed ?_) (unnamed_refused hUnnamed' ?_) hErrors <;>
        rintro ⟨content, place⟩ more hOther
      all_goals
        cases content with
        | ident x => exact absurd rfl (hOther x)
        | _ => exact ⟨_, rfl⟩
    | @same parameter parameter' hTwins rest rest' hRest =>
      obtain ⟨content, place⟩ := parameter
      obtain ⟨content', place'⟩ := parameter'
      cases hP.alike_twins hTwins with
      | ident x x' =>
        have hDot := (take_paired hP (s := .dot) (by decide) (hRest x rfl)).recover
          (fun e e' he => .reject (hP.missingDot he))
        refine hDot.bind fun rest rest' hRest => ?_
        rw [hToken] at hNext
        rw [hToken'] at hNext'
        exact (h.function hRest).bind fun _ _ hBody =>
          .pure ⟨hT.lambda hTokens hNext hNext' hBody.1, hBody.2⟩
      | blank x x' => exact .reject (hP.alike_errors (.unexpectedBlank hTwins))
      | _ => exact .reject (hP.alike_errors (.expectedIdentifier hTwins))
  · intro y p rest' hy hNext
    have hNe := ne_of_mem_of_not_mem hy (by decide : Symbol.backslash ∉ [.closeParens, .semicolon])
    obtain ⟨e, he⟩ := take_other hNe hNext
    exact ⟨e, Attempt.result_bind_of_error he _⟩

theorem primary_paired (hTokens : P.tokens k ts ts') :
    P.Rules T k (primary L ts) (primary M ts') := by
  refine next_bind_paired hP hTokens ?_ ?_
  · rintro ⟨content, place⟩ ⟨content', place'⟩ rest rest' hTwins - - after
    cases hP.alike_twins hTwins with
    | number v v' => exact h.number hTokens
    | ident x x' => exact h.ident hTokens
    | string x x' => exact .pure ⟨hT.string hTwins, after⟩
    | symbol s =>
      dsimp only
      split
      · rename_i hContent
        cases hContent
      · rename_i hContent
        cases hContent
      · rename_i hContent
        cases hContent
      · exact h.parens hTokens
      · exact h.lambda hTokens
      · rename_i hContent
        cases hContent
        exact .reject (hP.alike_errors (.unexpectedSymbol _ hTwins))
      · rename_i hOther
        exact absurd rfl (hOther _)
    | _ => exact .reject (hP.alike_errors (.unexpectedInput hTwins))
  · intro y p rest' hy _
    rcases (by simpa using hy : _ ∨ _) with rfl | rfl <;> exact ⟨_, rfl⟩

-- ---------------------------------------------------------------------------
-- Factorials and powers
-- ---------------------------------------------------------------------------

omit h in
theorem factorialStep_paired {n m : Node} (hNode : T n m)
    (hTokens : P.tokens k ts ts') :
    P.Steps T k (factorialStep n ts) (factorialStep m ts') := by
  have hBang := after?_paired hP (s := .factorial) (.inl (by decide)) hTokens
  unfold factorialStep
  generalize after? .factorial ts = found at hBang ⊢
  generalize after? .factorial ts' = found' at hBang ⊢
  cases hBang with
  | none => exact .pure .none
  | some hRest => exact .pure (.some ⟨hT.factorial hNode, hRest⟩)

theorem factorial_paired (hTokens : P.tokens k ts ts') :
    P.Rules T k (factorial L ts) (factorial M ts') :=
  (h.primary hTokens).bind fun _ _ hBase =>
    extend_paired factorialStep_shortens factorialStep_shortens (factorialStep_paired hP hT) hBase.1
      hBase.2

theorem plainPower_paired (hTokens : P.tokens k ts ts') :
    P.Rules T k (plainPower L ts) (plainPower M ts') := by
  refine (h.factorial hTokens).bind fun ⟨base, rest⟩ ⟨base', rest'⟩ ⟨hBase, hRest⟩ => ?_
  have hPow := after?_paired hP (s := .pow) (.inl (by decide)) hRest
  dsimp only at hPow ⊢
  generalize after? .pow rest = found at hPow ⊢
  generalize after? .pow rest' = found' at hPow ⊢
  cases hPow with
  | none => exact .pure ⟨hBase, hRest⟩
  | some hAfter =>
    exact (h.power true hAfter).bind fun _ _ hExponent =>
      .pure ⟨hT.binary .pow hBase hExponent.1, hExponent.2⟩

theorem power_paired (allowed : Bool) (hTokens : P.tokens k ts ts') :
    P.Rules T k (power L allowed ts) (power M allowed ts') := by
  cases allowed with
  | false => exact plainPower_paired hP hT h hTokens
  | true =>
    have hPrefix := select?_paired hP prefixes (by decide) hTokens
    unfold power
    rw [if_pos rfl, if_pos rfl]
    generalize Cursor.select? prefixes ts = found at hPrefix ⊢
    generalize Cursor.select? prefixes ts' = found' at hPrefix ⊢
    cases hPrefix with
    | none => exact plainPower_paired hP hT h hTokens
    | @some a b hEntry =>
      obtain ⟨⟨symbol, kind⟩, t, rest⟩ := a
      obtain ⟨entry, t', rest'⟩ := b
      dsimp only at hEntry
      obtain ⟨rfl, hMem, hTwins, hAfter⟩ := hEntry
      have hRest := hAfter.tokens (by
        rcases prefixes_cases hMem with ⟨rfl, -⟩ | ⟨rfl, -⟩ | ⟨rfl, -⟩ <;> decide)
      exact (h.power true hRest).bind fun _ _ hInner =>
        .pure ⟨hT.wrap (List.mem_cons_of_mem _ hMem) hTwins hInner.1, hInner.2⟩

-- ---------------------------------------------------------------------------
-- Products
-- ---------------------------------------------------------------------------

theorem juxtaposition_paired {n m : Node} (hNode : T n m)
    (hTokens : P.tokens k ts ts') :
    P.Rules T k (juxtaposition units L n ts) (juxtaposition units' M m ts') := by
  refine (h.power false hTokens).bind fun ⟨r, rest⟩ ⟨r', rest'⟩ ⟨hRight, hRest⟩ => ?_
  refine (Agrees.shape (hT.juxtaposed hNode hRight)).bind fun found found' hKinds => ?_
  cases hKinds with
  | none => exact .reject (hP.alike_errors .reservedJuxtaposition)
  | some hPair => exact .pure ⟨hPair, hRest⟩

theorem fractionTerm_paired (hTokens : P.tokens k ts ts') :
    P.Rules T k (fractionTerm L ts) (fractionTerm M ts') := by
  refine (h.power false hTokens).bind fun ⟨n, rest⟩ ⟨m, rest'⟩ ⟨hTerm, hRest⟩ => ?_
  dsimp only
  rw [hT.isNumber_eq hTerm]
  split
  · exact .pure ⟨hTerm, hRest⟩
  · exact .reject (hP.alike_errors .invalidMixedFraction)

omit h in
theorem wholeIsNegated_paired {n m : Node} (hNode : T n m) :
    Agrees P.errors Eq (wholeIsNegated n) (wholeIsNegated m) := by
  unfold wholeIsNegated
  rw [hT.isNumber_eq hNode, hT.isNegatedNumber_eq hNode]
  split
  · exact .pure rfl
  · cases n.isNegatedNumber with
    | error fault => exact .misshapen fault
    | ok negated =>
      cases negated with
      | true => exact .pure rfl
      | false => exact .error (hP.alike_errors .invalidMixedFraction)

theorem mixedFraction_paired {n m : Node} (hNode : T n m)
    (hTokens : P.tokens k ts ts') :
    P.Rules T k (mixedFraction L n ts) (mixedFraction M m ts') := by
  refine (Agrees.shape (hT.wholePart hNode)).bind
    fun ⟨outer, whole⟩ ⟨outer', whole'⟩ ⟨hOuter, hWhole⟩ => ?_
  refine (wholeIsNegated_paired hP hT hWhole).bind fun negated _ hSame => ?_
  subst hSame
  rw [nextIsNumber_paired hP hTokens]
  split
  · refine (fractionTerm_paired hP hT h hTokens).bind
      fun ⟨top, rest⟩ ⟨top', rest'⟩ ⟨hTop, hRest⟩ => ?_
    refine (take_paired hP (s := .div) (by decide) hRest).bind fun rest rest' hRest => ?_
    refine (fractionTerm_paired hP hT h hRest).bind fun ⟨bottom, rest⟩ ⟨bottom', rest'⟩ hBottom => ?_
    exact .pure ⟨hT.mixedSum hOuter hWhole hTop hBottom.1 negated, hBottom.2⟩
  · exact .reject (hP.alike_errors .invalidMixedFraction)

theorem operatorFactor_paired {n m : Node} (hNode : T n m)
    (hTokens : P.tokens k ts ts') :
    P.Steps T k (operatorFactor L n ts) (operatorFactor M m ts') := by
  rw [operatorFactor_eq, operatorFactor_eq]
  refine operand_paired hP (h.power true) (by decide) ?_ hTokens
  exact fun _ hFactor => hT.binary _ hNode hFactor

theorem continuation_paired {n m : Node} (hNode : T n m)
    (hTokens : P.tokens k ts ts') :
    P.Steps T k (continuation L n ts) (continuation M m ts') := by
  refine (operatorFactor_paired hP hT h hNode hTokens).bind fun found found' hFound => ?_
  cases hFound with
  | some hBuilt => exact .pure (.some hBuilt)
  | none =>
    refine (Agrees.candidate _ _ _ _ (h.mixedFraction hNode hTokens)).bind fun found found' hFound => ?_
    cases hFound with
    | some hBuilt => exact .pure (.some hBuilt)
    | none => exact Agrees.candidate _ _ _ _ (h.juxtaposition hNode hTokens)

omit hP hT in
theorem multiplicative_paired (hShort : Shortens L.continuation) (hShort' : Shortens M.continuation)
    (hTokens : P.tokens k ts ts') :
    P.Rules T k (multiplicative L ts) (multiplicative M ts') :=
  (h.power true hTokens).bind fun _ _ hFactor =>
    extend_paired hShort hShort' h.continuation hFactor.1 hFactor.2

-- ---------------------------------------------------------------------------
-- Sums
-- ---------------------------------------------------------------------------

omit hP in
theorem implicitSum_paired (hTokens : P.tokens k ts ts') :
    P.Rules T k (implicitSum L ts) (implicitSum M ts') := by
  refine (h.multiplicative hTokens).bind fun ⟨n, rest⟩ ⟨m, rest'⟩ ⟨hNode, hRest⟩ => ?_
  dsimp only
  simp only [hT.kind_iff (k := .product) (by decide) hNode]
  split
  · have hMore := (h.implicitSum hRest).bind fun a b hBuilt =>
      (Agrees.pure (Option.Rel.some hBuilt) : P.Steps T k (pure (some a)) (pure (some b)))
    refine (hMore.recover fun _ _ _ => .pure .none).bind fun more more' hMore => ?_
    cases hMore with
    | none => exact .pure ⟨hNode, hRest⟩
    | @some a b hBuilt =>
      dsimp only
      rw [hT.isQuantityPart_eq hBuilt.1]
      split
      · exact .pure ⟨hT.binary .implicitPlus hNode hBuilt.1, hBuilt.2⟩
      · exact .pure ⟨hNode, hRest⟩
  · exact .pure ⟨hNode, hRest⟩

theorem sumStep_paired {n m : Node} (hNode : T n m)
    (hTokens : P.tokens k ts ts') : P.Steps T k (sumStep L n ts) (sumStep M m ts') := by
  rw [sumStep_eq, sumStep_eq]
  refine operand_paired hP h.implicitSum (by simp [sumOperators]) (fun hMem hTerm => ?_) hTokens
  rcases sumOperators_cases hMem with ⟨-, rfl⟩ | ⟨-, rfl⟩ | ⟨-, rfl⟩
  · exact hT.binary .plus hNode hTerm
  · exact hT.binary .minus hNode hTerm
  · exact hT.pair (by decide) hNode hTerm

theorem additive_paired (hShort : Shortens (sumStep L)) (hShort' : Shortens (sumStep M))
    (hTokens : P.tokens k ts ts') : P.Rules T k (additive L ts) (additive M ts') :=
  (h.implicitSum hTokens).bind fun _ _ hTerm =>
    extend_paired hShort hShort' (sumStep_paired hP hT h) hTerm.1 hTerm.2

-- ---------------------------------------------------------------------------
-- Functions, assignments and statements
-- ---------------------------------------------------------------------------

theorem function_paired (hTokens : P.tokens k ts ts') :
    P.Rules T k (function L ts) (function M ts') :=
  (h.additive hTokens).bind fun _ _ hRead =>
    binding_paired hP h.function hT (by decide) (by decide) .expectedParameter hRead.1 hRead.2

theorem assignment_paired (hTokens : P.tokens k ts ts') :
    P.Rules T k (assignment L ts) (assignment M ts') :=
  (h.function hTokens).bind fun _ _ hRead =>
    binding_paired hP h.assignment hT (by decide) (by decide) .expectedAssignee hRead.1 hRead.2

theorem statementStep_paired (hLists : P.lists k) {n m : Node} (hNode : T n m)
    (hTokens : P.tokens k ts ts') :
    P.Steps T k (statementStep L n ts) (statementStep M m ts') := by
  have hSeparator := after?_paired hP (s := .semicolon) (.inr ⟨rfl, hLists⟩) hTokens
  unfold statementStep
  generalize after? .semicolon ts = found at hSeparator ⊢
  generalize after? .semicolon ts' = found' at hSeparator ⊢
  cases hSeparator with
  | none => exact .pure .none
  | @some rest rest' hFresh =>
    have hFresh : P.Fresh k rest rest' := hFresh hLists
    have hMore := after?_paired hP (s := .semicolon) (.inr ⟨rfl, hLists⟩) hFresh.1
    have hIsSome : (after? .semicolon rest').isSome = (after? .semicolon rest).isSome := by
      generalize after? .semicolon rest = more at hMore ⊢
      generalize after? .semicolon rest' = more' at hMore ⊢
      cases hMore <;> rfl
    dsimp only
    rw [atEnd_paired hP hFresh, hIsSome]
    split
    · exact .pure (.some ⟨hNode, hFresh.1⟩)
    · exact (h.assignment hFresh.1).bind fun _ _ hBuilt =>
        .pure (.some ⟨hT.pair (by decide) hNode hBuilt.1, hBuilt.2⟩)

theorem statements_paired (hShort : Shortens (statementStep L)) (hShort' : Shortens (statementStep M))
    (hLists : P.lists k) (hFresh : P.Fresh k ts ts') :
    P.Rules T k (statements L ts) (statements M ts') := by
  have hFresh := hP.skipSeparators hLists hFresh
  unfold statements
  dsimp only
  rw [atEnd_paired hP hFresh]
  split
  · rename_i hEnd
    exact .pure ⟨hT.nothing, nothing_paired hP hLists hFresh hEnd⟩
  · exact (h.assignment hFresh.1).bind fun _ _ hFirst =>
      extend_paired hShort hShort' (statementStep_paired hP hT h hLists) hFirst.1 hFirst.2

/-- Allowing one more call keeps two records paired. -/
theorem step_paired (hSum : Shortens (sumStep L)) (hSum' : Shortens (sumStep M))
    (hFactor : Shortens L.continuation) (hFactor' : Shortens M.continuation)
    (hStatement : Shortens (statementStep L)) (hStatement' : Shortens (statementStep M)) :
    (Layers.step units L).Paired P T (Layers.step units' M) where
  expression := h.statements
  statements := statements_paired hP hT h hStatement hStatement'
  assignment := assignment_paired hP hT h
  function := function_paired hP hT h
  additive := additive_paired hP hT h hSum hSum'
  implicitSum := implicitSum_paired hT h
  multiplicative := multiplicative_paired h hFactor hFactor'
  continuation := continuation_paired hP hT h
  mixedFraction := mixedFraction_paired hP hT h
  juxtaposition := juxtaposition_paired hP hT h
  power := power_paired hP hT h
  factorial := factorial_paired hP hT h
  primary := primary_paired hP hT h
  number := number_paired hP hT
  ident := ident_paired hP hT h
  parens := parens_paired hP hT h
  lambda := lambda_paired hP hT h

end Rules

-- ---------------------------------------------------------------------------
-- Bounds
-- ---------------------------------------------------------------------------

/-- **Under a coherent pairing no rule can tell two runs apart**, whatever the bound on the nesting. -/
theorem within_paired (hP : P.Coherent) (hT : P.Trees units units' T) (depth : Nat) :
    (Layers.within units depth).Paired P T (Layers.within units' depth) := by
  induction depth with
  | zero => exact exhausted_paired
  | succ depth ih =>
    exact step_paired hP hT ih (sumStep_shortens units depth) (sumStep_shortens units' depth)
      (continuation_shortens units depth) (continuation_shortens units' depth)
      (statementStep_shortens units depth) (statementStep_shortens units' depth)

theorem reportDepth_paired {α β : Type} {R : α → β → Prop} {x : Attempt α} {y : Attempt β}
    (hP : P.Coherent) (h : Agrees P.errors R x y) :
    Agrees P.errors R (reportDepth x) (reportDepth y) := by
  obtain ⟨trail, outcome⟩ := x
  obtain ⟨trail', outcome'⟩ := y
  cases h with
  | ok hab => exact .ok hab
  | error he => exact .error he
  | tooDeep => exact .error (hP.alike_errors .tooDeep)
  | misshapen fault => exact .misshapen fault

/-- Whole sequences of tokens are parsed alike. -/
theorem parseWithin_twinned (hP : P.Coherent) (hT : P.Trees units units' T) (depth : Nat)
    {tokens tokens' : List Token} (h : P.Fresh 0 (significant tokens) (significant tokens'))
    (hLists : P.lists 0 := by trivial) :
    Agrees P.errors T (parseWithin depth units tokens) (parseWithin depth units' tokens') := by
  have hRead := reportDepth_paired hP ((within_paired hP hT depth).expression hLists h)
  refine hRead.bind fun ⟨n, rest⟩ ⟨m, rest'⟩ ⟨hNode, hRest⟩ => ?_
  dsimp only [Cursor.peek?] at hRest ⊢
  cases hP.facing hRest with
  | same twins h h' after =>
    rw [h, h']
    exact .reject (hP.alike_errors (.unexpectedInput twins))
  | ended h h' nothing outside =>
    rw [h, h']
    exact .pure hNode
  | closing y p h h' errors closer => simp [hP.outermost hLists hRest h] at h'

-- ---------------------------------------------------------------------------
-- Pairings of the same tokens
-- ---------------------------------------------------------------------------

/-- Of the same tokens, trees are built that differ only in what prefix units attach. -/
theorem alikeUnder_trees (hP : P.Lawful) (units units' : List String) :
    P.Trees units units' (AlikeUnder units units') where
  number h := by
    cases hP.same_token h
    exact .leaf rfl _ _ _
  string h := by
    cases hP.same_token h
    exact .leaf rfl _ _ _
  ident h := by
    cases hP.same_token h
    exact .leaf rfl _ _ _
  unit h := by
    cases hP.same_token h
    exact .leaf rfl _ _ _
  nothing := .leaf rfl _ _ _
  member h hNode := by
    cases hP.same_token h
    exact hNode.named rfl _ _
  lambda hTokens hNext hNext' hNode := by
    cases hP.facing hTokens with
    | ended h h' nothing outside => simp [h] at hNext
    | closing y p h h' errors closer => simp [h] at hNext
    | same twins h h' after =>
      obtain ⟨rfl, rfl⟩ := Prod.mk.inj (Option.some.inj (h.symm.trans hNext))
      obtain ⟨rfl, rfl⟩ := Prod.mk.inj (Option.some.inj (h'.symm.trans hNext'))
      cases hP.same_token twins
      cases after with
      | same twins _ =>
        cases hP.same_token twins
        exact hNode.named rfl _ _
      | refused unnamed _ _ => cases unnamed
  bound hKind _ hName hNode := by
    rw [hName.value_eq, hName.place_eq]
    rcases (by simpa using hKind : _ ∨ _) with rfl | rfl
    · exact hNode.named rfl _ _
    · exact hNode.named rfl _ _
  wrap hKind h hNode := by
    cases hP.same_token h
    refine hNode.wrap ?_ _
    rcases (by simpa using hKind : _ ∨ _) with ⟨-, rfl⟩ | hPrefix
    · rfl
    · rcases prefixes_kind hPrefix with rfl | rfl | rfl <;> rfl
  factorial hNode := hNode.wrap rfl _
  binary op hLeft hRight := hLeft.binary op hRight
  pair hKind hLeft hRight := by
    rcases (by simpa using hKind : _ ∨ _) with rfl | rfl
    · exact hLeft.pair_same rfl hRight
    · exact hLeft.pair_same rfl hRight
  juxtaposed hLeft hRight := hLeft.juxtaposed hRight
  isNumber_eq hNode := hNode.isNumber_eq
  isNegatedNumber_eq hNode := hNode.isNegatedNumber_eq
  kind_iff hKind hNode := by
    rcases (by simpa using hKind : _ ∨ _) with rfl | rfl
    · exact hNode.kind_iff (by decide) (by decide)
    · exact hNode.kind_iff (by decide) (by decide)
  isQuantityPart_eq hNode := hNode.isQuantityPart_eq
  wholePart hNode := hNode.wholePart

/-- Whole sequences of the same tokens are parsed alike under two lists of prefix units. -/
theorem parseWithin_paired (hP : P.Lawful) (depth : Nat) (units units' : List String)
    {tokens tokens' : List Token} (h : P.Fresh 0 (significant tokens) (significant tokens'))
    (hLists : P.lists 0 := by trivial) :
    Agrees P.errors (AlikeUnder units units') (parseWithin depth units tokens)
      (parseWithin depth units' tokens') :=
  parseWithin_twinned hP.toCoherent (alikeUnder_trees hP units units') depth h hLists

end Grammar

end Reckoner
