import Reckoner.Proofs.Grammar.Soundness

/-!
# What the rules report

Two parse errors are signals: a mixed fraction that is none, and a juxtaposition that is left to
another rule. They make a candidate give way to the next one, and the rules for products catch them,
so that no other rule ends with one of them, however deep the candidate was entered. Nor is any rule
ever stopped by the shape of a node: each left operand is a tree that the grammar has built, and such
trees have the children of their kinds.

Everything a rule can report is listed by `Reported P`, where `P` is what is known of the tokens that
are left. The list is kept rule by rule (`Layers.Reports`), and by induction on the bound. A loop
needs two more things of what it has built so far: that it is formed, and that it was read from these
tokens. Both come from the derivation of what was read.

## Results

* `Derives.formed`        — derived trees have the children of their kinds.
* `within_reports`        — the rules under every bound report only what is listed.
* `continuation_answers`  — one more factor is looked for without any error.
* `parseWithin_reports`   — a tree is parsed, or an error on the list is reported.
* `signals_never_escape`  — all of this for signals, and for every left operand that can be built.
-/

namespace Reckoner

/-- Whether a token is of a type that expressions are written with. -/
def Token.isOrdinary (t : Token) : Bool :=
  match t.content with
  | .number _ | .ident _ | .string _ | .symbol _ | .blank _ => true
  | _ => false

/-- Whether an error only makes one candidate give way to another. -/
def ParseError.isSignal : ParseError → Bool
  | .invalidMixedFraction | .reservedJuxtaposition => true
  | _ => false

namespace Grammar

open Attempt (FailsOnly)
open Cursor (next? solid)

-- ---------------------------------------------------------------------------
-- Formed trees
-- ---------------------------------------------------------------------------

/-- **A derived tree is formed.** -/
theorem Derives.formed {units : List String} {s : Stratum} {used : List Token} {n : Node}
    (h : Derives units s used n) : n.Formed := by
  induction h with
  | widen _ _ ih => exact ih
  | number v p => exact .number v p
  | string x p => exact .string x p
  | ident x p => exact .ident x p
  | unit p _ => exact .unit p
  | member x p _ _ ih => exact .named (by decide) _ p ih
  | parens p _ _ ih => exact .wrap (by decide) p ih
  | unclosed p _ ih => exact .wrap (by decide) p ih
  | lambda x p _ _ _ ih => exact .named (by decide) _ p ih
  | factorial _ _ ih => exact .wrap (by decide) _ ih
  | pow _ _ _ ih ih' => exact .binary _ ih ih'
  | prefixed p hy _ ih =>
    rcases prefixes_kind hy with rfl | rfl | rfl
    · exact .wrap (by decide) p ih
    · exact .wrap (by decide) p ih
    · exact .wrap (by decide) p ih
  | mixedPlus v w u p q _ t => exact .binary _ (.number v p) (.binary _ (.number w q) (.number u t))
  | mixedMinus v w u o p q _ t =>
    exact .binary _ (.wrap (by decide) o (.number v p)) (.binary _ (.number w q) (.number u t))
  | product _ _ _ _ ih ih' => exact .binary _ ih ih'
  | timesMixed _ _ _ ih ih' => exact .binary _ ih ih'
  | juxtaposed _ _ hk ih ih' =>
    rcases juxtapositionKind_mem hk with rfl | rfl | rfl
    · exact .pair (by decide) ih ih'
    · exact .pair (by decide) ih ih'
    · exact .pair (by decide) ih ih'
  | compound _ _ _ _ ih ih' => exact .binary _ ih ih'
  | sum _ hy _ _ ih ih' =>
    rcases sumOperators_cases hy with ⟨-, rfl⟩ | ⟨-, rfl⟩ | ⟨-, rfl⟩
    · exact .binary _ ih ih'
    · exact .binary _ ih ih'
    · exact .pair (by decide) ih ih'
  | arrow x p _ _ ih => exact .named (by decide) _ p ih
  | assignment x p _ _ ih => exact .named (by decide) _ p ih
  | leading _ _ ih => exact ih
  | trailing _ _ ih => exact ih
  | sequence _ _ _ ih ih' => exact .pair (by decide) ih ih'
  | nothing _ => exact .unit _

/-- A formed tree can be asked whether it is a power of a number. -/
theorem isPowerOfNumber_formed {n : Node} (h : n.Formed) : ∃ b, isPowerOfNumber n = .ok b := by
  unfold isPowerOfNumber
  split
  · rename_i hPow
    obtain ⟨l, r, rfl, -, -⟩ := h.eq_binary hPow
    exact ⟨l.isNumber, rfl⟩
  · exact ⟨false, rfl⟩

/-- A formed tree can be asked for the whole part of a mixed fraction, and it is formed too. -/
theorem wholePart_formed {n : Node} (h : n.Formed) :
    ∃ outer whole, wholePart n = .ok (outer, whole) ∧ whole.Formed ∧ ∀ m ∈ outer, m.Formed := by
  unfold wholePart
  split
  · rename_i hMul
    obtain ⟨l, r, rfl, hl, hr⟩ := h.eq_binary hMul
    exact ⟨some l, r, rfl, hr, fun m hm => Option.some.inj hm ▸ hl⟩
  · exact ⟨none, n, rfl, h, fun m hm => by cases hm⟩

/-- Two formed trees can be looked up in the table of juxtaposition. -/
theorem juxtapositionKind_formed (units : List String) {l r : Node} (hl : l.Formed) (hr : r.Formed) :
    ∃ k, juxtapositionKind units l r = .ok k := by
  obtain ⟨negated, hNegated⟩ := hl.isNegatedNumber_ok
  obtain ⟨power, hPower⟩ := isPowerOfNumber_formed hr
  exact ⟨_, juxtapositionKind_eq units hNegated hPower⟩

-- ---------------------------------------------------------------------------
-- What is reported
-- ---------------------------------------------------------------------------

/-- The parse errors that are reported of tokens of which `P` holds. -/
inductive Reported (P : Token → Prop) : ParseError → Prop where
  | expectedToken : Reported P .expectedToken
  | expectedSymbol (found expected : Symbol) {t : Token} (h : P t) :
      Reported P (.expectedSymbol found expected t)
  | invalidToken (expected : Symbol) {t : Token} (h : P t) : Reported P (.invalidToken expected t)
  | expectedIdentifier {t : Token} (h : P t) : Reported P (.expectedIdentifier t)
  | expectedParameter {t : Token} (h : P t) : Reported P (.expectedParameter t)
  | expectedAssignee {t : Token} (h : P t) : Reported P (.expectedAssignee t)
  | unexpectedSymbol (symbol : Symbol) {t : Token} (h : P t) :
      Reported P (.unexpectedSymbol symbol t)
  | unexpectedBlank (t : Token) : Reported P (.unexpectedBlank t)
  | missingDot {cause : ParseError} (h : Reported P cause) : Reported P (.missingDot cause)
  | unexpectedInput {t : Token} (h : P t) (ht : t.isOrdinary = false) :
      Reported P (.unexpectedInput t)

/-- `P` holds of all tokens that are not blank. -/
def AllSolid (P : Token → Prop) (ts : List Token) : Prop :=
  ∀ t ∈ solid ts, P t

variable {P : Token → Prop} {units : List String} {ts rest : List Token} {n : Node}

theorem AllSolid.later {u : List Token} (h : AllSolid P ts) (hSolid : solid ts = u ++ solid rest) :
    AllSolid P rest := by
  intro t ht
  refine h t ?_
  rw [hSolid]
  exact List.mem_append_right _ ht

theorem AllSolid.next {t : Token} (h : AllSolid P ts) (hNext : next? ts = some (t, rest)) :
    P t ∧ AllSolid P rest := by
  have hSolid := Cursor.solid_of_next? hNext
  refine ⟨h t ?_, h.later (u := [t]) hSolid⟩
  rw [hSolid]
  exact List.mem_cons_self

theorem AllSolid.after {s : Symbol} (h : AllSolid P ts) (hAfter : Cursor.after? s ts = some rest) :
    AllSolid P rest := by
  obtain ⟨p, hSolid⟩ := Cursor.solid_of_after? hAfter
  exact h.later (u := [_]) hSolid

theorem AllSolid.take {s : Symbol} (h : AllSolid P ts)
    (hTake : (Cursor.take s ts).result = .ok rest) : AllSolid P rest := by
  obtain ⟨p, hSolid⟩ := Cursor.solid_of_take hTake
  exact h.later (u := [_]) hSolid

theorem AllSolid.select {α : Type} {table : List (Symbol × α)} {entry : Symbol × α} {t : Token}
    (h : AllSolid P ts) (hSelect : Cursor.select? table ts = some (entry, t, rest)) :
    AllSolid P rest := by
  obtain ⟨-, -, hSolid⟩ := Cursor.solid_of_select? hSelect
  exact h.later (u := [t]) hSolid

theorem AllSolid.nextIs {s : Symbol} {t : Token} (h : AllSolid P ts)
    (hNext : nextIs? s ts = some (t, rest)) : P t ∧ AllSolid P rest :=
  h.next (Option.filter_eq_some_iff.mp hNext).1

theorem AllSolid.skipSeparators (h : AllSolid P ts) : AllSolid P (Cursor.skipSeparators ts) := by
  obtain ⟨ps, hSolid⟩ := Cursor.solid_skipSeparators ts
  exact h.later hSolid

theorem AllSolid.reads {s : Stratum} (h : AllSolid P ts) (hReads : Reads units s ts n rest) :
    AllSolid P rest := by
  obtain ⟨used, hUsed, -⟩ := hReads
  exact h.later hUsed

theorem Reads.formed {s : Stratum} (h : Reads units s ts n rest) : n.Formed := by
  obtain ⟨used, -, hDerives⟩ := h
  exact hDerives.formed

-- ---------------------------------------------------------------------------
-- Cursors
-- ---------------------------------------------------------------------------

theorem next_reports {E : ParseError → Prop} (h : E .expectedToken) (ts : List Token) :
    (Cursor.next ts).FailsOnly E := by
  unfold Cursor.next
  split
  · exact .pure _
  · exact .reject h

theorem take_reports (s : Symbol) (h : AllSolid P ts) :
    (Cursor.take s ts).FailsOnly (Reported P) := by
  refine (next_reports .expectedToken ts).bind fun ⟨t, rest⟩ hNext => ?_
  have hKnown := (h.next (Cursor.next_ok.mp hNext)).1
  dsimp only
  split
  · split
    · exact .pure _
    · exact .reject (.expectedSymbol _ _ hKnown)
  · exact .reject (.invalidToken _ hKnown)

-- ---------------------------------------------------------------------------
-- Records of rules
-- ---------------------------------------------------------------------------

/-- The rules of `L` report only what is listed, and no rule is stopped by the shape of a node. The
signals are reported by the two candidates alone. -/
structure Layers.Reports (P : Token → Prop) (L : Layers) : Prop where
  expression : ∀ {ts}, AllSolid P ts → (L.expression ts).FailsOnly (Reported P)
  statements : ∀ {ts}, AllSolid P ts → (L.statements ts).FailsOnly (Reported P)
  assignment : ∀ {ts}, AllSolid P ts → (L.assignment ts).FailsOnly (Reported P)
  function : ∀ {ts}, AllSolid P ts → (L.function ts).FailsOnly (Reported P)
  additive : ∀ {ts}, AllSolid P ts → (L.additive ts).FailsOnly (Reported P)
  implicitSum : ∀ {ts}, AllSolid P ts → (L.implicitSum ts).FailsOnly (Reported P)
  multiplicative : ∀ {ts}, AllSolid P ts → (L.multiplicative ts).FailsOnly (Reported P)
  continuation : ∀ {lhs ts}, lhs.Formed → AllSolid P ts →
    (L.continuation lhs ts).FailsOnly fun _ => False
  mixedFraction : ∀ {lhs ts}, lhs.Formed → AllSolid P ts →
    (L.mixedFraction lhs ts).FailsOnly fun e => Reported P e ∨ e = .invalidMixedFraction
  juxtaposition : ∀ {lhs ts}, lhs.Formed → AllSolid P ts →
    (L.juxtaposition lhs ts).FailsOnly fun e => Reported P e ∨ e = .reservedJuxtaposition
  power : ∀ {allowed ts}, AllSolid P ts → (L.power allowed ts).FailsOnly (Reported P)
  factorial : ∀ {ts}, AllSolid P ts → (L.factorial ts).FailsOnly (Reported P)
  primary : ∀ {ts}, AllSolid P ts → (L.primary ts).FailsOnly (Reported P)
  number : ∀ ts, (L.number ts).FailsOnly fun e => e = .expectedToken ∧ next? ts = none ∨
    ∃ t rest, e = .expectedNumber t ∧ next? ts = some (t, rest) ∧ t.isNumber = false
  ident : ∀ {ts}, AllSolid P ts → (L.ident ts).FailsOnly (Reported P)
  parens : ∀ {ts}, AllSolid P ts → (L.parens ts).FailsOnly (Reported P)
  lambda : ∀ {ts}, AllSolid P ts → (L.lambda ts).FailsOnly (Reported P)

/-- The rules in which no call is allowed report nothing but the bound. -/
theorem exhausted_reports : Layers.exhausted.Reports P := by
  constructor <;> intros <;> exact .of_tooDeep rfl

-- ---------------------------------------------------------------------------
-- Loops
-- ---------------------------------------------------------------------------

section Loops

variable {step : Node → List Token → Attempt (Option (Node × List Token))} {E : ParseError → Prop}

/-- A loop reports what its steps report, as long as each step keeps what they rely on. -/
theorem extend_reports {Q : Node → List Token → Prop}
    (hStep : ∀ {n ts}, Q n ts → (step n ts).FailsOnly E)
    (hKeep : ∀ {n ts n' ts'}, Q n ts → (step n ts).result = .ok (some (n', ts')) → Q n' ts')
    (hStart : Q n ts) : (extend step n ts).FailsOnly E := by
  have hChain : ∀ fuel {n ts}, Q n ts → (chain step fuel n ts).FailsOnly E := by
    intro fuel
    induction fuel with
    | zero => exact fun _ => .pure _
    | succ fuel ih =>
      intro n ts hStart
      refine (hStep hStart).bind fun found hFound => ?_
      cases found with
      | none => exact .pure _
      | some next => exact ih (hKeep hStart hFound)
  exact hChain _ hStart

end Loops

-- ---------------------------------------------------------------------------
-- Operands and bindings
-- ---------------------------------------------------------------------------

section Operands

variable {read : Rule} (hRead : ∀ {ts}, AllSolid P ts → (read ts).FailsOnly (Reported P))
  (h : AllSolid P ts)
include hRead h

theorem operand_reports {α : Type} {table : List (Symbol × α)} {build : α → Node → Node}
    {E : ParseError → Prop} : (operand table read build ts).FailsOnly E := by
  unfold operand
  split
  · rename_i hSelect
    refine FailsOnly.candidate (E := Reported P) _ _ ?_
    exact (hRead (h.select hSelect)).bind fun _ _ => .pure _
  · exact .pure _

theorem binding_reports {y : Symbol} {k : Kind} {refuse : Token → ParseError}
    (hRefuse : ∀ {t}, P t → Reported P (refuse t)) :
    (binding y k refuse read n ts).FailsOnly (Reported P) := by
  unfold binding
  split
  · rename_i hNext
    obtain ⟨hKnown, hAfter⟩ := h.nextIs hNext
    split
    · exact (hRead hAfter).bind fun _ _ => .pure _
    · exact .reject (hRefuse hKnown)
  · exact .pure _

end Operands

-- ---------------------------------------------------------------------------
-- Primary expressions
-- ---------------------------------------------------------------------------

theorem number_reports (ts : List Token) :
    (number ts).FailsOnly fun e => e = .expectedToken ∧ next? ts = none ∨
      ∃ t rest, e = .expectedNumber t ∧ next? ts = some (t, rest) ∧ t.isNumber = false := by
  unfold number Cursor.next
  cases hNext : next? ts with
  | none => exact .reject (Or.inl ⟨rfl, rfl⟩)
  | some found =>
    obtain ⟨⟨content, place⟩, rest⟩ := found
    refine (FailsOnly.pure _).bind fun _ hFound => ?_
    cases hFound
    cases content with
    | number v => exact .pure _
    | _ => exact .reject (Or.inr ⟨_, _, rfl, rfl, rfl⟩)

section Rules

variable {L : Layers} (hL : L.Reports P)
include hL

theorem ident_reports (h : AllSolid P ts) : (ident L ts).FailsOnly (Reported P) := by
  refine (next_reports .expectedToken ts).bind fun ⟨t, rest⟩ hNext => ?_
  obtain ⟨hKnown, hRest⟩ := h.next (Cursor.next_ok.mp hNext)
  dsimp only
  split
  · split
    · rename_i hOf
      exact (hL.primary (hRest.after hOf)).bind fun _ _ => .pure _
    · exact .pure _
  · exact .reject (.expectedIdentifier hKnown)

theorem parens_reports (hSound : L.Sound units) (h : AllSolid P ts) :
    (parens L ts).FailsOnly (Reported P) := by
  refine (next_reports .expectedToken ts).bind fun ⟨t, after⟩ _ => ?_
  refine (take_reports _ h).bind fun rest hOpen => ?_
  have hRest := h.take hOpen
  dsimp only
  split
  · exact .pure _
  · refine (hL.expression hRest).bind fun ⟨inner, rest'⟩ hInner => ?_
    have hRest' := hRest.reads (hSound.expression hInner)
    dsimp only
    split
    · exact .pure _
    · exact (take_reports _ hRest').bind fun _ _ => .pure _

theorem lambda_reports (h : AllSolid P ts) : (lambda L ts).FailsOnly (Reported P) := by
  refine (next_reports .expectedToken ts).bind fun ⟨t, after⟩ _ => ?_
  refine (take_reports _ h).bind fun rest hSlash => ?_
  have hRest := h.take hSlash
  cases rest with
  | nil => exact .reject .expectedToken
  | cons parameter rest =>
    refine (FailsOnly.pure _).bind fun _ hParameter => ?_
    cases hParameter
    obtain ⟨content, place⟩ := parameter
    cases content with
    | blank text => exact .reject (.unexpectedBlank _)
    | ident x =>
      have hRest : AllSolid P rest := hRest.later (u := [⟨.ident x, place⟩]) rfl
      have hDot : ((Cursor.take .dot rest).recover fun e => .reject (.missingDot e)).FailsOnly
          (Reported P) := (take_reports _ hRest).recover fun e he => .reject (.missingDot he)
      refine hDot.bind fun rest' hDot => ?_
      have hDot : (Cursor.take .dot rest).result = .ok rest' := by
        rcases Attempt.recover_ok.mp hDot with hDot | ⟨e, -, hDot⟩
        · exact hDot
        · cases hDot
      exact (hL.function (hRest.take hDot)).bind fun _ _ => .pure _
    | _ => exact .reject (.expectedIdentifier (hRest _ (List.mem_cons_self ..)))

theorem primary_reports (h : AllSolid P ts) : (primary L ts).FailsOnly (Reported P) := by
  refine (next_reports .expectedToken ts).bind fun ⟨⟨content, place⟩, rest⟩ hNext => ?_
  rw [Cursor.next_ok] at hNext
  have hKnown := (h.next hNext).1
  dsimp only
  split
  · -- a number comes next, so the rule for numbers has nothing to report
    refine (hL.number ts).imp fun e he => ?_
    rcases he with ⟨-, hNone⟩ | ⟨t, rest', -, hNext', hOther⟩
    · simp [hNone] at hNext
    · rw [hNext] at hNext'
      obtain ⟨rfl, -⟩ := Prod.mk.inj (Option.some.inj hNext')
      cases hOther
  · exact hL.ident h
  · exact .pure _
  · exact hL.parens h
  · exact hL.lambda h
  · exact .reject (.unexpectedSymbol _ hKnown)
  · rename_i hNumber hIdent hString _ _ hSymbol
    refine .reject (.unexpectedInput hKnown ?_)
    have hSolid : (⟨content, place⟩ : Token).isBlank = false := by
      have hMem : ⟨content, place⟩ ∈ solid ts := by
        rw [Cursor.solid_of_next? hNext]
        exact List.mem_cons_self
      simpa [solid] using (List.mem_filter.mp hMem).2
    cases content with
    | number v => exact absurd rfl (hNumber v)
    | ident x => exact absurd rfl (hIdent x)
    | string x => exact absurd rfl (hString x)
    | symbol s => exact absurd rfl (hSymbol s)
    | blank x => cases hSolid
    | _ => rfl

-- ---------------------------------------------------------------------------
-- Factorials and powers
-- ---------------------------------------------------------------------------

theorem factorial_reports (h : AllSolid P ts) : (factorial L ts).FailsOnly (Reported P) := by
  refine (hL.primary h).bind fun ⟨base, rest⟩ _ => ?_
  exact extend_reports (Q := fun _ _ => True) (fun _ => .pure _) (fun _ _ => trivial) trivial

theorem plainPower_reports (hSound : L.Sound units) (h : AllSolid P ts) :
    (plainPower L ts).FailsOnly (Reported P) := by
  refine (hL.factorial h).bind fun ⟨base, rest⟩ hBase => ?_
  have hRest := h.reads (hSound.factorial hBase)
  dsimp only
  split
  · rename_i hPow
    exact (hL.power (hRest.after hPow)).bind fun _ _ => .pure _
  · exact .pure _

theorem power_reports (hSound : L.Sound units) {allowed : Bool} (h : AllSolid P ts) :
    (power L allowed ts).FailsOnly (Reported P) := by
  unfold power
  split
  · rename_i hSelect
    cases allowed with
    | false => simp at hSelect
    | true => exact (hL.power (h.select hSelect)).bind fun _ _ => .pure _
  · exact plainPower_reports hL hSound h

-- ---------------------------------------------------------------------------
-- Products
-- ---------------------------------------------------------------------------

theorem juxtaposition_reports (hSound : L.Sound units) {lhs : Node} (hLeft : lhs.Formed)
    (h : AllSolid P ts) :
    (juxtaposition units L lhs ts).FailsOnly fun e => Reported P e ∨ e = .reservedJuxtaposition := by
  refine ((hL.power h).imp fun _ => Or.inl).bind fun ⟨rhs, rest⟩ hRead => ?_
  obtain ⟨k, hk⟩ := juxtapositionKind_formed units hLeft (hSound.power hRead).formed
  dsimp only
  rw [hk]
  refine (FailsOnly.shape k).bind fun found _ => ?_
  cases found with
  | none => exact .reject (Or.inr rfl)
  | some k => exact .pure _

theorem fractionTerm_reports (h : AllSolid P ts) :
    (fractionTerm L ts).FailsOnly fun e => Reported P e ∨ e = .invalidMixedFraction := by
  refine ((hL.power h).imp fun _ => Or.inl).bind fun ⟨n, rest⟩ _ => ?_
  dsimp only
  split
  · exact .pure _
  · exact .reject (Or.inr rfl)

omit hL in
theorem wholeIsNegated_reports {whole : Node} (h : whole.Formed) :
    (wholeIsNegated whole).FailsOnly fun e => Reported P e ∨ e = .invalidMixedFraction := by
  obtain ⟨b, hb⟩ := h.isNegatedNumber_ok
  unfold wholeIsNegated
  split
  · exact .pure _
  · rw [hb]
    refine (FailsOnly.shape b).bind fun negated _ => ?_
    cases negated with
    | true => exact .pure _
    | false => exact .reject (Or.inr rfl)

theorem mixedFraction_reports (hSound : L.Sound units) {lhs : Node} (hLeft : lhs.Formed)
    (h : AllSolid P ts) :
    (mixedFraction L lhs ts).FailsOnly fun e => Reported P e ∨ e = .invalidMixedFraction := by
  obtain ⟨outer, whole, hPart, hWhole, -⟩ := wholePart_formed hLeft
  unfold mixedFraction
  rw [hPart]
  refine (FailsOnly.shape _).bind fun _ hFound => ?_
  cases hFound
  refine (wholeIsNegated_reports hWhole).bind fun negated _ => ?_
  dsimp only
  split
  · refine (fractionTerm_reports hL h).bind fun ⟨top, rest⟩ hTop => ?_
    obtain ⟨v, p, hSolid, -⟩ := fractionTerm_sound hSound hTop
    have hRest : AllSolid P rest := h.later (u := [_]) hSolid
    refine ((take_reports _ hRest).imp fun _ => Or.inl).bind fun rest' hDiv => ?_
    exact (fractionTerm_reports hL (hRest.take hDiv)).bind fun _ _ => .pure _
  · exact .reject (Or.inr rfl)

theorem operatorFactor_reports {E : ParseError → Prop} (lhs : Node) (h : AllSolid P ts) :
    (operatorFactor L lhs ts).FailsOnly E := by
  rw [operatorFactor_eq]
  exact operand_reports hL.power h

theorem continuation_reports {lhs : Node} (hLeft : lhs.Formed) (h : AllSolid P ts) :
    (continuation L lhs ts).FailsOnly fun _ => False := by
  refine (operatorFactor_reports hL lhs h).bind fun found _ => ?_
  split
  · exact .pure _
  · refine (hL.mixedFraction hLeft h).candidate _ _ |>.bind fun found _ => ?_
    split
    · exact .pure _
    · exact (hL.juxtaposition hLeft h).candidate _ _

theorem multiplicative_reports (hSound : L.Sound units) (h : AllSolid P ts) :
    (multiplicative L ts).FailsOnly (Reported P) := by
  refine (hL.power h).bind fun ⟨base, rest⟩ hBase => ?_
  refine extend_reports (Q := fun m us => Reads units .multiplicative ts m us) ?_ ?_ ?_
  · intro m us hReads
    exact (hL.continuation hReads.formed (h.reads hReads)).imp fun _ => False.elim
  · intro m us m' us' hReads hStep
    exact (continuation_step hSound hReads hStep).1
  · exact (hSound.power hBase).widen (by decide)

-- ---------------------------------------------------------------------------
-- Sums
-- ---------------------------------------------------------------------------

theorem implicitSum_reports (hSound : L.Sound units) (h : AllSolid P ts) :
    (implicitSum L ts).FailsOnly (Reported P) := by
  refine (hL.multiplicative h).bind fun ⟨n, rest⟩ hRead => ?_
  have hRest := h.reads (hSound.multiplicative hRead)
  dsimp only
  split
  · have hMore : (do return some (← L.implicitSum rest) :
        Attempt (Option (Node × List Token))).FailsOnly (Reported P) :=
      (hL.implicitSum hRest).bind fun _ _ => .pure _
    refine (hMore.recover fun _ _ => .pure _).bind fun more _ => ?_
    split
    · split
      · exact .pure _
      · exact .pure _
    · exact .pure _
  · exact .pure _

theorem sumStep_reports {E : ParseError → Prop} (lhs : Node) (h : AllSolid P ts) :
    (sumStep L lhs ts).FailsOnly E := by
  rw [sumStep_eq]
  exact operand_reports hL.implicitSum h

theorem additive_reports (hSound : L.Sound units) (h : AllSolid P ts) :
    (additive L ts).FailsOnly (Reported P) := by
  refine (hL.implicitSum h).bind fun ⟨first, rest⟩ hFirst => ?_
  refine extend_reports (Q := fun m us => Reads units .additive ts m us) ?_ ?_ ?_
  · exact fun hReads => sumStep_reports hL _ (h.reads hReads)
  · exact fun hReads hStep => (sumStep_sound hSound hReads hStep).1
  · exact (hSound.implicitSum hFirst).widen (by decide)

-- ---------------------------------------------------------------------------
-- Functions, assignments and statements
-- ---------------------------------------------------------------------------

theorem function_reports (hSound : L.Sound units) (h : AllSolid P ts) :
    (function L ts).FailsOnly (Reported P) :=
  (hL.additive h).bind fun _ hRead =>
    binding_reports hL.function (h.reads (hSound.additive hRead)) .expectedParameter

theorem assignment_reports (hSound : L.Sound units) (h : AllSolid P ts) :
    (assignment L ts).FailsOnly (Reported P) :=
  (hL.function h).bind fun _ hRead =>
    binding_reports hL.assignment (h.reads (hSound.function hRead)) .expectedAssignee

theorem statementStep_reports (lhs : Node) (h : AllSolid P ts) :
    (statementStep L lhs ts).FailsOnly (Reported P) := by
  unfold statementStep
  split
  · rename_i hSeparator
    split
    · exact .pure _
    · exact (hL.assignment (h.after hSeparator)).bind fun _ _ => .pure _
  · exact .pure _

theorem statements_reports (hSound : L.Sound units) (h : AllSolid P ts) :
    (statements L ts).FailsOnly (Reported P) := by
  have h := h.skipSeparators
  unfold statements
  dsimp only
  split
  · exact .pure _
  · refine (hL.assignment h).bind fun ⟨first, rest⟩ hFirst => ?_
    refine extend_reports (Q := Reads units .sequence (Cursor.skipSeparators ts)) ?_ ?_ ?_
    · exact fun hReads => statementStep_reports hL _ (h.reads hReads)
    · exact fun hReads hStep => (statementStep_sound hSound hReads hStep).1
    · exact (hSound.assignment hFirst).widen (by decide)

end Rules

-- ---------------------------------------------------------------------------
-- All rules
-- ---------------------------------------------------------------------------

/-- **The rules report only what is listed**, under every bound on the nesting. -/
theorem within_reports (P : Token → Prop) (units : List String) (d : Nat) :
    (Layers.within units d).Reports P := by
  induction d with
  | zero => exact exhausted_reports
  | succ d ih =>
    have hSound := within_sound units d
    exact {
      expression := ih.statements
      statements := statements_reports ih hSound
      assignment := assignment_reports ih hSound
      function := function_reports ih hSound
      additive := additive_reports ih hSound
      implicitSum := implicitSum_reports ih hSound
      multiplicative := multiplicative_reports ih hSound
      continuation := continuation_reports ih
      mixedFraction := mixedFraction_reports ih hSound
      juxtaposition := juxtaposition_reports ih hSound
      power := power_reports ih hSound
      factorial := factorial_reports ih
      primary := primary_reports ih
      number := number_reports
      ident := ident_reports ih
      parens := parens_reports ih hSound
      lambda := lambda_reports ih }

theorem Reported.isSignal {e : ParseError} (h : Reported P e) : e.isSignal = false := by
  cases h <;> rfl

theorem Reported.ne_expectedNumber {e : ParseError} (h : Reported P e) (t : Token) :
    e ≠ .expectedNumber t := by
  cases h <;> exact fun hSame => ParseError.noConfusion hSame

-- ---------------------------------------------------------------------------
-- One more factor
-- ---------------------------------------------------------------------------

/-- After a formed left operand, one more factor is found or not; only the bound on the nesting can
stop the search. -/
theorem continuation_answers (units : List String) (d : Nat) {lhs : Node} (h : lhs.Formed)
    (ts : List Token) :
    (∃ found, ((Layers.within units d).continuation lhs ts).result = .ok found) ∨
      ((Layers.within units d).continuation lhs ts).result = .error .tooDeep := by
  have hAll : AllSolid (fun _ => True) ts := fun _ _ => trivial
  rcases ((within_reports _ units d).continuation h hAll).cases with hOk | hDeep | ⟨_, _, hFalse⟩
  · exact Or.inl hOk
  · exact Or.inr hDeep
  · exact hFalse.elim

/-- After a left operand of any shape, the search for one more factor ends with no parse error. -/
theorem continuation_error (units : List String) (d : Nat) (lhs : Node) (ts : List Token)
    (e : ParseError) : ((Layers.within units d).continuation lhs ts).result ≠ .error (.error e) := by
  cases d with
  | zero => exact fun h => nomatch h
  | succ d =>
    intro h
    obtain h | ⟨found, hFound, h⟩ := Attempt.bind_error.mp h
    · rw [operatorFactor_eq] at h
      exact operand_error e h
    split at h
    · cases h
    obtain h | ⟨found, hFound, h⟩ := Attempt.bind_error.mp h
    · exact Attempt.candidate_error h
    split at h
    · cases h
    · exact Attempt.candidate_error h

-- ---------------------------------------------------------------------------
-- Whatever can be built
-- ---------------------------------------------------------------------------

section Continued

variable {L : Layers} (hL : L.Sound units) {lhs : Node} (hLeft : lhs.Formed)
include hL hLeft

theorem juxtaposition_formed (h : (juxtaposition units L lhs ts).result = .ok (n, rest)) :
    n.Formed := by
  obtain ⟨k, rhs, hRhs, hKind, rfl⟩ := juxtaposition_ok.mp h
  have hRight := (hL.power hRhs).formed
  rcases juxtapositionKind_mem hKind with rfl | rfl | rfl <;>
    exact .pair (by decide) hLeft hRight

theorem operatorFactor_formed (h : (operatorFactor L lhs ts).result = .ok (some (n, rest))) :
    n.Formed := by
  obtain ⟨entry, t, after, rhs, -, hRhs, rfl⟩ := operatorFactor_some.mp h
  exact .binary _ hLeft (hL.power hRhs).formed

theorem mixedFraction_formed (h : (mixedFraction L lhs ts).result = .ok (n, rest)) :
    n.Formed := by
  obtain ⟨outer, whole, hPart, hWhole, hOuter⟩ := wholePart_formed hLeft
  obtain ⟨_, _, negated, top, mid, after, bottom, hFound, -, -, hTop, -, hBottom, rfl⟩ :=
    mixedFraction_ok.mp h
  obtain ⟨rfl, rfl⟩ := Prod.mk.inj (Except.ok.inj (hPart.symm.trans hFound))
  obtain ⟨v, p, -, rfl⟩ := fractionTerm_sound hL hTop
  obtain ⟨w, q, -, rfl⟩ := fractionTerm_sound hL hBottom
  have hSum := Node.Formed.binary (if negated then .minus else .plus) hWhole
    (.binary .div (.number v p) (.number w q))
  cases outer with
  | none => exact hSum
  | some factor => exact .binary .mul (hOuter factor rfl) hSum

theorem continuation_formed (hMixed : ∀ {n rest}, (L.mixedFraction lhs ts).result = .ok (n, rest) →
      n.Formed) (hJuxtaposed : ∀ {n rest}, (L.juxtaposition lhs ts).result = .ok (n, rest) →
      n.Formed) (h : (continuation L lhs ts).result = .ok (some (n, rest))) : n.Formed := by
  rcases continuation_ok.mp h with ⟨x, hSame, hFactor⟩ | ⟨-, ⟨x, hSame, hMixture⟩ | ⟨-, hPair⟩⟩
  · obtain rfl := Option.some.inj hSame
    exact operatorFactor_formed hL hLeft hFactor
  · obtain rfl := Option.some.inj hSame
    exact hMixed hMixture
  · exact hJuxtaposed (Attempt.candidate_some.mp hPair)

end Continued

/-- The rules that read a node from the tokens that are left, without a left operand. -/
def Layers.readers (L : Layers) : List Rule :=
  [L.expression, L.statements, L.assignment, L.function, L.additive, L.implicitSum,
   L.multiplicative, L.power true, L.power false, L.factorial, L.primary, L.number, L.ident,
   L.parens, L.lambda]

/-- The trees that the rules can have built under some bound, one by one or one from another, and
all parts of such trees. -/
inductive Built (units : List String) : Node → Prop where
  | read {d : Nat} {rule : Rule} {ts : List Token} {n : Node} {rest : List Token}
      (hRule : rule ∈ (Layers.within units d).readers) (h : (rule ts).result = .ok (n, rest)) :
      Built units n
  | continued {d : Nat} {lhs : Node} {ts : List Token} {n : Node} {rest : List Token}
      (hLeft : Built units lhs)
      (h : ((Layers.within units d).continuation lhs ts).result = .ok (some (n, rest))) :
      Built units n
  | mixed {d : Nat} {lhs : Node} {ts : List Token} {n : Node} {rest : List Token}
      (hLeft : Built units lhs)
      (h : ((Layers.within units d).mixedFraction lhs ts).result = .ok (n, rest)) : Built units n
  | juxtaposed {d : Nat} {lhs : Node} {ts : List Token} {n : Node} {rest : List Token}
      (hLeft : Built units lhs)
      (h : ((Layers.within units d).juxtaposition lhs ts).result = .ok (n, rest)) : Built units n
  | child {n c : Node} (h : Built units n) (hc : c ∈ n.children) : Built units c

theorem readers_formed {L : Layers} (hL : L.Sound units) {rule : Rule} (hRule : rule ∈ L.readers)
    (h : (rule ts).result = .ok (n, rest)) : n.Formed := by
  simp only [Layers.readers, List.mem_cons, List.not_mem_nil, or_false] at hRule
  rcases hRule with rfl | rfl | rfl | rfl | rfl | rfl | rfl | rfl | rfl | rfl | rfl | rfl | rfl |
    rfl | rfl
  · exact (hL.expression h).formed
  · exact (hL.statements h).formed
  · exact (hL.assignment h).formed
  · exact (hL.function h).formed
  · exact (hL.additive h).formed
  · exact (hL.implicitSum h).formed
  · exact (hL.multiplicative h).formed
  · exact (hL.power h).formed
  · exact (hL.power h).formed
  · exact (hL.factorial h).formed
  · exact (hL.primary h).formed
  · exact (hL.number h).formed
  · exact (hL.ident h).formed
  · exact (hL.parens h).formed
  · exact (hL.lambda h).formed

/-- **Whatever the rules can have built is formed.** -/
theorem Built.formed (h : Built units n) : n.Formed := by
  induction h with
  | @read d _ _ _ _ hRule h => exact readers_formed (within_sound units d) hRule h
  | child _ hc ih => exact ih.child hc
  | @mixed d _ _ _ _ _ h ih =>
    cases d with
    | zero => cases h
    | succ d => exact mixedFraction_formed (within_sound units d) ih h
  | @juxtaposed d _ _ _ _ _ h ih =>
    cases d with
    | zero => cases h
    | succ d => exact juxtaposition_formed (within_sound units d) ih h
  | @continued d lhs us _ _ _ h ih =>
    cases d with
    | zero => cases h
    | succ d =>
      -- the two candidates of a factor are called under one bound less
      refine continuation_formed (within_sound units d) ih (fun hMixed => ?_) (fun hPair => ?_) h
      · cases d with
        | zero => cases hMixed
        | succ d => exact mixedFraction_formed (within_sound units d) ih hMixed
      · cases d with
        | zero => cases hPair
        | succ d => exact juxtaposition_formed (within_sound units d) ih hPair

/-- No rule that reads a node ends with a signal. -/
theorem readers_report {L : Layers} (hL : L.Reports fun _ => True) {rule : Rule}
    (hRule : rule ∈ L.readers) (ts : List Token) :
    (rule ts).FailsOnly fun e => e.isSignal = false := by
  have hAll : AllSolid (fun _ => True) ts := fun _ _ => trivial
  have hListed {x : Attempt (Node × List Token)} (h : x.FailsOnly (Reported fun _ => True)) :
      x.FailsOnly fun e => e.isSignal = false := h.imp fun _ he => he.isSignal
  simp only [Layers.readers, List.mem_cons, List.not_mem_nil, or_false] at hRule
  rcases hRule with rfl | rfl | rfl | rfl | rfl | rfl | rfl | rfl | rfl | rfl | rfl | rfl | rfl |
    rfl | rfl
  · exact hListed (hL.expression hAll)
  · exact hListed (hL.statements hAll)
  · exact hListed (hL.assignment hAll)
  · exact hListed (hL.function hAll)
  · exact hListed (hL.additive hAll)
  · exact hListed (hL.implicitSum hAll)
  · exact hListed (hL.multiplicative hAll)
  · exact hListed (hL.power hAll)
  · exact hListed (hL.power hAll)
  · exact hListed (hL.factorial hAll)
  · exact hListed (hL.primary hAll)
  · refine (hL.number ts).imp fun e he => ?_
    rcases he with ⟨rfl, -⟩ | ⟨t, rest, rfl, -, -⟩ <;> rfl
  · exact hListed (hL.ident hAll)
  · exact hListed (hL.parens hAll)
  · exact hListed (hL.lambda hAll)

-- ---------------------------------------------------------------------------
-- Whole sequences of tokens
-- ---------------------------------------------------------------------------

/-- Parsing gives a tree, or reports an error of a rule, the first token that is left over, or too
deep a nesting. -/
theorem parseWithin_reports (d : Nat) (units : List String) {tokens : List Token}
    (h : AllSolid P (significant tokens)) :
    (∃ n, (parseWithin d units tokens).result = .ok n) ∨
      ∃ e, (parseWithin d units tokens).result = .error (.error e) ∧
        (Reported P e ∨ e = .tooDeep ∨ ∃ n rest t,
          ((Layers.within units d).expression (significant tokens)).result = .ok (n, rest) ∧
            Cursor.peek? rest = some t ∧ e = .unexpectedInput t) := by
  unfold parseWithin
  rcases ((within_reports P units d).expression h).cases with ⟨⟨n, rest⟩, hOk⟩ | hDeep | ⟨e, he, hListed⟩
  · rw [Attempt.result_bind_of_ok ((reportDepth_result (by simp [hOk])).trans hOk)]
    cases hPeek : Cursor.peek? rest with
    | none => exact Or.inl ⟨n, by simp [hPeek]⟩
    | some t => exact Or.inr ⟨_, by simp [hPeek], Or.inr (Or.inr ⟨n, rest, t, hOk, hPeek, rfl⟩)⟩
  · rw [Attempt.result_bind_of_error (reportDepth_tooDeep hDeep)]
    exact Or.inr ⟨_, rfl, Or.inr (Or.inl rfl)⟩
  · rw [Attempt.result_bind_of_error ((reportDepth_result (by simp [he])).trans he)]
    exact Or.inr ⟨e, rfl, Or.inl hListed⟩

/-- **Signals never escape.** Under every bound on the nesting:

* tokens of any types are parsed into a tree, or a parse error is reported that is no signal and
  asks for no number;
* no rule that reads a node ends with a signal, whatever tokens are left;
* the search for one more factor ends with no parse error at all, and after a left operand that the
  rules can have built nothing but the bound stops it. -/
theorem signals_never_escape (depth : Nat) (units : List String) :
    (∀ tokens, (∃ n, (parseWithin depth units tokens).result = .ok n) ∨
      ∃ e, (parseWithin depth units tokens).result = .error (.error e) ∧ e.isSignal = false ∧
        ∀ t, e ≠ .expectedNumber t) ∧
    (∀ rule ∈ (Layers.within units depth).readers, ∀ ts,
      (rule ts).FailsOnly fun e => e.isSignal = false) ∧
    (∀ lhs ts e, ((Layers.within units depth).continuation lhs ts).result ≠ .error (.error e)) ∧
    ∀ lhs, Built units lhs → ∀ ts,
      (∃ found, ((Layers.within units depth).continuation lhs ts).result = .ok found) ∨
        ((Layers.within units depth).continuation lhs ts).result = .error .tooDeep := by
  refine ⟨fun tokens => ?_, fun rule hRule ts => readers_report (within_reports _ units depth) hRule ts,
    continuation_error units depth, fun lhs hLeft ts => continuation_answers units depth hLeft.formed ts⟩
  have hAll : AllSolid (fun _ => True) (significant tokens) := fun _ _ => trivial
  refine (parseWithin_reports depth units hAll).imp_right fun ⟨e, he, hCase⟩ => ⟨e, he, ?_⟩
  rcases hCase with hListed | rfl | ⟨_, _, t, -, -, rfl⟩
  · exact ⟨hListed.isSignal, hListed.ne_expectedNumber⟩
  · exact ⟨rfl, fun _ h => nomatch h⟩
  · exact ⟨rfl, fun _ h => nomatch h⟩

end Grammar

end Reckoner
