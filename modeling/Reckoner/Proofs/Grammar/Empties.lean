import Reckoner.Proofs.Grammar.Inventory
import Reckoner.Proofs.Grammar.Progress
import Reckoner.Proofs.Outcome

/-!
# Empty lists of statements

A list of statements may be empty only where nothing but separators is left. So if the list in a
parenthesis is empty, this is the last parenthesis that opens, and it is never closed: from there on to
the end of the tokens only separators stand (`OpensLast`).

Derivations do not know this, because they say nothing about the tokens behind what they derive. It is
a property of the rules: every tree that a rule builds of the end of some tokens has it
(`Layers.KeepsLast`), rule by rule, and so the rules under every bound.

## Results

* `Derives.ne_nothing`    — below the lists of statements no tree is an empty list of them.
* `within_keepsLast`      — every rule builds trees in which such a parenthesis opens last.
* `parseWithin_opensLast` — so does parsing as a whole.
-/

namespace Reckoner

namespace Grammar

open Cursor (next? after? select? solid)

variable {units : List String} {all ts rest : List Token} {n m : Node} {d : Nat}

-- ---------------------------------------------------------------------------
-- Parentheses that open last
-- ---------------------------------------------------------------------------

/-- Separators at some places. -/
def separators (ps : List Place) : List Token :=
  ps.map fun p => ⟨.symbol .semicolon, p⟩

/-- A parenthesis opens at `p`, and only separators stand behind it. -/
def OpensLast (ts : List Token) (p : Place) : Prop :=
  ∃ front ps, solid ts = front ++ ⟨.symbol .openParens, p⟩ :: separators ps

/-- Each parenthesis around an empty list of statements opens last. -/
def EmptiesLast (ts : List Token) (n : Node) : Prop :=
  ∀ p, .mk .parens .absent none p [.unit .unknown] ∈ n.nodes → OpensLast ts p

namespace EmptiesLast

/-- A node of another kind has such parentheses in its children only. -/
theorem of_children (hKind : n.kind ≠ .parens) (h : ∀ c ∈ n.children, EmptiesLast all c) :
    EmptiesLast all n := by
  intro p hp
  rcases Node.mem_nodes.mp hp with rfl | ⟨c, hc, hp⟩
  · exact absurd rfl hKind
  · exact h c hc p hp

theorem child {c : Node} (h : EmptiesLast all n) (hc : c ∈ n.children) : EmptiesLast all c :=
  fun p hp => h p (Node.mem_nodes_of_child hc hp)

theorem leaf (hKind : n.kind ≠ .parens) (hChildren : n.children = []) : EmptiesLast all n :=
  of_children hKind (by simp [hChildren])

theorem around {k : Kind} {v : Payload} {p : Place} (hKind : k ≠ .parens) (h : EmptiesLast all n) :
    EmptiesLast all (.mk k v none p [n]) :=
  of_children hKind (List.forall_mem_singleton.mpr h)

theorem joined {k : Kind} {v : Payload} {p : Place} (hKind : k ≠ .parens) (h : EmptiesLast all n)
    (h' : EmptiesLast all m) : EmptiesLast all (.mk k v none p [n, m]) :=
  of_children hKind (List.forall_mem_cons.mpr ⟨h, List.forall_mem_singleton.mpr h'⟩)

/-- A parenthesis is one of them if its child is an empty list. -/
theorem parens {p : Place} (hOwn : n = .unit .unknown → OpensLast all p) (h : EmptiesLast all n) :
    EmptiesLast all (.wrap .parens n p) := by
  intro q hq
  rcases Node.mem_nodes.mp hq with hSelf | ⟨c, hc, hq⟩
  · obtain ⟨hPlace, hChild⟩ : q = p.orElse n.place ∧ .unit .unknown = n := by
      simpa [Node.wrap] using hSelf
    subst hChild
    have hSame : p.orElse (Node.unit .unknown).place = p := by
      obtain ⟨line, col⟩ := p
      show Place.mk (if line = 0 then 0 else line) (if col = 0 then 0 else col) = _
      split <;> split <;> simp_all
    rw [hPlace, hSame]
    exact hOwn rfl
  · rw [List.mem_singleton.mp hc] at hq
    exact h q hq

end EmptiesLast

-- ---------------------------------------------------------------------------
-- Empty lists
-- ---------------------------------------------------------------------------

/-- **Below the lists of statements no tree is an empty list of them**, if the tokens have places. -/
theorem Derives.ne_nothing {s : Stratum} {used : List Token} (h : Derives units s used n)
    (hPlaces : ∀ t ∈ used, t.place ≠ .unknown) (hs : s ≠ .statements) : n ≠ .unit .unknown := by
  have hBelow : ∀ e ∈ inclusions, e.1 ≠ .statements := by decide
  induction h with
  | widen hi _ ih => exact ih hPlaces (hBelow _ hi)
  | number v p => simp [Node.number, Node.unit]
  | string x p => exact fun hUnit => nomatch congrArg Node.value hUnit
  | ident x p => exact fun hUnit => nomatch congrArg Node.kind hUnit
  | unit p q => exact fun hUnit => hPlaces _ List.mem_cons_self (congrArg Node.place hUnit)
  | leading p _ ih => exact ih (fun t ht => hPlaces t (List.mem_cons_of_mem _ ht)) (by decide)
  | trailing p _ ih => exact ih (fun t ht => hPlaces t (List.mem_append_left _ ht)) (by decide)
  | nothing ps => exact absurd rfl hs
  | sum _ hy _ _ _ _ =>
    rcases sumOperators_cases hy with ⟨-, rfl⟩ | ⟨-, rfl⟩ | ⟨-, rfl⟩ <;> nofun
  | _ => exact fun hUnit => nomatch congrArg Node.children hUnit

theorem statements_nothing (hPlaces : ∀ t ∈ ts, t.place ≠ .unknown)
    (h : (statements (Layers.within units d) ts).result = .ok (.unit .unknown, rest)) :
    ∃ ps, solid ts = separators ps := by
  obtain ⟨ps, hSkip⟩ := Cursor.solid_skipSeparators ts
  rcases statements_ok.mp h with ⟨hEnd, -, -⟩ | ⟨-, first, mid, hFirst, hLoop⟩
  · rw [Cursor.solid_of_atEnd hEnd, List.append_nil] at hSkip
    exact ⟨ps, hSkip⟩
  · exfalso
    have hL := within_sound units d
    obtain ⟨used, hUsed, hDerives⟩ :=
      (extend_ok (P := Reads units .sequence (Cursor.skipSeparators ts))
        (statementStep_sound hL) ((hL.assignment hFirst).widen (by decide)) hLoop).1
    have hRead : ∀ t ∈ used, t ∈ ts := by
      intro t ht
      have hSolid : t ∈ solid ts := by
        rw [hSkip, hUsed]
        exact List.mem_append_right _ (List.mem_append_left _ ht)
      exact (List.mem_filter.mp hSolid).1
    exact hDerives.ne_nothing (fun t ht => hPlaces t (hRead t ht)) (by decide) rfl

/-- **Where a list of statements is empty, nothing but separators is left.** -/
theorem expression_nothing (hPlaces : ∀ t ∈ ts, t.place ≠ .unknown)
    (h : ((Layers.within units d).expression ts).result = .ok (.unit .unknown, rest)) :
    ∃ ps, solid ts = separators ps := by
  match d with
  | 0 => cases h
  | 1 => cases h
  | d + 2 => exact statements_nothing hPlaces h

-- ---------------------------------------------------------------------------
-- Rules
-- ---------------------------------------------------------------------------

/-- What a rule is given to go on from is a tree of this kind. -/
def RuleName.GoesOnFrom (P : Node → Prop) : RuleName → Prop
  | .continuation lhs | .mixedFraction lhs | .juxtaposition lhs => P lhs
  | _ => True

/-- Of the end of the tokens, the rules of `L` build trees in which parentheses around empty lists open
last. -/
def Layers.KeepsLast (all : List Token) (L : Layers) : Prop :=
  ∀ {r ts n rest}, r.GoesOnFrom (EmptiesLast all) → ts <:+ all →
    (L.call r ts).result = .ok (some (n, rest)) → EmptiesLast all n

/-- What is left behind the next token is an end of the tokens. -/
theorem suffix_behind (hts : ts <:+ all) {t : Token} {after : List Token}
    (hNext : next? ts = some (t, after)) : after <:+ all :=
  (List.suffix_cons t after).trans ((Cursor.next?_suffix hNext).trans hts)

theorem suffix_after (hts : ts <:+ all) {y : Symbol} {after : List Token}
    (hAfter : after? y ts = some after) : after <:+ all := by
  obtain ⟨p, hNext⟩ := Cursor.after?_eq_some.mp hAfter
  exact suffix_behind hts hNext

theorem suffix_select (hts : ts <:+ all) {α : Type} {table : List (Symbol × α)} {entry : Symbol × α}
    {t : Token} {after : List Token} (hSelect : select? table ts = some (entry, t, after)) :
    after <:+ all :=
  suffix_behind hts (Cursor.select?_eq_some.mp hSelect).1

/-- A loop builds such trees if its steps do. -/
theorem loop_keepsLast {step : Node → List Token → Attempt (Option (Node × List Token))}
    (hTakes : Takes step)
    (hStep : ∀ {n ts m rest}, EmptiesLast all n → ts <:+ all →
      (step n ts).result = .ok (some (m, rest)) → EmptiesLast all m)
    (hts : ts <:+ all) (hStart : EmptiesLast all n) (h : (extend step n ts).result = .ok (m, rest)) :
    EmptiesLast all m := by
  induction runs_of_extend hTakes h with
  | done _ => exact hStart
  | more hFound _ hRuns ih =>
    exact ih ((hTakes hFound).1.trans hts) (hStep hStart hts hFound) (extend_of_runs hRuns)

/-- The parts that a mixed fraction takes of its left side are this side or its children. -/
theorem wholePart_keepsLast {lhs whole : Node} {outer : Option Node} (hLeft : EmptiesLast all lhs)
    (h : wholePart lhs = .ok (outer, whole)) :
    (∀ factor, outer = some factor → EmptiesLast all factor) ∧ EmptiesLast all whole := by
  unfold wholePart at h
  split at h
  · obtain ⟨⟨l, r⟩, hChildren, hPart⟩ := bind_eq_ok.mp h
    obtain ⟨rfl, rfl⟩ := Prod.mk.inj (Except.ok.inj hPart)
    have hChildren : lhs.children = [l, r] := by
      unfold Node.twoChildren at hChildren
      split at hChildren <;> simp_all
    refine ⟨?_, hLeft.child (by simp [hChildren])⟩
    rintro _ ⟨⟩
    exact hLeft.child (by simp [hChildren])
  · obtain ⟨rfl, rfl⟩ := Prod.mk.inj (Except.ok.inj h)
    exact ⟨nofun, hLeft⟩

section Rules

variable (hL : (Layers.within units d).KeepsLast all) (hts : ts <:+ all)
include hL hts

theorem ident_keepsLast (h : (ident (Layers.within units d) ts).result = .ok (n, rest)) :
    EmptiesLast all n := by
  obtain ⟨x, p, mid, hNext, ⟨after, m, hOf, hInner, rfl⟩ | ⟨-, rfl, rfl⟩⟩ := ident_ok.mp h
  · have hInner := hL (r := .primary) trivial (suffix_after (suffix_behind hts hNext) hOf)
      (Attempt.found_some.mpr hInner)
    exact .around (by decide) hInner
  · exact .leaf (by simp) rfl

theorem parens_keepsLast (hPlaces : ∀ t ∈ all, t.place ≠ .unknown)
    (h : (parens (Layers.within units d) ts).result = .ok (n, rest)) : EmptiesLast all n := by
  obtain ⟨p, after, hNext, ⟨-, rfl⟩ | ⟨-, m, mid, hInner, rfl, -⟩⟩ := parens_ok.mp h
  · exact .leaf (by simp) rfl
  · have hAfter := suffix_behind hts hNext
    refine .parens ?_ (hL (r := .expression) trivial hAfter (Attempt.found_some.mpr hInner))
    rintro rfl
    obtain ⟨ps, hSeparators⟩ := expression_nothing (fun t ht => hPlaces t (hAfter.mem ht)) hInner
    obtain ⟨front, hFront⟩ := hts
    refine ⟨solid front, ps, ?_⟩
    rw [← hFront, solid, List.filter_append]
    exact congrArg _ ((Cursor.solid_of_next? hNext).trans (congrArg _ hSeparators))

theorem lambda_keepsLast (h : (lambda (Layers.within units d) ts).result = .ok (n, rest)) :
    EmptiesLast all n := by
  obtain ⟨p, x, q, mid, after, m, hNext, hDot, hBody, rfl⟩ := lambda_ok.mp h
  have hMid : mid <:+ all := (List.suffix_cons _ _).trans (suffix_behind hts hNext)
  exact .around (by decide)
    (hL (r := .function) trivial (suffix_after hMid hDot) (Attempt.found_some.mpr hBody))

theorem primary_keepsLast (h : (primary (Layers.within units d) ts).result = .ok (n, rest)) :
    EmptiesLast all n := by
  obtain ⟨⟨⟨content, place⟩, after⟩, -, h⟩ := Attempt.bind_ok.mp h
  dsimp only at h
  split at h
  · exact hL (r := .number) trivial hts (Attempt.found_some.mpr h)
  · exact hL (r := .ident) trivial hts (Attempt.found_some.mpr h)
  · obtain ⟨rfl, -⟩ := Prod.mk.inj (Except.ok.inj h)
    exact .leaf (by simp) rfl
  · exact hL (r := .parens) trivial hts (Attempt.found_some.mpr h)
  · exact hL (r := .lambda) trivial hts (Attempt.found_some.mpr h)
  · cases h
  · cases h

theorem factorial_keepsLast (h : (factorial (Layers.within units d) ts).result = .ok (n, rest)) :
    EmptiesLast all n := by
  obtain ⟨⟨base, mid⟩, hBase, hLoop⟩ := Attempt.bind_ok.mp h
  have hBase := Attempt.found_some.mpr hBase
  refine loop_keepsLast factorialStep_takes ?_ ((call_suffix (r := .primary) hBase).trans hts)
    (hL (r := .primary) trivial hts hBase) hLoop
  intro m us m' us' hm _ hBang
  obtain ⟨after, -, hNode⟩ := Option.map_eq_some_iff.mp (factorialStep_ok.mp hBang).symm
  obtain ⟨rfl, -⟩ := Prod.mk.inj hNode
  exact .around (by decide) hm

theorem plainPower_keepsLast (h : (plainPower (Layers.within units d) ts).result = .ok (n, rest)) :
    EmptiesLast all n := by
  obtain ⟨base, mid, hBase, hMore⟩ := plainPower_ok.mp h
  have hBase := Attempt.found_some.mpr hBase
  have hMid := (call_suffix (r := .factorial) hBase).trans hts
  have hBase := hL (r := .factorial) trivial hts hBase
  rcases hMore with ⟨after, m, hPow, hExponent, rfl⟩ | ⟨-, rfl, -⟩
  · exact .joined (by decide) hBase
      (hL (r := .power true) trivial (suffix_after hMid hPow) (Attempt.found_some.mpr hExponent))
  · exact hBase

theorem power_keepsLast {allowed : Bool}
    (h : (power (Layers.within units d) allowed ts).result = .ok (n, rest)) : EmptiesLast all n := by
  cases allowed with
  | false => exact plainPower_keepsLast hL hts h
  | true =>
    rcases power_ok.mp h with ⟨⟨y, k⟩, t, after, m, hSelect, hInner, rfl⟩ | ⟨-, hPlain⟩
    · have hKind : k ≠ .parens := by
        rcases prefixes_kind (Cursor.solid_of_select? hSelect).1 with rfl | rfl | rfl <;> decide
      exact .around hKind
        (hL (r := .power true) trivial (suffix_select hts hSelect) (Attempt.found_some.mpr hInner))
    · exact plainPower_keepsLast hL hts hPlain

theorem juxtaposition_keepsLast {lhs : Node} (hLeft : EmptiesLast all lhs)
    (h : (juxtaposition units (Layers.within units d) lhs ts).result = .ok (n, rest)) :
    EmptiesLast all n := by
  obtain ⟨k, rhs, hRight, hKind, rfl⟩ := juxtaposition_ok.mp h
  have hProper : k ≠ .parens := by
    rcases juxtapositionKind_mem hKind with rfl | rfl | rfl <;> decide
  exact .joined hProper hLeft (hL (r := .power false) trivial hts (Attempt.found_some.mpr hRight))

theorem fractionTerm_keepsLast (h : (fractionTerm (Layers.within units d) ts).result = .ok (n, rest)) :
    EmptiesLast all n ∧ rest <:+ all := by
  have hRead := Attempt.found_some.mpr (fractionTerm_ok.mp h).1
  exact ⟨hL (r := .power false) trivial hts hRead, (call_suffix (r := .power false) hRead).trans hts⟩

/-- A mixed fraction is put together from the parts of its left side and two numbers. -/
theorem mixedFraction_keepsLast {lhs : Node} (hLeft : EmptiesLast all lhs)
    (h : (mixedFraction (Layers.within units d) lhs ts).result = .ok (n, rest)) :
    EmptiesLast all n := by
  obtain ⟨outer, whole, negated, top, mid, after, bottom, hPart, -, -, hTop, hDiv, hBottom, rfl⟩ :=
    mixedFraction_ok.mp h
  obtain ⟨hTop, hMid⟩ := fractionTerm_keepsLast hL hts hTop
  obtain ⟨hBottom, -⟩ := fractionTerm_keepsLast hL (suffix_after hMid hDiv) hBottom
  obtain ⟨hOuter, hWhole⟩ := wholePart_keepsLast hLeft hPart
  have hSum : EmptiesLast all
      (.binary (if negated then .minus else .plus) whole (.binary .div top bottom)) :=
    .joined (by decide) hWhole (.joined (by decide) hTop hBottom)
  cases outer with
  | none => exact hSum
  | some factor => exact .joined (by decide) (hOuter factor rfl) hSum

theorem continuation_keepsLast {lhs : Node} (hLeft : EmptiesLast all lhs)
    (h : (continuation (Layers.within units d) lhs ts).result = .ok (some (n, rest))) :
    EmptiesLast all n := by
  rcases continuation_ok.mp h with ⟨x, hx, hFactor⟩ | ⟨-, ⟨x, hx, hMixed⟩ | ⟨-, hPair⟩⟩
  · obtain rfl := Option.some.inj hx
    obtain ⟨entry, t, after, rhs, hSelect, hRight, rfl⟩ := operatorFactor_some.mp hFactor
    exact .joined (by decide) hLeft
      (hL (r := .power true) trivial (suffix_select hts hSelect) (Attempt.found_some.mpr hRight))
  · obtain rfl := Option.some.inj hx
    exact hL (r := .mixedFraction lhs) hLeft hts (Attempt.found_some.mpr hMixed)
  · exact hL (r := .juxtaposition lhs) hLeft hts
      (Attempt.found_some.mpr (Attempt.candidate_some.mp hPair))

theorem multiplicative_keepsLast
    (h : (multiplicative (Layers.within units d) ts).result = .ok (n, rest)) : EmptiesLast all n := by
  obtain ⟨⟨base, mid⟩, hBase, hLoop⟩ := Attempt.bind_ok.mp h
  have hBase := Attempt.found_some.mpr hBase
  refine loop_keepsLast (continuation_takes units d) ?_
    ((call_suffix (r := .power true) hBase).trans hts) (hL (r := .power true) trivial hts hBase) hLoop
  exact fun hm hus hFactor => hL (r := .continuation _) hm hus hFactor

theorem implicitSum_keepsLast (h : (implicitSum (Layers.within units d) ts).result = .ok (n, rest)) :
    EmptiesLast all n := by
  rcases implicitSum_ok.mp h with ⟨l, mid, m, hLeft, -, hRight, -, rfl⟩ | ⟨hRead, -⟩
  · have hLeft := Attempt.found_some.mpr hLeft
    have hMid := (call_suffix (r := .multiplicative) hLeft).trans hts
    exact .joined (by decide) (hL (r := .multiplicative) trivial hts hLeft)
      (hL (r := .implicitSum) trivial hMid (Attempt.found_some.mpr hRight))
  · exact hL (r := .multiplicative) trivial hts (Attempt.found_some.mpr hRead)

theorem additive_keepsLast (h : (additive (Layers.within units d) ts).result = .ok (n, rest)) :
    EmptiesLast all n := by
  obtain ⟨⟨first, mid⟩, hFirst, hLoop⟩ := Attempt.bind_ok.mp h
  have hFirst := Attempt.found_some.mpr hFirst
  refine loop_keepsLast (sumStep_takes units d) ?_
    ((call_suffix (r := .implicitSum) hFirst).trans hts)
    (hL (r := .implicitSum) trivial hts hFirst) hLoop
  intro m us m' us' hm hus hSum
  obtain ⟨⟨y, build⟩, t, after, rhs, hSelect, hRight, rfl⟩ := sumStep_some.mp hSum
  have hRight :=
    hL (r := .implicitSum) trivial (suffix_select hus hSelect) (Attempt.found_some.mpr hRight)
  rcases sumOperators_cases (Cursor.solid_of_select? hSelect).1 with ⟨-, rfl⟩ | ⟨-, rfl⟩ | ⟨-, rfl⟩
  · exact .joined (by decide) hm hRight
  · exact .joined (by decide) hm hRight
  · exact .joined (by decide) hm hRight

theorem function_keepsLast (h : (function (Layers.within units d) ts).result = .ok (n, rest)) :
    EmptiesLast all n := by
  obtain ⟨m, mid, hRead, hMore⟩ := function_ok.mp h
  have hRead := Attempt.found_some.mpr hRead
  rcases hMore with ⟨after, body, hArrow, -, hBody, rfl⟩ | ⟨-, rfl, -⟩
  · have hMid := (call_suffix (r := .additive) hRead).trans hts
    exact .around (by decide)
      (hL (r := .function) trivial (suffix_after hMid hArrow) (Attempt.found_some.mpr hBody))
  · exact hL (r := .additive) trivial hts hRead

theorem assignment_keepsLast (h : (assignment (Layers.within units d) ts).result = .ok (n, rest)) :
    EmptiesLast all n := by
  obtain ⟨m, mid, hRead, hMore⟩ := assignment_ok.mp h
  have hRead := Attempt.found_some.mpr hRead
  rcases hMore with ⟨after, value, hEquals, -, hValue, rfl⟩ | ⟨-, rfl, -⟩
  · have hMid := (call_suffix (r := .function) hRead).trans hts
    exact .around (by decide)
      (hL (r := .assignment) trivial (suffix_after hMid hEquals) (Attempt.found_some.mpr hValue))
  · exact hL (r := .function) trivial hts hRead

theorem statements_keepsLast (h : (statements (Layers.within units d) ts).result = .ok (n, rest)) :
    EmptiesLast all n := by
  rcases statements_ok.mp h with ⟨-, rfl, -⟩ | ⟨-, first, mid, hFirst, hLoop⟩
  · exact .leaf (by simp) rfl
  · have hFirst := Attempt.found_some.mpr hFirst
    have hSkip := (Cursor.skipSeparators_suffix ts).trans hts
    refine loop_keepsLast (statementStep_takes units d) ?_
      ((call_suffix (r := .assignment) hFirst).trans hSkip)
      (hL (r := .assignment) trivial hSkip hFirst) hLoop
    intro m us m' us' hm hus hStep
    obtain ⟨after, hSeparator, ⟨-, rfl, -⟩ | ⟨-, next, hNext, rfl⟩⟩ := statementStep_some.mp hStep
    · exact hm
    · exact .joined (by decide) hm
        (hL (r := .assignment) trivial (suffix_after hus hSeparator) (Attempt.found_some.mpr hNext))

end Rules

-- ---------------------------------------------------------------------------
-- All rules
-- ---------------------------------------------------------------------------

/-- **In every tree that is built, a parenthesis around an empty list opens last**, under every bound on
the nesting. -/
theorem within_keepsLast (units : List String) (hPlaces : ∀ t ∈ all, t.place ≠ .unknown) (d : Nat) :
    (Layers.within units d).KeepsLast all := by
  induction d with
  | zero =>
    intro r ts n rest _ _ h
    cases r <;> cases h
  | succ d hL =>
    intro r ts n rest hFrom hts h
    cases r with
    | continuation lhs => exact continuation_keepsLast hL hts hFrom h
    | expression => exact hL (r := .statements) trivial hts h
    | statements => exact statements_keepsLast hL hts (Attempt.found_some.mp h)
    | assignment => exact assignment_keepsLast hL hts (Attempt.found_some.mp h)
    | function => exact function_keepsLast hL hts (Attempt.found_some.mp h)
    | additive => exact additive_keepsLast hL hts (Attempt.found_some.mp h)
    | implicitSum => exact implicitSum_keepsLast hL hts (Attempt.found_some.mp h)
    | multiplicative => exact multiplicative_keepsLast hL hts (Attempt.found_some.mp h)
    | mixedFraction lhs => exact mixedFraction_keepsLast hL hts hFrom (Attempt.found_some.mp h)
    | juxtaposition lhs => exact juxtaposition_keepsLast hL hts hFrom (Attempt.found_some.mp h)
    | power allowed => exact power_keepsLast hL hts (Attempt.found_some.mp h)
    | factorial => exact factorial_keepsLast hL hts (Attempt.found_some.mp h)
    | primary => exact primary_keepsLast hL hts (Attempt.found_some.mp h)
    | number =>
      obtain ⟨v, p, -, rfl⟩ := number_ok.mp (Attempt.found_some.mp h)
      exact .leaf (by simp) rfl
    | ident => exact ident_keepsLast hL hts (Attempt.found_some.mp h)
    | parens => exact parens_keepsLast hL hts hPlaces (Attempt.found_some.mp h)
    | lambda => exact lambda_keepsLast hL hts (Attempt.found_some.mp h)

/-- In a parsed tree, a parenthesis around an empty list opens last. -/
theorem parseWithin_opensLast {tokens : List Token} (hPlaces : ∀ t ∈ tokens, t.place ≠ .unknown)
    (h : (parseWithin d units tokens).result = .ok n) : EmptiesLast (significant tokens) n := by
  obtain ⟨rest, hRead, -⟩ := parseWithin_ok.mp h
  have hPlaces : ∀ t ∈ significant tokens, t.place ≠ .unknown :=
    fun t ht => hPlaces t (List.mem_filter.mp ht).1
  exact within_keepsLast units hPlaces d (r := .expression) trivial (List.suffix_refl _)
    (Attempt.found_some.mpr hRead)

end Grammar

end Reckoner
