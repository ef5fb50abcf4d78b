import Reckoner.Proofs.Grammar.Remainder

/-!
# Powers under any bound

A candidate reads a power under whatever bound is left to it, so the same tokens may be read under
several bounds. `ReadsPower` is what they agree on: a power is read under some bound. Every bound that
is not exhausted reads the same one, which depends on nothing but the tokens from the next one on.

Where no power can begin, it is rejected (`Refuses`): a power needs a token that an operand can begin
with, or a prefix operator where one is allowed.

## Results

* `ReadsPower.settles` — what is read under one bound is read under every bound that is not exhausted.
* `ReadsPower.congr`   — the next token and those after it decide what is read.
* `Refuses.error`      — where no operand begins, a power is rejected.
-/

namespace Reckoner

/-- Whether a primary expression can begin with a token. -/
def Token.isOperand (t : Token) : Bool :=
  match t.content with
  | .number _ | .string _ | .ident _ => true
  | .symbol y => y ∈ [.openParens, .backslash]
  | _ => false

namespace Grammar

open Cursor (next? solid)

variable {units : List String} {ts rest : List Token} {n : Node} {d : Nat}

-- ---------------------------------------------------------------------------
-- The next token
-- ---------------------------------------------------------------------------

section Congruence

variable {ts' : List Token} (h : next? ts = next? ts')
include h

theorem next_congr : Cursor.next ts = Cursor.next ts' := by
  unfold Cursor.next
  rw [h]

theorem take_congr (s : Symbol) : Cursor.take s ts = Cursor.take s ts' := by
  unfold Cursor.take
  rw [next_congr h]

theorem select?_congr {α : Type} (table : List (Symbol × α)) :
    Cursor.select? table ts = Cursor.select? table ts' := by
  unfold Cursor.select?
  rw [h]

theorem number_congr : number ts = number ts' := by
  unfold number
  rw [next_congr h]

theorem ident_congr (L : Layers) : ident L ts = ident L ts' := by
  unfold ident
  rw [next_congr h]

theorem parens_congr (L : Layers) : parens L ts = parens L ts' := by
  unfold parens
  rw [next_congr h, take_congr h]

theorem lambda_congr (L : Layers) : lambda L ts = lambda L ts' := by
  unfold lambda
  rw [next_congr h, take_congr h]

theorem primary_congr (units : List String) (d : Nat) :
    (Layers.within units d).primary ts = (Layers.within units d).primary ts' := by
  match d with
  | 0 => rfl
  | 1 =>
    show primary Layers.exhausted ts = primary Layers.exhausted ts'
    unfold primary
    rw [next_congr h]
    rfl
  | d + 2 =>
    show primary (Layers.within units (d + 1)) ts = primary (Layers.within units (d + 1)) ts'
    have hNumber : (Layers.within units (d + 1)).number ts = (Layers.within units (d + 1)).number ts' :=
      number_congr h
    have hIdent : (Layers.within units (d + 1)).ident ts = (Layers.within units (d + 1)).ident ts' :=
      ident_congr h _
    have hParens : (Layers.within units (d + 1)).parens ts = (Layers.within units (d + 1)).parens ts' :=
      parens_congr h _
    have hLambda : (Layers.within units (d + 1)).lambda ts = (Layers.within units (d + 1)).lambda ts' :=
      lambda_congr h _
    unfold primary
    rw [next_congr h, hNumber, hIdent, hParens, hLambda]

theorem factorial_congr (units : List String) (d : Nat) :
    (Layers.within units d).factorial ts = (Layers.within units d).factorial ts' := by
  cases d with
  | zero => rfl
  | succ d =>
    show factorial (Layers.within units d) ts = factorial (Layers.within units d) ts'
    unfold factorial
    rw [primary_congr h]

/-- **What a power is depends on its tokens from the next one on.** -/
theorem power_congr (units : List String) (d : Nat) (allowed : Bool) :
    (Layers.within units d).power allowed ts = (Layers.within units d).power allowed ts' := by
  cases d with
  | zero => rfl
  | succ d =>
    show power (Layers.within units d) allowed ts = power (Layers.within units d) allowed ts'
    unfold power plainPower
    rw [select?_congr h, factorial_congr h]

/-- A product, and what is put together of products, begins with a power. -/
theorem multiplicative_congr (units : List String) (d : Nat) :
    (Layers.within units d).multiplicative ts = (Layers.within units d).multiplicative ts' := by
  cases d with
  | zero => rfl
  | succ d =>
    show multiplicative (Layers.within units d) ts = multiplicative (Layers.within units d) ts'
    unfold multiplicative
    rw [power_congr h]

theorem implicitSum_congr (units : List String) (d : Nat) :
    (Layers.within units d).implicitSum ts = (Layers.within units d).implicitSum ts' := by
  cases d with
  | zero => rfl
  | succ d =>
    show implicitSum (Layers.within units d) ts = implicitSum (Layers.within units d) ts'
    unfold implicitSum
    rw [multiplicative_congr h]

theorem additive_congr (units : List String) (d : Nat) :
    (Layers.within units d).additive ts = (Layers.within units d).additive ts' := by
  cases d with
  | zero => rfl
  | succ d =>
    show additive (Layers.within units d) ts = additive (Layers.within units d) ts'
    unfold additive
    rw [implicitSum_congr h]

theorem function_congr (units : List String) (d : Nat) :
    (Layers.within units d).function ts = (Layers.within units d).function ts' := by
  cases d with
  | zero => rfl
  | succ d =>
    show function (Layers.within units d) ts = function (Layers.within units d) ts'
    unfold function
    rw [additive_congr h]

theorem assignment_congr (units : List String) (d : Nat) :
    (Layers.within units d).assignment ts = (Layers.within units d).assignment ts' := by
  cases d with
  | zero => rfl
  | succ d =>
    show assignment (Layers.within units d) ts = assignment (Layers.within units d) ts'
    unfold assignment
    rw [function_congr h]

end Congruence

-- ---------------------------------------------------------------------------
-- Powers under some bound
-- ---------------------------------------------------------------------------

/-- A power is read under some bound on the nesting. -/
def ReadsPower (units : List String) (allowed : Bool) (ts : List Token) (n : Node)
    (rest : List Token) : Prop :=
  ∃ d, ((Layers.within units d).power allowed ts).result = .ok (n, rest)

namespace ReadsPower

variable {allowed : Bool} {m : Node} {mid : List Token}

/-- **What is read under one bound is read under every bound that is not exhausted.** -/
theorem settles (h : ReadsPower units allowed ts n rest)
    (hDeep : ((Layers.within units d).power allowed ts).result ≠ .error .tooDeep) :
    ((Layers.within units d).power allowed ts).result = .ok (n, rest) := by
  obtain ⟨e, h⟩ := h
  rcases Nat.le_total d e with hd | hd
  · exact (((within_below units hd).power allowed ts).result_eq hDeep).symm.trans h
  · exact ((within_below units hd).power allowed ts).ok h

theorem unique (h : ReadsPower units allowed ts n rest) (h' : ReadsPower units allowed ts m mid) :
    n = m ∧ rest = mid := by
  obtain ⟨d, h'⟩ := h'
  have hSame := (h.settles (d := d) (by simp [h'])).symm.trans h'
  exact Prod.mk.inj (Except.ok.inj hSame)

theorem not_error {e : ParseError} (h : ReadsPower units allowed ts n rest) :
    ((Layers.within units d).power allowed ts).result ≠ .error (.error e) := by
  intro he
  have hSame := (h.settles (d := d) (by simp [he])).symm.trans he
  cases hSame

theorem congr {ts' : List Token} (h : ReadsPower units allowed ts n rest)
    (hNext : next? ts = next? ts') : ReadsPower units allowed ts' n rest := by
  obtain ⟨d, h⟩ := h
  exact ⟨d, by rw [← power_congr hNext]; exact h⟩

theorem reads (h : ReadsPower units allowed ts n rest) :
    Reads units (if allowed then .power else .plainPower) ts n rest := by
  obtain ⟨d, h⟩ := h
  exact (within_sound units d).power h

theorem suffix (h : ReadsPower units allowed ts n rest) : rest <:+ ts := by
  obtain ⟨d, h⟩ := h
  exact (within_leaves units d).power h

theorem shorter (h : ReadsPower units allowed ts n rest) :
    (solid rest).length < (solid ts).length :=
  h.reads.shorter (by cases allowed <;> rfl)

/-- A power without a prefix operator may be read where one is allowed. -/
theorem allow (h : ReadsPower units false ts n rest) : ReadsPower units true ts n rest := by
  obtain ⟨d, h⟩ := h
  cases d with
  | zero => cases h
  | succ d =>
    have hPlain : (plainPower (Layers.within units d) ts).result = .ok (n, rest) := h
    obtain ⟨base, mid, hBase, -⟩ := plainPower_ok.mp hPlain
    exact ⟨d + 1, power_of_plainPower true (select?_of_factorial hBase) hPlain⟩

/-- Where no prefix operator comes next, a power is one without a prefix operator. -/
theorem plain (h : ReadsPower units true ts n rest) (hNone : Cursor.select? prefixes ts = none) :
    ReadsPower units false ts n rest := by
  obtain ⟨d, h⟩ := h
  cases d with
  | zero => cases h
  | succ d =>
    rcases power_ok.mp h with ⟨_, _, _, _, hSelect, -⟩ | ⟨-, hPlain⟩
    · rw [hNone] at hSelect
      cases hSelect
    · exact ⟨d + 1, hPlain⟩

/-- Behind a prefix operator the rest of a power is read. -/
theorem inner {entry : Symbol × Kind} {t : Token} (h : ReadsPower units true ts n rest)
    (hSelect : Cursor.select? prefixes ts = some (entry, t, mid)) :
    ∃ m, ReadsPower units true mid m rest ∧ n = .wrap entry.2 m t.place := by
  obtain ⟨d, h⟩ := h
  cases d with
  | zero => cases h
  | succ d =>
    rcases power_ok.mp h with ⟨_, _, _, m, hSelect', hInner, rfl⟩ | ⟨hNone, -⟩
    · cases hSelect.symm.trans hSelect'
      exact ⟨m, ⟨d, hInner⟩, rfl⟩
    · rw [hNone] at hSelect
      cases hSelect

/-- A primary expression has no prefix operator. -/
theorem of_primary (h : ReadsPower units true ts n rest) (hn : n.kind.isPrimary = true) :
    ReadsPower units false ts n rest := by
  obtain ⟨d, h⟩ := h
  cases d with
  | zero => cases h
  | succ d => exact ⟨d + 1, primary_of_power h hn⟩

theorem prefixed {entry : Symbol × Kind} {t : Token} (h : ReadsPower units true mid n rest)
    (hSelect : Cursor.select? prefixes ts = some (entry, t, mid)) :
    ReadsPower units true ts (.wrap entry.2 n t.place) rest := by
  obtain ⟨d, h⟩ := h
  exact ⟨d + 1, power_ok.mpr (Or.inl ⟨entry, t, mid, n, hSelect, h, rfl⟩)⟩

end ReadsPower

-- ---------------------------------------------------------------------------
-- Where no operand begins
-- ---------------------------------------------------------------------------

/-- No operand comes next, nor a prefix operator where one is allowed. -/
def Refuses (allowed : Bool) (ts : List Token) : Prop :=
  (∀ t rest, next? ts = some (t, rest) → t.isOperand = false) ∧
    (allowed = true → Cursor.select? prefixes ts = none)

theorem primary_refuses (L : Layers)
    (h : ∀ t rest, next? ts = some (t, rest) → t.isOperand = false) :
    ∃ e, (primary L ts).result = .error (.error e) := by
  unfold primary Cursor.next
  cases hNext : next? ts with
  | none => exact ⟨_, rfl⟩
  | some found =>
    obtain ⟨⟨content, place⟩, rest⟩ := found
    have hOther := h _ _ hNext
    cases content with
    | symbol y => cases y <;> first | exact ⟨_, rfl⟩ | cases hOther
    | number _ => cases hOther
    | string _ => cases hOther
    | ident _ => cases hOther
    | _ => exact ⟨_, rfl⟩

/-- The rules between a power and its first token need three levels of nesting. -/
theorem power_deep {allowed : Bool}
    (h : ((Layers.within units d).power allowed ts).result ≠ .error .tooDeep) :
    ∃ e, d = e + 3 := by
  match d with
  | 0 => exact absurd rfl h
  | 1 =>
    refine absurd ?_ h
    show (power Layers.exhausted allowed ts).result = _
    unfold power
    split <;> rfl
  | 2 =>
    refine absurd ?_ h
    show (power (Layers.within units 1) allowed ts).result = _
    unfold power
    split
    · refine Attempt.result_bind_of_error ?_ _
      show (power Layers.exhausted true _).result = _
      unfold power
      split <;> rfl
    · rfl
  | e + 3 => exact ⟨e, rfl⟩

/-- **Where no operand begins, no power is read**, and the bound is exhausted only if it is exhausted
wherever a power is tried. -/
theorem Refuses.error {allowed allowed' : Bool} {ts' : List Token} (h : Refuses allowed ts)
    (hDeep : ((Layers.within units d).power allowed' ts').result ≠ .error .tooDeep) :
    ∃ e, ((Layers.within units d).power allowed ts).result = .error (.error e) := by
  obtain ⟨d, rfl⟩ := power_deep hDeep
  obtain ⟨e, he⟩ := primary_refuses (Layers.within units d) h.1
  have hNone : (if allowed then Cursor.select? prefixes ts else none) = none := by
    cases allowed with
    | false => rfl
    | true => exact h.2 rfl
  refine ⟨e, ?_⟩
  show (power (Layers.within units (d + 2)) allowed ts).result = _
  unfold power
  rw [hNone]
  exact Attempt.result_bind_of_error (Attempt.result_bind_of_error he _) _

theorem Refuses.not_reads {allowed : Bool} (h : Refuses allowed ts) :
    ¬ ReadsPower units allowed ts n rest := by
  rintro ⟨d, hRead⟩
  have hDeep : ((Layers.within units d).power allowed ts).result ≠ .error .tooDeep := by
    rw [hRead]
    exact fun h => nomatch h
  obtain ⟨e, he⟩ := h.error hDeep
  rw [hRead] at he
  cases he

theorem refuses_of_next {allowed : Bool} {t : Token} {after : List Token}
    (hNext : next? ts = some (t, after)) (ht : t.isOperand = false)
    (hNone : allowed = true → Cursor.select? prefixes ts = none) : Refuses allowed ts := by
  refine ⟨fun u us hu => ?_, hNone⟩
  rw [← (Prod.mk.inj (Option.some.inj (hNext.symm.trans hu))).1]
  exact ht

/-- A power without a prefix operator begins with the first token of an operand. -/
theorem ReadsPower.isOperand {t : Token} {after : List Token} (h : ReadsPower units false ts n rest)
    (hNext : next? ts = some (t, after)) : t.isOperand = true := by
  cases ht : t.isOperand with
  | true => rfl
  | false =>
    have hRefuses : Refuses false ts := refuses_of_next hNext ht fun h => nomatch h
    exact absurd h hRefuses.not_reads

end Grammar

end Reckoner
