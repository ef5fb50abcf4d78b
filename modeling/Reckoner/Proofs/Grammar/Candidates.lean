import Reckoner.Proofs.Grammar.Stopping

/-!
# Candidates in front of a tail

Tokens `p ++ tail` are read once with the tail and once without it, and it is asked which candidates
keep their outcome. A candidate that begins in front of the tail may have looked into it, and without
the tail it meets the end of the input, where the rules are lenient. Two things keep it from coming
alive there.

* There is a way through to the tail (`Passes`): wherever a factor or a summand can begin in front of
  the tail, the power that is read there ends in front of it. So a candidate reads nothing that the
  tail cuts in two: it is stuck at a token that comes before the tail, or at the tail itself.
* The loop of a product has stopped at the tail (`Stuck`). So a candidate that goes on into the tail
  has nothing there but a number, or a power of one, that juxtaposition refuses.

A mixed fraction may be read across the tail, and so a product that is a candidate for the right part
of a compound quantity may lose its last factors with the tail. It is still declined: what is left of
it is no part of one either.

## Results

* `continuation_finds`    — on a way to the tail, one more factor is found without the tail as well.
* `runs_in_step`          — so are all factors, up to those that the loop has found at the tail.
* `declined_without_tail` — what was declined as a part of a compound quantity is declined again.
-/

namespace Reckoner

/-- Whether a token is an operator of a product or of a sum. -/
def Token.isOperator (t : Token) : Bool :=
  match t.content with
  | .symbol y => y ∈ [.mul, .div, .mod, .add, .sub, .conversion]
  | _ => false

theorem Token.isOperand_of_isOperator {t : Token} (h : t.isOperator = true) :
    t.isOperand = false := by
  obtain ⟨content, place⟩ := t
  cases content with
  | symbol y =>
    simp only [isOperator, List.mem_cons, List.not_mem_nil, or_false, decide_eq_true_eq] at h
    rcases h with rfl | rfl | rfl | rfl | rfl | rfl <;> rfl
  | _ => cases h

namespace Grammar

open Cursor (next? after? select? solid)

variable {units : List String} {tail p q r ts rest : List Token} {n m lhs : Node} {t : Token}
variable {d : Nat}

-- ---------------------------------------------------------------------------
-- In front of the tail
-- ---------------------------------------------------------------------------

theorem front_of_suffix (h : q ++ tail <:+ rest) : ∃ r, rest = r ++ tail := by
  obtain ⟨r, hr⟩ := (List.suffix_append q tail).trans h
  exact ⟨r, hr.symm⟩

/-- What takes tokens and leaves the tail has taken them in front of it. -/
theorem next?_of_shorter (h : (solid (q ++ tail)).length < (solid (p ++ tail)).length) :
    ∃ t r, next? p = some (t, r) := by
  cases hNext : next? p with
  | some found => exact ⟨found.1, found.2, rfl⟩
  | none =>
    have hNone := Cursor.solid_of_next?_none hNext
    simp only [solid, List.filter_append, List.length_append] at h hNone
    rw [hNone, List.length_nil] at h
    omega

theorem solid_length_le (h : rest <:+ ts) : (solid rest).length ≤ (solid ts).length :=
  (h.sublist.filter _).length_le

theorem front_of_after? {y : Symbol} (h : after? y ts = some (r ++ tail)) :
    ∃ p, ts = p ++ tail ∧ after? y p = some r := by
  obtain ⟨place, hNext⟩ := Cursor.after?_eq_some.mp h
  obtain ⟨p, rfl⟩ := front_of_suffix ((List.suffix_cons _ _).trans (Cursor.next?_suffix hNext))
  exact ⟨p, rfl, Cursor.after?_cut h⟩

/-- A symbol that comes next in front of the tail comes next without the tail. -/
theorem after?_isSome_cut {y : Symbol} (hEnd : next? p = none → after? y (p ++ tail) = none)
    (h : (after? y (p ++ tail)).isSome = true) : (after? y p).isSome = true := by
  cases hAfter : after? y p with
  | some r => rfl
  | none =>
    cases hNext : next? p with
    | none =>
      rw [hEnd hNext] at h
      cases h
    | some found =>
      rw [Cursor.after?_append_none (t := found.1) (r := found.2) hNext hAfter] at h
      cases h

theorem isOperator_of_select? {α : Type} {table : List (Symbol × α)} {entry : Symbol × α}
    (hTable : ∀ e ∈ table, e.1 ∈ [.mul, .div, .mod, .add, .sub, .conversion])
    (h : select? table ts = some (entry, t, rest)) : t.isOperator = true := by
  obtain ⟨hMem, ht, -⟩ := Cursor.solid_of_select? h
  rw [ht]
  exact decide_eq_true (hTable entry hMem)

theorem select?_none_of_isOperator {α : Type} {table : List (Symbol × α)}
    (hTable : ∀ e ∈ table, e.1 ∈ [.mul, .div, .mod, .add, .sub, .conversion])
    (hNext : next? ts = some (t, rest)) (ht : t.isOperator = false) : select? table ts = none := by
  cases hSelect : select? table ts with
  | none => rfl
  | some found =>
    obtain ⟨entry, t', rest'⟩ := found
    obtain ⟨rfl, -⟩ := Prod.mk.inj (Option.some.inj
      (hNext.symm.trans (Cursor.select?_eq_some.mp hSelect).1))
    rw [isOperator_of_select? hTable hSelect] at ht
    cases ht

theorem prefixes_isOperator :
    ∀ e ∈ prefixes, e.1 ∈ [.mul, .div, .mod, .add, .sub, .conversion] := by
  decide

theorem productOperators_isOperator :
    ∀ e ∈ productOperators, e.1 ∈ [.mul, .div, .mod, .add, .sub, .conversion] := by
  decide

theorem sumOperators_isOperator :
    ∀ e ∈ sumOperators, e.1 ∈ [.mul, .div, .mod, .add, .sub, .conversion] := by
  simp [sumOperators]

-- ---------------------------------------------------------------------------
-- Ways through
-- ---------------------------------------------------------------------------

/-- There is a way from `p` to the tail: as long as a token comes next that a factor or a summand can
begin with, the power that is read there ends in front of the tail, and there is a way from its end.
Where the last such power is a number, no fraction is read behind it. -/
inductive Passes (units : List String) (tail : List Token) : List Token → Prop where
  | ended {p : List Token} (h : next? p = none) : Passes units tail p
  | operator {p q r : List Token} {t : Token} {n : Node} (hNext : next? p = some (t, r))
      (ht : t.isOperator = true) (hRead : ReadsPower units true (r ++ tail) n (q ++ tail))
      (hq : Passes units tail q) : Passes units tail p
  | operand {p q r : List Token} {t : Token} {n : Node} (hNext : next? p = some (t, r))
      (ht : t.isOperand = true) (hRead : ReadsPower units false (p ++ tail) n (q ++ tail))
      (hFraction : n.isNumber = true → next? q = none → ¬ ReadsFraction units (q ++ tail))
      (hq : Passes units tail q) : Passes units tail p
  | other {p r : List Token} {t : Token} (hNext : next? p = some (t, r))
      (ht : t.isOperator = false) (ht' : t.isOperand = false) : Passes units tail p

/-- A power that allows for a prefix operator begins a way to the tail. -/
def Opens (units : List String) (tail p : List Token) : Prop :=
  ∃ base q, ReadsPower units true (p ++ tail) base (q ++ tail) ∧ Passes units tail q ∧
    (base.isNumber = true → next? q = none → ¬ ReadsFraction units (q ++ tail))

namespace Passes

theorem operator_inv (h : Passes units tail p) (hNext : next? p = some (t, r))
    (ht : t.isOperator = true) :
    ∃ n q, ReadsPower units true (r ++ tail) n (q ++ tail) ∧ Passes units tail q := by
  cases h with
  | ended h => simp [h] at hNext
  | operator hNext' _ hRead hq =>
    obtain ⟨rfl, rfl⟩ := Prod.mk.inj (Option.some.inj (hNext'.symm.trans hNext))
    exact ⟨_, _, hRead, hq⟩
  | operand hNext' ht' _ _ _ =>
    obtain ⟨rfl, rfl⟩ := Prod.mk.inj (Option.some.inj (hNext'.symm.trans hNext))
    rw [Token.isOperand_of_isOperator ht] at ht'
    cases ht'
  | other hNext' ht' _ =>
    obtain ⟨rfl, rfl⟩ := Prod.mk.inj (Option.some.inj (hNext'.symm.trans hNext))
    rw [ht] at ht'
    cases ht'

/-- A power without a prefix operator, read on the way, is read in front of the tail. -/
theorem of_power (hRead : ReadsPower units false (p ++ tail) n (q ++ tail))
    (hFraction : n.isNumber = true → next? q = none → ¬ ReadsFraction units (q ++ tail))
    (hq : Passes units tail q) : Passes units tail p := by
  obtain ⟨t, r, hNext⟩ := next?_of_shorter hRead.shorter
  exact .operand hNext (hRead.isOperand (Cursor.next?_append hNext tail)) hRead hFraction hq

/-- Behind a number that ends at the tail no fraction is read. -/
theorem no_fraction (h : Passes units tail p) (hRead : ReadsPower units false (p ++ tail) n (q ++ tail))
    (hNumber : n.isNumber = true) (hNone : next? q = none) :
    ¬ ReadsFraction units (q ++ tail) := by
  have hOperand {t : Token} {r : List Token} (hNext : next? p = some (t, r)) : t.isOperand = true :=
    hRead.isOperand (Cursor.next?_append hNext tail)
  cases h with
  | ended h =>
    obtain ⟨t, r, hNext⟩ := next?_of_shorter hRead.shorter
    simp [h] at hNext
  | operator hNext ht _ _ =>
    have hOther := Token.isOperand_of_isOperator ht
    rw [hOperand hNext] at hOther
    cases hOther
  | operand _ _ hRead' hFraction _ =>
    obtain ⟨rfl, hSame⟩ := hRead.unique hRead'
    obtain rfl := List.append_cancel_right hSame
    exact hFraction hNumber hNone
  | other hNext _ ht =>
    rw [hOperand hNext] at ht
    cases ht

end Passes

theorem Opens.passes (h : Opens units tail p) : Passes units tail p := by
  obtain ⟨base, q, hRead, hq, hFraction⟩ := h
  cases hSelect : select? prefixes (p ++ tail) with
  | none => exact .of_power (hRead.plain hSelect) hFraction hq
  | some found =>
    obtain ⟨entry, t, after⟩ := found
    obtain ⟨m, hInner, -⟩ := hRead.inner hSelect
    obtain ⟨r, rfl⟩ := front_of_suffix hInner.suffix
    have hNext := (Cursor.select?_eq_some.mp (Cursor.select?_cut hSelect)).1
    exact .operator hNext (isOperator_of_select? prefixes_isOperator hSelect) hInner hq

/-- The table builds no product with a number on its right. -/
theorem juxtapositionKind_number {lhs rhs : Node} {k : Kind} (hNumber : rhs.isNumber = true)
    (h : juxtapositionKind units lhs rhs = .ok (some k)) : k = .apply ∨ k = .call := by
  obtain ⟨negated, power, hNegated, hPower⟩ := juxtapositionKind_ok h
  rw [juxtapositionKind_eq units hNegated hPower, hNumber] at h
  grind

/-- Where one more factor is read on the way to the tail, the way begins before it. -/
theorem passes_of_continuation (hLeft : lhs.Formed)
    (h : ((Layers.within units d).continuation lhs (p ++ tail)).result = .ok (some (n, q ++ tail)))
    (hq : Passes units tail q) (hEnd : next? q = none →
      ((Layers.within units d).continuation n (q ++ tail)).result = .ok none) :
    Passes units tail p := by
  obtain ⟨d, rfl⟩ := continuation_deep h
  rcases continuation_ok.mp h with ⟨x, hx, hFactor⟩ | ⟨-, ⟨x, hx, hMixed⟩ | ⟨-, hPair⟩⟩
  · obtain rfl := Option.some.inj hx
    obtain ⟨entry, t, after, m, hSelect, hRead, -⟩ := operatorFactor_some.mp hFactor
    have hRead : ReadsPower units true after m (q ++ tail) := ⟨d + 1, hRead⟩
    obtain ⟨r, rfl⟩ := front_of_suffix hRead.suffix
    have hNext := (Cursor.select?_eq_some.mp (Cursor.select?_cut hSelect)).1
    exact .operator hNext (isOperator_of_select? productOperators_isOperator hSelect) hRead hq
  · obtain rfl := Option.some.inj hx
    obtain ⟨_, _, _, top, mid, after, bottom, -, -, -, hTop, hDiv, hBottom, -⟩ :=
      mixedFraction_ok.mp hMixed
    have hTop : ReadsPower units false (p ++ tail) top mid := ⟨d, (fractionTerm_ok.mp hTop).1⟩
    have hBottom : ReadsPower units false after bottom (q ++ tail) :=
      ⟨d, (fractionTerm_ok.mp hBottom).1⟩
    -- the `/` stands between the two terms, in front of the tail
    obtain ⟨r', rfl⟩ := front_of_suffix hBottom.suffix
    obtain ⟨r, rfl, hDivCut⟩ := front_of_after? hDiv
    obtain ⟨place, hSlash⟩ := Cursor.after?_eq_some.mp hDivCut
    have hr : Passes units tail r := .operator hSlash rfl hBottom.allow hq
    exact .of_power hTop (fun _ hNone => by simp [hNone] at hSlash) hr
  · obtain ⟨k, rhs, hRead, hKind, rfl⟩ := juxtaposition_ok.mp (Attempt.candidate_some.mp hPair)
    have hRead : ReadsPower units false (p ++ tail) rhs (q ++ tail) := ⟨d, hRead⟩
    refine .of_power hRead (fun hNumber hNone => ?_) hq
    rcases juxtapositionKind_number hNumber hKind with rfl | rfl
    · exact no_fraction_of_none (.pair (by decide) hLeft hRead.reads.formed) (Or.inr (Or.inl rfl))
        (hEnd hNone)
    · exact no_fraction_of_none (.pair (by decide) hLeft hRead.reads.formed) (Or.inr (Or.inr rfl))
        (hEnd hNone)

/-- Where the loop of a product ends on the way to the tail, the way begins before it. -/
theorem passes_of_runs {left : List Token} (hLeft : Derives units .multiplicative left lhs)
    (h : Runs (Layers.within units d).continuation lhs ts n rest) (hEnd : rest = q ++ tail)
    (hq : Passes units tail q) :
    ∃ r, ts = r ++ tail ∧ Passes units tail r ∧ (next? r = none →
      ((Layers.within units d).continuation lhs (r ++ tail)).result = .ok none) := by
  induction h generalizing left with
  | done h =>
    subst hEnd
    exact ⟨q, rfl, hq, fun _ => h⟩
  | more h _ _ ih =>
    obtain ⟨used, -, -, -, hDerives⟩ := (within_sound units d).continuation hLeft h
    obtain ⟨r', rfl, hr', hEnd'⟩ := ih hDerives hEnd
    obtain ⟨r, rfl⟩ := front_of_suffix (continuation_takes units d h).1
    refine ⟨r, rfl, passes_of_continuation hLeft.formed h hr' hEnd', fun hNone => ?_⟩
    obtain ⟨t, after, hNext⟩ := next?_of_shorter (continuation_shortens units d _ _ _ _ h)
    simp [hNone] at hNext

theorem opens_of_multiplicative
    (h : ((Layers.within units d).multiplicative (p ++ tail)).result = .ok (n, q ++ tail))
    (hq : Passes units tail q) : Opens units tail p := by
  cases d with
  | zero => cases h
  | succ d =>
    obtain ⟨⟨base, mid⟩, hBase, h⟩ := Attempt.bind_ok.mp h
    obtain ⟨used, -, hDerives⟩ := (within_sound units d).power hBase
    obtain ⟨r, rfl, hr, hEnd⟩ := passes_of_runs (.widen (by decide) hDerives)
      (runs_of_extend (continuation_takes units d) h) rfl hq
    refine ⟨base, r, ⟨d, hBase⟩, hr, fun hNumber hNone => ?_⟩
    exact no_fraction_of_none hDerives.formed (Or.inl hNumber) (hEnd hNone)

theorem opens_of_implicitSum
    (h : ((Layers.within units d).implicitSum (p ++ tail)).result = .ok (n, q ++ tail))
    (hq : Passes units tail q) : Opens units tail p := by
  induction d generalizing p n with
  | zero => cases h
  | succ d ih =>
    rcases implicitSum_ok.mp h with ⟨l, mid, m, hLeft, -, hRight, -, -⟩ | ⟨hLeft, -⟩
    · obtain ⟨r, rfl⟩ := front_of_suffix ((within_leaves units d).implicitSum hRight)
      exact opens_of_multiplicative hLeft (ih hRight).passes
    · exact opens_of_multiplicative hLeft hq

-- ---------------------------------------------------------------------------
-- Candidates without the tail
-- ---------------------------------------------------------------------------

/-- What a rule reads on a way to the tail it reads without the tail as well. -/
def Curtails (units : List String) (tail : List Token) (rule : Rule) : Prop :=
  ∀ {p n q}, (rule (p ++ tail)).result = .ok (n, q ++ tail) → Passes units tail q →
    (rule p).result = .ok (n, q)

/-- A candidate at `p`, with the tail and without it: both read the same in front of the tail, or the
second is rejected, and so is the first unless it begins at the tail, or the first is stopped by the
bound or by the shape of a node. -/
inductive Keeps (units : List String) (tail p : List Token) (x y : Attempt (Node × List Token)) :
    Prop where
  | same {n : Node} {q : List Token} (full : x.result = .ok (n, q ++ tail))
      (cut : y.result = .ok (n, q)) (hq : Passes units tail q) : Keeps units tail p x y
  | rejected {e : ParseError} (cut : y.result = .error (.error e))
      (full : next? p = none ∨ ∃ e, x.result = .error (.error e)) : Keeps units tail p x y
  | stopped {stop : Stop} (full : x.result = .error stop) (hStop : ∀ e, stop ≠ .error e) :
      Keeps units tail p x y

/-- One more factor at `p`, found with the tail and without it: the same in front of the tail, or none
without the tail, and none with it either unless the search begins at the tail. -/
inductive Finds (units : List String) (tail p : List Token) (found : Option (Node × List Token))
    (y : Attempt (Option (Node × List Token))) : Prop where
  | same {n : Node} {q : List Token} (full : found = some (n, q ++ tail))
      (cut : y.result = .ok (some (n, q))) (hq : Passes units tail q) : Finds units tail p found y
  | declined (cut : y.result = .ok none) (full : next? p = none ∨ found = none) :
      Finds units tail p found y

namespace Keeps

variable {x y : Attempt (Node × List Token)}

theorem bind {f g : Node × List Token → Attempt (Node × List Token)} (h : Keeps units tail p x y)
    (hfg : ∀ n q, x.result = .ok (n, q ++ tail) → Passes units tail q →
      Keeps units tail p (f (n, q ++ tail)) (g (n, q))) : Keeps units tail p (x >>= f) (y >>= g) := by
  cases h with
  | same full cut hq =>
    cases hfg _ _ full hq with
    | same full' cut' hq' =>
      exact .same ((Attempt.result_bind_of_ok full _).trans full')
        ((Attempt.result_bind_of_ok cut _).trans cut') hq'
    | rejected cut' full' =>
      refine .rejected ((Attempt.result_bind_of_ok cut _).trans cut') (full'.imp_right ?_)
      rintro ⟨e, he⟩
      exact ⟨e, (Attempt.result_bind_of_ok full _).trans he⟩
    | stopped full' hStop => exact .stopped ((Attempt.result_bind_of_ok full _).trans full') hStop
  | rejected cut full =>
    refine .rejected (Attempt.result_bind_of_error cut _) (full.imp_right ?_)
    rintro ⟨e, he⟩
    exact ⟨e, Attempt.result_bind_of_error he _⟩
  | stopped full hStop => exact .stopped (Attempt.result_bind_of_error full _) hStop

theorem of_results {x' y' : Attempt (Node × List Token)} (hx : x.result = x'.result)
    (hy : y.result = y'.result) (h : Keeps units tail p x' y') : Keeps units tail p x y := by
  cases h with
  | same full cut hq => exact .same (hx.trans full) (hy.trans cut) hq
  | rejected cut full => exact .rejected (hy.trans cut) (full.imp_right fun ⟨e, he⟩ => ⟨e, hx.trans he⟩)
  | stopped full hStop => exact .stopped (hx.trans full) hStop

/-- Where nothing is read with the tail, and the candidate is rejected without it. -/
theorem of_not_ok {e : ParseError} (hx : ∀ n rest, x.result ≠ .ok (n, rest))
    (hy : y.result = .error (.error e)) : Keeps units tail p x y := by
  cases hResult : x.result with
  | ok found => exact absurd hResult (hx found.1 found.2)
  | error stop =>
    cases stop with
    | error e' => exact .rejected hy (Or.inr ⟨e', hResult⟩)
    | tooDeep => exact .stopped hResult fun _ h => nomatch h
    | misshapen fault => exact .stopped hResult fun _ h => nomatch h

/-- What stops a candidate whatever its tokens are. -/
theorem of_stop {stop : Stop} (hx : x.result = .error stop) (hy : y.result = .error stop) :
    Keeps units tail p x y := by
  cases stop with
  | error e => exact .rejected hy (Or.inr ⟨e, hx⟩)
  | tooDeep => exact .stopped hx fun _ h => nomatch h
  | misshapen fault => exact .stopped hx fun _ h => nomatch h

/-- A candidate that begins in front of the tail. -/
theorem later {p' : List Token} (h : Keeps units tail p x y) (hNext : next? p = some (t, r)) :
    Keeps units tail p' x y := by
  cases h with
  | same full cut hq => exact .same full cut hq
  | rejected cut full =>
    refine .rejected cut (Or.inr (full.resolve_left fun h => ?_))
    rw [h] at hNext
    cases hNext
  | stopped full hStop => exact .stopped full hStop

/-- A parse error is kept. -/
theorem rejects {e : ParseError} (h : Keeps units tail p x y) (hx : x.result = .error (.error e)) :
    ∃ e, y.result = .error (.error e) := by
  cases h with
  | same full _ _ => cases full.symm.trans hx
  | rejected cut _ => exact ⟨_, cut⟩
  | stopped full hStop => exact absurd (Except.error.inj (full.symm.trans hx)) (hStop e)

/-- A candidate that answers, as what has been looked for. -/
theorem finds {name : Candidate} {left left' : Nat} {found : Option (Node × List Token)}
    (h : Keeps units tail p x y) (hx : (Attempt.candidate name left x).result = .ok found) :
    Finds units tail p found (Attempt.candidate name left' y) := by
  cases h with
  | same full cut hq =>
    have hSame := (Attempt.candidate_some.mpr full).symm.trans hx
    exact .same (Except.ok.inj hSame).symm (Attempt.candidate_some.mpr cut) hq
  | rejected cut full =>
    refine .declined (Attempt.candidate_none.mpr ⟨_, cut⟩) (full.imp_right fun hError => ?_)
    have hSame := (Attempt.candidate_none.mpr hError).symm.trans hx
    exact (Except.ok.inj hSame).symm
  | stopped full hStop =>
    cases found with
    | some found => cases full.symm.trans (Attempt.candidate_some.mp hx)
    | none =>
      obtain ⟨e, he⟩ := Attempt.candidate_none.mp hx
      exact absurd (Except.error.inj (full.symm.trans he)) (hStop e)

end Keeps

theorem Refuses.append {allowed : Bool} (h : Refuses allowed p) (hNext : next? p = some (t, r)) :
    Refuses allowed (p ++ tail) := by
  refine ⟨fun u us hu => ?_, fun hAllowed => ?_⟩
  · rw [Cursor.next?_append hNext] at hu
    rw [← (Prod.mk.inj (Option.some.inj hu)).1]
    exact h.1 t r hNext
  · exact Cursor.select?_append_none hNext (h.2 hAllowed) tail

theorem refuses_of_none {allowed : Bool} (h : next? p = none) : Refuses allowed p := by
  refine ⟨fun t r hNext => ?_, fun _ => ?_⟩
  · rw [h] at hNext
    cases hNext
  · unfold Cursor.select?
    rw [h]

/-- Where no operand begins, a power is rejected with the tail and without it. -/
theorem keeps_of_refuses {allowed : Bool} (h : Refuses allowed p) :
    Keeps units tail p ((Layers.within units d).power allowed (p ++ tail))
      ((Layers.within units d).power allowed p) := by
  by_cases hDeep : ((Layers.within units d).power allowed (p ++ tail)).result = .error .tooDeep
  · exact .stopped hDeep fun _ h => nomatch h
  · obtain ⟨e, he⟩ := h.error hDeep
    refine .rejected he ?_
    cases hNext : next? p with
    | none => exact Or.inl rfl
    | some found => exact Or.inr ((h.append (t := found.1) (r := found.2) hNext).error hDeep)

/-- The `/` and the denominator of a fraction, put together by `build`. -/
def denominator (L : Layers) (build : Node → Node) : Rule := fun ts => do
  let rest ← Cursor.take .div ts
  let (bottom, rest) ← fractionTerm L rest
  pure (build bottom, rest)

/-- The fraction of a mixed fraction, put together with its whole part by `build`. -/
def fraction (L : Layers) (build : Node → Node → Node) : Rule := fun ts =>
  if (Cursor.peek? ts).any Token.isNumber then do
    let (top, rest) ← fractionTerm L ts
    denominator L (build top) rest
  else .reject .invalidMixedFraction

/-- The left side alone decides whether a mixed fraction can begin. -/
theorem mixedFraction_left (lhs : Node) :
    (∃ stop, ∀ L ts, (mixedFraction L lhs ts).result = .error stop) ∨
      ∃ build, ∀ L ts, (mixedFraction L lhs ts).result = (fraction L build ts).result := by
  cases hPart : wholePart lhs with
  | error fault =>
    refine Or.inl ⟨.misshapen fault, fun L ts => ?_⟩
    unfold mixedFraction
    rw [hPart]
    rfl
  | ok parts =>
    obtain ⟨outer, whole⟩ := parts
    have hPart := Attempt.shape_ok.mpr hPart
    cases hSign : (wholeIsNegated whole).result with
    | error stop =>
      refine Or.inl ⟨stop, fun L ts => ?_⟩
      unfold mixedFraction
      rw [Attempt.result_bind_of_ok hPart]
      exact Attempt.result_bind_of_error hSign _
    | ok negated =>
      refine Or.inr ⟨mixedSum outer negated whole, fun L ts => ?_⟩
      unfold mixedFraction
      rw [Attempt.result_bind_of_ok hPart, Attempt.result_bind_of_ok hSign]
      rfl

section Candidates

variable (hPower : ∀ allowed, Curtails units tail ((Layers.within units d).power allowed))
include hPower

/-- A power that is read under some bound in front of the tail. -/
theorem keeps_of_reads {allowed : Bool} (hRead : ReadsPower units allowed (p ++ tail) n (q ++ tail))
    (hq : Passes units tail q) :
    Keeps units tail p ((Layers.within units d).power allowed (p ++ tail))
      ((Layers.within units d).power allowed p) := by
  by_cases hDeep : ((Layers.within units d).power allowed (p ++ tail)).result = .error .tooDeep
  · exact .stopped hDeep fun _ h => nomatch h
  · have hFull := hRead.settles hDeep
    exact .same hFull (hPower allowed hFull hq) hq

/-- **A power on the way to the tail keeps its outcome.** -/
theorem power_keeps {allowed : Bool} (hp : Passes units tail p) :
    Keeps units tail p ((Layers.within units d).power allowed (p ++ tail))
      ((Layers.within units d).power allowed p) := by
  cases hp with
  | ended h => exact keeps_of_refuses (refuses_of_none h)
  | operand hNext ht hRead _ hq =>
    cases allowed with
    | false => exact keeps_of_reads hPower hRead hq
    | true => exact keeps_of_reads hPower hRead.allow hq
  | other hNext ht ht' =>
    exact keeps_of_refuses (refuses_of_next hNext ht' fun _ =>
      select?_none_of_isOperator prefixes_isOperator hNext ht)
  | @operator _ q r t m hNext ht hRead hq =>
    cases allowed with
    | false =>
      exact keeps_of_refuses (refuses_of_next hNext (Token.isOperand_of_isOperator ht)
        fun h => nomatch h)
    | true =>
      cases hSelect : select? prefixes p with
      | none =>
        exact keeps_of_refuses (refuses_of_next hNext (Token.isOperand_of_isOperator ht)
          fun _ => hSelect)
      | some found =>
        obtain ⟨entry, t', r'⟩ := found
        obtain ⟨rfl, rfl⟩ := Prod.mk.inj (Option.some.inj
          (hNext.symm.trans (Cursor.select?_eq_some.mp hSelect).1))
        exact keeps_of_reads hPower (hRead.prefixed (Cursor.select?_append hSelect tail)) hq

/-- A power in front of the tail keeps its outcome where no prefix operator is allowed. -/
theorem power_keeps_plain (hRead : ReadsPower units true (p ++ tail) n (q ++ tail))
    (hq : Passes units tail q) :
    Keeps units tail p ((Layers.within units d).power false (p ++ tail))
      ((Layers.within units d).power false p) := by
  cases hSelect : select? prefixes (p ++ tail) with
  | none => exact keeps_of_reads hPower (hRead.plain hSelect) hq
  | some found =>
    obtain ⟨entry, t, after⟩ := found
    obtain ⟨t', r, hNext⟩ := next?_of_shorter hRead.shorter
    have hSame := (Cursor.select?_eq_some.mp hSelect).1
    rw [Cursor.next?_append hNext] at hSame
    obtain ⟨rfl, -⟩ := Prod.mk.inj (Option.some.inj hSame)
    have ht := Token.isOperand_of_isOperator (isOperator_of_select? prefixes_isOperator hSelect)
    exact keeps_of_refuses (refuses_of_next hNext ht fun h => nomatch h)

omit hPower in
theorem fractionTerm_keeps {L : Layers} {p' : List Token}
    (h : Keeps units tail p' (L.power false (p ++ tail)) (L.power false p)) :
    Keeps units tail p' (fractionTerm L (p ++ tail)) (fractionTerm L p) := by
  refine h.bind fun n q _ hq => ?_
  dsimp only
  split
  · exact .same rfl rfl hq
  · exact .of_stop rfl rfl

theorem juxtaposition_keeps (hp : Passes units tail p) :
    Keeps units tail p (juxtaposition units (Layers.within units d) lhs (p ++ tail))
      (juxtaposition units (Layers.within units d) lhs p) := by
  refine (power_keeps hPower hp).bind fun rhs q _ hq => ?_
  -- the table is asked about the same two sides
  dsimp only
  cases juxtapositionKind units lhs rhs with
  | error fault => exact .of_stop rfl rfl
  | ok found =>
    cases found with
    | none => exact .of_stop rfl rfl
    | some k => exact .same rfl rfl hq

variable (hStuck : Stuck units tail)
include hStuck

omit hPower in
/-- At the tail no operator of products has an operand. -/
theorem stuck_at_tail (h : next? p = none) : Stuck units (p ++ tail) :=
  hStuck.congr (Cursor.next?_append_of_none h tail).symm

omit hPower in
/-- A `/` that does not stand in front of the tail has no operand. -/
theorem no_denominator (hNone : after? .div p = none) (hDiv : after? .div (p ++ tail) = some r) :
    ¬ ReadsPower units true r n rest := by
  cases hNext : next? p with
  | some found =>
    rw [Cursor.after?_append_none (t := found.1) (r := found.2) hNext hNone] at hDiv
    cases hDiv
  | none =>
    obtain ⟨place, hSlash⟩ := Cursor.after?_eq_some.mp hDiv
    have hSelect : select? productOperators (p ++ tail) =
        some ((.div, .div), ⟨.symbol .div, place⟩, r) := Cursor.select?_eq_some.mpr ⟨hSlash, rfl⟩
    exact (stuck_at_tail hStuck hNext).operator hSelect

/-- Behind the numerator of a fraction: the `/` and the denominator stand in front of the tail, or
there is no fraction. -/
theorem denominator_keeps {build : Node → Node} {p' : List Token} (hp : Passes units tail p) :
    Keeps units tail p' (denominator (Layers.within units d) build (p ++ tail))
      (denominator (Layers.within units d) build p) := by
  cases hDiv : after? .div p with
  | some r =>
    have hFull := Cursor.take_ok.mpr (Cursor.after?_append hDiv tail)
    have hCut := Cursor.take_ok.mpr hDiv
    obtain ⟨place, hNext⟩ := Cursor.after?_eq_some.mp hDiv
    obtain ⟨n, q, hRead, hq⟩ := hp.operator_inv hNext rfl
    obtain ⟨t', r', hNext'⟩ := next?_of_shorter hRead.shorter
    refine .of_results (Attempt.result_bind_of_ok hFull _) (Attempt.result_bind_of_ok hCut _) ?_
    refine Keeps.bind (fractionTerm_keeps ?_) fun n q _ hq => .same rfl rfl hq
    exact (power_keeps_plain hPower hRead hq).later hNext'
  | none =>
    obtain ⟨e, he⟩ := Cursor.take_none hDiv
    refine .of_not_ok (fun m rest hRead => ?_) (Attempt.result_bind_of_error he _)
    obtain ⟨mid, hTake, hRead⟩ := Attempt.bind_ok.mp hRead
    obtain ⟨⟨bottom, rest⟩, hBottom, -⟩ := Attempt.bind_ok.mp hRead
    have hBottom : ReadsPower units false mid bottom rest := ⟨d, (fractionTerm_ok.mp hBottom).1⟩
    exact no_denominator hStuck hDiv (Cursor.take_ok.mp hTake) hBottom.allow

/-- **A fraction on the way to the tail keeps its outcome.** -/
theorem fraction_keeps {build : Node → Node → Node} (hp : Passes units tail p) :
    Keeps units tail p (fraction (Layers.within units d) build (p ++ tail))
      (fraction (Layers.within units d) build p) := by
  unfold fraction Cursor.peek?
  cases hNext : next? p with
  | none => exact .rejected rfl (Or.inl hNext)
  | some found =>
    obtain ⟨t, r⟩ := found
    rw [Cursor.next?_append hNext]
    dsimp only [Option.map_some, Option.any_some]
    split
    · refine (fractionTerm_keeps (power_keeps hPower hp)).bind fun top q hTop hq => ?_
      exact denominator_keeps hPower hStuck hq
    · exact .of_stop rfl rfl

theorem mixedFraction_keeps (hp : Passes units tail p) :
    Keeps units tail p (mixedFraction (Layers.within units d) lhs (p ++ tail))
      (mixedFraction (Layers.within units d) lhs p) := by
  rcases mixedFraction_left lhs with ⟨stop, hStop⟩ | ⟨build, hBuild⟩
  · exact .of_stop (hStop _ _) (hStop _ _)
  · exact .of_results (hBuild _ _) (hBuild _ _) (fraction_keeps hPower hStuck hp)

/-- A factor behind an operator is read without the tail as well. -/
theorem operatorFactor_cut (hp : Passes units tail p)
    (h : (operatorFactor (Layers.within units d) lhs (p ++ tail)).result = .ok (some (n, rest))) :
    ∃ q, rest = q ++ tail ∧ Passes units tail q ∧
      (operatorFactor (Layers.within units d) lhs p).result = .ok (some (n, q)) := by
  obtain ⟨entry, t, after, m, hSelect, hRead, rfl⟩ := operatorFactor_some.mp h
  cases hNext : next? p with
  | none => exact absurd ⟨d, hRead⟩ ((stuck_at_tail hStuck hNext).operator hSelect)
  | some next =>
    obtain ⟨t', r⟩ := next
    have hSame := (Cursor.select?_eq_some.mp hSelect).1
    rw [Cursor.next?_append hNext] at hSame
    obtain ⟨rfl, rfl⟩ := Prod.mk.inj (Option.some.inj hSame)
    have ht := isOperator_of_select? productOperators_isOperator hSelect
    obtain ⟨m', q, hRead', hq⟩ := hp.operator_inv hNext ht
    obtain ⟨rfl, rfl⟩ := hRead'.unique ⟨d, hRead⟩
    exact ⟨q, rfl, hq, operatorFactor_some.mpr
      ⟨entry, t', r, m', Cursor.select?_cut hSelect, hPower true hRead hq, rfl⟩⟩

omit hPower hStuck in
/-- Where no operator has an operand with the tail, none has one without it. -/
theorem operatorFactor_cut_none (hp : Passes units tail p)
    (h : (operatorFactor (Layers.within units d) lhs (p ++ tail)).result = .ok none) :
    (operatorFactor (Layers.within units d) lhs p).result = .ok none := by
  refine operatorFactor_none_iff.mpr fun entry t r hSelect => ?_
  have ht := isOperator_of_select? productOperators_isOperator hSelect
  obtain ⟨m, q, hRead, -⟩ := hp.operator_inv (Cursor.select?_eq_some.mp hSelect).1 ht
  obtain ⟨e, he⟩ := operatorFactor_none_iff.mp h _ _ _ (Cursor.select?_append hSelect tail)
  exact absurd he hRead.not_error

end Candidates

-- ---------------------------------------------------------------------------
-- Products without the tail
-- ---------------------------------------------------------------------------

section Products

variable (hPower : ∀ e < d, ∀ allowed, Curtails units tail ((Layers.within units e).power allowed))
variable (hStuck : Stuck units tail)
include hPower hStuck

omit hPower hStuck in
/-- Where nothing is left, nothing is juxtaposed. -/
theorem juxtaposition_at_end (hNone : next? p = none)
    (h : (mixedFraction (Layers.within units d) lhs ts).result = .ok (n, rest)) :
    ∃ e, (juxtaposition units (Layers.within units d) lhs p).result = .error (.error e) := by
  obtain ⟨_, _, _, top, mid, _, _, -, -, -, hTop, -⟩ := mixedFraction_ok.mp h
  -- the bound allows for a power, since it has allowed for a fraction
  have hDeep : ((Layers.within units d).power false ts).result ≠ .error .tooDeep := by
    simp [(fractionTerm_ok.mp hTop).1]
  obtain ⟨e, he⟩ := (refuses_of_none hNone).error hDeep
  exact ⟨e, Attempt.result_bind_of_error he _⟩

/-- **One more factor keeps its outcome.** On the way to the tail the same factor is found without the
tail; where none is found without it, none is found with it either, unless the search begins at the
tail. -/
theorem continuation_finds (hp : Passes units tail p) {found : Option (Node × List Token)}
    (h : ((Layers.within units d).continuation lhs (p ++ tail)).result = .ok found) :
    Finds units tail p found ((Layers.within units d).continuation lhs p) := by
  obtain ⟨d, rfl⟩ := continuation_deep h
  have hHere := hPower d (by omega)
  rcases continuation_ok.mp h with ⟨⟨m, rest⟩, rfl, hFactor⟩ | ⟨hFactor, hRest⟩
  · obtain ⟨q, rfl, hq, hCut⟩ := operatorFactor_cut (hPower (d + 1) (by omega)) hStuck hp hFactor
    exact .same rfl (continuation_ok.mpr (Or.inl ⟨_, rfl, hCut⟩)) hq
  have hFactor := operatorFactor_cut_none hp hFactor
  have hKeeps : Keeps units tail p (mixedFraction (Layers.within units d) lhs (p ++ tail))
      (mixedFraction (Layers.within units d) lhs p) := mixedFraction_keeps hHere hStuck hp
  rcases hRest with ⟨x, rfl, hMixed⟩ | ⟨⟨e, he⟩, hPair⟩
  · cases hKeeps with
    | same full cut hq =>
      obtain rfl := Except.ok.inj (full.symm.trans hMixed)
      exact .same rfl (continuation_ok.mpr (Or.inr ⟨hFactor, Or.inl ⟨_, rfl, cut⟩⟩)) hq
    | stopped full _ => cases full.symm.trans hMixed
    | rejected cut full =>
      -- a fraction is read at the tail, and without the tail nothing is left to juxtapose
      have hNone : next? p = none := by
        refine full.resolve_right ?_
        rintro ⟨e, he⟩
        cases he.symm.trans hMixed
      have hPair := juxtaposition_at_end hNone hMixed
      exact .declined (continuation_ok.mpr (Or.inr ⟨hFactor, Or.inr ⟨⟨_, cut⟩,
        Attempt.candidate_none.mpr hPair⟩⟩)) (Or.inl hNone)
  · have hMixed := hKeeps.rejects he
    have hFinds : Finds units tail p found (Attempt.candidate .juxtaposition p.length
        (juxtaposition units (Layers.within units d) lhs p)) := (juxtaposition_keeps hHere hp).finds hPair
    cases hFinds with
    | same full cut hq =>
      exact .same full (continuation_ok.mpr (Or.inr ⟨hFactor, Or.inr ⟨hMixed, cut⟩⟩)) hq
    | declined cut full =>
      exact .declined (continuation_ok.mpr (Or.inr ⟨hFactor, Or.inr ⟨hMixed, cut⟩⟩)) full

/-- **Two loops in step.** The loop of a product on the way to the tail finds the same factors without
the tail, up to its end or up to the tail. -/
theorem runs_in_step (h : Runs (Layers.within units d).continuation lhs ts n rest)
    (hStart : ts = p ++ tail) (hp : Passes units tail p) :
    ∃ m q, Runs (Layers.within units d).continuation lhs p m q ∧
      (n = m ∧ rest = q ++ tail ∧ Passes units tail q ∨
        next? q = none ∧ (solid rest).length < (solid tail).length ∧
          ∃ x, ((Layers.within units d).continuation m (q ++ tail)).result = .ok (some x)) := by
  induction h generalizing p with
  | @done n ts hNone =>
    subst hStart
    cases continuation_finds hPower hStuck hp hNone with
    | same full _ _ => cases full
    | declined cut _ => exact ⟨n, p, .done cut, Or.inl ⟨rfl, rfl, hp⟩⟩
  | @more n n' m ts ts' rest hMore hLess hRuns ih =>
    subst hStart
    cases continuation_finds hPower hStuck hp hMore with
    | same full cut hq =>
      obtain ⟨rfl, rfl⟩ := Prod.mk.inj (Option.some.inj full)
      obtain ⟨m', q', hRuns', hEnd⟩ := ih rfl hq
      refine ⟨m', q', .more cut ?_ hRuns', hEnd⟩
      simp only [List.length_append] at hLess
      omega
    | declined cut full =>
      have hNone := full.resolve_right fun h => nomatch h
      refine ⟨n, p, .done cut, Or.inr ⟨hNone, ?_, _, hMore⟩⟩
      -- a factor that is found at the tail takes tokens from it
      have hShort := continuation_shortens units d _ _ _ _ hMore
      have hLength := solid_length_le (hRuns.suffix (continuation_takes units d))
      have hBlank := Cursor.solid_of_next?_none hNone
      simp only [solid, List.filter_append, List.length_append] at hShort hLength hBlank ⊢
      rw [hBlank, List.length_nil] at hShort
      omega

omit hPower hStuck in
/-- A literal in front of the tail, read where a product stops, is a number, and no fraction is read
behind it. -/
theorem literal_at_tail (hHere : Stuck units (p ++ tail)) (hp : Passes units tail p)
    (hRead : ReadsPower units true (p ++ tail) n (q ++ tail)) (hLiteral : n.kind = .literal)
    (hNone : next? q = none) : n.isNumber = true ∧ ¬ ReadsFraction units (q ++ tail) := by
  have hRead := hRead.of_primary (hLiteral ▸ rfl)
  have hNumber : n.isNumber = true := by
    refine (hHere.operand hRead).resolve_right fun hPow => ?_
    rw [isPowerOfNumber_of_kind_ne (by simp [hLiteral])] at hPow
    cases hPow
  exact ⟨hNumber, hp.no_fraction hRead hNumber hNone⟩

omit hPower in
/-- A product that goes on into the tail is no part of a compound quantity by itself. -/
theorem not_quantity_at_tail {x : Node × List Token} (hDerives : Derives units .multiplicative ts m)
    (hNone : next? q = none) (hLiteral : m.kind = .literal →
      m.isNumber = true ∧ ¬ ReadsFraction units (q ++ tail))
    (hMore : ((Layers.within units d).continuation m (q ++ tail)).result = .ok (some x)) :
    isQuantityPart m = false := by
  have hHere := stuck_at_tail hStuck hNone
  have hProduct : m.kind ≠ .product := fun hProduct => hHere.not_some (Or.inl hProduct) hMore
  have hOther : m.kind ≠ .literal := fun hKind => hHere.not_some (Or.inr (hLiteral hKind)) hMore
  simp [isQuantityPart, hProduct, hOther, hDerives.not_compound]

/-- A product that is no part of a compound quantity with the tail is none without it. -/
theorem not_quantity_without_tail {base : Node} (hHere : Stuck units (p ++ tail))
    (hp : Passes units tail p)
    (hFull : ((Layers.within units d).power true (p ++ tail)).result = .ok (base, r ++ tail))
    (hCut : ((Layers.within units d).power true p).result = .ok (base, r))
    (hr : Passes units tail r)
    (hRuns : Runs (Layers.within units d).continuation base (r ++ tail) m rest)
    (hPart : isQuantityPart m = false) :
    ∃ l q, (multiplicative (Layers.within units d) p).result = .ok (l, q) ∧
      isQuantityPart l = false := by
  obtain ⟨l, q, hRuns', hEnd⟩ := runs_in_step hPower hStuck hRuns rfl hr
  have hProduct := multiplicative_of_runs hCut hRuns'
  refine ⟨l, q, hProduct, ?_⟩
  rcases hEnd with ⟨rfl, -, -⟩ | ⟨hNone, -, x, hMore⟩
  · exact hPart
  · obtain ⟨⟨used, -, hDerives⟩, -⟩ := multiplicative_ok (within_sound units d) hProduct
    refine not_quantity_at_tail hStuck hDerives hNone (fun hLiteral => ?_) hMore
    -- a literal is the whole product, so it ends at the tail
    have hSame := primary_of_multiplicative (within_sound units d) hProduct (hLiteral ▸ rfl)
    obtain ⟨rfl, rfl⟩ := Prod.mk.inj (Except.ok.inj (hCut.symm.trans hSame))
    exact literal_at_tail hHere hp ⟨d, hFull⟩ hLiteral hNone

/-- **No declined candidate comes alive.** What was declined as the right part of a compound quantity
with the tail is declined without it. -/
theorem declined_without_tail (hHere : Stuck units (p ++ tail)) (hp : Passes units tail p)
    (h : Declined ((Layers.within units d).implicitSum (p ++ tail))) :
    Declined ((Layers.within units d).implicitSum p) := by
  obtain ⟨d, rfl, hCases⟩ := h.cases
  have hKeeps : Keeps units tail p ((Layers.within units d).power true (p ++ tail))
      ((Layers.within units d).power true p) := power_keeps (hPower d (by omega)) hp
  cases hKeeps with
  | rejected cut _ =>
    exact Or.inl ⟨_, Attempt.result_bind_of_error (Attempt.result_bind_of_error cut _) _⟩
  | stopped full hStop =>
    rcases hCases with ⟨e, he⟩ | ⟨base, mid, m, rest, hBase, -, -⟩
    · exact absurd (Except.error.inj (full.symm.trans he)) (hStop e)
    · cases full.symm.trans hBase
  | same full cut hr =>
    rcases hCases with ⟨e, he⟩ | ⟨base, mid, m, rest, hBase, hRuns, hPart⟩
    · cases full.symm.trans he
    obtain ⟨rfl, rfl⟩ := Prod.mk.inj (Except.ok.inj (full.symm.trans hBase))
    obtain ⟨l, q, hProduct, hPart⟩ := not_quantity_without_tail (fun e he => hPower e (by omega))
      hStuck hHere hp full cut hr hRuns hPart
    refine Or.inr ⟨l, q, implicitSum_ok.mpr (Or.inr ⟨hProduct, fun hKind => ?_⟩), hPart⟩
    simp [isQuantityPart, hKind] at hPart

end Products

end Grammar

end Reckoner
