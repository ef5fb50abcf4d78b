import Reckoner.Proofs.Grammar.Powers

/-!
# A primary expression by itself

A primary expression is a whole statement where nothing comes next that could go on from it: a
separator, a `)` or nothing but blanks. All rules between the two decline there, the products among
them by each of their candidates. What comes next decides that, so blanks in front of it do not matter
(`Meets`).

The other way round, what these rules build is told by its kind from a primary expression
(`Kind.isPrimary`). So a sum of such a kind is a primary expression that they have left as it is.

## Results

* `continuation_ends`     — no product goes on at a follower, with blanks in front of it or not.
* `assignment_of_primary` — a primary expression is a statement in front of a separator or a `)`.
* `primary_of_sum`        — a sum of the kind of a primary expression is read as one.
* `primary_of_statement`  — and so is a function that begins with a backslash.
-/

namespace Reckoner

namespace Grammar

open Cursor (next? after? Meets)

variable {units : List String} {ts ts' rest : List Token} {n lhs : Node} {d : Nat}

-- ---------------------------------------------------------------------------
-- Candidates on what comes next
-- ---------------------------------------------------------------------------

section Congruence

variable (h : next? ts = next? ts')
include h

theorem mixedFraction_congr (units : List String) (d : Nat) (lhs : Node) :
    (Layers.within units d).mixedFraction lhs ts = (Layers.within units d).mixedFraction lhs ts' := by
  cases d with
  | zero => rfl
  | succ d =>
    show mixedFraction (Layers.within units d) lhs ts = mixedFraction (Layers.within units d) lhs ts'
    unfold mixedFraction fractionTerm Cursor.peek?
    rw [h, power_congr h]

theorem juxtaposition_congr (units : List String) (d : Nat) (lhs : Node) :
    (Layers.within units d).juxtaposition lhs ts = (Layers.within units d).juxtaposition lhs ts' := by
  cases d with
  | zero => rfl
  | succ d =>
    show juxtaposition units (Layers.within units d) lhs ts =
      juxtaposition units (Layers.within units d) lhs ts'
    unfold juxtaposition
    rw [power_congr h]

/-- Whether a product goes on depends on its tokens from the next one on. -/
theorem continuation_none_congr
    (hNone : ((Layers.within units d).continuation lhs ts').result = .ok none) :
    ((Layers.within units d).continuation lhs ts).result = .ok none := by
  cases d with
  | zero => cases hNone
  | succ d =>
    rcases continuation_ok.mp hNone with ⟨x, hx, -⟩ | ⟨hFactor, ⟨x, hx, -⟩ | ⟨hMixed, hPair⟩⟩
    · cases hx
    · cases hx
    · rw [← mixedFraction_congr h] at hMixed
      rw [Attempt.candidate_none, ← juxtaposition_congr h] at hPair
      refine continuation_ok.mpr (Or.inr ⟨operatorFactor_none_iff.mpr fun entry t after hSelect => ?_,
        Or.inr ⟨hMixed, Attempt.candidate_none.mpr hPair⟩⟩)
      rw [select?_congr h] at hSelect
      exact operatorFactor_none_iff.mp hFactor entry t after hSelect

end Congruence

-- ---------------------------------------------------------------------------
-- Where nothing goes on
-- ---------------------------------------------------------------------------

/-- **No product goes on at a follower**, with blanks in front of it or not. -/
theorem continuation_ends {left : List Token} (hLeft : Derives units .multiplicative left lhs)
    (hRest : Meets (followers .multiplicative) rest) :
    ((Layers.within units (d + 5)).continuation lhs rest).result = .ok none := by
  obtain ⟨ts', hNext, hCloses⟩ := hRest.closes
  exact continuation_none_congr hNext (continuation_none hLeft hCloses)

theorem sumStep_ends {L : Layers} (lhs : Node) (hRest : Meets (followers .additive) rest) :
    (sumStep L lhs rest).result = .ok none := by
  obtain ⟨ts', hNext, hCloses⟩ := hRest.closes
  refine sumStep_none_iff.mpr fun entry t after hSelect => ?_
  rw [select?_congr hNext] at hSelect
  exact sumStep_none_iff.mp (sumStep_none lhs hCloses) entry t after hSelect

/-- **A primary expression is a statement** in front of a separator or a `)`. -/
theorem assignment_of_primary (h : ((Layers.within units (d + 2)).primary ts).result = .ok (n, rest))
    (hRest : Meets (followers .assignment) rest) :
    ((Layers.within units (d + 10)).assignment ts).result = .ok (n, rest) := by
  have hAfter : ∀ y, y ∉ followers .assignment → after? y rest = none :=
    fun y hy => Cursor.after?_of_meets hRest hy
  have hFactorial : ((Layers.within units (d + 3)).factorial ts).result = .ok (n, rest) := by
    refine Attempt.bind_ok.mpr ⟨_, h, extend_of_runs (.done (factorialStep_ok.mpr ?_))⟩
    rw [hAfter .factorial (by decide)]
    rfl
  have hPower : ((Layers.within units (d + 4)).power true ts).result = .ok (n, rest) := by
    refine power_of_plainPower true (select?_of_factorial hFactorial) (plainPower_ok.mpr ?_)
    exact ⟨n, rest, hFactorial, Or.inr ⟨hAfter .pow (by decide), rfl, rfl⟩⟩
  obtain ⟨used, -, hDerives⟩ := (within_sound units (d + 4)).power hPower
  have hStop : ((Layers.within units (d + 5)).continuation n rest).result = .ok none :=
    continuation_ends (.widen (by decide) hDerives) (hRest.mono (by decide))
  have hPower := ((within_below units (Nat.le_succ (d + 4))).power true ts).ok hPower
  have hProduct : ((Layers.within units (d + 6)).multiplicative ts).result = .ok (n, rest) :=
    multiplicative_of_runs hPower (.done hStop)
  have hTerm : ((Layers.within units (d + 7)).implicitSum ts).result = .ok (n, rest) :=
    implicitSum_of_multiplicative hProduct hDerives.power_kind_ne
  have hSum : ((Layers.within units (d + 8)).additive ts).result = .ok (n, rest) :=
    additive_of_runs hTerm (.done (sumStep_ends n (hRest.mono (by decide))))
  have hFunction : ((Layers.within units (d + 9)).function ts).result = .ok (n, rest) :=
    function_ok.mpr ⟨n, rest, hSum, Or.inr ⟨hAfter .arrow (by decide), rfl, rfl⟩⟩
  exact assignment_ok.mpr ⟨n, rest, hFunction, Or.inr ⟨hAfter .equals (by decide), rfl, rfl⟩⟩

-- ---------------------------------------------------------------------------
-- What is left as it is
-- ---------------------------------------------------------------------------

variable {step : Node → List Token → Attempt (Option (Node × List Token))} {m : Node}

/-- A loop that ends with a primary expression has taken no step, if its steps build no such tree. -/
theorem Runs.unmoved (h : Runs step n ts m rest) (hm : m.kind.isPrimary = true)
    (hStep : ∀ {n n' ts ts'}, (step n ts).result = .ok (some (n', ts')) → n'.kind.isPrimary = false) :
    m = n ∧ rest = ts := by
  induction h with
  | done _ => exact ⟨rfl, rfl⟩
  | more h _ _ ih =>
    obtain ⟨rfl, -⟩ := ih hm
    rw [hStep h] at hm
    cases hm

theorem primary_of_additive (h : (additive (Layers.within units d) ts).result = .ok (n, rest))
    (hn : n.kind.isPrimary = true) :
    ((Layers.within units d).implicitSum ts).result = .ok (n, rest) := by
  obtain ⟨⟨first, mid⟩, hFirst, hLoop⟩ := Attempt.bind_ok.mp h
  have hRuns := runs_of_extend (sumStep_takes units d) hLoop
  obtain ⟨rfl, rfl⟩ := hRuns.unmoved hn fun {l _ _ _} hStep => by
    obtain ⟨⟨y, build⟩, _, _, r, hSelect, -, rfl⟩ := sumStep_some.mp hStep
    rcases sumOperators_kind (Cursor.solid_of_select? hSelect).1 l r with hk | hk <;> rw [hk] <;> rfl
  exact hFirst

theorem primary_of_plainPower {L : Layers} (h : (plainPower L ts).result = .ok (n, rest))
    (hn : n.kind.isPrimary = true) : (L.factorial ts).result = .ok (n, rest) := by
  obtain ⟨base, mid, hBase, ⟨after, m, -, -, rfl⟩ | ⟨-, rfl, rfl⟩⟩ := plainPower_ok.mp h
  · cases hn
  · exact hBase

theorem primary_of_factorial {L : Layers} (h : (factorial L ts).result = .ok (n, rest))
    (hn : n.kind.isPrimary = true) : (L.primary ts).result = .ok (n, rest) := by
  obtain ⟨⟨base, mid⟩, hBase, hLoop⟩ := Attempt.bind_ok.mp h
  obtain ⟨rfl, rfl⟩ := (runs_of_extend factorialStep_takes hLoop).unmoved hn fun hStep => by
    obtain ⟨_, -, hEq⟩ := Option.map_eq_some_iff.mp (factorialStep_ok.mp hStep).symm
    obtain ⟨rfl, -⟩ := Prod.mk.inj hEq
    rfl
  exact hBase

/-- **A sum that is a primary expression is read as one**, by the rules in between as they are. -/
theorem primary_of_sum (h : ((Layers.within units d).additive ts).result = .ok (n, rest))
    (hn : n.kind.isPrimary = true) :
    ∃ e, d = e + 5 ∧ ((Layers.within units e).primary ts).result = .ok (n, rest) := by
  obtain _ | d := d
  · cases h
  have hSum := primary_of_additive h hn
  obtain _ | d := d
  · cases hSum
  have hProduct := primary_of_implicitSum hSum hn
  obtain _ | d := d
  · cases hProduct
  have hPower := primary_of_multiplicative (within_sound units d) hProduct hn
  obtain _ | d := d
  · cases hPower
  have hFactorial := primary_of_plainPower (primary_of_power hPower hn) hn
  obtain _ | d := d
  · cases hFactorial
  exact ⟨d, rfl, primary_of_factorial hFactorial hn⟩

/-- **A function that is read from a backslash is a primary expression**, which the rules for statements
have left as it is. -/
theorem primary_of_statement {after : List Token} (hSlash : after? .backslash ts = some after)
    (h : ((Layers.within units d).assignment ts).result = .ok (n, rest)) (hn : n.kind = .function) :
    ∃ e, d = e + 7 ∧ ((Layers.within units e).primary ts).result = .ok (n, rest) ∧
      after? .equals rest = none := by
  obtain _ | d := d
  · cases h
  obtain ⟨m, mid, hFunction, ⟨_, _, -, -, -, rfl⟩ | ⟨hEquals, rfl, rfl⟩⟩ := assignment_ok.mp h
  · cases hn
  obtain _ | d := d
  · cases hFunction
  obtain ⟨m, mid, hSum, ⟨_, _, -, hKind, -⟩ | ⟨-, rfl, rfl⟩⟩ := function_ok.mp hFunction
  · -- no identifier begins with a backslash
    obtain ⟨used, hUsed, hDerives⟩ := (within_sound units d).additive hSum
    obtain ⟨x, p, rfl, -⟩ := hDerives.eq_ident rfl hKind
    obtain ⟨q, hSolid⟩ := Cursor.solid_of_after? hSlash
    cases (List.cons.inj (hSolid.symm.trans hUsed)).1
  · obtain ⟨e, rfl, hPrimary⟩ := primary_of_sum hSum (hn ▸ rfl)
    exact ⟨e, rfl, hPrimary, hEquals⟩

end Grammar

end Reckoner
