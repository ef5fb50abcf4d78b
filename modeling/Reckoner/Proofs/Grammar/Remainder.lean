import Reckoner.Proofs.Grammar.Running
import Reckoner.Proofs.Grammar.SideBySide

/-!
# What a rule leaves

A rule that reads a node leaves the end of the tokens it was given, as they were. Two runs on the same
tokens say so when they are compared (`leftovers`): both have built the same node, and what both have
left is a suffix of the tokens that they were given.

So does a step of a loop, and it takes some token as well. A loop that answers has therefore taken its
steps one by one (`Runs`), and its fuel has not run out.

## Results

* `within_leaves`  — what a rule leaves is a suffix of its tokens.
* `runs_of_extend` — a loop that ends has run its steps.
-/

namespace Reckoner

namespace Grammar

open Cursor (next? solid)

variable {units : List String} {ts rest : List Token} {n : Node} {d : Nat}

-- ---------------------------------------------------------------------------
-- What is left over
-- ---------------------------------------------------------------------------

/-- The same tokens in both runs, left over from `all`. -/
def leftovers (all : List Token) : Pairing where
  errors := Eq
  tokens _ ts ts' := ts = ts' ∧ ts <:+ all

theorem leftovers_after {all : List Token} {k : Nat} (c : Content) (h : ts <:+ all) :
    (leftovers all).After k c ts ts := by
  unfold Pairing.After
  split
  · exact ⟨⟨rfl, h⟩, id⟩
  · exact fun _ _ => ⟨rfl, h⟩
  · exact fun _ => ⟨⟨rfl, h⟩, id⟩
  · cases ts with
    | nil => exact .ended
    | cons t ts => exact .same rfl fun _ _ => ⟨rfl, (List.suffix_cons t ts).trans h⟩
  · exact ⟨rfl, h⟩

theorem leftovers_lawful (all : List Token) : (leftovers all).Lawful where
  alike_errors h := h.eq id
  missingDot h := congrArg _ h
  alike_twins h := h ▸ .refl _
  same_token := id
  facing := by
    rintro k ts _ ⟨rfl, h⟩
    cases hNext : next? ts with
    | none => exact .ended hNext hNext (fun _ => ⟨rfl, List.nil_suffix⟩) fun _ _ => ⟨rfl, h⟩
    | some found =>
      obtain ⟨t, rest⟩ := found
      have hRest := (List.suffix_cons t rest).trans ((Cursor.next?_suffix hNext).trans h)
      exact .same rfl hNext hNext (leftovers_after _ hRest)
  skipSeparators := by
    rintro k ts _ - ⟨⟨rfl, h⟩, -⟩
    exact ⟨⟨rfl, (Cursor.skipSeparators_suffix ts).trans h⟩, id⟩
  outermost := by
    rintro ts _ - ⟨rfl, -⟩ h
    exact h

theorem optionRel_refl {α : Type} (a : Option α) : Option.Rel Eq a a := by
  cases a with
  | none => exact .none
  | some a => exact .some rfl

/-- Of the same tokens, the same trees are built. -/
theorem same_trees {P : Pairing} (hP : P.Lawful) (units : List String) :
    P.Trees units units Eq where
  number h := by
    cases hP.same_token h
    rfl
  string h := by
    cases hP.same_token h
    rfl
  ident h := by
    cases hP.same_token h
    rfl
  unit h := by
    cases hP.same_token h
    rfl
  nothing := rfl
  member h hNode := by
    cases hP.same_token h
    rw [hNode]
  lambda hTokens hNext hNext' hNode := by
    cases hP.facing hTokens with
    | ended h h' nothing outside => simp [h] at hNext
    | closing y p h h' errors closer => simp [h] at hNext
    | same twins h h' after =>
      obtain ⟨rfl, rfl⟩ := Prod.mk.inj (Option.some.inj (h.symm.trans hNext))
      obtain ⟨rfl, rfl⟩ := Prod.mk.inj (Option.some.inj (h'.symm.trans hNext'))
      cases hP.same_token twins
      cases after with
      | same twins _ =>
        cases hP.same_token twins
        rw [hNode]
      | refused unnamed _ _ => cases unnamed
  bound _ _ hName hNode := by rw [hName, hNode]
  wrap _ h hNode := by
    cases hP.same_token h
    rw [hNode]
  factorial hNode := by rw [hNode]
  binary _ hLeft hRight := by rw [hLeft, hRight]
  pair _ hLeft hRight := by rw [hLeft, hRight]
  juxtaposed := by
    rintro l _ r _ rfl rfl
    cases hKind : juxtapositionKind units l r with
    | error fault => exact Or.inl ⟨fault, rfl, rfl⟩
    | ok k =>
      refine Or.inr ⟨k, k, rfl, rfl, ?_⟩
      cases k with
      | none => exact .none
      | some k => exact .some rfl
  isNumber_eq hNode := by rw [hNode]
  isNegatedNumber_eq hNode := by rw [hNode]
  kind_iff _ hNode := by rw [hNode]
  isQuantityPart_eq hNode := by rw [hNode]
  wholePart := by
    rintro n _ rfl
    cases hPart : Grammar.wholePart n with
    | error fault => exact Or.inl ⟨fault, rfl, rfl⟩
    | ok parts => exact Or.inr ⟨parts, parts, rfl, rfl, optionRel_refl _, rfl⟩

theorem within_leftovers (units : List String) (all : List Token) (d : Nat) :
    (Layers.within units d).Paired (leftovers all) Eq (Layers.within units d) :=
  within_paired (leftovers_lawful all).toCoherent (same_trees (leftovers_lawful all) units) d

theorem leftovers_refl (ts : List Token) : (leftovers ts).tokens 0 ts ts :=
  ⟨rfl, List.suffix_refl ts⟩

theorem suffix_of_rules {x : Attempt (Node × List Token)} (h : (leftovers ts).Rules Eq 0 x x)
    (hx : x.result = .ok (n, rest)) : rest <:+ ts := by
  unfold Pairing.Rules Attempt.Agrees at h
  rw [hx] at h
  cases h with
  | ok hBuilt => exact hBuilt.2.2

/-- The rules of `L` leave the end of their tokens. -/
structure Layers.Leaves (L : Layers) : Prop where
  expression : ∀ {ts n rest}, (L.expression ts).result = .ok (n, rest) → rest <:+ ts
  assignment : ∀ {ts n rest}, (L.assignment ts).result = .ok (n, rest) → rest <:+ ts
  function : ∀ {ts n rest}, (L.function ts).result = .ok (n, rest) → rest <:+ ts
  implicitSum : ∀ {ts n rest}, (L.implicitSum ts).result = .ok (n, rest) → rest <:+ ts
  power : ∀ {allowed ts n rest}, (L.power allowed ts).result = .ok (n, rest) → rest <:+ ts
  primary : ∀ {ts n rest}, (L.primary ts).result = .ok (n, rest) → rest <:+ ts

/-- **A rule that reads leaves the end of its tokens.** -/
theorem within_leaves (units : List String) (d : Nat) : (Layers.within units d).Leaves where
  expression {ts _ _} :=
    suffix_of_rules ((within_leftovers units ts d).expression trivial ⟨leftovers_refl ts, id⟩)
  assignment {ts _ _} := suffix_of_rules ((within_leftovers units ts d).assignment (leftovers_refl ts))
  function {ts _ _} := suffix_of_rules ((within_leftovers units ts d).function (leftovers_refl ts))
  implicitSum {ts _ _} :=
    suffix_of_rules ((within_leftovers units ts d).implicitSum (leftovers_refl ts))
  power {allowed ts _ _} :=
    suffix_of_rules ((within_leftovers units ts d).power allowed (leftovers_refl ts))
  primary {ts _ _} := suffix_of_rules ((within_leftovers units ts d).primary (leftovers_refl ts))

-- ---------------------------------------------------------------------------
-- Loops
-- ---------------------------------------------------------------------------

/-- A step that finds more leaves the end of its tokens, and it takes some. -/
def Takes (step : Node → List Token → Attempt (Option (Node × List Token))) : Prop :=
  ∀ {n ts m rest}, (step n ts).result = .ok (some (m, rest)) → rest <:+ ts ∧ rest.length < ts.length

/-- What is left of fewer tokens that are not blank is itself shorter. -/
theorem length_lt_of_suffix (h : rest <:+ ts) (hLess : (solid rest).length < (solid ts).length) :
    rest.length < ts.length := by
  rcases Nat.lt_or_eq_of_le h.length_le with hShorter | hSame
  · exact hShorter
  · rw [h.eq_of_length hSame] at hLess
    omega

/-- What is left behind the next token is shorter. -/
theorem takes_of_next? {t : Token} {after : List Token} (hNext : next? ts = some (t, after))
    (hRest : rest <:+ after) : rest <:+ ts ∧ rest.length < ts.length := by
  have hAfter := (List.suffix_cons t after).trans (Cursor.next?_suffix hNext)
  exact ⟨hRest.trans hAfter, Nat.lt_of_le_of_lt hRest.length_le (Cursor.length_of_next? hNext)⟩

theorem takes_of_after? {y : Symbol} {after : List Token} (hAfter : Cursor.after? y ts = some after)
    (hRest : rest <:+ after) : rest <:+ ts ∧ rest.length < ts.length := by
  obtain ⟨p, hNext⟩ := Cursor.after?_eq_some.mp hAfter
  exact takes_of_next? hNext hRest

theorem factorialStep_takes : Takes factorialStep := by
  intro n ts m rest h
  obtain ⟨after, hBang, hNode⟩ := Option.map_eq_some_iff.mp (factorialStep_ok.mp h).symm
  obtain ⟨-, rfl⟩ := Prod.mk.inj hNode
  exact takes_of_after? hBang (List.suffix_refl _)

namespace Layers.Leaves

variable {L : Layers} (hL : L.Leaves)
include hL

theorem sumStep_takes : Takes (sumStep L) := by
  intro n ts m rest h
  obtain ⟨entry, t, after, rhs, hSelect, hRead, -⟩ := sumStep_some.mp h
  exact takes_of_next? (Cursor.select?_eq_some.mp hSelect).1 (hL.implicitSum hRead)

theorem statementStep_takes : Takes (statementStep L) := by
  intro n ts m rest h
  obtain ⟨after, hSeparator, ⟨-, -, rfl⟩ | ⟨-, next, hRead, -⟩⟩ := statementStep_some.mp h
  · exact takes_of_after? hSeparator (List.suffix_refl _)
  · exact takes_of_after? hSeparator (hL.assignment hRead)

end Layers.Leaves

theorem continuation_takes (units : List String) (d : Nat) :
    Takes (Layers.within units d).continuation := by
  intro n ts m rest h
  have hStep := (within_leftovers units ts d).continuation (n := n) rfl (leftovers_refl ts)
  unfold Pairing.Steps Attempt.Agrees at hStep
  rw [h] at hStep
  cases hStep with
  | ok hFound =>
    cases hFound with
    | some hBuilt =>
      have hShorter := continuation_shortens units d _ _ _ _ h
      exact ⟨hBuilt.2.2, length_lt_of_suffix hBuilt.2.2 hShorter⟩

theorem sumStep_takes (units : List String) (d : Nat) : Takes (sumStep (Layers.within units d)) :=
  (within_leaves units d).sumStep_takes

theorem statementStep_takes (units : List String) (d : Nat) :
    Takes (statementStep (Layers.within units d)) :=
  (within_leaves units d).statementStep_takes

section Loops

variable {step : Node → List Token → Attempt (Option (Node × List Token))} {m : Node}

/-- **A loop that ends has run its steps.** -/
theorem runs_of_extend (hStep : Takes step) (h : (extend step n ts).result = .ok (m, rest)) :
    Runs step n ts m rest := by
  have hChain : ∀ fuel {n ts}, ts.length < fuel → (chain step fuel n ts).result = .ok (m, rest) →
      Runs step n ts m rest := by
    intro fuel
    induction fuel with
    | zero => exact fun hFuel => absurd hFuel (Nat.not_lt_zero _)
    | succ fuel ih =>
      intro n ts hFuel h
      obtain ⟨found, hFound, h⟩ := Attempt.bind_ok.mp h
      cases found with
      | none =>
        obtain ⟨rfl, rfl⟩ := Prod.mk.inj (Except.ok.inj h)
        exact .done hFound
      | some next =>
        have hLess := (hStep hFound).2
        exact .more hFound hLess (ih (by omega) h)
  exact hChain _ (Nat.lt_succ_self _) h

theorem Runs.suffix (hStep : Takes step) (h : Runs step n ts m rest) : rest <:+ ts := by
  induction h with
  | done _ => exact List.suffix_refl _
  | more h _ _ ih => exact ih.trans (hStep h).1

/-- A step that fails is what makes a loop fail. -/
theorem extend_error {stop : Stop} (h : (extend step n ts).result = .error stop) :
    ∃ m rest, (step m rest).result = .error stop := by
  have hChain : ∀ fuel {n ts}, (chain step fuel n ts).result = .error stop →
      ∃ m rest, (step m rest).result = .error stop := by
    intro fuel
    induction fuel with
    | zero => exact fun h => nomatch h
    | succ fuel ih =>
      intro n ts h
      rcases Attempt.bind_error.mp h with h | ⟨found, -, h⟩
      · exact ⟨n, ts, h⟩
      · cases found with
        | none => cases h
        | some next => exact ih h
  exact hChain _ h

end Loops

end Grammar

end Reckoner
