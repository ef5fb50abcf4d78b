import Reckoner.Proofs.Grammar.Remainder

/-!
# Every rule makes progress

A rule that answers has moved on: what it leaves is a proper end of the tokens that it was given. Only a
list of statements may take no token, and only where nothing but blanks is left. This holds under every
bound on the nesting, and a candidate that goes on from a left operand keeps it whatever that operand
is: it has to read a power behind it.

To speak of all rules at once, each is called by its name (`Layers.call`).

## Results

* `Layers.below_iff`  — records of rules are in order when they are, name by name.
* `within_advances`   — every rule under every bound takes a token, or has only blanks before it.
* `Layers.Advances.at_cursor` — so a cursor moves forward, and not beyond the end.
-/

namespace Reckoner

namespace Attempt

variable {α : Type} {x y : Attempt α}

/-- What an attempt builds, as the answer of a rule that might have found nothing. -/
def found (x : Attempt α) : Attempt (Option α) := do
  return some (← x)

theorem result_found (x : Attempt α) : (found x).result = x.result.map some := by
  unfold found
  rw [result_bind]
  cases x.result <;> rfl

theorem found_some {a : α} : (found x).result = .ok (some a) ↔ x.result = .ok a := by
  rw [result_found]
  cases x.result <;> simp [Except.map]

theorem result_found_inj : (found x).result = (found y).result ↔ x.result = y.result := by
  rw [result_found, result_found]
  cases x.result <;> cases y.result <;> simp [Except.map]

theorem found_error {stop : Stop} : (found x).result = .error stop ↔ x.result = .error stop := by
  rw [result_found]
  cases x.result <;> simp [Except.map]

theorem below_found : (found x).Below (found y) ↔ x.Below y := by
  unfold Below
  rw [found_error, result_found_inj]

end Attempt

namespace Grammar

variable {units : List String} {L M : Layers} {ts rest : List Token} {n : Node} {d : Nat}

-- ---------------------------------------------------------------------------
-- Rules by name
-- ---------------------------------------------------------------------------

/-- The name of a rule, with what it is given besides the tokens. -/
inductive RuleName where
  | expression
  | statements
  | assignment
  | function
  | additive
  | implicitSum
  | multiplicative
  | continuation (lhs : Node)
  | mixedFraction (lhs : Node)
  | juxtaposition (lhs : Node)
  | power (allowed : Bool)
  | factorial
  | primary
  | number
  | ident
  | parens
  | lambda

/-- Whether the rule reads a list of statements, which may be empty. -/
def RuleName.isList : RuleName → Bool
  | expression | statements => true
  | _ => false

/-- The rule of a name. Only `continuation` can answer that it has found nothing. -/
def Layers.call (L : Layers) : RuleName → List Token → Attempt (Option (Node × List Token))
  | .expression, ts => .found (L.expression ts)
  | .statements, ts => .found (L.statements ts)
  | .assignment, ts => .found (L.assignment ts)
  | .function, ts => .found (L.function ts)
  | .additive, ts => .found (L.additive ts)
  | .implicitSum, ts => .found (L.implicitSum ts)
  | .multiplicative, ts => .found (L.multiplicative ts)
  | .continuation lhs, ts => L.continuation lhs ts
  | .mixedFraction lhs, ts => .found (L.mixedFraction lhs ts)
  | .juxtaposition lhs, ts => .found (L.juxtaposition lhs ts)
  | .power allowed, ts => .found (L.power allowed ts)
  | .factorial, ts => .found (L.factorial ts)
  | .primary, ts => .found (L.primary ts)
  | .number, ts => .found (L.number ts)
  | .ident, ts => .found (L.ident ts)
  | .parens, ts => .found (L.parens ts)
  | .lambda, ts => .found (L.lambda ts)

/-- The order of records of rules is that of their rules. -/
theorem Layers.below_iff : L.Below M ↔ ∀ r ts, (L.call r ts).Below (M.call r ts) := by
  constructor
  · intro h r ts
    cases r with
    | expression => exact Attempt.below_found.mpr (h.expression ts)
    | statements => exact Attempt.below_found.mpr (h.statements ts)
    | assignment => exact Attempt.below_found.mpr (h.assignment ts)
    | function => exact Attempt.below_found.mpr (h.function ts)
    | additive => exact Attempt.below_found.mpr (h.additive ts)
    | implicitSum => exact Attempt.below_found.mpr (h.implicitSum ts)
    | multiplicative => exact Attempt.below_found.mpr (h.multiplicative ts)
    | continuation lhs => exact h.continuation lhs ts
    | mixedFraction lhs => exact Attempt.below_found.mpr (h.mixedFraction lhs ts)
    | juxtaposition lhs => exact Attempt.below_found.mpr (h.juxtaposition lhs ts)
    | power allowed => exact Attempt.below_found.mpr (h.power allowed ts)
    | factorial => exact Attempt.below_found.mpr (h.factorial ts)
    | primary => exact Attempt.below_found.mpr (h.primary ts)
    | number => exact Attempt.below_found.mpr (h.number ts)
    | ident => exact Attempt.below_found.mpr (h.ident ts)
    | parens => exact Attempt.below_found.mpr (h.parens ts)
    | lambda => exact Attempt.below_found.mpr (h.lambda ts)
  · intro h
    exact {
      expression := fun ts => Attempt.below_found.mp (h .expression ts)
      statements := fun ts => Attempt.below_found.mp (h .statements ts)
      assignment := fun ts => Attempt.below_found.mp (h .assignment ts)
      function := fun ts => Attempt.below_found.mp (h .function ts)
      additive := fun ts => Attempt.below_found.mp (h .additive ts)
      implicitSum := fun ts => Attempt.below_found.mp (h .implicitSum ts)
      multiplicative := fun ts => Attempt.below_found.mp (h .multiplicative ts)
      continuation := fun lhs ts => h (.continuation lhs) ts
      mixedFraction := fun lhs ts => Attempt.below_found.mp (h (.mixedFraction lhs) ts)
      juxtaposition := fun lhs ts => Attempt.below_found.mp (h (.juxtaposition lhs) ts)
      power := fun allowed ts => Attempt.below_found.mp (h (.power allowed) ts)
      factorial := fun ts => Attempt.below_found.mp (h .factorial ts)
      primary := fun ts => Attempt.below_found.mp (h .primary ts)
      number := fun ts => Attempt.below_found.mp (h .number ts)
      ident := fun ts => Attempt.below_found.mp (h .ident ts)
      parens := fun ts => Attempt.below_found.mp (h .parens ts)
      lambda := fun ts => Attempt.below_found.mp (h .lambda ts) }

-- ---------------------------------------------------------------------------
-- Progress
-- ---------------------------------------------------------------------------

/-- The rules of `L` leave the end of their tokens, and all but lists of blanks take some token. -/
def Layers.Advances (L : Layers) : Prop :=
  ∀ {r ts n rest}, (L.call r ts).result = .ok (some (n, rest)) →
    rest <:+ ts ∧ (rest.length < ts.length ∨ r.isList = true ∧ Cursor.atEnd ts = true)

/-- What every rule leaves is an end of its tokens. -/
theorem call_suffix {r : RuleName}
    (h : ((Layers.within units d).call r ts).result = .ok (some (n, rest))) : rest <:+ ts := by
  have hPaired := within_leftovers units ts d
  have hFound : ∀ {x : Attempt (Node × List Token)}, (leftovers ts).Rules Eq 0 x x →
      (Attempt.found x).result = .ok (some (n, rest)) → rest <:+ ts :=
    fun hRules hx => suffix_of_rules hRules (Attempt.found_some.mp hx)
  cases r with
  | expression => exact hFound (hPaired.expression trivial ⟨leftovers_refl ts, id⟩) h
  | statements => exact hFound (hPaired.statements trivial ⟨leftovers_refl ts, id⟩) h
  | assignment => exact hFound (hPaired.assignment (leftovers_refl ts)) h
  | function => exact hFound (hPaired.function (leftovers_refl ts)) h
  | additive => exact hFound (hPaired.additive (leftovers_refl ts)) h
  | implicitSum => exact hFound (hPaired.implicitSum (leftovers_refl ts)) h
  | multiplicative => exact hFound (hPaired.multiplicative (leftovers_refl ts)) h
  | continuation lhs => exact (continuation_takes units d h).1
  | mixedFraction lhs => exact hFound (hPaired.mixedFraction rfl (leftovers_refl ts)) h
  | juxtaposition lhs => exact hFound (hPaired.juxtaposition rfl (leftovers_refl ts)) h
  | power allowed => exact hFound (hPaired.power allowed (leftovers_refl ts)) h
  | factorial => exact hFound (hPaired.factorial (leftovers_refl ts)) h
  | primary => exact hFound (hPaired.primary (leftovers_refl ts)) h
  | number => exact hFound (hPaired.number (leftovers_refl ts)) h
  | ident => exact hFound (hPaired.ident (leftovers_refl ts)) h
  | parens => exact hFound (hPaired.parens (leftovers_refl ts)) h
  | lambda => exact hFound (hPaired.lambda (leftovers_refl ts)) h

/-- A list of statements takes a token, unless nothing but blanks is left. -/
theorem statements_advances (h : (statements (Layers.within units d) ts).result = .ok (n, rest)) :
    rest.length < ts.length ∨ Cursor.atEnd ts = true := by
  rcases statements_ok.mp h with ⟨-, -, rfl⟩ | ⟨-, first, mid, hFirst, hLoop⟩
  · cases ts with
    | nil => exact Or.inr rfl
    | cons t ts => exact Or.inl (Nat.zero_lt_succ _)
  · left
    have hShorter := ((within_sound units d).assignment hFirst).shorter rfl
    have hFirst := length_lt_of_suffix ((within_leaves units d).assignment hFirst) hShorter
    have hRuns := runs_of_extend (statementStep_takes units d) hLoop
    have hLoop := (hRuns.suffix (statementStep_takes units d)).length_le
    have hSkip := (Cursor.skipSeparators_suffix ts).length_le
    omega

/-- **Every rule makes progress**, under every bound on the nesting. -/
theorem within_advances (units : List String) (d : Nat) : (Layers.within units d).Advances := by
  intro r ts n rest h
  have hSuffix := call_suffix h
  refine ⟨hSuffix, ?_⟩
  have hSound := within_sound units d
  have hReads : ∀ {s}, s.isList = false → Reads units s ts n rest → rest.length < ts.length :=
    fun hs hRead => length_lt_of_suffix hSuffix (hRead.shorter hs)
  cases r with
  | expression =>
    have h := Attempt.found_some.mp h
    match d with
    | 0 => cases h
    | 1 => cases h
    | d + 2 => exact (statements_advances h).imp_right fun hEnd => ⟨rfl, hEnd⟩
  | statements =>
    have h := Attempt.found_some.mp h
    match d with
    | 0 => cases h
    | d + 1 => exact (statements_advances h).imp_right fun hEnd => ⟨rfl, hEnd⟩
  | assignment => exact Or.inl (hReads rfl (hSound.assignment (Attempt.found_some.mp h)))
  | function => exact Or.inl (hReads rfl (hSound.function (Attempt.found_some.mp h)))
  | additive => exact Or.inl (hReads rfl (hSound.additive (Attempt.found_some.mp h)))
  | implicitSum => exact Or.inl (hReads rfl (hSound.implicitSum (Attempt.found_some.mp h)))
  | multiplicative => exact Or.inl (hReads rfl (hSound.multiplicative (Attempt.found_some.mp h)))
  | continuation lhs => exact Or.inl (continuation_takes units d h).2
  | mixedFraction lhs =>
    have hShorter := mixedFraction_shortens units d (Attempt.found_some.mp h)
    exact Or.inl (length_lt_of_suffix hSuffix hShorter)
  | juxtaposition lhs =>
    have hShorter := juxtaposition_shortens units d (Attempt.found_some.mp h)
    exact Or.inl (length_lt_of_suffix hSuffix hShorter)
  | power allowed =>
    refine Or.inl (hReads ?_ (hSound.power (Attempt.found_some.mp h)))
    cases allowed <;> rfl
  | factorial => exact Or.inl (hReads rfl (hSound.factorial (Attempt.found_some.mp h)))
  | primary => exact Or.inl (hReads rfl (hSound.primary (Attempt.found_some.mp h)))
  | number => exact Or.inl (hReads rfl (hSound.number (Attempt.found_some.mp h)))
  | ident => exact Or.inl (hReads rfl (hSound.ident (Attempt.found_some.mp h)))
  | parens => exact Or.inl (hReads rfl (hSound.parens (Attempt.found_some.mp h)))
  | lambda => exact Or.inl (hReads rfl (hSound.lambda (Attempt.found_some.mp h)))

namespace Layers.Advances

variable (hL : L.Advances)
include hL

/-- A rule that is no list takes a token. -/
theorem takes {r : RuleName} (hr : r.isList = false)
    (h : (L.call r ts).result = .ok (some (n, rest))) : rest <:+ ts ∧ rest.length < ts.length := by
  obtain ⟨hSuffix, hLess | ⟨hList, -⟩⟩ := hL h
  · exact ⟨hSuffix, hLess⟩
  · rw [hr] at hList
    cases hList

theorem continuation_takes : Takes L.continuation :=
  fun h => hL.takes (r := .continuation _) rfl h

theorem leaves : L.Leaves where
  expression h := (hL (r := .expression) (Attempt.found_some.mpr h)).1
  assignment h := (hL (r := .assignment) (Attempt.found_some.mpr h)).1
  function h := (hL (r := .function) (Attempt.found_some.mpr h)).1
  implicitSum h := (hL (r := .implicitSum) (Attempt.found_some.mpr h)).1
  power {allowed _ _ _} h := (hL (r := .power allowed) (Attempt.found_some.mpr h)).1
  primary h := (hL (r := .primary) (Attempt.found_some.mpr h)).1

/-- **The cursor moves forward and stays in range.** Said of positions in the whole sequence: a rule
that answers at `pos` leaves what stands from some `pos'` on. -/
theorem at_cursor {tokens : List Token} {pos : Nat} {r : RuleName} (hPos : pos ≤ tokens.length)
    (h : (L.call r (tokens.drop pos)).result = .ok (some (n, rest))) :
    ∃ pos', rest = tokens.drop pos' ∧ pos ≤ pos' ∧ pos' ≤ tokens.length ∧
      (pos < pos' ∨ r.isList = true ∧ Cursor.atEnd (tokens.drop pos) = true) := by
  obtain ⟨hSuffix, hProgress⟩ := hL h
  have hRest := List.suffix_iff_eq_drop.mp (hSuffix.trans (List.drop_suffix pos tokens))
  have hLength := hSuffix.length_le
  rw [List.length_drop] at hLength hProgress
  refine ⟨tokens.length - rest.length, hRest, by omega, by omega, ?_⟩
  exact hProgress.imp_left fun hLess => by omega

end Layers.Advances

end Grammar

end Reckoner
