import Reckoner.Proofs.Grammar.Running

/-!
# Phrases

A phrase is some tokens together with the node that they are meant to make and the nesting that the
rule for it needs. A phrase is good when that rule reads it back in front of everything that may
follow. Primary expressions end by themselves, so nearly everything may follow them; functions,
assignments and statements end at a follower of their stratum.

Each way to write one phrase around another has its own lemma here, and whole expressions are put
together from them.

## Results

* `IsExpression.parens`   — parentheses make a primary expression out of any expression.
* `IsPrimary.juxtaposed`  — two primary expressions side by side are read by the table.
* `Reads.lambda`, `Reads.arrow`, `Reads.assign`, `IsStatements.sequence` — functions, assignments and
  statements are read back.
* `IsExpression.parseWithin` — a phrase for a whole expression is what is parsed.
-/

namespace Reckoner

namespace Grammar

open Cursor (Avoids Closes)

/-- Tokens, the node that they make, and how deep a nesting the rule that reads them needs. -/
structure Phrase where
  used : List Token
  node : Node
  nesting : Nat

namespace Phrase

variable {units : List String} {ph : Phrase}

-- ---------------------------------------------------------------------------
-- Good phrases
-- ---------------------------------------------------------------------------

/-- A primary expression, read back wherever it does not go on with `of`. -/
structure IsPrimary (units : List String) (ph : Phrase) : Prop where
  plain : Plain ph.used
  reads : ∀ rest, Avoids [.of] rest →
    ((Layers.within units ph.nesting).primary (ph.used ++ rest)).result = .ok (ph.node, rest)

/-- What a rule reads back wherever a follower of the stratum comes next. -/
structure Reads (units : List String) (rule : Layers → Rule) (s : Stratum) (ph : Phrase) : Prop where
  plain : Plain ph.used
  reads : ∀ rest, Closes (followers s) rest →
    (rule (Layers.within units ph.nesting) (ph.used ++ rest)).result = .ok (ph.node, rest)

/-- A whole expression: it begins like one, and it is read back in front of `)` and at the end. -/
structure IsExpression (units : List String) (ph : Phrase) : Prop
    extends Reads units Layers.expression .statements ph where
  begins : ∃ t ts, ph.used = t :: ts ∧ t.canBegin = true

theorem Reads.begins (h : ph.Reads units Layers.assignment .assignment) :
    ∃ t ts, ph.used = t :: ts ∧ t.canBegin = true := by
  have hEnd := Cursor.closes_nil (followers .assignment)
  have hBegins := begins_of_assignment h.plain hEnd (h.reads [] hEnd)
  rwa [List.append_nil] at hBegins

-- ---------------------------------------------------------------------------
-- Primary expressions
-- ---------------------------------------------------------------------------

def number (v : Payload) (p : Place) : Phrase :=
  ⟨[⟨.number v, p⟩], .number v p, 2⟩

def string (x : String) (p : Place) : Phrase :=
  ⟨[⟨.string x, p⟩], .string x p, 1⟩

def ident (x : String) (p : Place) : Phrase :=
  ⟨[⟨.ident x, p⟩], .ident x p, 2⟩

/-- `()`. -/
def unit (p q : Place) : Phrase :=
  ⟨[⟨.symbol .openParens, p⟩, ⟨.symbol .closeParens, q⟩], .unit p, 2⟩

/-- `name of inner`. -/
def member (x : String) (p q : Place) (inner : Phrase) : Phrase :=
  ⟨⟨.ident x, p⟩ :: ⟨.symbol .of, q⟩ :: inner.used, .named .member (.text x) inner.node p,
    inner.nesting + 2⟩

def parens (p q : Place) (inner : Phrase) : Phrase :=
  ⟨⟨.symbol .openParens, p⟩ :: (inner.used ++ [⟨.symbol .closeParens, q⟩]),
    .wrap .parens inner.node p, inner.nesting + 2⟩

theorem isPrimary_number (v : Payload) (p : Place) : (number v p).IsPrimary units :=
  ⟨by simp [number, Token.isBlank, Token.isFinish], fun _ _ => primary_number v p⟩

theorem isPrimary_string (x : String) (p : Place) : (string x p).IsPrimary units :=
  ⟨by simp [string, Token.isBlank, Token.isFinish], fun _ _ => primary_string x p⟩

theorem isPrimary_ident (x : String) (p : Place) : (ident x p).IsPrimary units :=
  ⟨by simp [ident, Token.isBlank, Token.isFinish], fun _ hRest => primary_ident x p hRest⟩

theorem isPrimary_unit (p q : Place) : (unit p q).IsPrimary units :=
  ⟨by simp [unit, Token.isBlank, Token.isFinish], fun _ _ => primary_unit p q⟩

theorem IsPrimary.member (x : String) (p q : Place) (h : ph.IsPrimary units) :
    (ph.member x p q).IsPrimary units := by
  refine ⟨by simpa [Phrase.member, Token.isBlank, Token.isFinish] using h.plain, ?_⟩
  intro rest hRest
  exact primary_member x p q (h.reads rest hRest)

/-- **Parentheses enclose any expression.** -/
theorem IsExpression.parens (p q : Place) (h : ph.IsExpression units) :
    (ph.parens p q).IsPrimary units := by
  refine ⟨by simpa [Phrase.parens, Token.isBlank, Token.isFinish] using h.plain, ?_⟩
  intro rest _
  have hClose : Closes (followers .statements) (⟨.symbol .closeParens, q⟩ :: rest) :=
    Cursor.closes_cons (by decide) q rest
  have hExpression := h.reads _ hClose
  obtain ⟨t, ts, hUsed, ht⟩ := h.begins
  have hAvoids : Avoids [.closeParens] (ph.used ++ ⟨.symbol .closeParens, q⟩ :: rest) := by
    rw [hUsed]
    exact (avoids_of_canBegin ht _).mono (by decide)
  have hTokens : (ph.parens p q).used ++ rest =
      ⟨.symbol .openParens, p⟩ :: (ph.used ++ ⟨.symbol .closeParens, q⟩ :: rest) := by
    simp [Phrase.parens]
  rw [hTokens]
  exact primary_parens p q hAvoids hExpression

/-- A primary expression has a token, and it is none that would go on from an operand before it. -/
theorem IsPrimary.avoids (h : ph.IsPrimary units) {rest : List Token} (hRest : Avoids [.of] rest) :
    ph.used ≠ [] ∧ Avoids [.of, .factorial, .pow, .mul, .div, .mod] (ph.used ++ rest) := by
  have hEmpty : ph.used ≠ [] := by
    intro hNil
    have hRead := h.reads [] (fun _ ht => by cases ht)
    obtain ⟨used, hUsed, hDerives⟩ := (within_sound units ph.nesting).primary hRead
    rw [hNil, List.append_nil] at hUsed
    exact hDerives.ne_nil rfl (List.append_eq_nil_iff.mp hUsed.symm).1
  refine ⟨hEmpty, ?_⟩
  obtain ⟨t, ts, hUsed⟩ := List.exists_cons_of_ne_nil hEmpty
  have hRead := h.reads rest hRest
  have hPlain := h.plain
  rw [hUsed] at hRead hPlain ⊢
  exact avoids_of_primary (plain_cons.mp hPlain).1.1 hRead

theorem IsPrimary.kind (h : ph.IsPrimary units) :
    ph.node.kind ∈ [.literal, .identifier, .member, .parens, .function, .factorial] := by
  have hRead := h.reads [] (fun _ ht => by cases ht)
  obtain ⟨used, -, hDerives⟩ := (within_sound units ph.nesting).primary hRead
  exact (Derives.widen (by decide) hDerives : Derives units .factorial used ph.node).factorial_kind

-- ---------------------------------------------------------------------------
-- Functions
-- ---------------------------------------------------------------------------

/-- How deep a nesting the rule for functions needs when the powers in it need `k`. -/
def aboveProducts (k : Nat) : Nat :=
  max k 4 + 5

theorem aboveProducts_mono {k k' : Nat} (h : k ≤ k') : aboveProducts k ≤ aboveProducts k' := by
  unfold aboveProducts
  omega

theorem function_of_power {k : Nat} {ts rest : List Token} {n : Node}
    (h : ((Layers.within units k).power true ts).result = .ok (n, rest))
    (hRest : Closes (followers .function) rest) :
    ((Layers.within units (aboveProducts k)).function ts).result = .ok (n, rest) := by
  obtain ⟨d, hd⟩ : ∃ d, max k 4 = d + 4 := ⟨max k 4 - 4, by omega⟩
  have hPower := ((within_below units (by omega : k ≤ d + 4)).power _ _).ok h
  have hSum := additive_of_power hPower (hRest.mono (by decide))
  rw [aboveProducts, hd]
  exact function_of_additive hSum hRest

/-- An identifier on its own is a sum. -/
theorem additive_ident (x : String) (p : Place) {rest : List Token}
    (hRest : Closes (followers .additive) rest) :
    ((Layers.within units 8).additive (⟨.ident x, p⟩ :: rest)).result = .ok (.ident x p, rest) := by
  have hPrimary : ((Layers.within units 2).primary (⟨.ident x, p⟩ :: rest)).result =
      .ok (.ident x p, rest) := primary_ident x p (hRest.avoids (by decide))
  exact additive_of_power (power_of_primary true hPrimary (hRest.avoids (by decide))) hRest

def juxtaposed (k : Kind) (l r : Phrase) : Phrase :=
  ⟨l.used ++ r.used, .pair k l.node r.node, aboveProducts (max l.nesting r.nesting + 3)⟩

/-- **Juxtaposition is read back** by its table, unless both sides are numbers: these are left to
mixed fractions. -/
theorem IsPrimary.juxtaposed {l r : Phrase} {k : Kind} (hl : l.IsPrimary units)
    (hr : r.IsPrimary units) (hOne : l.node.isNumber = false ∨ r.node.isNumber = false)
    (hk : juxtapositionKind units l.node r.node = .ok (some k)) :
    (l.juxtaposed k r).Reads units Layers.function .function := by
  refine ⟨plain_append.mpr ⟨hl.plain, hr.plain⟩, fun rest hRest => ?_⟩
  obtain ⟨d, hd⟩ : ∃ d, max (max l.nesting r.nesting + 3) 4 = d + 4 :=
    ⟨max (max l.nesting r.nesting + 3) 4 - 4, by omega⟩
  obtain ⟨hNonempty, hAvoids⟩ := hr.avoids (hRest.avoids (by decide))
  have hRight := hr.reads rest (hRest.avoids (by decide))
  have hLeft := power_of_primary true (hl.reads _ (hAvoids.mono (by decide)))
    (hAvoids.mono (by decide))
  have hMixed : ∃ e, ((Layers.within units (d + 4)).mixedFraction l.node (r.used ++ rest)).result =
      .error (.error e) := by
    by_cases hNumber : l.node.isNumber = true
    · have hNumber : r.node.isNumber = false := hOne.resolve_left (by simp [hNumber])
      obtain ⟨used, -, hDerives⟩ := (within_sound units (l.nesting + 2)).power hLeft
      exact mixedFraction_rejects (.widen (by decide) hDerives) (peek?_of_primary hRight hNumber)
    · have hKind := hl.kind
      refine mixedFraction_rejects_whole ?_ (by simpa using hNumber)
        (Node.isNegatedNumber_of_kind_ne ?_)
      · intro hk
        simp [hk] at hKind
      · intro hk
        simp [hk] at hKind
  have hLess : rest.length < (r.used ++ rest).length := by
    have hPos := List.length_pos_iff.mpr hNonempty
    rw [List.length_append]
    omega
  have hRight := power_of_primary false hRight (hRest.avoids (by decide))
  -- both sides are read under the larger of their bounds
  have hLeft := ((within_below units (by omega : l.nesting + 2 ≤ d + 3)).power _ _).ok hLeft
  have hRight := ((within_below units (by omega : r.nesting + 2 ≤ d + 3)).power _ _).ok hRight
  have hNone : Cursor.select? productOperators (r.used ++ rest) = none :=
    Cursor.select?_of_avoids hAvoids (by decide)
  have hSum := additive_of_juxtaposition hLeft hRight hLess hk hNone hMixed (hRest.mono (by decide))
  show ((Layers.within units (aboveProducts _)).function (l.used ++ r.used ++ rest)).result = _
  rw [aboveProducts, hd, List.append_assoc]
  exact function_of_additive hSum hRest

/-- `\x.body`. -/
def lambda (x : String) (p q r : Place) (body : Phrase) : Phrase :=
  ⟨⟨.symbol .backslash, p⟩ :: ⟨.ident x, q⟩ :: ⟨.symbol .dot, r⟩ :: body.used,
    .named .function (.text x) body.node p, aboveProducts (body.nesting + 4)⟩

/-- `x => body`. -/
def arrow (x : String) (p q : Place) (body : Phrase) : Phrase :=
  ⟨⟨.ident x, p⟩ :: ⟨.symbol .arrow, q⟩ :: body.used, .named .function (.text x) body.node p,
    max 8 body.nesting + 1⟩

theorem Reads.lambda (x : String) (p q r : Place) (h : ph.Reads units Layers.function .function) :
    (ph.lambda x p q r).Reads units Layers.function .function := by
  refine ⟨by simpa [Phrase.lambda, Token.isBlank, Token.isFinish] using h.plain, ?_⟩
  intro rest hRest
  have hPrimary := primary_lambda x p q r (h.reads rest hRest)
  exact function_of_power (power_of_primary true hPrimary (hRest.avoids (by decide))) hRest

theorem Reads.arrow (x : String) (p q : Place) (h : ph.Reads units Layers.function .function) :
    (ph.arrow x p q).Reads units Layers.function .function := by
  refine ⟨by simpa [Phrase.arrow, Token.isBlank, Token.isFinish] using h.plain, ?_⟩
  intro rest hRest
  have hName : ((Layers.within units 8).additive
      (⟨.ident x, p⟩ :: ⟨.symbol .arrow, q⟩ :: (ph.used ++ rest))).result =
      .ok (.ident x p, ⟨.symbol .arrow, q⟩ :: (ph.used ++ rest)) :=
    additive_ident x p (Cursor.closes_cons (by decide) _ _)
  have hName := ((within_below units (Nat.le_max_left 8 ph.nesting)).additive _).ok hName
  have hBody := ((within_below units (Nat.le_max_right 8 _)).function _).ok (h.reads rest hRest)
  exact function_arrow hName hBody

-- ---------------------------------------------------------------------------
-- Assignments and statements
-- ---------------------------------------------------------------------------

/-- The same phrase for the rule that calls its own. -/
def above (ph : Phrase) : Phrase :=
  { ph with nesting := ph.nesting + 1 }

/-- `x = value`. -/
def assign (x : String) (p q : Place) (value : Phrase) : Phrase :=
  ⟨⟨.ident x, p⟩ :: ⟨.symbol .equals, q⟩ :: value.used, .named .assignment (.text x) value.node p,
    max 9 value.nesting + 1⟩

/-- `first; second`. -/
def sequence (first : Phrase) (p : Place) (second : Phrase) : Phrase :=
  ⟨first.used ++ ⟨.symbol .semicolon, p⟩ :: second.used, .pair .statements first.node second.node,
    max first.nesting second.nesting⟩

theorem Reads.assignment (h : ph.Reads units Layers.function .function) :
    ph.above.Reads units Layers.assignment .assignment := by
  refine ⟨h.plain, fun rest hRest => ?_⟩
  exact assignment_of_function (h.reads rest (hRest.mono (by decide))) hRest

theorem Reads.assign (x : String) (p q : Place)
    (h : ph.Reads units Layers.assignment .assignment) :
    (ph.assign x p q).Reads units Layers.assignment .assignment := by
  refine ⟨by simpa [Phrase.assign, Token.isBlank, Token.isFinish] using h.plain, ?_⟩
  intro rest hRest
  have hEquals : Closes (followers .function) (⟨.symbol .equals, q⟩ :: (ph.used ++ rest)) :=
    Cursor.closes_cons (by decide) _ _
  have hName : ((Layers.within units 9).function
      (⟨.ident x, p⟩ :: ⟨.symbol .equals, q⟩ :: (ph.used ++ rest))).result =
      .ok (.ident x p, ⟨.symbol .equals, q⟩ :: (ph.used ++ rest)) :=
    function_of_additive (additive_ident x p (hEquals.mono (by decide))) hEquals
  have hName := ((within_below units (Nat.le_max_left 9 ph.nesting)).function _).ok hName
  have hValue := ((within_below units (Nat.le_max_right 9 _)).assignment _).ok (h.reads rest hRest)
  exact assignment_equals hName hValue

/-- Statements: the loop that reads them comes by the node of the phrase, whatever it does then. -/
structure IsStatements (units : List String) (ph : Phrase) : Prop where
  plain : Plain ph.used
  begins : ∃ t ts, ph.used = t :: ts ∧ t.canBegin = true
  runs : ∀ {d rest m final}, ph.nesting ≤ d → Closes (followers .assignment) rest →
    Runs (statementStep (Layers.within units d)) ph.node rest m final →
    ∃ n mid, ((Layers.within units d).assignment (ph.used ++ rest)).result = .ok (n, mid) ∧
      Runs (statementStep (Layers.within units d)) n mid m final

theorem Reads.isStatements (h : ph.Reads units Layers.assignment .assignment) :
    ph.IsStatements units := by
  refine ⟨h.plain, h.begins, ?_⟩
  intro d rest m final hd hRest hRuns
  have hRead := ((within_below units hd).assignment _).ok (h.reads rest hRest)
  exact ⟨ph.node, rest, hRead, hRuns⟩

theorem IsStatements.sequence {second : Phrase} (p : Place) (h : ph.IsStatements units)
    (h' : second.Reads units Layers.assignment .assignment) :
    (ph.sequence p second).IsStatements units := by
  obtain ⟨t, ts, hUsed, ht⟩ := h.begins
  obtain ⟨t', ts', hUsed', ht'⟩ := h'.begins
  refine ⟨?_, ⟨t, ts ++ ⟨.symbol .semicolon, p⟩ :: second.used, ?_, ht⟩, ?_⟩
  · simpa [Phrase.sequence, Token.isBlank, Token.isFinish] using And.intro h.plain h'.plain
  · rw [Phrase.sequence, hUsed]
    rfl
  · intro d rest m final hd hRest hRuns
    obtain ⟨hd, hd'⟩ : ph.nesting ≤ d ∧ second.nesting ≤ d := Nat.max_le.mp hd
    have hSecond := ((within_below units hd').assignment _).ok (h'.reads rest hRest)
    rw [hUsed', List.cons_append] at hSecond
    have hStep := statementStep_next p ph.node ht' hSecond
    have hSeparator : Closes (followers .assignment)
        (⟨.symbol .semicolon, p⟩ :: t' :: (ts' ++ rest)) := Cursor.closes_cons (by decide) _ _
    have hTokens : (ph.sequence p second).used ++ rest =
        ph.used ++ ⟨.symbol .semicolon, p⟩ :: t' :: (ts' ++ rest) := by
      simp [Phrase.sequence, hUsed']
    rw [hTokens]
    refine h.runs hd hSeparator (.more hStep ?_ hRuns)
    simp only [List.length_cons, List.length_append]
    omega

theorem IsStatements.isExpression (h : ph.IsStatements units) :
    ph.above.above.IsExpression units := by
  obtain ⟨t, ts, hUsed, ht⟩ := h.begins
  refine ⟨⟨h.plain, fun rest hRest => ?_⟩, t, ts, hUsed, ht⟩
  obtain ⟨n, mid, hFirst, hRuns⟩ := h.runs (Nat.le_refl _) (hRest.mono (by decide))
    (.done (statementStep_none ph.node hRest))
  have hTokens : ph.used ++ rest = t :: (ts ++ rest) := by rw [hUsed]; rfl
  show ((Layers.within units (ph.nesting + 2)).expression (ph.used ++ rest)).result = _
  rw [hTokens] at hFirst ⊢
  exact (statements_of_canBegin ht).mpr ⟨_, _, hFirst, extend_of_runs hRuns⟩

/-- **A whole expression is parsed** under every bound that allows its nesting, and a smaller bound
can do no more than to be exhausted. -/
theorem IsExpression.parseWithin (h : ph.IsExpression units) (depth : Nat) :
    (ph.nesting ≤ depth → (parseWithin depth units ph.used).result = .ok ph.node) ∧
      ((parseWithin depth units ph.used).result = .ok ph.node ∨
        (parseWithin depth units ph.used).result = .error (.error .tooDeep)) := by
  have hExpression := h.reads [] (Cursor.closes_nil _)
  rw [List.append_nil] at hExpression
  exact parseWithin_allowed (parseWithin_of_expression h.plain hExpression) depth

end Phrase

end Grammar

end Reckoner
