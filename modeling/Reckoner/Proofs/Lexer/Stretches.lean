import Reckoner.Proofs.Lexer.Lexemes

/-!
# Stretches of a text

A text is read stretch by stretch. `ReadsOver units rest p front tokens` says that `front`, which starts
at the place `p` and stands in front of `rest`, is read as `tokens`; what follows is part of the
statement, since a token is read with an eye on what is behind it. Every text has a stretch that is read
and behind which nothing is left or something is refused (`exists_stretch`). So the tokens of a text from
a place on (`tokensAt`) are those of a stretch and behind them those of the rest, and no later proof
counts steps.

## Results

* `ReadsOver.tokensAt_append` — a stretch, and then the rest.
* `tokensAt_eq_ok_iff`        — a text is tokenized if all of it is one stretch.
* `tokensAt_error`            — an error is a refusal behind a stretch.
-/

namespace Reckoner

namespace Lexer

-- ---------------------------------------------------------------------------
-- The tokens of a text from a place on
-- ---------------------------------------------------------------------------

/-- The tokens of a text that starts at a place. -/
def tokensAt (units : List String) (p : Place) (cs : List Char) : Except LexError (List Token) :=
  tokensFrom (symbolUnits units) cs.length p cs

theorem tokenize_eq_tokensAt (units : List String) (source : String) :
    tokenize units source = tokensAt units .start source.toList := rfl

/-- No token is read at the start of a text, for a fault or because no token starts there. -/
inductive Refused (units : List String) (cs : List Char) : Fault → Prop
  | fault {fault : Fault} {taken : List Char}
      (read : read (symbolUnits units) cs = .fault fault taken) : Refused units cs fault
  | stray {text : String} {taken rest : List Char}
      (read : read (symbolUnits units) cs = .token (.stray text) taken rest) :
      Refused units cs (.unexpected text)

variable {units : List String} {p : Place} {cs taken rest : List Char} {content : Content}

/-- A text is empty, or no token is read at its start, or one is. -/
theorem read_cases (units : List String) (cs : List Char) :
    cs = [] ∨ (∃ fault, Refused units cs fault) ∨
      ∃ content taken rest, read (symbolUnits units) cs = .token content taken rest ∧
        ∀ text, content ≠ .stray text := by
  cases hRead : read (symbolUnits units) cs with
  | finish => exact Or.inl (read_finish hRead)
  | fault fault taken => exact Or.inr (Or.inl ⟨fault, .fault hRead⟩)
  | token content taken rest =>
    by_cases hStray : ∃ text, content = .stray text
    · obtain ⟨text, rfl⟩ := hStray
      exact Or.inr (Or.inl ⟨_, .stray hRead⟩)
    · exact Or.inr (Or.inr ⟨content, taken, rest, rfl, not_exists.mp hStray⟩)

theorem Refused.tokensFrom {fault : Fault} (h : Refused units cs fault) (fuel : Nat) (p : Place) :
    tokensFrom (symbolUnits units) (fuel + 1) p cs = .error ⟨fault, p⟩ := by
  cases h with
  | fault hRead => rw [Lexer.tokensFrom, hRead]
  | stray hRead => rw [Lexer.tokensFrom, hRead]

theorem Refused.ne_nil {fault : Fault} (h : Refused units cs fault) : cs ≠ [] := by
  rintro rfl
  cases h with
  | fault hRead => cases hRead
  | stray hRead => cases hRead

/-- Every step takes a character, so there is fuel enough in the length of a text. -/
theorem tokensFrom_enough {fuel : Nat} (hFuel : cs.length ≤ fuel) :
    tokensFrom (symbolUnits units) fuel p cs = tokensAt units p cs := by
  suffices h : ∀ fuel', cs.length ≤ fuel' →
      tokensFrom (symbolUnits units) fuel p cs = tokensFrom (symbolUnits units) fuel' p cs from
    h cs.length (Nat.le_refl _)
  induction fuel generalizing p cs with
  | zero =>
    intro fuel' _
    obtain rfl : cs = [] := List.eq_nil_of_length_eq_zero (Nat.le_zero.mp hFuel)
    rw [tokensFrom_nil, tokensFrom_nil]
  | succ fuel ih =>
    intro fuel' hFuel'
    rcases read_cases units cs with rfl | ⟨fault, hRefused⟩ | ⟨content, taken, rest, hRead, hKnown⟩
    · rw [tokensFrom_nil, tokensFrom_nil]
    · have hPos := List.length_pos_iff.mpr hRefused.ne_nil
      obtain ⟨more, rfl⟩ : ∃ more, fuel' = more + 1 := ⟨fuel' - 1, by omega⟩
      rw [hRefused.tokensFrom, hRefused.tokensFrom]
    · have hSlice := read_isSlice hRead hKnown
      have hPos := List.length_pos_iff.mpr hSlice.nonempty
      have hLength := congrArg List.length hSlice.text
      rw [List.length_append] at hLength
      obtain ⟨more, rfl⟩ : ∃ more, fuel' = more + 1 := ⟨fuel' - 1, by omega⟩
      rw [tokensFrom_token hRead hKnown, tokensFrom_token hRead hKnown,
        ih (by omega) more (by omega)]

/-- A token, and then the rest. -/
theorem tokensAt_token (hRead : read (symbolUnits units) (taken ++ rest) = .token content taken rest)
    (hKnown : ∀ text, content ≠ .stray text) :
    tokensAt units p (taken ++ rest) =
      (tokensAt units (p.advance taken) rest).map (⟨content, p⟩ :: ·) := by
  have hPos := List.length_pos_iff.mpr (read_isSlice hRead hKnown).nonempty
  have hFuel : (taken ++ rest).length = taken.length - 1 + rest.length + 1 := by
    rw [List.length_append]
    omega
  rw [tokensAt, hFuel, tokensFrom_token hRead hKnown, tokensFrom_enough (Nat.le_add_left _ _)]

theorem Refused.tokensAt {fault : Fault} (h : Refused units cs fault) (p : Place) :
    tokensAt units p cs = .error ⟨fault, p⟩ := by
  have hEnough : cs.length ≤ cs.length + 1 := Nat.le_succ _
  rw [← tokensFrom_enough hEnough, h.tokensFrom]

-- ---------------------------------------------------------------------------
-- Stretches
-- ---------------------------------------------------------------------------

/-- The text `front`, which starts at a place and stands in front of `rest`, is read as the tokens. -/
inductive ReadsOver (units : List String) (rest : List Char) :
    Place → List Char → List Token → Prop
  | done (p : Place) : ReadsOver units rest p [] []
  | token {p : Place} {content : Content} {taken front : List Char} {tokens : List Token}
      (read : read (symbolUnits units) (taken ++ (front ++ rest)) = .token content taken (front ++ rest))
      (known : ∀ text, content ≠ .stray text)
      (more : ReadsOver units rest (p.advance taken) front tokens) :
      ReadsOver units rest p (taken ++ front) (⟨content, p⟩ :: tokens)

/-- **Every text has a stretch** behind which nothing is left or something is refused. -/
theorem exists_stretch (units : List String) (p : Place) (cs : List Char) :
    ∃ front tokens rest, cs = front ++ rest ∧ ReadsOver units rest p front tokens ∧
      (rest = [] ∨ ∃ fault, Refused units rest fault) := by
  induction hLength : cs.length using Nat.strong_induction_on generalizing p cs with
  | _ n ih =>
    rcases read_cases units cs with rfl | hRefused | ⟨content, taken, behind, hRead, hKnown⟩
    · exact ⟨[], [], [], rfl, .done p, Or.inl rfl⟩
    · exact ⟨[], [], cs, rfl, .done p, Or.inr hRefused⟩
    · have hSlice := read_isSlice hRead hKnown
      have hPos := List.length_pos_iff.mpr hSlice.nonempty
      have hText := congrArg List.length hSlice.text
      rw [List.length_append] at hText
      obtain ⟨front, tokens, rest, rfl, hFront, hRest⟩ :=
        ih behind.length (by omega) (p.advance taken) behind rfl
      rw [hSlice.text] at hRead ⊢
      exact ⟨taken ++ front, _, rest, (List.append_assoc ..).symm, .token hRead hKnown hFront, hRest⟩

namespace ReadsOver

variable {front : List Char} {tokens tokens' : List Token}

/-- **A stretch, and then the rest.** -/
theorem tokensAt_append (h : ReadsOver units rest p front tokens) :
    tokensAt units p (front ++ rest) =
      (tokensAt units (p.advance front) rest).map (tokens ++ ·) := by
  induction h with
  | done p =>
    show tokensAt units p rest = (tokensAt units p rest).map id
    cases tokensAt units p rest <;> rfl
  | token hRead hKnown _ ih =>
    rw [List.append_assoc, tokensAt_token hRead hKnown, ih, Place.advance_append]
    cases tokensAt units ((Place.advance _ _).advance _) rest <;> rfl

/-- Some of the tokens are read off a part of the stretch. -/
theorem split (h : ReadsOver units rest p front (tokens ++ tokens')) :
    ∃ first second, front = first ++ second ∧ ReadsOver units (second ++ rest) p first tokens ∧
      ReadsOver units rest (p.advance first) second tokens' := by
  induction tokens generalizing p front with
  | nil => exact ⟨[], front, rfl, .done p, h⟩
  | cons t tokens ih =>
    rw [List.cons_append] at h
    cases h with
    | @token _ content taken behind _ hRead hKnown hMore =>
      obtain ⟨first, second, rfl, hFirst, hSecond⟩ := ih hMore
      rw [List.append_assoc] at hRead
      rw [← Place.advance_append] at hSecond
      exact ⟨taken ++ first, second, (List.append_assoc ..).symm, .token hRead hKnown hFirst, hSecond⟩

/-- A stretch is read as tokens of the same contents wherever it starts. -/
theorem moved (h : ReadsOver units rest p front tokens) (p' : Place) :
    ∃ tokens', ReadsOver units rest p' front tokens' ∧
      tokens'.map Token.content = tokens.map Token.content := by
  induction h generalizing p' with
  | done p => exact ⟨[], .done p', rfl⟩
  | token hRead hKnown _ ih =>
    obtain ⟨tokens', hMore, hContents⟩ := ih (p'.advance _)
    exact ⟨_, .token hRead hKnown hMore, congrArg (_ :: ·) hContents⟩

end ReadsOver

-- ---------------------------------------------------------------------------
-- Outcomes
-- ---------------------------------------------------------------------------

/-- **A text is tokenized if all of it is one stretch.** -/
theorem tokensAt_eq_ok_iff {tokens : List Token} :
    tokensAt units p cs = .ok tokens ↔ ReadsOver units [] p cs tokens := by
  constructor
  · intro h
    obtain ⟨front, found, rest, rfl, hFront, rfl | ⟨fault, hRefused⟩⟩ := exists_stretch units p cs
    · rw [hFront.tokensAt_append] at h
      obtain rfl : found ++ [] = tokens := Except.ok.inj h
      rwa [List.append_nil, List.append_nil]
    · rw [hFront.tokensAt_append, hRefused.tokensAt] at h
      cases h
  · intro h
    have hText := h.tokensAt_append
    rw [List.append_nil] at hText
    rw [hText]
    exact congrArg Except.ok (List.append_nil tokens)

/-- **An error is a refusal behind a stretch.** -/
theorem tokensAt_error {e : LexError} (h : tokensAt units p cs = .error e) :
    ∃ front tokens rest, cs = front ++ rest ∧ ReadsOver units rest p front tokens ∧
      Refused units rest e.fault ∧ e.place = p.advance front := by
  obtain ⟨front, tokens, rest, rfl, hFront, rfl | ⟨fault, hRefused⟩⟩ := exists_stretch units p cs
  · rw [hFront.tokensAt_append] at h
    cases h
  · rw [hFront.tokensAt_append, hRefused.tokensAt] at h
    obtain rfl : ⟨fault, p.advance front⟩ = e := Except.error.inj h
    exact ⟨front, tokens, rest, rfl, hFront, hRefused, rfl⟩

end Lexer

end Reckoner
