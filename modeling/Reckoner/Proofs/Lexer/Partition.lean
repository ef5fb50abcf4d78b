import Mathlib.Data.List.Induction
import Reckoner.Proofs.Lexer.Stretches
import Reckoner.Proofs.Place

/-!
# The slices of a text

The tokens of a text cut it into slices: each token has a slice of its own that is not empty, and the
slices put together are the text. The place of a token is told by the characters before its slice
alone, by counting newlines and the characters behind the last of them. What a token is, is told by its
slice and the characters behind it (`IsLexeme`).

## Results

* `tokenize_partitions` — the tokens of a text partition it.
* `Partitions.unique`   — in one way only.
-/

namespace Reckoner

namespace Lexer

-- ---------------------------------------------------------------------------
-- All tokens
-- ---------------------------------------------------------------------------

variable {units : List String} {cs taken rest : List Char} {content : Content}

/-- The slices cut the text `cs`, which stands behind `done`, into the tokens. -/
structure Partitions (units : List String) (done cs : List Char) (tokens : List Token)
    (slices : List (List Char)) : Prop where
  length : slices.length = tokens.length
  flatten : slices.flatten = cs
  nonempty : ∀ slice ∈ slices, slice ≠ []
  -- the characters before a slice tell its place
  place : ∀ (i : Nat) (t : Token), tokens[i]? = some t →
    t.place = placeAfter (done ++ (slices.take i).flatten)
  -- the slice and the characters behind it tell the token
  lexeme : ∀ (i : Nat) (t : Token) (slice : List Char), tokens[i]? = some t → slices[i]? = some slice →
    IsLexeme units (slices.drop (i + 1)).flatten t.content slice

theorem partitions_nil (units : List String) (done : List Char) : Partitions units done [] [] [] where
  length := rfl
  flatten := rfl
  nonempty := by simp
  place := by simp
  lexeme := by simp

/-- A slice in front of a text that is cut into slices. -/
theorem Partitions.cons {done : List Char} {tokens : List Token} {slices : List (List Char)}
    (hSlice : IsSlice units cs taken rest content)
    (h : Partitions units (done ++ taken) rest tokens slices) :
    Partitions units done cs (⟨content, placeAfter done⟩ :: tokens) (taken :: slices) where
  length := congrArg (· + 1) h.length
  flatten := by rw [List.flatten_cons, h.flatten, ← hSlice.text]
  nonempty := List.forall_mem_cons.mpr ⟨hSlice.nonempty, h.nonempty⟩
  place i t ht := by
    cases i with
    | zero =>
      obtain rfl := Option.some.inj ht
      simp
    | succ i =>
      rw [h.place i t ht, List.take_succ_cons, List.flatten_cons, List.append_assoc]
  lexeme i t slice ht hSliceAt := by
    cases i with
    | zero =>
      obtain rfl := Option.some.inj ht
      obtain rfl := Option.some.inj hSliceAt
      rw [List.drop_succ_cons, List.drop_zero, h.flatten]
      exact hSlice.lexeme
    | succ i => exact h.lexeme i t slice ht hSliceAt

/-- **A stretch with nothing behind it is cut into the slices of its tokens.** -/
theorem ReadsOver.partitions {done : List Char} {tokens : List Token}
    (h : ReadsOver units [] (placeAfter done) cs tokens) :
    ∃ slices, Partitions units done cs tokens slices := by
  generalize hPlace : placeAfter done = p at h
  induction h generalizing done with
  | done p => exact ⟨[], partitions_nil units done⟩
  | @token p content taken front tokens hRead hKnown _ ih =>
    subst hPlace
    obtain ⟨slices, hSlices⟩ := ih (placeAfter_append done taken)
    rw [List.append_nil] at hRead
    exact ⟨taken :: slices, hSlices.cons (read_isSlice hRead hKnown)⟩

theorem tokensFrom_partitions {fuel : Nat} (done : List Char) {tokens : List Token}
    (hFuel : cs.length ≤ fuel)
    (h : tokensFrom (symbolUnits units) fuel (placeAfter done) cs = .ok tokens) :
    ∃ slices, Partitions units done cs tokens slices := by
  rw [tokensFrom_enough hFuel] at h
  exact (tokensAt_eq_ok_iff.mp h).partitions

/-- What is known of every lexeme is known of every token of a text. -/
theorem forall_content_of_tokenize {P : Content → Prop}
    (hP : ∀ {after slice : List Char} {content : Content}, IsLexeme units after content slice → P content)
    {source : String} {tokens : List Token} (h : tokenize units source = .ok tokens) :
    ∀ t ∈ tokens, P t.content := by
  obtain ⟨slices, hSlices⟩ := tokensFrom_partitions [] (Nat.le_refl _) h
  intro t ht
  obtain ⟨i, hi, rfl⟩ := List.getElem_of_mem ht
  exact hP (hSlices.lexeme i _ _ (List.getElem?_eq_getElem hi)
    (List.getElem?_eq_getElem (hSlices.length ▸ hi)))

/-- The characters in front of each slice, and of the end, tell the slices. -/
theorem eq_of_flatten_take {slices slices' : List (List Char)}
    (hLength : slices.length = slices'.length)
    (h : ∀ i ≤ slices.length, (slices.take i).flatten = (slices'.take i).flatten) :
    slices = slices' := by
  refine List.ext_getElem hLength fun i hi hi' => ?_
  have hNext := h (i + 1) hi
  rw [List.take_succ_eq_append_getElem hi, List.take_succ_eq_append_getElem hi', List.flatten_append,
    List.flatten_append, h i hi.le] at hNext
  simpa using List.append_cancel_left hNext

theorem Partitions.front {done : List Char} {tokens : List Token} {slices : List (List Char)}
    (h : Partitions units done cs tokens slices) (i : Nat) : (slices.take i).flatten <+: cs :=
  ⟨(slices.drop i).flatten, by rw [← List.flatten_append, List.take_append_drop, h.flatten]⟩

/-- The slices are cut in front of a token where the text is. -/
theorem Partitions.cut {done : List Char} {tokens : List Token} {slices : List (List Char)}
    (h : Partitions units done cs tokens slices) {i : Nat} {t : Token} (ht : tokens[i]? = some t)
    {front back : List Char} (hText : cs = front ++ back)
    (hPlace : t.place = placeAfter (done ++ front)) :
    (slices.take i).flatten = front ∧ (slices.drop i).flatten = back := by
  have hFront : (slices.take i).flatten = front :=
    eq_of_placeAfter_eq (h.front i) ⟨back, hText.symm⟩ ((h.place i t ht).symm.trans hPlace)
  have hBoth : (slices.take i).flatten ++ (slices.drop i).flatten = front ++ back := by
    rw [← List.flatten_append, List.take_append_drop, h.flatten, hText]
  exact ⟨hFront, List.append_cancel_left (hFront ▸ hBoth)⟩

/-- **The slices of a text are told by its tokens**, and by no more of them than their places. -/
theorem Partitions.unique {done : List Char} {tokens : List Token} {slices slices' : List (List Char)}
    (h : Partitions units done cs tokens slices) (h' : Partitions units done cs tokens slices') :
    slices = slices' := by
  refine eq_of_flatten_take (h.length.trans h'.length.symm) fun i hi => ?_
  rw [h.length] at hi
  rcases Nat.lt_or_ge i tokens.length with hInside | hEnd
  · have ht : tokens[i]? = some tokens[i] := List.getElem?_eq_getElem hInside
    exact eq_of_placeAfter_eq (h.front i) (h'.front i)
      ((h.place i _ ht).symm.trans (h'.place i _ ht))
  · rw [List.take_of_length_le (h.length.trans_le hEnd),
      List.take_of_length_le (h'.length.trans_le hEnd), h.flatten, h'.flatten]

theorem isBlank_content {t : Token} (h : t.isBlank = true) : ∃ text, t.content = .blank text := by
  unfold Token.isBlank at h
  split at h
  · exact ⟨_, ‹_›⟩
  · cases h

theorem isBlank_eq_false {content : Content} (h : ∀ text, content ≠ .blank text) (p : Place) :
    Token.isBlank ⟨content, p⟩ = false := by
  cases content with
  | blank text => exact absurd rfl (h text)
  | _ => rfl

/-- A run of blanks goes on with any character that starts one. -/
theorem IsBlankRun.snoc {run : List Char} (h : IsBlankRun run) {c : Char}
    (hStart : (blankStep false c).isSome = true) : IsBlankRun (run ++ [c]) := by
  refine (blankRun_of_steps _).1 ?_
  obtain ⟨comment, hRun⟩ := Option.isSome_iff_exists.mp h.steps
  rw [List.foldlM_append, hRun]
  show ([c].foldlM blankStep comment).isSome = true
  cases comment with
  | false => simpa using hStart
  | true => simp [blankStep_comment]

/-- Two blanks do not follow each other: the second would go on with the first. -/
theorem Partitions.blanks_apart {done : List Char} {tokens : List Token} {slices : List (List Char)}
    (h : Partitions units done cs tokens slices) (i : Nat) (t t' : Token)
    (ht : tokens[i]? = some t) (ht' : tokens[i + 1]? = some t') (hBlank : t.isBlank = true) :
    t'.isBlank = false := by
  rw [Bool.eq_false_iff]
  intro hBlank'
  obtain ⟨text, hText⟩ := isBlank_content hBlank
  obtain ⟨text', hText'⟩ := isBlank_content hBlank'
  have hNext : i + 1 < slices.length := by
    rw [h.length]
    exact (List.getElem?_eq_some_iff.mp ht').1
  have hFirst := h.lexeme i t _ ht (List.getElem?_eq_getElem (Nat.lt_of_succ_lt hNext))
  have hSecond := h.lexeme (i + 1) t' _ ht' (List.getElem?_eq_getElem hNext)
  rw [hText, List.drop_eq_getElem_cons hNext, List.flatten_cons] at hFirst
  rw [hText'] at hSecond
  have hNonempty := h.nonempty _ (List.getElem_mem hNext)
  generalize slices[i + 1] = slice at hFirst hSecond hNonempty
  obtain ⟨c, more, rfl⟩ := List.exists_cons_of_ne_nil hNonempty
  cases hFirst with
  | blank hRun hEnds =>
    cases hSecond with
    | blank hRun' _ =>
      have hSteps := hRun'.steps
      rw [List.foldlM_cons] at hSteps
      cases hStep : blankStep false c with
      | none => rw [hStep] at hSteps; cases hSteps
      | some comment => exact hEnds c rfl (hRun.snoc (by rw [hStep]; rfl))

/-- **The tokens of a text partition it**: the slices of the tokens are consecutive, none is empty and
together they are the text; the characters before a slice tell the place of its token, and the slice
with the characters behind it tells what the token is. Two blanks do not follow each other. -/
theorem tokenize_partitions {units : List String} {source : String} {tokens : List Token}
    (h : tokenize units source = .ok tokens) :
    ∃ slices, Partitions units [] source.toList tokens slices ∧
      ∀ (i : Nat) (t t' : Token), tokens[i]? = some t → tokens[i + 1]? = some t' →
        t.isBlank = true → t'.isBlank = false := by
  obtain ⟨slices, hSlices⟩ := tokensFrom_partitions [] (Nat.le_refl _) h
  exact ⟨slices, hSlices, hSlices.blanks_apart⟩

/-- Two lines with a unit, a comment, an escaped quote and a keyword. -/
theorem twoLines_partition :
    let source := "$ 2.5e1 # rate\n*\t'a\\'b' to x"
    ∃ tokens, tokenize defaultPrefixUnits source = .ok tokens ∧
      tokens.map Token.place = [⟨1, 1⟩, ⟨1, 2⟩, ⟨1, 3⟩, ⟨1, 8⟩, ⟨2, 1⟩, ⟨2, 2⟩, ⟨2, 3⟩, ⟨2, 9⟩,
        ⟨2, 10⟩, ⟨2, 12⟩, ⟨2, 13⟩] ∧
      ∃ slices, Partitions defaultPrefixUnits [] source.toList tokens slices ∧
        ∀ (i : Nat) (t t' : Token), tokens[i]? = some t → tokens[i + 1]? = some t' →
          t.isBlank = true → t'.isBlank = false := by
  intro source
  have hPlaces : (tokenize defaultPrefixUnits source).toOption.map (List.map Token.place) =
      some [⟨1, 1⟩, ⟨1, 2⟩, ⟨1, 3⟩, ⟨1, 8⟩, ⟨2, 1⟩, ⟨2, 2⟩, ⟨2, 3⟩, ⟨2, 9⟩, ⟨2, 10⟩, ⟨2, 12⟩,
        ⟨2, 13⟩] := by decide +kernel
  cases h : tokenize defaultPrefixUnits source with
  | error e => rw [h] at hPlaces; cases hPlaces
  | ok tokens =>
    rw [h] at hPlaces
    exact ⟨tokens, rfl, Option.some.inj hPlaces, tokenize_partitions h⟩

end Lexer

end Reckoner
