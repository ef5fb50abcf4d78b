import Reckoner.Proofs.Lexer.Stretches

/-!
# Spacing

A token that is no blank ends where a blank follows, and it is read in the same way in front of a blank
as in front of what it stood before. `CutAt stops rest rest'` says that `rest'` is the text `rest` up to
one of the characters `stops` or to its end; whatever a reader of tokens looks for behind a token, and
does not find in `rest`, it does not find in `rest'` either, if these characters are blanks and stand in
no prefix unit (`read_cutAt`). Numbers and operators hold no blanks. A run of blanks that is no open
comment goes on with more blanks, and is read up to where none follows (`read_blankRun`). So whatever
follows a stretch of a text may be taken away (`ReadsOver.alone`).

## Results

* `read_blankRun`   — a run of blanks is read as one token.
* `blank_of_read`   — and what is read as a blank is such a run.
* `read_cutAt`      — a token is read in the same way in front of a blank.
* `ReadsOver.alone` — a stretch is read as the same tokens where nothing follows.
-/

namespace Reckoner

open Unicode (isDecimalDigit)

namespace Lexer

-- ---------------------------------------------------------------------------
-- Texts that are cut short
-- ---------------------------------------------------------------------------

/-- The characters that may stand between any two tokens. -/
abbrev blankChars : List Char := [' ', '\t', '\r', '\n']

/-- The second text is the first one up to one of the characters `stops`, behind which anything may
follow, or to its end. -/
def CutAt (stops rest rest' : List Char) : Prop :=
  ∃ common tail tail', rest = common ++ tail ∧ rest' = common ++ tail' ∧ ∀ c ∈ tail'.head?, c ∈ stops

namespace CutAt

variable {stops rest rest' : List Char}

theorem mono {more : List Char} (h : CutAt stops rest rest') (hStops : ∀ c ∈ stops, c ∈ more) :
    CutAt more rest rest' := by
  obtain ⟨common, tail, tail', hRest, hRest', hTail⟩ := h
  exact ⟨common, tail, tail', hRest, hRest', fun c hc => hStops c (hTail c hc)⟩

theorem ended (rest : List Char) : CutAt stops rest [] :=
  ⟨[], rest, [], rfl, rfl, by simp⟩

theorem stopped (rest : List Char) {c : Char} (hc : c ∈ stops) (rest' : List Char) :
    CutAt stops rest (c :: rest') :=
  ⟨[], rest, c :: rest', rfl, rfl, by simpa using hc⟩

theorem append (h : CutAt stops rest rest') (run : List Char) :
    CutAt stops (run ++ rest) (run ++ rest') := by
  obtain ⟨common, tail, tail', rfl, rfl, hTail⟩ := h
  exact ⟨run ++ common, tail, tail', (List.append_assoc ..).symm, (List.append_assoc ..).symm, hTail⟩

/-- What starts the second text and does not stop starts the first one. -/
theorem isPrefix (h : CutAt stops rest rest') {run : List Char} (hRun : ∀ c ∈ run, c ∉ stops)
    (hPrefix : run <+: rest') : run <+: rest := by
  obtain ⟨common, tail, tail', rfl, rfl, hTail⟩ := h
  rcases List.prefix_or_prefix_of_prefix hPrefix (List.prefix_append common tail') with
    hShort | ⟨more, rfl⟩
  · exact hShort.trans (List.prefix_append common tail)
  · -- whatever goes on behind the common part starts with a stop
    have hMore : more = [] := by
      cases more with
      | nil => rfl
      | cons c more =>
        obtain ⟨behind, rfl⟩ := (List.prefix_append_right_inj common).mp hPrefix
        exact absurd (hTail c rfl) (hRun c (by simp))
    rw [hMore, List.append_nil]
    exact List.prefix_append common tail

/-- What does not go on with the first text does not go on with the second. -/
theorem ends (h : CutAt stops rest rest') {p : Char → Bool} (hp : ∀ c ∈ stops, p c = false)
    (hRest : ∀ c ∈ rest.head?, p c = false) : ∀ c ∈ rest'.head?, p c = false := by
  obtain ⟨common, tail, tail', rfl, rfl, hTail⟩ := h
  cases common with
  | nil => exact fun c hc => hp c (hTail c hc)
  | cons d common => exact hRest

end CutAt

/-- The second text is the first one up to a blank, behind which anything may follow, or to its end. -/
inductive CutShort : List Char → List Char → Prop
  | ended (rest : List Char) : CutShort rest []
  | blank (rest : List Char) {c : Char} (blank : c ∈ blankChars) (rest' : List Char) :
      CutShort rest (c :: rest')
  | same (c : Char) {rest rest' : List Char} (more : CutShort rest rest') :
      CutShort (c :: rest) (c :: rest')

namespace CutShort

variable {rest rest' : List Char}

theorem append (h : CutShort rest rest') (run : List Char) : CutShort (run ++ rest) (run ++ rest') := by
  induction run with
  | nil => exact h
  | cons c run ih => exact .same c ih

theorem cutAt (h : CutShort rest rest') : CutAt blankChars rest rest' := by
  induction h with
  | ended rest => exact .ended rest
  | blank rest hBlank rest' => exact .stopped rest hBlank rest'
  | same c _ ih => exact ih.append [c]

end CutShort

-- ---------------------------------------------------------------------------
-- Runs of blanks
-- ---------------------------------------------------------------------------

theorem spanBlank_run {comment : Bool} {run rest : List Char}
    (hRun : (run.foldlM blankStep comment).isSome = true)
    (hRest : ∀ c ∈ rest.head?, (run ++ [c]).foldlM blankStep comment = none) :
    spanBlank comment (run ++ rest) = (run, rest) := by
  induction run generalizing comment with
  | nil =>
    cases rest with
    | nil => rfl
    | cons c rest =>
      have hc : blankStep comment c = none := by simpa using hRest c rfl
      rw [List.nil_append, spanBlank, hc]
  | cons c run ih =>
    rw [List.foldlM_cons] at hRun
    cases hStep : blankStep comment c with
    | none => rw [hStep] at hRun; cases hRun
    | some next =>
      rw [hStep] at hRun
      have hMore : spanBlank next (run ++ rest) = (run, rest) := by
        refine ih hRun fun d hd => ?_
        have hd := hRest d hd
        rwa [List.cons_append, List.foldlM_cons, hStep] at hd
      rw [List.cons_append, spanBlank, hStep]
      dsimp only
      rw [hMore]

/-- **A run of blanks is read as one token** up to where it does not go on. -/
theorem read_blankRun (units : List String) {run rest : List Char} (hSome : run ≠ [])
    (hRun : (run.foldlM blankStep false).isSome = true)
    (hRest : ∀ c ∈ rest.head?, (run ++ [c]).foldlM blankStep false = none) :
    read units (run ++ rest) = .token (.blank (String.ofList run)) run rest := by
  have hSpan := spanBlank_run hRun hRest
  obtain ⟨c, run, rfl⟩ := List.exists_cons_of_ne_nil hSome
  have hc : (blankStep false c).isSome = true := by
    rw [List.foldlM_cons] at hRun
    cases hStep : blankStep false c with
    | none => rw [hStep] at hRun; cases hRun
    | some _ => rfl
  rw [List.cons_append] at hSpan ⊢
  rw [read, if_pos hc, hSpan]

/-- What is read as a blank is a run of blanks that does not go on. -/
theorem blank_of_read {units : List String} {text : String} {run rest : List Char}
    (h : read (symbolUnits units) (run ++ rest) = .token (.blank text) run rest) :
    text = String.ofList run ∧ (run.foldlM blankStep false).isSome = true ∧
      ∀ c ∈ rest.head?, (run ++ [c]).foldlM blankStep false = none := by
  have hLexeme := (read_isSlice h (by simp)).lexeme
  generalize hContent : Content.blank text = content at hLexeme
  cases hLexeme with
  | blank hRun hEnds =>
    refine ⟨Content.blank.inj hContent, hRun.steps, fun c hc => ?_⟩
    rw [← Option.not_isSome_iff_eq_none]
    exact fun hSome => hEnds c hc ((blankRun_of_steps _).1 hSome)
  | _ => cases hContent

/-- A blank is read in the same way in front of what starts with the same character, and at the end. -/
theorem read_sameHead {units : List String} {text : String} {run rest rest' : List Char}
    (h : read (symbolUnits units) (run ++ rest) = .token (.blank text) run rest)
    (hHead : ∀ c ∈ rest'.head?, c ∈ rest.head?) :
    read (symbolUnits units) (run ++ rest') = .token (.blank text) run rest' := by
  obtain ⟨rfl, hRun, hEnds⟩ := blank_of_read h
  exact read_blankRun _ (read_isSlice h (by simp)).nonempty hRun fun c hc => hEnds c (hHead c hc)

/-- A run of blanks that a character does not go on with is no open comment. -/
theorem closed_of_ends {run : List Char} {c : Char}
    (hRun : (run.foldlM blankStep false).isSome = true)
    (hEnds : (run ++ [c]).foldlM blankStep false = none) :
    run.foldlM blankStep false = some false := by
  obtain ⟨comment, hComment⟩ := Option.isSome_iff_exists.mp hRun
  cases comment with
  | false => exact hComment
  | true =>
    rw [List.foldlM_append, hComment] at hEnds
    simp [blankStep_comment] at hEnds

-- ---------------------------------------------------------------------------
-- Numerals
-- ---------------------------------------------------------------------------

theorem isDecimalDigit_blank : ∀ c ∈ blankChars, isDecimalDigit c = false :=
  List.all_iff_forall_prop.mp (by decide +kernel)

theorem not_blank_of_isDecimalDigit {d : Char} (h : isDecimalDigit d = true) : d ∉ blankChars := by
  intro hBlank
  rw [isDecimalDigit_blank d hBlank] at h
  cases h

theorem readFraction_cutAt {rest rest' : List Char} (hCut : CutAt blankChars rest rest')
    (h : Numeral.readFraction rest = none) : Numeral.readFraction rest' = none := by
  cases h' : Numeral.readFraction rest' with
  | none => rfl
  | some found =>
    obtain ⟨ds, more⟩ := found
    obtain ⟨rfl, ⟨hSome, hDigits⟩, -⟩ := readFraction_some h'
    obtain ⟨d, ds, rfl⟩ := List.exists_cons_of_ne_nil hSome
    have hd := hDigits d List.mem_cons_self
    obtain ⟨tail, rfl⟩ : ['.', d] <+: rest := by
      refine hCut.isPrefix (fun c hc => ?_) ⟨ds ++ more, rfl⟩
      rcases (by simpa using hc : c = '.' ∨ c = d) with rfl | rfl
      · decide
      · exact not_blank_of_isDecimalDigit hd
    simp [Numeral.readFraction, hd] at h

theorem readExponent_cutAt {rest rest' : List Char} (hCut : CutAt blankChars rest rest')
    (h : Numeral.readExponent rest = none) : Numeral.readExponent rest' = none := by
  cases h' : Numeral.readExponent rest' with
  | none => rfl
  | some found =>
    obtain ⟨⟨mark, sign, digits⟩, more⟩ := found
    obtain ⟨rfl, hMark, hSign, ⟨hSome, hDigits⟩, -⟩ := readExponent_some h'
    obtain ⟨d, ds, rfl⟩ := List.exists_cons_of_ne_nil hSome
    have hd : isDecimalDigit d = true := hDigits d List.mem_cons_self
    obtain ⟨tail, rfl⟩ : mark :: (sign.toList ++ [d]) <+: rest := by
      refine hCut.isPrefix (fun c hc => ?_) ⟨ds ++ more, by simp [Exponent.text]⟩
      rcases (by simpa using hc : c = mark ∨ sign = some c ∨ c = d) with rfl | hc | rfl
      · rcases hMark with rfl | rfl <;> decide
      · rcases hSign c hc with rfl | rfl <;> decide
      · exact not_blank_of_isDecimalDigit hd
    have hSplit := Numeral.splitSign_text hSign hd tail
    rw [List.cons_append, List.append_assoc, List.singleton_append, Numeral.readExponent,
      hSplit] at h
    dsimp only at h
    rw [if_pos ⟨hMark, hd⟩] at h
    cases h

theorem complete_cutAt {n : Numeral} {rest rest' : List Char} (hCut : CutAt blankChars rest rest')
    (h : n.Complete rest) : n.Complete rest' where
  digit := hCut.ends isDecimalDigit_blank h.digit
  fraction hNone := readFraction_cutAt hCut (h.fraction hNone)
  exponent hNone := readExponent_cutAt hCut (h.exponent hNone)

/-- Without an exponent a numeral ends where none is found. -/
theorem close_complete {whole tail rest : List Char} {fraction : Option (List Char)} {n : Numeral}
    (hFraction : Numeral.readFraction tail = none)
    (h : (match Numeral.readExponent tail with
      | some (exponent, rest) => ((⟨whole, fraction, some exponent⟩ : Numeral), rest)
      | none => (⟨whole, fraction, none⟩, tail)) = (n, rest))
    (hNone : n.exponent = none) :
    Numeral.readFraction rest = none ∧ Numeral.readExponent rest = none := by
  cases hExponent : Numeral.readExponent tail with
  | none =>
    rw [hExponent] at h
    obtain ⟨-, rfl⟩ := Prod.mk.inj h
    exact ⟨hFraction, hExponent⟩
  | some found =>
    rw [hExponent] at h
    obtain ⟨rfl, -⟩ := Prod.mk.inj h
    cases hNone

/-- A numeral that is read does not go on. -/
theorem numeral_read_complete {c : Char} {cs rest : List Char} {n : Numeral}
    (hDigit : isDecimalDigit c = true) (h : Numeral.read (c :: cs) = .ok (n, rest)) :
    n.Complete rest := by
  have hEnds := (numeral_read_ok hDigit h).2.2
  unfold Numeral.read at h
  generalize (c :: cs).takeWhile isDecimalDigit = whole at h
  generalize (c :: cs).dropWhile isDecimalDigit = tail at h
  have hBoth : n.exponent = none →
      Numeral.readFraction rest = none ∧ Numeral.readExponent rest = none := by
    cases hFraction : Numeral.readFraction tail with
    | none =>
      simp only [hFraction] at h
      exact close_complete hFraction (Except.ok.inj h)
    | some found =>
      obtain ⟨ds, more⟩ := found
      simp only [hFraction] at h
      split at h
      · cases h
      · rename_i hNoMore
        exact close_complete (Option.not_isSome_iff_eq_none.mp hNoMore) (Except.ok.inj h)
  exact ⟨hEnds, fun hNone => (hBoth hNone).1, fun hNone => (hBoth hNone).2⟩

-- ---------------------------------------------------------------------------
-- Strings, units and operators
-- ---------------------------------------------------------------------------

/-- A string ends with its quote, whatever follows. -/
theorem readString_quotes {quote : Char} (hQuote : quote ≠ '\\') {body text : List Char}
    (h : Quotes quote body text) (rest : List Char) :
    readString quote (body ++ quote :: rest) = some (text, rest) := by
  have hCons : ∀ body : List Char, ∃ e more, body ++ quote :: rest = e :: more := by
    intro body
    cases body <;> exact ⟨_, _, rfl⟩
  induction h with
  | nil => cases rest <;> rw [List.nil_append, readString, if_pos rfl]
  | @plain c body text hPlain hSlash _ ih =>
    obtain ⟨e, more, hMore⟩ := hCons body
    rw [List.cons_append, hMore, readString, if_neg hPlain, if_neg hSlash, ← hMore, ih]
    rfl
  | @escape e body text _ ih =>
    rw [List.cons_append, List.cons_append, readString, if_neg hQuote.symm, if_pos rfl, ih]
    rfl

/-- Where a unit that holds no stop starts the second text, it starts the first one. -/
theorem isPrefixOf_cutAt {stops : List Char} {u : String} {cs cs' : List Char}
    (hu : ∀ c ∈ u.toList, c ∉ stops) (hCut : CutAt stops cs cs') (h : u.toList.isPrefixOf cs' = true) :
    u.toList.isPrefixOf cs = true := by
  rw [List.isPrefixOf_iff_prefix] at h ⊢
  exact hCut.isPrefix hu h

theorem matchUnit?_none_cutAt {stops : List Char} {units : List String} {cs cs' : List Char}
    (hUnits : ∀ u ∈ units, ∀ c ∈ u.toList, c ∉ stops) (hCut : CutAt stops cs cs')
    (h : matchUnit? units cs = none) : matchUnit? units cs' = none := by
  rw [matchUnit?, Option.map_eq_none_iff, List.find?_eq_none] at h ⊢
  exact fun u hu hPrefix => h u hu (isPrefixOf_cutAt (hUnits u hu) hCut hPrefix)

/-- A unit that is matched is matched in front of a stop, too, and no unit before it. -/
theorem matchUnit?_some_cutAt {stops : List Char} {units : List String} {unit : String}
    {rest rest' : List Char} (hUnits : ∀ u ∈ units, ∀ c ∈ u.toList, c ∉ stops)
    (hCut : CutAt stops rest rest')
    (h : matchUnit? units (unit.toList ++ rest) = some (unit, rest)) :
    matchUnit? units (unit.toList ++ rest') = some (unit, rest') := by
  obtain ⟨u, hFind, hu⟩ := Option.map_eq_some_iff.mp h
  obtain ⟨rfl, -⟩ := Prod.mk.inj hu
  obtain ⟨-, before, after, rfl, hBefore⟩ := List.find?_eq_some_iff_append.mp hFind
  have hFind' : (before ++ u :: after).find? (fun v => v.toList.isPrefixOf (u.toList ++ rest')) =
      some u := by
    refine List.find?_eq_some_iff_append.mpr ⟨?_, before, after, rfl, fun v hv => ?_⟩
    · rw [List.isPrefixOf_iff_prefix]
      exact List.prefix_append _ _
    · rw [Bool.not_eq_true', Bool.eq_false_iff]
      intro hPrefix
      have hEarlier := isPrefixOf_cutAt (hUnits v (List.mem_append_left _ hv))
        (hCut.append u.toList) hPrefix
      have hNot := hBefore v hv
      rw [hEarlier] at hNot
      cases hNot
  rw [matchUnit?, hFind', Option.map_some, List.drop_left]

theorem ofOperator?_spelling : ∀ entry ∈ Symbol.operatorSpellings,
    Symbol.ofOperator? entry.1 = some entry.2 :=
  List.all_iff_forall_prop.mp (by decide)

/-- An operator is told by its spelling where no longer one starts. -/
theorem matchOperator?_of_isOperator {s : Symbol} {spelling after : List Char}
    (h : IsOperator s spelling after) : matchOperator? (spelling ++ after) = some (s, after) := by
  have hOne : Symbol.ofOperator? spelling = some s := ofOperator?_spelling _ h.spells
  obtain ⟨hSome, hLength⟩ := operator_length _ h.spells
  unfold matchOperator? operatorOfSize?
  match spelling, hSome, hLength with
  | [c, d], _, _ =>
    show ((Symbol.ofOperator? [c, d]).map _ <|> _) = _
    rw [hOne]
    rfl
  | [c], _, _ =>
    cases after with
    | nil =>
      show ((Symbol.ofOperator? [c]).map _ <|> _) = _
      rw [hOne]
      rfl
    | cons d after =>
      show ((Symbol.ofOperator? [c, d]).map _ <|> (Symbol.ofOperator? [c]).map _) = _
      cases hTwo : Symbol.ofOperator? [c, d] with
      | none =>
        rw [hOne]
        rfl
      | some t =>
        have hLonger := h.longest _ (mem_of_lookup hTwo) ⟨after, rfl⟩
        simp at hLonger

/-- No operator holds a blank. -/
theorem operatorSpellings_blank : ∀ entry ∈ Symbol.operatorSpellings, ∀ c ∈ entry.1, c ∉ blankChars := by
  simp [Symbol.operatorSpellings, blankChars]

theorem isOperator_cutAt {s : Symbol} {spelling rest rest' : List Char} (hCut : CutAt blankChars rest rest')
    (h : IsOperator s spelling rest) : IsOperator s spelling rest' where
  spells := h.spells
  longest longer hLonger hPrefix :=
    h.longest longer hLonger
      ((hCut.append spelling).isPrefix (operatorSpellings_blank longer hLonger) hPrefix)

-- ---------------------------------------------------------------------------
-- One token
-- ---------------------------------------------------------------------------

theorem isWordChar_blank : ∀ c ∈ blankChars, isWordChar c = false :=
  List.all_iff_forall_prop.mp (by decide +kernel)

/-- A number is read in the same way in front of a blank. -/
theorem readNumber_cutAt {c : Char} {cs rest rest' taken : List Char} {content : Content}
    (hDigit : isDecimalDigit c = true) (hCut : CutAt blankChars rest rest')
    (h : readNumber (c :: cs) = .token content taken rest) :
    c :: cs = taken ++ rest ∧ readNumber (taken ++ rest') = .token content taken rest' := by
  unfold readNumber at h
  cases hRead : Numeral.read (c :: cs) with
  | error gone => rw [hRead] at h; cases h
  | ok found =>
    obtain ⟨n, more⟩ := found
    rw [hRead] at h
    dsimp only at h
    cases hValue : n.value with
    | error limit => rw [hValue] at h; cases h
    | ok q =>
      rw [hValue] at h
      obtain ⟨rfl, rfl, rfl⟩ := Reading.token.inj h
      obtain ⟨hText, hNumeral, -⟩ := numeral_read_ok hDigit hRead
      have hComplete := complete_cutAt hCut (numeral_read_complete hDigit hRead)
      refine ⟨hText, ?_⟩
      unfold readNumber
      rw [Numeral.read_complete hNumeral hComplete]
      dsimp only
      rw [hValue]

/-- **A token is read in the same way in front of a blank**, unless it is a blank itself, and where no
prefix unit holds that blank; and at the end of the text. -/
theorem read_cutAt {stops : List Char} (hStops : ∀ c ∈ stops, c ∈ blankChars) {units : List String}
    (hUnits : ∀ u ∈ units, ∀ c ∈ u.toList, c ∉ stops)
    {content : Content} {taken rest rest' : List Char} (hCut : CutAt stops rest rest')
    (hBlank : ∀ text, content ≠ .blank text) (hStray : ∀ text, content ≠ .stray text)
    (h : read (symbolUnits units) (taken ++ rest) = .token content taken rest) :
    read (symbolUnits units) (taken ++ rest') = .token content taken rest' := by
  have hSymbolUnits : ∀ u ∈ symbolUnits units, ∀ c ∈ u.toList, c ∉ stops :=
    fun u hu => hUnits u (mem_symbolUnits.mp hu).1
  have hBlankCut := hCut.mono hStops
  obtain ⟨c, cs, rfl⟩ := List.exists_cons_of_ne_nil (read_isSlice h hStray).nonempty
  rw [List.cons_append, read] at h
  split at h
  · obtain ⟨rfl, -, -⟩ := Reading.token.inj h
    exact absurd rfl (hBlank _)
  rename_i hNoBlank
  split at h
  · rename_i hStart
    obtain ⟨hContent, hTaken, hRest⟩ := Reading.token.inj h
    have hAll : ∀ d ∈ c :: cs, isWordChar d = true := by
      rw [← hTaken]
      exact fun d hd => List.mem_takeWhile_imp hd
    have hEnds : ∀ d ∈ rest.head?, isWordChar d = false := by
      rw [← hRest]
      exact head?_dropWhile
    rw [← hContent, hTaken]
    exact read_word _ hStart (fun d hd => hAll d (List.mem_cons_of_mem _ hd))
      (hBlankCut.ends isWordChar_blank hEnds)
  rename_i hNoWord
  split at h
  · rename_i hDigit
    rw [List.cons_append, read, if_neg hNoBlank, if_neg hNoWord, if_pos hDigit]
    exact (readNumber_cutAt hDigit hBlankCut h).2
  rename_i hNoDigit
  rw [List.cons_append, read, if_neg hNoBlank, if_neg hNoWord, if_neg hNoDigit]
  simp only [← List.cons_append] at h ⊢
  split at h
  · rename_i unit more hMatch
    obtain ⟨rfl, hTaken, rfl⟩ := Reading.token.inj h
    rw [before_append] at hTaken
    obtain ⟨-, hText⟩ := matchUnit?_some hMatch
    have hUnit := List.append_cancel_right hText
    rw [hUnit] at hMatch ⊢
    rw [matchUnit?_some_cutAt hSymbolUnits hCut hMatch]
    dsimp only
    rw [before_append]
  rename_i hNoUnit
  rw [matchUnit?_none_cutAt hSymbolUnits (hCut.append _) hNoUnit]
  dsimp only
  split at h
  · rename_i hQuote
    rw [if_pos hQuote]
    split at h
    · rename_i text more hString
      obtain ⟨rfl, hTaken, rfl⟩ := Reading.token.inj h
      obtain ⟨body, hBody, hQuotes⟩ := readString_some hString
      have hSlash : c ≠ '\\' := by
        rintro rfl
        cases hQuote
      obtain rfl : cs = body ++ [c] := by
        refine List.append_cancel_right (?_ : cs ++ more = body ++ [c] ++ more)
        rw [hBody, List.append_assoc, List.singleton_append]
      rw [List.append_assoc, List.singleton_append, readString_quotes hSlash hQuotes]
      dsimp only
      rw [before_append]
    · cases h
  · rename_i hNoQuote
    rw [if_neg hNoQuote]
    split at h
    · rename_i s more hMatch
      obtain ⟨rfl, hTaken, rfl⟩ := Reading.token.inj h
      obtain ⟨spelling, hText, hOperator⟩ := matchOperator?_some hMatch
      have hSpelling := List.append_cancel_right hText
      rw [hSpelling, matchOperator?_of_isOperator (isOperator_cutAt hBlankCut hOperator)]
      dsimp only
      rw [before_append]
    · obtain ⟨rfl, -, -⟩ := Reading.token.inj h
      exact absurd rfl (hStray _)

/-- **A stretch is read as the same tokens where nothing follows.** -/
theorem ReadsOver.alone {p : Place} {front : List Char} {tokens : List Token}
    (h : ReadsOver units rest p front tokens) : ReadsOver units [] p front tokens := by
  induction h with
  | done p => exact .done p
  | @token p content taken front tokens hRead hKnown _ ih =>
    refine .token ?_ hKnown ih
    by_cases hBlank : ∃ text, content = .blank text
    · obtain ⟨text, rfl⟩ := hBlank
      refine read_sameHead hRead fun c hc => ?_
      rw [List.append_nil] at hc
      rw [List.head?_append, Option.mem_def.mp hc]
      rfl
    · -- nothing stops a unit, so no unit may hold a stop
      have hCut : CutAt [] (front ++ rest) (front ++ []) := (CutAt.ended rest).append front
      exact read_cutAt (by simp) (by simp) hCut (not_exists.mp hBlank) hKnown hRead

end Lexer

end Reckoner
