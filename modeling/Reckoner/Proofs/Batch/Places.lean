import Reckoner.Proofs.Batch.Agreement
import Reckoner.Proofs.Grammar.Classes
import Reckoner.Proofs.Grammar.PrefixUnits
import Reckoner.Proofs.Grammar.Ranges
import Reckoner.Proofs.Lexer.Joining
import Reckoner.Proofs.Render.Shown

/-!
# Places in the lines of a file

A batch run reads each line of a file as a text of its own. So the places in the trees of a line, and the
place of an error in it, count from the start of that line: they name the first line, wherever the line
stands in the file. Their columns are those in the file, and the lines above are all that is missing
(`IsLocal`).

Three steps lead there. The line with a number starts behind as many newlines (`exists_standsAt`); tokens
and errors stand behind some characters of their line (`place_of_token`, `place_of_error`); and each node
of a tree stands where one of the tokens does (`place_of_node`).

## Results

* `ReadError.message_of_place` — the place of an error is the one that its message names.
* `run_places_local`           — the places that a run reports and writes are local to their lines.
-/

namespace Reckoner

-- ---------------------------------------------------------------------------
-- Places that are reported
-- ---------------------------------------------------------------------------

/-- The place that is reported with an error, if there is one. -/
def ReadError.place? : ReadError → Option Place
  | .lexing ⟨.digits _, _⟩ => none
  | .lexing ⟨_, place⟩ => some place
  | .parsing (.error e) => (e.token?.map Token.place).filter (·.line ≠ 0)
  | .parsing _ => none

/-- **The place of an error is the one that its message names.** -/
theorem ReadError.message_of_place {e : ReadError} {p : Place} (h : e.place? = some p) :
    ∃ wording, e.message = p.locate wording := by
  cases e with
  | lexing e =>
    obtain ⟨fault, place⟩ := e
    cases fault with
    | digits limit => cases h
    | _ =>
      obtain rfl := Option.some.inj h
      exact ⟨_, rfl⟩
  | parsing stop =>
    cases stop with
    | error e =>
      obtain ⟨hPlace, hKnown⟩ := Option.filter_eq_some_iff.mp h
      obtain ⟨t, hToken, rfl⟩ := Option.map_eq_some_iff.mp hPlace
      refine ⟨e.wording, ?_⟩
      show e.message = _
      rw [ParseError.message, hToken]
      exact if_neg (by simpa using hKnown)
    | _ => cases h

-- ---------------------------------------------------------------------------
-- Lines
-- ---------------------------------------------------------------------------

namespace Text

open Lexer (placeAfter)

/-- A line that starts on line `k` of a text, behind the characters `above`. -/
structure StandsAt (text : List Char) (k : Nat) (line above : List Char) : Prop where
  within : above ++ line <+: text
  start : placeAfter above = ⟨k, 1⟩
  oneLine : '\n' ∉ line

/-- Behind a line and its end, everything stands one line further down. -/
theorem placeAfter_newline {front : List Char} (hFront : '\n' ∉ front) (more : List Char) :
    placeAfter (front ++ '\n' :: more) = (placeAfter more).below 1 := by
  rw [← Lexer.placeAfter_eq, ← Lexer.placeAfter_eq, Place.advance_append, Place.advance_line hFront,
    Place.advance_cons, ← Place.advance_below]
  rfl

/-- **Each line of a text stands on the line of its number**, where lines end with newlines only. -/
theorem exists_standsAt {cs line : List Char} {i : Nat}
    (hPlain : ∀ c ∈ cs, Unicode.isLineEnd c = true → c = '\n') (h : (linesOf cs)[i]? = some line) :
    ∃ above, StandsAt cs (i + 1) line above := by
  induction hLength : cs.length using Nat.strong_induction_on generalizing cs i with
  | _ n ih =>
    rcases exists_lineEnd cs with hNone | ⟨front, c, rest, rfl, hFront, hEnd⟩
    · rw [linesOf_alone hNone] at h
      split at h
      · cases h
      · obtain ⟨hIndex, rfl⟩ := List.getElem?_eq_some_iff.mp h
        obtain rfl : i = 0 := by simpa using hIndex
        exact ⟨[], List.prefix_refl cs, rfl, newline_not_mem hNone⟩
    · obtain rfl := hPlain c (by simp) hEnd
      rw [linesOf_cons hFront] at h
      cases i with
      | zero =>
        obtain rfl := Option.some.inj h
        exact ⟨[], List.prefix_append _ _, rfl, newline_not_mem hFront⟩
      | succ i =>
        have hRest : ∀ c ∈ rest, Unicode.isLineEnd c = true → c = '\n' :=
          fun c hc => hPlain c (List.mem_append_right _ (List.mem_cons_of_mem _ hc))
        have hShorter : rest.length < n := by
          rw [← hLength, List.length_append, List.length_cons]
          omega
        obtain ⟨above, hWithin, hStart, hOneLine⟩ := ih _ hShorter hRest h rfl
        refine ⟨front ++ '\n' :: above, ?_, ?_, hOneLine⟩
        · rw [List.append_assoc, List.cons_append]
          exact (List.prefix_append_right_inj _).mpr (List.cons_prefix_cons.mpr ⟨rfl, hWithin⟩)
        · rw [placeAfter_newline (newline_not_mem hFront), hStart]
          rfl

/-- A place that counts from the start of a line, and not from the start of the text. It names the first
line; in the text the same character stands on line `k`, in the same column. -/
structure IsLocal (text : List Char) (k : Nat) (line : List Char) (p : Place) : Prop where
  line_eq : p.line = 1
  inText : ∃ above front, StandsAt text k line above ∧ front <+: line ∧ placeAfter front = p ∧
    placeAfter (above ++ front) = ⟨k, p.col⟩

/-- The place behind some characters of a line is local to it. -/
theorem StandsAt.isLocal {text line above front : List Char} {k : Nat}
    (h : StandsAt text k line above) (hFront : front <+: line) :
    IsLocal text k line (placeAfter front) := by
  have hOneLine : '\n' ∉ front := fun hMem => h.oneLine (hFront.subset hMem)
  have hPlace : placeAfter front = ⟨1, 1 + front.length⟩ := by
    rw [← Lexer.placeAfter_eq, Place.advance_line hOneLine]
    rfl
  refine ⟨by rw [hPlace], above, front, h, hFront, rfl, ?_⟩
  rw [Lexer.placeAfter_append, h.start, Place.advance_line hOneLine, hPlace]

end Text

-- ---------------------------------------------------------------------------
-- Tokens, errors and nodes
-- ---------------------------------------------------------------------------

open Lexer (placeAfter)

variable {a : Aliases} {b : Bounds} {line : String}

/-- Behind some characters of the line. -/
def IsBehind (line : String) (p : Place) : Prop :=
  ∃ front, front <+: line.toList ∧ placeAfter front = p

@[simp] theorem Aliases.applyTo_place (a : Aliases) (t : Token) : (a.applyTo t).place = t.place := by
  unfold applyTo token?
  split
  · rename_i name _
    cases a.table.lookup name <;> rfl
  · rfl

/-- A token stands behind some characters of its line. -/
theorem place_of_token {tokens : List Token} (h : a.tokens line = .ok tokens) :
    ∀ t ∈ tokens, IsBehind line t.place := by
  unfold Aliases.tokens at h
  cases hTokens : tokenize a.prefixUnits line with
  | error e => rw [hTokens] at h; cases h
  | ok lexed =>
    rw [hTokens] at h
    obtain rfl := Except.ok.inj h
    obtain ⟨slices, hSlices⟩ := Lexer.tokensFrom_partitions [] (Nat.le_refl _) hTokens
    intro t ht
    obtain ⟨u, hu, rfl⟩ := List.mem_map.mp ht
    obtain ⟨i, hi, rfl⟩ := List.getElem_of_mem hu
    rw [Aliases.applyTo_place]
    exact ⟨_, hSlices.front i, (hSlices.place i _ (List.getElem?_eq_getElem hi)).symm⟩

/-- What an error is about is one of the tokens. -/
theorem Grammar.token_of_error {units : List String} {tokens : List Token} {depth : Nat}
    {e : ParseError} {t : Token} (h : (parseWithin depth units tokens).result = .error (.error e))
    (hToken : e.token? = some t) : t ∈ tokens := by
  obtain ⟨e', -, hAlike⟩ := (SameClasses.refl units tokens).alike h
  have hTwins : ∃ t', (t, t') ∈ twinsOf tokens tokens := by
    clear h
    induction hAlike with
    | missingDot _ ih => exact ih hToken
    | expectedToken => cases hToken
    | invalidMixedFraction => cases hToken
    | reservedJuxtaposition => cases hToken
    | tooDeep => cases hToken
    | _ =>
      rename_i hTwins
      obtain rfl := Option.some.inj hToken
      exact ⟨_, hTwins⟩
  obtain ⟨t', hMem⟩ := hTwins
  exact (List.of_mem_zip (List.mem_filter.mp hMem).1).1

namespace Batch

/-- The place that is reported with an error in a line stands behind some characters of the line. -/
theorem place_of_error {e : ReadError} {p : Place} (h : treeOf b a line = .error e)
    (hPlace : e.place? = some p) : IsBehind line p := by
  unfold treeOf at h
  cases hTokens : a.tokens line with
  | error e' =>
    rw [hTokens] at h
    obtain rfl : .lexing e' = e := Except.error.inj h
    have hLexing : tokenize a.prefixUnits line = .error e' := by
      unfold Aliases.tokens at hTokens
      cases hText : tokenize a.prefixUnits line with
      | error e'' => rw [hText] at hTokens; exact hTokens
      | ok lexed => rw [hText] at hTokens; cases hTokens
    obtain ⟨front, _, rest, hText, -, -, hFront⟩ := Lexer.tokensAt_error hLexing
    have hSame : e'.place = p := by
      obtain ⟨fault, place⟩ := e'
      cases fault with
      | digits limit => cases hPlace
      | _ => exact Option.some.inj hPlace
    exact ⟨front, ⟨rest, hText.symm⟩, by rw [← Lexer.placeAfter_eq, ← hFront, hSame]⟩
  | ok tokens =>
    rw [hTokens] at h
    have hParse : (b.parse a.prefixUnits tokens).result.mapError ReadError.parsing = .error e := h
    cases hResult : (b.parse a.prefixUnits tokens).result with
    | ok n => rw [hResult] at hParse; cases hParse
    | error stop =>
      rw [hResult] at hParse
      obtain rfl : .parsing stop = e := Except.error.inj hParse
      cases stop with
      | error e =>
        obtain ⟨hPlace, -⟩ := Option.filter_eq_some_iff.mp hPlace
        obtain ⟨t, hToken, rfl⟩ := Option.map_eq_some_iff.mp hPlace
        exact place_of_token hTokens t (Grammar.token_of_error hResult hToken)
      | _ => cases hPlace

/-- The tree of a line is parsed from its tokens. -/
theorem tokens_of_tree {n : Node} (h : treeOf b a line = .ok n) :
    ∃ tokens, a.tokens line = .ok tokens ∧
      (Grammar.parseWithin b.nesting a.prefixUnits tokens).result = .ok n := by
  obtain ⟨tokens, hTokens, hParse⟩ := bind_eq_ok.mp h
  exact ⟨tokens, mapError_eq_ok.mp hTokens, mapError_eq_ok.mp hParse⟩

/-- A node of the tree of a line stands behind some characters of the line, unless it is an empty list of
statements. -/
theorem place_of_node {n : Node} (h : treeOf b a line = .ok n) :
    ∀ m ∈ n.nodes, m = .unit .unknown ∨ IsBehind line m.place := by
  obtain ⟨tokens, hTokens, hParse⟩ := tokens_of_tree h
  have hBehind := place_of_token hTokens
  have hKnown : ∀ t ∈ tokens, Grammar.IsKnown t.place := by
    intro t ht
    obtain ⟨front, -, hFront⟩ := hBehind t ht
    rw [← hFront]
    exact ⟨by simp [placeAfter], by simp [placeAfter]⟩
  have hFound := (Grammar.parseWithin_derives hParse).found hKnown (Grammar.occurs_significant tokens)
  cases hFound with
  | spans start stop spans =>
    refine fun m hm => (spans.nodes m hm).imp_right ?_
    rintro ⟨i, j, -, -, hSpans⟩
    obtain ⟨c, hAt⟩ := hSpans.place
    exact hBehind _ (List.mem_of_getElem? hAt)
  | nothing list empty idle =>
    rw [empty]
    exact List.forall_mem_singleton.mpr (Or.inl rfl)

-- ---------------------------------------------------------------------------
-- Lines of a file
-- ---------------------------------------------------------------------------

variable {files : Files} {request : Request} {format : Format} {text : String}

/-- A numbered line is the line of its number. -/
theorem expressions_numbered {number k : Nat} {lines : List String}
    (h : (k, line) ∈ expressions number lines) : ∃ i, lines[i]? = some line ∧ k = number + i := by
  induction lines generalizing number with
  | nil => cases h
  | cons first lines ih =>
    have hLater : (k, line) ∈ expressions (number + 1) lines →
        ∃ i, (first :: lines)[i]? = some line ∧ k = number + i := by
      intro hMem
      obtain ⟨i, hAt, rfl⟩ := ih hMem
      exact ⟨i + 1, hAt, by omega⟩
    rw [expressions] at h
    split at h
    · rcases List.mem_cons.mp h with hFirst | hMem
      · obtain ⟨rfl, rfl⟩ := Prod.mk.inj hFirst
        exact ⟨0, rfl, rfl⟩
      · exact hLater hMem
    · exact hLater h

/-- What stands behind some characters of a numbered line is local to it. -/
theorem isLocal_of_isBehind (hPlain : ∀ c ∈ text.toList, Unicode.isLineEnd c = true → c = '\n')
    {k : Nat} (hLine : (k, line) ∈ expressions 1 (Text.splitLines text)) {p : Place}
    (h : IsBehind line p) : Text.IsLocal text.toList k line.toList p := by
  obtain ⟨i, hAt, rfl⟩ := expressions_numbered hLine
  rw [Text.splitLines, List.getElem?_map] at hAt
  obtain ⟨cs, hCs, rfl⟩ := Option.map_eq_some_iff.mp hAt
  obtain ⟨above, hStands⟩ := Text.exists_standsAt hPlain hCs
  obtain ⟨front, hFront, rfl⟩ := h
  rw [Nat.add_comm, String.toList_ofList]
  rw [String.toList_ofList] at hFront
  exact hStands.isLocal hFront

/-- A run fails at the first numbered line that is no expression. -/
theorem withholds_of_first (h : Prepared files request format text a) {k : Nat} {e : ReadError}
    {before after : List (Nat × String)}
    (hSplit : expressions 1 (Text.splitLines text) = before ++ (k, line) :: after)
    (hBefore : ∀ other ∈ before, ∃ tree, treeOf request.bounds a other.2 = .ok tree)
    (hFails : treeOf request.bounds a line = .error e) :
    Withholds files (.reading e) ((run Files.disk request).run files) := by
  have hLines : (Text.splitLines text).filter isExpression =
      before.map (·.2) ++ line :: after.map (·.2) := by
    rw [← expressions_lines 1, hSplit, List.map_append, List.map_cons]
  have hOthers : ∀ other ∈ before.map (·.2), ∃ tree, treeOf request.bounds a other = .ok tree :=
    List.forall_mem_map.mpr hBefore
  have hText : (writeLines request.bounds a (some format) (Text.splitLines text)).2 =
      .error (.reading e) := by
    rw [writeLines_result, hLines, mapM_error_of_first hOthers hFails]
    rfl
  have hRun := run_prepared h
  rwa [hText] at hRun

/-- The document of the tree of a line, from which the tree can be read. -/
theorem isLineOf_of_write {height : Nat} {tree : Node} {shown : String}
    (hTree : treeOf b a line = .ok tree) (hShown : Format.document.writeWithin height tree = .ok shown) :
    Render.IsLineOf height tree shown := by
  obtain ⟨tokens, hTokens, hParse⟩ := tokens_of_tree hTree
  have hFormed := Grammar.parseWithin_formedOf hParse (Render.tokens_hasFraction hTokens)
  obtain ⟨hHeight, hLong⟩ :=
    (Format.document.writeWithin_stops height hFormed).isWritten_iff.mp ⟨shown, hShown⟩
  have hShort : Render.HasShortNumbers tree := by
    intro m hm q hq
    have hNumber : ¬ Render.IsLongFraction q := fun hq' => hLong ⟨m, hm, q, hq, hq'⟩
    simpa [Render.IsLongFraction] using hNumber
  have hParsed : Render.IsParsed tree := ⟨a, a.prefixUnits, line, tokens, b.nesting, hTokens, hParse⟩
  obtain ⟨shown', hLine⟩ := Render.exists_isLineOf (Nat.le_of_not_lt hHeight) (hParsed.isExact hShort)
  obtain rfl := Except.ok.inj (hLine.written.symm.trans hShown)
  exact hLine

/-- A run that succeeds has the trees of all numbered lines, and what it writes as documents is read as
these trees. -/
theorem delivers_trees (h : Prepared files request format text a)
    (hSucceeds : ((run Files.disk request).run files).1.2 = .ok ()) :
    ∃ written trees, Delivers files request format written ((run Files.disk request).run files) ∧
      List.Forall₂ (fun (numbered : Nat × String) tree => treeOf request.bounds a numbered.2 = .ok tree)
        (expressions 1 (Text.splitLines text)) trees ∧
      (format = .document → Render.readTrees written = some trees) := by
  have hRun := run_prepared h
  cases hText : (writeLines request.bounds a (some format) (Text.splitLines text)).2 with
  | error failure =>
    rw [hText] at hRun
    cases hSucceeds.symm.trans hRun.fails
  | ok written =>
    rw [hText] at hRun
    rw [writeLines_result, ← expressions_lines 1] at hText
    obtain ⟨trees, hTrees, hWritten⟩ := bind_eq_ok.mp hText
    have hTrees := mapM_eq_ok.mp (mapError_eq_ok.mp hTrees)
    refine ⟨written, trees, hRun, List.forall₂_map_left_iff.mp hTrees, ?_⟩
    rintro rfl
    obtain ⟨lines, hLines, hJoined⟩ := bind_eq_ok.mp (mapError_eq_ok.mp hWritten)
    obtain rfl : "\n".intercalate lines = written := Except.ok.inj hJoined
    have hEach := mapM_eq_ok.mp hLines
    have hRead : ∀ tree ∈ trees, ∃ line, treeOf request.bounds a line = .ok tree :=
      forall_of_forall₂ hTrees fun line _ hTree => ⟨line, hTree⟩
    have hLineOf : List.Forall₂ (Render.IsLineOf (request.bounds.height .document)) trees lines := by
      refine List.forall₂_iff_get.mpr ⟨hEach.length_eq, fun i hi hi' => ?_⟩
      obtain ⟨line, hTree⟩ := hRead _ (List.get_mem trees ⟨i, hi⟩)
      exact isLineOf_of_write hTree (List.forall₂_iff_get.mp hEach |>.2 i hi hi')
    exact Render.readTrees_joined hLineOf

/-- **The places that a run reports and writes are local to their lines.** In a file whose lines end with
newlines, let line `k` be the first expression line that is no expression. Then the run fails with its
error, and a place that the error names is on the first line and not on line `k`, though in the column
of the file. The same holds of each node in the tree of a line, except empty lists of statements, which
have no place; and a run in JSON form writes these trees with these places. -/
theorem run_places_local (h : Prepared files request format text a)
    (hPlain : ∀ c ∈ text.toList, Unicode.isLineEnd c = true → c = '\n') :
    let numbered := expressions 1 (Text.splitLines text)
    let result := (run Files.disk request).run files
    (∀ before k line after e, numbered = before ++ (k, line) :: after →
      (∀ other ∈ before, ∃ tree, treeOf request.bounds a other.2 = .ok tree) →
      treeOf request.bounds a line = .error e →
      Withholds files (.reading e) result ∧ ∀ p, e.place? = some p →
        (∃ wording, e.message = p.locate wording) ∧ Text.IsLocal text.toList k line.toList p) ∧
    (∀ k line tree, (k, line) ∈ numbered → treeOf request.bounds a line = .ok tree →
      ∀ m ∈ tree.nodes, m = .unit .unknown ∨ Text.IsLocal text.toList k line.toList m.place) ∧
    (result.1.2 = .ok () → ∃ written trees, Delivers files request format written result ∧
      List.Forall₂ (fun (numbered : Nat × String) tree => treeOf request.bounds a numbered.2 = .ok tree)
        numbered trees ∧
      (format = .document → Render.readTrees written = some trees)) := by
  intro numbered result
  refine ⟨fun before k line after e hSplit hBefore hFails => ?_, fun k line tree hLine hTree m hm => ?_,
    delivers_trees h⟩
  · have hLine : (k, line) ∈ numbered := hSplit ▸ List.mem_append_right _ List.mem_cons_self
    exact ⟨withholds_of_first h hSplit hBefore hFails, fun p hPlace =>
      ⟨e.message_of_place hPlace, isLocal_of_isBehind hPlain hLine (place_of_error hFails hPlace)⟩⟩
  · exact (place_of_node hTree m hm).imp_right (isLocal_of_isBehind hPlain hLine)

/-- A number behind a number on the second line: the error names the third column of the first line, and
its character stands in the third column of the second one. -/
theorem second_line_local :
    let files : Files := ⟨["work"], [(["work"], .directory),
      (["work", "a.tally"], .file [0x31, 0x0A, 0x32, 0x20, 0x33, 0x0A])]⟩
    let request : Request :=
      { source := "a.tally", isText := false, format := some .document, out := some "b", pretty := true,
        config := none }
    let text := "1\n2 3\n"
    let e : ReadError := .parsing (.error (.unexpectedInput ⟨.number (.fraction 3), ⟨1, 3⟩⟩))
    Prepared files request .document text .canonical ∧
      (∀ c ∈ text.toList, Unicode.isLineEnd c = true → c = '\n') ∧
      Withholds files (.reading e) ((run Files.disk request).run files) ∧
      e.place? = some ⟨1, 3⟩ ∧ Text.IsLocal text.toList 2 "2 3".toList ⟨1, 3⟩ := by
  intro files request text e
  have hText : Disk.textOf [0x31, 0x0A, 0x32, 0x20, 0x33, 0x0A] = .ok "1\n2 3\n" := by decide +kernel
  have hPlain : ∀ c ∈ text.toList, Unicode.isLineEnd c = true → c = '\n' :=
    List.all_iff_forall_prop.mp (by decide +kernel)
  have hPrepared : Prepared files request .document text .canonical :=
    prepared_in_work hText true (by simp)
  have hSplit : expressions 1 (Text.splitLines text) = [(1, "1")] ++ (2, "2 3") :: [] := by
    decide +kernel
  have hFirst : ∀ other ∈ ([(1, "1")] : List (Nat × String)),
      ∃ tree, treeOf request.bounds .canonical other.2 = .ok tree :=
    List.forall_mem_singleton.mpr ⟨_, rfl⟩
  obtain ⟨hWithholds, hLocal⟩ :=
    (run_places_local hPrepared hPlain).1 [(1, "1")] 2 "2 3" [] e hSplit hFirst rfl
  exact ⟨hPrepared, hPlain, hWithholds, rfl, (hLocal ⟨1, 3⟩ rfl).2⟩

/-- Places do not count from the start of the file: the first line of `1` and `2 3` that is no expression
is the second, and its error names the first line; and of `1` and `2` the second tree stands on the first
line. -/
theorem second_line_named_first :
    let files : Files := ⟨["work"], [(["work"], .directory),
      (["work", "a.tally"], .file [0x31, 0x0A, 0x32, 0x20, 0x33, 0x0A])]⟩
    let request : Request :=
      { source := "a.tally", isText := false, format := some .document, out := some "b", pretty := true,
        config := none }
    let text := "1\n2 3\n"
    let e : ReadError := .parsing (.error (.unexpectedInput ⟨.number (.fraction 3), ⟨1, 3⟩⟩))
    Prepared files request .document text .canonical ∧
      (∀ c ∈ text.toList, Unicode.isLineEnd c = true → c = '\n') ∧
      expressions 1 (Text.splitLines text) = [(1, "1"), (2, "2 3")] ∧
      (∃ tree, treeOf request.bounds .canonical "1" = .ok tree) ∧
      treeOf request.bounds .canonical "2 3" = .error e ∧
      (((run Files.disk request).run files).1.2.mapError Failure.message) =
        .error "unexpected input found at line 1, col 3" ∧
      (∃ p, e.place? = some p ∧ p.line ≠ 2) ∧
      expressions 1 (Text.splitLines "1\n2\n") = [(1, "1"), (2, "2")] ∧
      ∃ tree, treeOf request.bounds .canonical "2" = .ok tree ∧ tree.place.line ≠ 2 := by
  intro files request text e
  have hText : Disk.textOf [0x31, 0x0A, 0x32, 0x20, 0x33, 0x0A] = .ok "1\n2 3\n" := by decide +kernel
  have hPlain : ∀ c ∈ text.toList, Unicode.isLineEnd c = true → c = '\n' :=
    List.all_iff_forall_prop.mp (by decide +kernel)
  have hPrepared : Prepared files request .document text .canonical :=
    prepared_in_work hText true (by simp)
  have hLines : expressions 1 (Text.splitLines text) = [(1, "1"), (2, "2 3")] := by decide +kernel
  have hFirst : ∀ other ∈ ([(1, "1")] : List (Nat × String)),
      ∃ tree, treeOf request.bounds .canonical other.2 = .ok tree :=
    List.forall_mem_singleton.mpr ⟨_, rfl⟩
  have hFails : treeOf request.bounds .canonical "2 3" = .error e := rfl
  have hWithholds : Withholds files (.reading e) ((run Files.disk request).run files) :=
    withholds_of_first hPrepared (hLines : _ = [(1, "1")] ++ (2, "2 3") :: []) hFirst hFails
  refine ⟨hPrepared, hPlain, hLines, ⟨_, rfl⟩, hFails, ?_, ⟨⟨1, 3⟩, rfl, by decide⟩, by decide +kernel,
    _, rfl, by decide⟩
  rw [hWithholds.fails]
  exact congrArg Except.error (by decide +kernel)

end Batch

end Reckoner
