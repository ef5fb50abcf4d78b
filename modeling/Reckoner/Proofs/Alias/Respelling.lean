import Reckoner.Alias.Table
import Reckoner.Grammar.Parse
import Reckoner.Proofs.Grammar.Marks
import Reckoner.Proofs.Lexer.Partition
import Reckoner.Proofs.Lexer.Pieces
import Reckoner.Proofs.Lexer.Spacing

/-!
# Aliases respelled

An alias means its symbol: it does not matter whether the tokens of aliases are replaced by the tokens
of their symbols, or the aliases in the text by the symbols between two blanks. The two ways do not give
the same tokens. The blanks that are put in are tokens of their own or go on with blanks that are there,
and all later places move. But the tokens have the same marks, and these are all that the grammar sees.

The text is gone over piece by piece. What stands in front of a piece that is respelled is read as it
was, since a blank follows now (`read_cutAt`); and because such a piece ends with a blank, the text
behind it is looked at behind any run of blanks (`ReadsAs`).

## Results

* `ReadsAs.respelled`      — the respelled text is read as the tokens in which aliases are replaced.
* `aliases_mean_symbols`   — both are parsed into the same tree, places aside.
-/

namespace Reckoner

open Lexer
open Grammar (marks namesParameter)

-- ---------------------------------------------------------------------------
-- The respelled text
-- ---------------------------------------------------------------------------

namespace Aliases

/-- What a token with its slice is respelled as: the symbol that an alias stands for between two blanks,
and the slice of anything else. -/
def respelling (a : Aliases) (t : Token) (slice : List Char) : List Char :=
  match t.content with
  | .ident name =>
    match a.table.lookup name with
    | some s => ' ' :: (s.display.toList ++ [' '])
    | none => slice
  | _ => slice

/-- The text of some tokens with their slices, each of them respelled. -/
def respelled (a : Aliases) (tokens : List Token) (slices : List (List Char)) : List Char :=
  (List.zipWith a.respelling tokens slices).flatten

theorem respelled_cons (a : Aliases) (t : Token) (tokens : List Token) (slice : List Char)
    (slices : List (List Char)) :
    a.respelled (t :: tokens) (slice :: slices) = a.respelling t slice ++ a.respelled tokens slices :=
  rfl

theorem apply_cons (a : Aliases) (t : Token) (tokens : List Token) :
    a.apply (t :: tokens) = a.applyTo t :: a.apply tokens := rfl

/-- No identifier among the tokens stands for a backslash. -/
def NoneBackslash (a : Aliases) (tokens : List Token) : Prop :=
  ∀ t ∈ tokens, ∀ name, t.content = .ident name → a.table.lookup name ≠ some .backslash

/-- A token is an alias, which is replaced and respelled, or it is left alone by both. -/
theorem respelling_cases (a : Aliases) (t : Token) (slice : List Char) :
    (∃ name s, t.content = .ident name ∧ a.table.lookup name = some s ∧
      a.applyTo t = ⟨.symbol s, t.place⟩ ∧
      a.respelling t slice = ' ' :: (s.display.toList ++ [' '])) ∨
      (a.applyTo t = t ∧ a.respelling t slice = slice) := by
  obtain ⟨content, place⟩ := t
  cases content with
  | ident name =>
    unfold applyTo respelling token?
    cases hLookup : a.table.lookup name with
    | none =>
      dsimp only
      rw [hLookup]
      exact Or.inr ⟨rfl, rfl⟩
    | some s =>
      dsimp only
      rw [hLookup]
      exact Or.inl ⟨name, s, rfl, hLookup, rfl, rfl⟩
  | _ => exact Or.inr ⟨rfl, rfl⟩

end Aliases

-- ---------------------------------------------------------------------------
-- Pieces
-- ---------------------------------------------------------------------------

namespace Lexer

/-- The token that a piece is read as, wherever it stands. -/
def Piece.token (piece : Piece) : Token :=
  ⟨piece.content, .unknown⟩

/-- A symbol is read in front of a blank in the form in which it is shown. -/
theorem read_display (s : Symbol) {rest : List Char} (hRest : ∀ c ∈ rest.head?, c = ' ') :
    read (symbolUnits defaultPrefixUnits) (s.display.toList ++ rest) =
      .token (.symbol s) s.display.toList rest := by
  by_cases hArrow : s = .arrow
  · subst hArrow
    have hMatch : matchOperator? ('=' :: '>' :: rest) = some (.arrow, rest) := rfl
    show read _ ('=' :: '>' :: rest) = _
    rw [read_sign (by decide +kernel), if_neg (by decide), hMatch]
    dsimp only
    rw [show '=' :: '>' :: rest = ['=', '>'] ++ rest from rfl, before_append]
    rfl
  · exact read_symbol hArrow fun _ => hRest

/-- A run of blanks as a piece; none where there are no blanks. -/
def leading (run : List Char) : List Piece :=
  if run = [] then [] else [⟨run, .blank (String.ofList run)⟩]

theorem spelled_leading (run : List Char) : spelled (leading run) = run := by
  unfold leading
  split
  · exact (‹run = []›).symm
  · exact List.append_nil run

theorem allRead_leading {run rest : List Char} (hRun : (run.foldlM blankStep false).isSome = true)
    (hRest : ∀ c ∈ rest.head?, (run ++ [c]).foldlM blankStep false = none) :
    AllRead (leading run) rest := by
  unfold leading
  split
  · trivial
  · exact ⟨⟨‹run ≠ []›, by simp, read_blankRun _ ‹_› hRun hRest⟩, trivial⟩

/-- A closed run of blanks ends where no blank starts. -/
theorem closedRun_ends {run : List Char} (hRun : run.foldlM blankStep false = some false) {c : Char}
    (hc : blankStep false c = none) : (run ++ [c]).foldlM blankStep false = none := by
  rw [List.foldlM_append, hRun]
  show [c].foldlM blankStep false = none
  rw [List.foldlM_cons, hc]
  rfl

theorem marks_leading (run : List Char) (tokens : List Token) :
    marks ((leading run).map Piece.token ++ tokens) = marks tokens := by
  unfold leading
  split <;> rfl

/-- No name of a parameter comes first behind blanks. -/
theorem namesParameter_leading (run : List Char) (tokens : List Token) :
    namesParameter ((leading run).map Piece.token ++ tokens) =
      (run.isEmpty && namesParameter tokens) := by
  unfold leading
  split
  · rename_i hRun
    rw [hRun]
    rfl
  · rename_i hRun
    rw [List.isEmpty_eq_false_iff.mpr hRun]
    rfl

/-- What is read as anything but a blank does not start with one. -/
theorem blankStep_of_read {units : List String} {content : Content} {taken rest : List Char}
    (h : read units (taken ++ rest) = .token content taken rest)
    (hBlank : ∀ text, content ≠ .blank text) : ∀ c ∈ taken.head?, blankStep false c = none := by
  intro c hc
  cases taken with
  | nil => cases hc
  | cons d taken =>
    obtain rfl : d = c := Option.some.inj hc
    rw [List.cons_append, read] at h
    split at h
    · obtain ⟨rfl, -, -⟩ := Reading.token.inj h
      exact absurd rfl (hBlank _)
    · rename_i hNone
      simpa using hNone

/-- No prefix unit of the canonical ones holds a blank. -/
theorem defaultPrefixUnits_blank : ∀ u ∈ defaultPrefixUnits, ∀ c ∈ u.toList, c ∉ blankChars := by
  simp [defaultPrefixUnits]

/-- A piece that is no blank is read in the same way where the text behind it is cut short. -/
theorem Piece.Reads.cutShort {piece : Piece} {rest rest' : List Char} (h : piece.Reads rest)
    (hSolid : ∀ text, piece.content ≠ .blank text) (hCut : CutShort rest rest') :
    piece.Reads rest' :=
  ⟨h.nonempty, h.known,
    read_cutAt (fun _ hc => hc) defaultPrefixUnits_blank hCut.cutAt hSolid h.known h.read⟩

/-- A blank is a run of blanks that does not go on. -/
theorem Piece.Reads.run {piece : Piece} {rest : List Char} (h : piece.Reads rest) {text : String}
    (hBlank : piece.content = .blank text) :
    (piece.chars.foldlM blankStep false).isSome = true ∧
      ∀ c ∈ rest.head?, (piece.chars ++ [c]).foldlM blankStep false = none := by
  have hRead := h.read
  rw [hBlank] at hRead
  exact (blank_of_read hRead).2

-- ---------------------------------------------------------------------------
-- Texts that are read as tokens
-- ---------------------------------------------------------------------------

/-- Behind any run of blanks in which no comment is open, the text is read as tokens of the same marks.
Whether the first of them is the name of a parameter is seen where no blank comes first. -/
def ReadsAs (text : List Char) (tokens : List Token) : Prop :=
  ∀ run : List Char, run.foldlM blankStep false = some false →
    ∃ pieces, spelled pieces = run ++ text ∧ AllRead pieces [] ∧
      marks (pieces.map Piece.token) = marks tokens ∧
      namesParameter (pieces.map Piece.token) = (run.isEmpty && namesParameter tokens)

namespace ReadsAs

variable {text : List Char} {tokens : List Token} {piece : Piece}

theorem nil : ReadsAs [] [] := by
  intro run hRun
  refine ⟨leading run, ?_, allRead_leading (by rw [hRun]; rfl) (by simp), ?_, ?_⟩
  · rw [spelled_leading, List.append_nil]
  · have hMarks := marks_leading run []
    rwa [List.append_nil] at hMarks
  · have hName := namesParameter_leading run []
    rwa [List.append_nil] at hName

/-- A blank goes on with the blanks in front of it. -/
theorem blank {content : String} (hContent : piece.content = .blank content)
    (hClosed : piece.chars.foldlM blankStep false = some false) (h : ReadsAs text tokens)
    (hSome : piece.chars ≠ []) : ReadsAs (piece.chars ++ text) (piece.token :: tokens) := by
  intro run hRun
  obtain ⟨pieces, hText, hRead, hMarks, hName⟩ := h (run ++ piece.chars) (by
    rw [List.foldlM_append, hRun]
    exact hClosed)
  have hToken : piece.token = ⟨.blank content, .unknown⟩ := by rw [Piece.token, hContent]
  refine ⟨pieces, by rw [hText, List.append_assoc], hRead, ?_, ?_⟩
  · rw [hMarks, hToken]
    rfl
  · have hLeads : (run ++ piece.chars).isEmpty = false := by simp [hSome]
    rw [hName, hLeads, hToken]
    exact (Bool.and_false _).symm

/-- A comment that is open at the end is read up to it. -/
theorem openComment {content : String} (hContent : piece.content = .blank content)
    (hOpen : (piece.chars.foldlM blankStep false).isSome = true) :
    ReadsAs piece.chars [piece.token] := by
  intro run hRun
  have hToken : piece.token = ⟨.blank content, .unknown⟩ := by rw [Piece.token, hContent]
  have hAll : ((run ++ piece.chars).foldlM blankStep false).isSome = true := by
    rw [List.foldlM_append, hRun]
    exact hOpen
  refine ⟨leading (run ++ piece.chars), spelled_leading _, allRead_leading hAll (by simp), ?_, ?_⟩
  · have hMarks := marks_leading (run ++ piece.chars) []
    rw [List.append_nil] at hMarks
    rw [hMarks, hToken]
    rfl
  · have hName := namesParameter_leading (run ++ piece.chars) []
    rw [List.append_nil] at hName
    rw [hName, hToken]
    exact (Bool.and_false _).trans (Bool.and_false _).symm

/-- A symbol between two blanks is read as that symbol. The blank in front goes on with the blanks
there, and the one behind it with those of the text. -/
theorem symbol {s : Symbol} (hBackslash : s ≠ .backslash) (h : ReadsAs text tokens) (place : Place) :
    ReadsAs (' ' :: (s.display.toList ++ [' ']) ++ text) (⟨.symbol s, place⟩ :: tokens) := by
  intro run hRun
  obtain ⟨pieces, hText, hRead, hMarks, -⟩ := h [' '] rfl
  have hClosed : (run ++ [' ']).foldlM blankStep false = some false := by
    rw [List.foldlM_append, hRun]
    rfl
  have hDisplay : ∀ c ∈ s.display.toList.head?, blankStep false c = none := by
    cases s <;> rintro c ⟨⟩ <;> decide
  have hReads : (Piece.symbol s).Reads (spelled pieces ++ []) := by
    refine ⟨by cases s <;> decide, by simp [Piece.symbol], read_display s ?_⟩
    rw [List.append_nil, hText]
    simp
  refine ⟨leading (run ++ [' ']) ++ Piece.symbol s :: pieces, ?_, ?_, ?_, ?_⟩
  · rw [spelled_append, spelled_leading, spelled_cons, hText]
    simp [Piece.symbol]
  · refine allRead_append.mpr ⟨allRead_leading (by rw [hClosed]; rfl) fun c hc => ?_, hReads, hRead⟩
    refine closedRun_ends hClosed (hDisplay c ?_)
    revert hc
    cases s <;> simp [Piece.symbol, Symbol.display]
  · rw [List.map_append, marks_leading]
    show (_, _) :: marks (pieces.map Piece.token) = (_, _) :: marks tokens
    rw [hMarks]
    simp [Token.isSymbol, Piece.token, Piece.symbol, hBackslash]
  · rw [List.map_append, namesParameter_leading]
    exact (Bool.and_false _).trans (Bool.and_false _).symm

/-- Whether the name of a parameter comes first is told by the first token. -/
theorem namesParameter_cons (t : Token) (ts ts' : List Token) :
    namesParameter (t :: ts) = namesParameter (t :: ts') := by
  unfold namesParameter
  split <;> simp_all

/-- A text in which aliases are respelled is the text up to the first blank that is put in. -/
theorem cutShort_respelled (a : Aliases) (pieces : List Piece) :
    CutShort (spelled pieces) (a.respelled (pieces.map Piece.token) (pieces.map Piece.chars)) := by
  induction pieces with
  | nil => exact .ended _
  | cons piece pieces ih =>
    show CutShort (piece.chars ++ spelled pieces) (a.respelling piece.token piece.chars ++ _)
    rcases a.respelling_cases piece.token piece.chars with ⟨-, s, -, -, -, hSpelling⟩ | ⟨-, hSpelling⟩
    · rw [hSpelling]
      exact .blank _ (by simp) _
    · rw [hSpelling]
      exact ih.append _

/-- What is no blank is read in front of the text as in front of what the text stands for. -/
theorem kept {rest : List Char} (hReads : piece.Reads rest) (hCut : CutShort rest text)
    (hBlank : ∀ content, piece.content ≠ .blank content) (h : ReadsAs text tokens) :
    ReadsAs (piece.chars ++ text) (piece.token :: tokens) := by
  intro run hRun
  obtain ⟨pieces, hText, hRead, hMarks, hName⟩ := h [] rfl
  have hReads' : piece.Reads (spelled pieces ++ []) := by
    rw [List.append_nil, hText]
    exact hReads.cutShort hBlank hCut
  refine ⟨leading run ++ piece :: pieces, ?_, ?_, ?_, ?_⟩
  · rw [spelled_append, spelled_leading, spelled_cons, hText]
    rfl
  · refine allRead_append.mpr ⟨allRead_leading (by rw [hRun]; rfl) fun c hc => ?_, hReads', hRead⟩
    refine closedRun_ends hRun (blankStep_of_read hReads.read hBlank c ?_)
    obtain ⟨d, ds, hChars⟩ := List.exists_cons_of_ne_nil hReads.nonempty
    rw [spelled_cons, hChars] at hc
    rw [hChars]
    exact hc
  · have hSolid : piece.token.isBlank = false := isBlank_eq_false hBlank .unknown
    rw [List.map_append, marks_leading, List.map_cons, Grammar.marks, Grammar.marks, hSolid]
    rw [if_neg (by simp), if_neg (by simp), hMarks, hName]
    rfl
  · rw [List.map_append, namesParameter_leading, List.map_cons,
      namesParameter_cons piece.token _ tokens]

/-- **The respelled text is read as the tokens in which aliases are replaced**, if none of them stands
for a backslash. -/
theorem respelled (a : Aliases) {pieces : List Piece} (h : AllRead pieces [])
    (hBackslash : a.NoneBackslash (pieces.map Piece.token)) :
    ReadsAs (a.respelled (pieces.map Piece.token) (pieces.map Piece.chars))
      (a.apply (pieces.map Piece.token)) := by
  induction pieces with
  | nil => exact .nil
  | cons piece pieces ih =>
    obtain ⟨hReads, hPieces⟩ := h
    rw [List.append_nil] at hReads
    obtain ⟨hFirst, hLater⟩ := List.forall_mem_cons.mp hBackslash
    have hText := ih hPieces hLater
    rw [List.map_cons, List.map_cons, Aliases.respelled_cons, Aliases.apply_cons]
    rcases a.respelling_cases piece.token piece.chars with
      ⟨name, s, hName, hLookup, hToken, hSpelling⟩ | ⟨hToken, hSpelling⟩
    · rw [hToken, hSpelling]
      exact hText.symbol (fun hs => hFirst name hName (hs ▸ hLookup)) _
    rw [hToken, hSpelling]
    by_cases hBlank : ∃ content, piece.content = .blank content
    · obtain ⟨content, hContent⟩ := hBlank
      obtain ⟨hRun, hEnds⟩ := hReads.run hContent
      cases pieces with
      | nil =>
        have hOpen := openComment hContent hRun
        rwa [← List.append_nil piece.chars] at hOpen
      | cons next more =>
        -- an open comment would go on with what follows
        obtain ⟨c, cs, hNext⟩ := List.exists_cons_of_ne_nil hPieces.1.nonempty
        have hClosed := closed_of_ends hRun (hEnds c (by rw [spelled_cons, hNext]; rfl))
        exact hText.blank hContent hClosed hReads.nonempty
    · exact hText.kept hReads (cutShort_respelled a pieces) (not_exists.mp hBlank)

end ReadsAs

-- ---------------------------------------------------------------------------
-- Tokens and pieces
-- ---------------------------------------------------------------------------

/-- What is read as some tokens is read piece by piece, and the pieces have the slices of the tokens. -/
theorem ReadsOver.pieces {done cs : List Char} {tokens : List Token}
    (h : ReadsOver defaultPrefixUnits [] (placeAfter done) cs tokens) :
    ∃ pieces, spelled pieces = cs ∧ AllRead pieces [] ∧
      pieces.map Piece.content = tokens.map Token.content ∧
      Partitions defaultPrefixUnits done cs tokens (pieces.map Piece.chars) := by
  generalize hPlace : placeAfter done = p at h
  induction h generalizing done with
  | done p => exact ⟨[], rfl, trivial, rfl, partitions_nil _ done⟩
  | @token p content taken front tokens hRead hKnown _ ih =>
    subst hPlace
    obtain ⟨pieces, rfl, hPieces, hContents, hSlices⟩ := ih (placeAfter_append done taken)
    have hSlice := read_isSlice hRead hKnown
    rw [List.append_nil] at hSlice
    exact ⟨⟨taken, content⟩ :: pieces, rfl, ⟨⟨hSlice.nonempty, hKnown, hRead⟩, hPieces⟩,
      congrArg (content :: ·) hContents, hSlices.cons hSlice⟩

theorem tokensFrom_read {fuel : Nat} (done : List Char) {cs : List Char} {tokens : List Token}
    (hFuel : cs.length ≤ fuel)
    (h : tokensFrom (symbolUnits defaultPrefixUnits) fuel (placeAfter done) cs = .ok tokens) :
    ∃ pieces, spelled pieces = cs ∧ AllRead pieces [] ∧
      pieces.map Piece.content = tokens.map Token.content ∧
      Partitions defaultPrefixUnits done cs tokens (pieces.map Piece.chars) := by
  rw [tokensFrom_enough hFuel] at h
  exact (tokensAt_eq_ok_iff.mp h).pieces

/-- No mark of the end is read. -/
theorem Piece.Reads.token_isFinish {piece : Piece} {rest : List Char} (h : piece.Reads rest) :
    piece.token.isFinish = false := by
  have hLexeme := (read_isSlice h.read h.known).lexeme
  unfold Piece.token
  generalize piece.content = content, piece.chars = chars at hLexeme ⊢
  cases hLexeme <;> rfl

/-- Pieces that are read hold no mark of the end. -/
theorem AllRead.significant {pieces : List Piece} {rest : List Char} (h : AllRead pieces rest) :
    Grammar.significant (pieces.map Piece.token) = pieces.map Piece.token := by
  induction pieces with
  | nil => rfl
  | cons piece pieces ih =>
    have hPieces := ih h.2
    unfold Grammar.significant at hPieces ⊢
    rw [List.map_cons, List.filter_cons, h.1.token_isFinish, if_pos (by rfl), hPieces]

end Lexer

-- ---------------------------------------------------------------------------
-- Places
-- ---------------------------------------------------------------------------

/-- A token without its place. -/
def Token.unplaced (t : Token) : Token :=
  ⟨t.content, .unknown⟩

theorem map_unplaced {pieces : List Piece} {tokens : List Token}
    (h : pieces.map Piece.content = tokens.map Token.content) :
    pieces.map Piece.token = tokens.map Token.unplaced := by
  have hPlaced := congrArg (List.map fun content => (⟨content, .unknown⟩ : Token)) h
  rwa [List.map_map, List.map_map] at hPlaced

theorem marks_unplaced (tokens : List Token) : marks (tokens.map Token.unplaced) = marks tokens := by
  have hName : ∀ ts : List Token, namesParameter (ts.map Token.unplaced) = namesParameter ts := by
    intro ts
    cases ts with
    | nil => rfl
    | cons t ts =>
      obtain ⟨content, place⟩ := t
      cases content <;> rfl
  induction tokens with
  | nil => rfl
  | cons t tokens ih =>
    rw [List.map_cons, Grammar.marks, Grammar.marks, ih, hName]
    rfl

theorem significant_unplaced (tokens : List Token) :
    Grammar.significant (tokens.map Token.unplaced) =
      (Grammar.significant tokens).map Token.unplaced := by
  unfold Grammar.significant
  rw [List.filter_map]
  rfl

namespace Aliases

theorem applyTo_unplaced (a : Aliases) (t : Token) :
    a.applyTo t.unplaced = (a.applyTo t).unplaced := by
  obtain ⟨content, place⟩ := t
  cases content with
  | ident name =>
    unfold applyTo token? Token.unplaced
    dsimp only
    cases a.table.lookup name <;> rfl
  | _ => rfl

theorem apply_unplaced (a : Aliases) (tokens : List Token) :
    a.apply (tokens.map Token.unplaced) = (a.apply tokens).map Token.unplaced := by
  unfold apply
  rw [List.map_map, List.map_map]
  exact List.map_congr_left fun t _ => a.applyTo_unplaced t

theorem significant_apply (a : Aliases) (tokens : List Token) :
    Grammar.significant (a.apply tokens) = a.apply (Grammar.significant tokens) := by
  have hFinish : ∀ t : Token, (a.applyTo t).isFinish = t.isFinish := by
    intro t
    rcases a.respelling_cases t [] with ⟨name, s, hName, -, hToken, -⟩ | ⟨hToken, -⟩
    · rw [hToken]
      simp [Token.isFinish, hName]
    · rw [hToken]
  unfold Grammar.significant apply
  rw [List.filter_map]
  refine congrArg _ (List.filter_congr fun t _ => ?_)
  rw [Function.comp_apply, hFinish]

end Aliases

-- ---------------------------------------------------------------------------
-- Meaning
-- ---------------------------------------------------------------------------

/-- The tokens that pieces are read as are the pieces, but for the places and the mark of the end. -/
theorem significant_of_pieces {pieces : List Piece} {tokens : List Token} (hRead : AllRead pieces [])
    (hContents : pieces.map Piece.content = tokens.map Token.content) :
    (Grammar.significant tokens).map Token.unplaced = pieces.map Piece.token := by
  rw [← significant_unplaced, ← map_unplaced hContents, hRead.significant]

/-- What the grammar sees of tokens it sees of the pieces that are read as them. -/
theorem marks_of_pieces {pieces : List Piece} {tokens : List Token} (a : Aliases)
    (hRead : AllRead pieces []) (hContents : pieces.map Piece.content = tokens.map Token.content) :
    marks (Grammar.significant (a.apply tokens)) = marks (a.apply (pieces.map Piece.token)) := by
  rw [← significant_of_pieces hRead hContents, a.apply_unplaced, marks_unplaced, a.significant_apply]

end Reckoner
