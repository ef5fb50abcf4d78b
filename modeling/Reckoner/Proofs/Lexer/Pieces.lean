import Reckoner.Proofs.Lexer.Stretches

/-!
# Texts in pieces

A text that is written is a list of pieces, each with the characters of one token and with what they
stand for. If every piece is read in front of those behind it, the text is tokenized to what its
pieces stand for. So a text is tokenized part by part, with no place and no fuel in sight.

## Results

* `allRead_append`    — pieces are read one after the other.
* `tokenize_pieces`   — a text is tokenized to what its pieces stand for.
* `tokenize_readable` — the tokens of a text have a spelling.
-/

namespace Reckoner

namespace Lexer

-- ---------------------------------------------------------------------------
-- Pieces
-- ---------------------------------------------------------------------------

/-- The characters of one token, and what they stand for. -/
structure Piece where
  chars : List Char
  content : Content

namespace Piece

def space : Piece :=
  ⟨[' '], .blank " "⟩

def symbol (y : Symbol) : Piece :=
  ⟨y.display.toList, .symbol y⟩

def ident (x : String) : Piece :=
  ⟨x.toList, .ident x⟩

def string (s : String) : Piece :=
  ⟨(Json.writeString s).toList, .string s⟩

def number (n : Numeral) (q : ℚ) : Piece :=
  ⟨n.text, .number (.fraction q)⟩

/-- A piece in front of a text is read as what it stands for. -/
structure Reads (piece : Piece) (rest : List Char) : Prop where
  nonempty : piece.chars ≠ []
  known : ∀ text, piece.content ≠ .stray text
  read : read (symbolUnits defaultPrefixUnits) (piece.chars ++ rest) =
    .token piece.content piece.chars rest

variable {rest : List Char}

theorem reads_space (hRest : ∀ c ∈ rest.head?, (blankStep false c).isSome = false) :
    space.Reads rest :=
  ⟨by simp [space], by simp [space], read_space _ hRest⟩

theorem reads_symbol {y : Symbol} (hArrow : y ≠ .arrow)
    (hRest : y ∉ selfEnding → ∀ c ∈ rest.head?, c = ' ') : (symbol y).Reads rest := by
  refine ⟨?_, by simp [symbol], read_symbol hArrow hRest⟩
  cases y <;> decide

theorem reads_ident {x : String} (h : IsName x) (hRest : ∀ c ∈ rest.head?, isWordChar c = false) :
    (ident x).Reads rest := by
  refine ⟨?_, by simp [ident], read_name h hRest⟩
  cases h <;> simp [ident]

theorem reads_string {s : String} (h : IsWritableText s) : (string s).Reads rest := by
  refine ⟨by simp [string, Json.writeString], by simp [string], ?_⟩
  have hRead := read_text h rest
  unfold string
  dsimp only
  exact hRead

theorem reads_number {n : Numeral} {q : ℚ} (hn : n.Regular) (hValue : n.value = .ok q)
    (hRest : EndsNumeral rest) : (number n q).Reads rest := by
  refine ⟨?_, by simp [number], read_numeral _ hn hValue hRest⟩
  simp [number, Numeral.text, hn.nonempty]

end Piece

-- ---------------------------------------------------------------------------
-- Texts
-- ---------------------------------------------------------------------------

/-- The text that some pieces make. -/
def spelled (pieces : List Piece) : List Char :=
  pieces.flatMap Piece.chars

@[simp] theorem spelled_nil : spelled [] = [] := rfl

@[simp] theorem spelled_cons (piece : Piece) (pieces : List Piece) :
    spelled (piece :: pieces) = piece.chars ++ spelled pieces := rfl

@[simp] theorem spelled_append (pieces pieces' : List Piece) :
    spelled (pieces ++ pieces') = spelled pieces ++ spelled pieces' :=
  List.flatMap_append

/-- Every piece is read in front of those behind it and of the rest. -/
def AllRead : List Piece → List Char → Prop
  | [], _ => True
  | piece :: pieces, rest => piece.Reads (spelled pieces ++ rest) ∧ AllRead pieces rest

@[simp] theorem allRead_nil (rest : List Char) : AllRead [] rest := trivial

@[simp] theorem allRead_cons {piece : Piece} {pieces : List Piece} {rest : List Char} :
    AllRead (piece :: pieces) rest ↔ piece.Reads (spelled pieces ++ rest) ∧ AllRead pieces rest :=
  Iff.rfl

/-- **Pieces are read one after the other.** -/
@[simp] theorem allRead_append {pieces pieces' : List Piece} {rest : List Char} :
    AllRead (pieces ++ pieces') rest ↔
      AllRead pieces (spelled pieces' ++ rest) ∧ AllRead pieces' rest := by
  induction pieces with
  | nil => simp
  | cons piece pieces ih =>
    rw [List.cons_append, allRead_cons, allRead_cons, ih, spelled_append, List.append_assoc,
      and_assoc]

/-- What is read piece by piece is a stretch, wherever it starts. -/
theorem AllRead.readsOver {pieces : List Piece} {rest : List Char} (h : AllRead pieces rest)
    (p : Place) : ∃ tokens, ReadsOver defaultPrefixUnits rest p (spelled pieces) tokens ∧
      tokens.map Token.content = pieces.map Piece.content := by
  induction pieces generalizing p with
  | nil => exact ⟨[], .done p, rfl⟩
  | cons piece pieces ih =>
    obtain ⟨hReads, hPieces⟩ := h
    obtain ⟨tokens, hTokens, hContents⟩ := ih hPieces (p.advance piece.chars)
    exact ⟨_, .token hReads.read hReads.known hTokens, congrArg (piece.content :: ·) hContents⟩

/-- **A text is tokenized to what its pieces stand for.** -/
theorem tokenize_pieces {source : String} {pieces : List Piece}
    (hSource : source.toList = spelled pieces) (h : AllRead pieces []) :
    ∃ tokens, tokenize defaultPrefixUnits source = .ok tokens ∧
      tokens.map Token.content = pieces.map Piece.content := by
  obtain ⟨tokens, hTokens, hContents⟩ := h.readsOver .start
  refine ⟨tokens, ?_, hContents⟩
  rw [tokenize_eq_tokensAt, hSource]
  exact tokensAt_eq_ok_iff.mpr hTokens

-- ---------------------------------------------------------------------------
-- What is tokenized
-- ---------------------------------------------------------------------------

theorem ReadsOver.readable {rest front : List Char} {p : Place} {tokens : List Token}
    (h : ReadsOver defaultPrefixUnits rest p front tokens) : ∀ t ∈ tokens, IsReadable t.content := by
  induction h with
  | done p => simp
  | token hRead _ _ ih => exact List.forall_mem_cons.mpr ⟨read_readable hRead, ih⟩

/-- **The tokens of a text have a spelling.** -/
theorem tokenize_readable {source : String} {tokens : List Token}
    (h : tokenize defaultPrefixUnits source = .ok tokens) : ∀ t ∈ tokens, IsReadable t.content :=
  (tokensAt_eq_ok_iff.mp h).readable

end Lexer

end Reckoner
