import Reckoner.Proofs.Alias.Respelling

/-!
# Margins

Spaces and tabs at the ends of a text do not matter: the text with them is tokenized when the text
without them is, and to the same tokens but for their places and for blanks at the ends
(`SameButEnds`). The grammar sees nothing of either, so the trees are the same, places aside.

A margin behind a text is a blank of its own, or it goes on with a comment that stands last; every
other token is read in front of a margin as it is read at the end (`AllRead.padded`). For the way back
it matters that no token but a blank ends with a blank (`endsSolid_of_isLexeme`), so that the end of
the text is the end of a token (`AllRead.unpadded`). A margin in front of a text is a blank of its own
unless the text starts with more blanks or with a comment.

## Results

* `AllRead.padded`, `AllRead.unpadded` — a margin may be put behind a text and taken away.
* `readsAlike_margins`                 — a text and the text with margins have the same tree.
-/

namespace Reckoner

open Unicode (isDecimalDigit)
open Grammar (marks namesParameter)

-- ---------------------------------------------------------------------------
-- Tokens that differ at the end
-- ---------------------------------------------------------------------------

/-- The same tokens, but for blanks at the end of both. -/
inductive SameButEnds : List Token → List Token → Prop
  | ended {ends ends' : List Token} (blank : ∀ t ∈ ends, t.isBlank = true)
      (blank' : ∀ t ∈ ends', t.isBlank = true) : SameButEnds ends ends'
  | cons (t : Token) {ts ts' : List Token} (more : SameButEnds ts ts') :
      SameButEnds (t :: ts) (t :: ts')

theorem marks_blanks {ts : List Token} (h : ∀ t ∈ ts, t.isBlank = true) : marks ts = [] := by
  induction ts with
  | nil => rfl
  | cons t ts ih =>
    obtain ⟨hBlank, hMore⟩ := List.forall_mem_cons.mp h
    rw [marks, if_pos hBlank, ih hMore]

theorem namesParameter_blanks {ts : List Token} (h : ∀ t ∈ ts, t.isBlank = true) :
    namesParameter ts = false := by
  cases ts with
  | nil => rfl
  | cons t ts =>
    obtain ⟨text, hText⟩ := Lexer.isBlank_content (h t List.mem_cons_self)
    obtain ⟨content, place⟩ := t
    obtain rfl : content = .blank text := hText
    rfl

namespace SameButEnds

variable {ts ts' : List Token}

theorem namesParameter_eq (h : SameButEnds ts ts') : namesParameter ts = namesParameter ts' := by
  cases h with
  | ended blank blank' => rw [namesParameter_blanks blank, namesParameter_blanks blank']
  | cons t more =>
    obtain ⟨content, place⟩ := t
    cases content <;> rfl

/-- The grammar sees no blanks at the end. -/
theorem marks_eq (h : SameButEnds ts ts') : marks ts = marks ts' := by
  induction h with
  | ended blank blank' => rw [marks_blanks blank, marks_blanks blank']
  | cons t more ih => rw [marks, marks, ih, more.namesParameter_eq]

theorem apply (a : Aliases) (h : SameButEnds ts ts') : SameButEnds (a.apply ts) (a.apply ts') := by
  have hBlanks {ends : List Token} (hEnds : ∀ t ∈ ends, t.isBlank = true) :
      ∀ t ∈ a.apply ends, t.isBlank = true := by
    intro t ht
    obtain ⟨u, hu, rfl⟩ := List.mem_map.mp ht
    obtain ⟨text, hText⟩ := Lexer.isBlank_content (hEnds u hu)
    obtain ⟨content, place⟩ := u
    obtain rfl : content = .blank text := hText
    rfl
  induction h with
  | ended blank blank' => exact .ended (hBlanks blank) (hBlanks blank')
  | cons t more ih => exact .cons (a.applyTo t) ih

end SameButEnds

namespace Lexer

-- ---------------------------------------------------------------------------
-- Ends of tokens
-- ---------------------------------------------------------------------------

/-- A text whose last character is no blank. -/
def EndsSolid (taken : List Char) : Prop :=
  ∃ front c, taken = front ++ [c] ∧ c ∉ blankChars

theorem EndsSolid.append {taken : List Char} (h : EndsSolid taken) (front : List Char) :
    EndsSolid (front ++ taken) := by
  obtain ⟨more, c, rfl, hc⟩ := h
  exact ⟨front ++ more, c, (List.append_assoc ..).symm, hc⟩

/-- A text that holds no blank ends with none. -/
theorem endsSolid_of_forall {taken : List Char} (hSome : taken ≠ [])
    (h : ∀ c ∈ taken, c ∉ blankChars) : EndsSolid taken := by
  obtain ⟨front, c, rfl⟩ := (List.eq_nil_or_concat' taken).resolve_left hSome
  exact ⟨front, c, rfl, h c (List.mem_append_right _ List.mem_cons_self)⟩

theorem AreDecimal.endsSolid {ds : List Char} (h : AreDecimal ds) : EndsSolid ds :=
  endsSolid_of_forall h.1 fun c hc => not_blank_of_isDecimalDigit (h.2 c hc)

/-- A numeral ends with a digit, whichever of its parts is the last. -/
theorem IsNumeral.endsSolid {n : Numeral} (h : IsNumeral n) : EndsSolid n.text := by
  obtain ⟨whole, fraction, exponent⟩ := n
  unfold Numeral.text
  cases exponent with
  | some e =>
    obtain ⟨-, -, hDigits⟩ := h.exponent e rfl
    exact ((hDigits.endsSolid.append e.sign.toList).append [e.mark]).append _
  | none =>
    rw [Option.elim_none, List.append_nil]
    cases fraction with
    | some ds => exact ((h.fraction ds rfl).endsSolid.append ['.']).append _
    | none =>
      rw [Option.elim_none, List.append_nil]
      exact h.whole.endsSolid

/-- **No token but a blank ends with a blank.** -/
theorem endsSolid_of_isLexeme {units : List String} {content : Content} {taken rest : List Char}
    (hUnits : ∀ u ∈ units, ∀ c ∈ u.toList, c ∉ blankChars)
    (h : IsLexeme units rest content taken) (hBlank : ∀ text, content ≠ .blank text) :
    EndsSolid taken := by
  have hWord {word : List Char} (hWord : IsWord word rest) : EndsSolid word := by
    refine endsSolid_of_forall ?_ fun c hc hBlank => ?_
    · rintro rfl
      cases hWord.starts
    · cases (isWordChar_blank c hBlank).symm.trans (hWord.inside c hc)
  cases h with
  | blank blanks ends => exact absurd rfl (hBlank _)
  | word complete free => exact hWord complete
  | keyword complete spells => exact hWord complete
  | unit listed sign =>
    refine endsSolid_of_forall ?_ (hUnits _ listed)
    intro hNil
    rw [isSymbolUnit, hNil] at sign
    cases sign
  | operator operator =>
    exact endsSolid_of_forall (operator_length _ operator.spells).1
      (operatorSpellings_blank _ operator.spells)
  | number numeral value ends => exact numeral.endsSolid
  | string quote_mem quotes =>
    rename_i quote body text
    refine ⟨quote :: body, quote, rfl, ?_⟩
    have hQuotes : ∀ c ∈ ['"', '\''], c ∉ blankChars := List.all_iff_forall_prop.mp (by decide)
    exact hQuotes quote quote_mem

-- ---------------------------------------------------------------------------
-- Margins
-- ---------------------------------------------------------------------------

/-- Spaces and tabs. -/
def IsMargin (run : List Char) : Prop :=
  ∀ c ∈ run, c ∈ [' ', '\t']

instance (run : List Char) : Decidable (IsMargin run) :=
  decidable_of_iff _ List.all_iff_forall_prop

theorem IsMargin.isBlank {run : List Char} (h : IsMargin run) : ∀ c ∈ run, c ∈ blankChars := by
  have hChars : ∀ c ∈ [' ', '\t'], c ∈ blankChars := List.all_iff_forall_prop.mp (by decide)
  exact fun c hc => hChars c (h c hc)

/-- A margin goes on with any run of blanks and closes no comment. -/
theorem IsMargin.steps {run : List Char} (h : IsMargin run) (comment : Bool) :
    run.foldlM blankStep comment = some comment := by
  have hStep : ∀ c ∈ [' ', '\t'], ∀ comment, blankStep comment c = some comment :=
    List.all_iff_forall_prop.mp (by decide)
  induction run with
  | nil => rfl
  | cons c run ih =>
    obtain ⟨hc, hMore⟩ := List.forall_mem_cons.mp h
    rw [List.foldlM_cons, hStep c hc]
    exact ih hMore

theorem IsMargin.steps_append {front run : List Char} (h : IsMargin run)
    (hFront : (front.foldlM blankStep false).isSome = true) :
    ((front ++ run).foldlM blankStep false).isSome = true := by
  obtain ⟨comment, hComment⟩ := Option.isSome_iff_exists.mp hFront
  rw [List.foldlM_append, hComment]
  exact Option.isSome_iff_exists.mpr ⟨comment, h.steps comment⟩

/-- A margin ends every text. -/
theorem IsMargin.cutShort {run : List Char} (h : IsMargin run) : CutShort [] run := by
  cases run with
  | nil => exact .ended []
  | cons c run => exact .blank [] (h.isBlank c List.mem_cons_self) run

-- ---------------------------------------------------------------------------
-- Blanks among pieces
-- ---------------------------------------------------------------------------

/-- The piece of a run of blanks. -/
def Piece.blank (run : List Char) : Piece :=
  ⟨run, .blank (String.ofList run)⟩

theorem Piece.blank_reads {run rest : List Char} (hSome : run ≠ [])
    (hRun : (run.foldlM blankStep false).isSome = true)
    (hRest : ∀ c ∈ rest.head?, (run ++ [c]).foldlM blankStep false = none) :
    (Piece.blank run).Reads rest :=
  ⟨hSome, fun _ => by simp [blank], read_blankRun _ hSome hRun hRest⟩

theorem Piece.blank_isBlank (run : List Char) :
    ∀ t ∈ [Piece.blank run].map Piece.token, t.isBlank = true := by
  intro t ht
  obtain rfl := List.mem_singleton.mp ht
  rfl

theorem allRead_blank {run : List Char} (hSome : run ≠ [])
    (hRun : (run.foldlM blankStep false).isSome = true) : AllRead [Piece.blank run] [] :=
  allRead_cons.mpr ⟨Piece.blank_reads hSome hRun (by simp), allRead_nil []⟩

/-- A piece is a blank or it is none. -/
theorem Piece.blank_or (piece : Piece) :
    (∃ text, piece.content = .blank text) ∨ ∀ text, piece.content ≠ .blank text := by
  by_cases h : ∃ text, piece.content = .blank text
  · exact Or.inl h
  · exact Or.inr fun text hText => h ⟨text, hText⟩

/-- A piece that is a blank is the piece of its characters. -/
theorem Piece.Reads.eq_blank {piece : Piece} {rest : List Char} (h : piece.Reads rest) {text : String}
    (hBlank : piece.content = .blank text) : piece = Piece.blank piece.chars := by
  have hRead := h.read
  rw [hBlank] at hRead
  have hContent : piece.content = .blank (String.ofList piece.chars) :=
    hBlank.trans (congrArg Content.blank (blank_of_read hRead).1)
  exact congrArg (Piece.mk piece.chars) hContent

/-- A blank is read in the same way in front of what starts with the same character, and at the end. -/
theorem Piece.Reads.sameHead {piece : Piece} {rest rest' : List Char} (h : piece.Reads rest)
    {text : String} (hBlank : piece.content = .blank text)
    (hHead : ∀ c ∈ rest'.head?, c ∈ rest.head?) : piece.Reads rest' := by
  have hRead := h.read
  rw [hBlank] at hRead
  refine ⟨h.nonempty, h.known, ?_⟩
  rw [hBlank]
  exact read_sameHead hRead hHead

-- ---------------------------------------------------------------------------
-- A margin behind a text
-- ---------------------------------------------------------------------------

/-- **A margin may be put behind a text that is read.** -/
theorem AllRead.padded {pieces : List Piece} {tail : List Char} (hTail : IsMargin tail)
    (h : AllRead pieces []) :
    ∃ pieces', spelled pieces' = spelled pieces ++ tail ∧ AllRead pieces' [] ∧
      SameButEnds (pieces.map Piece.token) (pieces'.map Piece.token) := by
  induction pieces with
  | nil =>
    by_cases hSome : tail = []
    · exact ⟨[], hSome ▸ rfl, trivial, .ended (by simp) (by simp)⟩
    · refine ⟨[.blank tail], List.append_nil tail, ?_, .ended (by simp) (Piece.blank_isBlank tail)⟩
      exact allRead_blank hSome (Option.isSome_iff_exists.mpr ⟨false, hTail.steps false⟩)
  | cons piece pieces ih =>
    obtain ⟨hReads, hMore⟩ := allRead_cons.mp h
    obtain ⟨pieces', hText, hMore', hSame⟩ := ih hMore
    rw [List.append_nil] at hReads
    have hCons (hReads' : piece.Reads (spelled pieces')) :
        ∃ pieces'', spelled pieces'' = spelled (piece :: pieces) ++ tail ∧ AllRead pieces'' [] ∧
          SameButEnds ((piece :: pieces).map Piece.token) (pieces''.map Piece.token) := by
      refine ⟨piece :: pieces', ?_, ⟨?_, hMore'⟩, .cons _ hSame⟩
      · rw [spelled_cons, spelled_cons, hText, List.append_assoc]
      · rwa [List.append_nil]
    rcases piece.blank_or with ⟨text, hBlank⟩ | hSolid
    · cases pieces with
      | nil =>
        -- the margin goes on with the blank that stands last
        have hRun := hTail.steps_append (hReads.run hBlank).1
        have hSome : piece.chars ++ tail ≠ [] := by simp [hReads.nonempty]
        refine ⟨[.blank (piece.chars ++ tail)], ?_, allRead_blank hSome hRun, .ended ?_ ?_⟩
        · simp [Piece.blank]
        · rw [hReads.eq_blank hBlank]
          exact Piece.blank_isBlank piece.chars
        · exact Piece.blank_isBlank (piece.chars ++ tail)
      | cons next pieces =>
        refine hCons (hReads.sameHead hBlank fun c hc => ?_)
        obtain ⟨d, more, hNext⟩ := List.exists_cons_of_ne_nil hMore.1.nonempty
        rw [hText, spelled_cons, hNext] at hc
        rw [spelled_cons, hNext]
        exact hc
    · refine hCons (hReads.cutShort hSolid ?_)
      have hCut := hTail.cutShort.append (spelled pieces)
      rwa [List.append_nil, ← hText] at hCut

/-- A piece that ends with a blank is a blank. -/
theorem Piece.Reads.isBlank_of_end {piece : Piece} {rest front : List Char} {c : Char}
    (h : piece.Reads rest) (hEnd : piece.chars = front ++ [c]) (hc : c ∈ blankChars) :
    ∃ text, piece.content = .blank text := by
  refine piece.blank_or.resolve_right fun hSolid => ?_
  obtain ⟨front', c', hSame, hSolidEnd⟩ :=
    endsSolid_of_isLexeme defaultPrefixUnits_blank (read_isSlice h.read h.known).lexeme hSolid
  obtain ⟨-, rfl⟩ := List.append_singleton_inj.mp (hEnd.symm.trans hSame)
  exact hSolidEnd hc

/-- All pieces of a margin are blanks. -/
theorem IsMargin.pieces {pieces : List Piece} (hMargin : IsMargin (spelled pieces))
    (h : AllRead pieces []) : ∀ t ∈ pieces.map Piece.token, t.isBlank = true := by
  induction pieces with
  | nil => exact List.forall_mem_nil _
  | cons piece pieces ih =>
    obtain ⟨hReads, hMore⟩ := allRead_cons.mp h
    obtain ⟨front, c, hEnd⟩ := (List.eq_nil_or_concat' piece.chars).resolve_left hReads.nonempty
    have hc : c ∈ spelled (piece :: pieces) := by simp [hEnd]
    obtain ⟨text, hBlank⟩ := hReads.isBlank_of_end hEnd (hMargin.isBlank c hc)
    refine List.forall_mem_cons.mpr ⟨?_, ih (fun d hd => ?_) hMore⟩
    · rw [hReads.eq_blank hBlank]
      rfl
    · exact hMargin d (List.mem_append_right _ hd)

/-- **A margin may be taken away behind a text that is read.** -/
theorem AllRead.unpadded {pieces : List Piece} {core tail : List Char} (hTail : IsMargin tail)
    (h : AllRead pieces []) (hText : spelled pieces = core ++ tail) :
    ∃ pieces', spelled pieces' = core ∧ AllRead pieces' [] ∧
      SameButEnds (pieces'.map Piece.token) (pieces.map Piece.token) := by
  induction pieces generalizing core with
  | nil =>
    obtain ⟨rfl, -⟩ := List.append_eq_nil_iff.mp hText.symm
    exact ⟨[], rfl, trivial, .ended (by simp) (by simp)⟩
  | cons piece pieces ih =>
    obtain ⟨hReads, hMore⟩ := allRead_cons.mp h
    rw [List.append_nil] at hReads
    have hWithin {core' : List Char} (hCore : core = piece.chars ++ core')
        (hRest : spelled pieces = core' ++ tail) :
        ∃ pieces', spelled pieces' = core ∧ AllRead pieces' [] ∧
          SameButEnds (pieces'.map Piece.token) ((piece :: pieces).map Piece.token) := by
      obtain ⟨pieces', rfl, hMore', hSame⟩ := ih hMore hRest
      refine ⟨piece :: pieces', hCore.symm, allRead_cons.mpr ⟨?_, hMore'⟩, .cons _ hSame⟩
      rw [List.append_nil]
      rcases piece.blank_or with ⟨text, hBlank⟩ | hSolid
      · refine hReads.sameHead hBlank fun c hc => ?_
        rw [hRest, List.head?_append, Option.mem_def.mp hc]
        rfl
      · refine hReads.cutShort hSolid ?_
        have hCut := (CutShort.ended tail).append (spelled pieces')
        rwa [List.append_nil, ← hRest] at hCut
    rcases List.append_eq_append_iff.mp hText with ⟨core', hCore, hRest⟩ | ⟨beyond, hChars, hBeyond⟩
    · exact hWithin hCore hRest
    have hBeyond : tail = beyond ++ spelled pieces := hBeyond
    by_cases hNone : beyond = []
    · rw [hNone, List.append_nil] at hChars
      rw [hNone, List.nil_append] at hBeyond
      exact hWithin (hChars.symm.trans (List.append_nil _).symm) hBeyond.symm
    · -- the piece goes on into the margin, so it is a blank, and so is all behind it
      obtain ⟨front, c, rfl⟩ := (List.eq_nil_or_concat' beyond).resolve_left hNone
      have hc : c ∈ tail := by simp [hBeyond]
      have hEnd : piece.chars = (core ++ front) ++ [c] := by rw [hChars, List.append_assoc]
      obtain ⟨text, hBlank⟩ := hReads.isBlank_of_end hEnd (hTail.isBlank c hc)
      have hBehind : ∀ t ∈ pieces.map Piece.token, t.isBlank = true := by
        refine IsMargin.pieces (fun d hd => hTail d ?_) hMore
        rw [hBeyond]
        exact List.mem_append_right _ hd
      have hAll : ∀ t ∈ (piece :: pieces).map Piece.token, t.isBlank = true := by
        refine List.forall_mem_cons.mpr ⟨?_, hBehind⟩
        rw [hReads.eq_blank hBlank]
        rfl
      by_cases hEmpty : core = []
      · exact ⟨[], hEmpty.symm, trivial, .ended (by simp) hAll⟩
      · have hRun := (hReads.run hBlank).1
        rw [hChars, List.foldlM_append] at hRun
        have hCore : (core.foldlM blankStep false).isSome = true := by
          cases hSteps : core.foldlM blankStep false with
          | none => rw [hSteps] at hRun; cases hRun
          | some comment => rfl
        exact ⟨[.blank core], List.append_nil core, allRead_blank hEmpty hCore,
          .ended (Piece.blank_isBlank core) hAll⟩

-- ---------------------------------------------------------------------------
-- A margin in front of a text
-- ---------------------------------------------------------------------------

/-- A margin in front of a text that does not go on with blanks is a piece of its own. -/
theorem reads_behind_margin {lead core : List Char} (hLead : IsMargin lead) (hSome : lead ≠ [])
    (hCore : ∀ c ∈ core.head?, blankStep false c = none) :
    (Piece.blank lead).Reads core := by
  refine Piece.blank_reads hSome (Option.isSome_iff_exists.mpr ⟨false, hLead.steps false⟩) ?_
  intro c hc
  rw [List.foldlM_append, hLead.steps]
  show [c].foldlM blankStep false = none
  rw [List.foldlM_cons, hCore c hc]
  rfl

/-- The first piece of a text behind a margin is the margin. -/
theorem AllRead.behind_margin {pieces : List Piece} {lead core : List Char} (hLead : IsMargin lead)
    (hSome : lead ≠ []) (hCore : ∀ c ∈ core.head?, blankStep false c = none)
    (h : AllRead pieces []) (hText : spelled pieces = lead ++ core) :
    ∃ more, pieces = .blank lead :: more ∧ AllRead more [] ∧ spelled more = core := by
  cases pieces with
  | nil =>
    obtain ⟨hNone, -⟩ := List.append_eq_nil_iff.mp hText.symm
    exact absurd hNone hSome
  | cons piece more =>
    obtain ⟨hReads, hMore⟩ := allRead_cons.mp h
    have hRead := hReads.read
    have hMargin : read (symbolUnits defaultPrefixUnits) (lead ++ core) =
        .token (.blank (String.ofList lead)) lead core :=
      (reads_behind_margin hLead hSome hCore).read
    rw [List.append_nil, show piece.chars ++ spelled more = lead ++ core from hText, hMargin] at hRead
    obtain ⟨hContent, hChars, hRest⟩ := Reading.token.inj hRead
    refine ⟨more, ?_, hMore, hRest.symm⟩
    obtain ⟨chars, content⟩ := piece
    rw [show chars = lead from hChars.symm, show content = _ from hContent.symm]
    rfl

end Lexer

-- ---------------------------------------------------------------------------
-- Texts with margins
-- ---------------------------------------------------------------------------

open Lexer

/-- A text is tokenized, and the grammar cannot tell its tokens from the given ones, whatever aliases
are replaced in both. -/
def ReadsAlike (tokens : List Token) (source : String) : Prop :=
  ∃ tokens', tokenize defaultPrefixUnits source = .ok tokens' ∧
    ∀ a : Aliases, marks (Grammar.significant (a.apply tokens)) =
      marks (Grammar.significant (a.apply tokens'))

/-- Pieces that are the same but for blanks at the end are read alike. -/
theorem readsAlike_of_pieces {pieces pieces' : List Piece} {tokens : List Token} {source : String}
    (hRead : AllRead pieces []) (hContents : pieces.map Piece.content = tokens.map Token.content)
    (hRead' : AllRead pieces' []) (hSource : source.toList = spelled pieces')
    (hMarks : ∀ a : Aliases, marks (a.apply (pieces.map Piece.token)) =
      marks (a.apply (pieces'.map Piece.token))) : ReadsAlike tokens source := by
  obtain ⟨tokens', hTokens', hContents'⟩ := tokenize_pieces hSource hRead'
  refine ⟨tokens', hTokens', fun a => ?_⟩
  rw [marks_of_pieces a hRead hContents, marks_of_pieces a hRead' hContents'.symm, hMarks a]

/-- **Margins do not matter.** A text that starts with neither a blank nor a comment is tokenized if and
only if it is with margins, and the grammar cannot tell the tokens apart. -/
theorem readsAlike_margins {lead core tail : List Char} (hLead : IsMargin lead) (hTail : IsMargin tail)
    (hCore : ∃ c more, core = c :: more ∧ blankStep false c = none) :
    (∀ tokens, tokenize defaultPrefixUnits (String.ofList (lead ++ (core ++ tail))) = .ok tokens →
        ReadsAlike tokens (String.ofList core)) ∧
      ∀ tokens, tokenize defaultPrefixUnits (String.ofList core) = .ok tokens →
        ReadsAlike tokens (String.ofList (lead ++ (core ++ tail))) := by
  have hHead : ∀ c ∈ (core ++ tail).head?, blankStep false c = none := by
    obtain ⟨c, more, rfl, hc⟩ := hCore
    intro d hd
    obtain rfl : c = d := Option.some.inj hd
    exact hc
  have hMarksLead (a : Aliases) (pieces : List Piece) :
      marks (a.apply ((Piece.blank lead :: pieces).map Piece.token)) =
        marks (a.apply (pieces.map Piece.token)) := rfl
  constructor
  · intro tokens hTokens
    obtain ⟨pieces, hText, hRead, hContents, -⟩ := tokensFrom_read [] (Nat.le_refl _) hTokens
    rw [String.toList_ofList] at hText
    by_cases hSome : lead = []
    · rw [hSome, List.nil_append] at hText
      obtain ⟨pieces', hText', hRead', hSame⟩ := hRead.unpadded hTail hText
      exact readsAlike_of_pieces hRead hContents hRead' (String.toList_ofList.trans hText'.symm)
        fun a => (hSame.apply a).marks_eq.symm
    · obtain ⟨more, rfl, hMore, hText⟩ := hRead.behind_margin hLead hSome hHead hText
      obtain ⟨pieces', hText', hRead', hSame⟩ := hMore.unpadded hTail hText
      exact readsAlike_of_pieces hRead hContents hRead' (String.toList_ofList.trans hText'.symm)
        fun a => (hMarksLead a more).trans (hSame.apply a).marks_eq.symm
  · intro tokens hTokens
    obtain ⟨pieces, hText, hRead, hContents, -⟩ := tokensFrom_read [] (Nat.le_refl _) hTokens
    rw [String.toList_ofList] at hText
    obtain ⟨pieces', hText', hRead', hSame⟩ := hRead.padded hTail
    rw [hText] at hText'
    by_cases hSome : lead = []
    · refine readsAlike_of_pieces hRead hContents hRead' ?_ fun a => (hSame.apply a).marks_eq
      rw [String.toList_ofList, hSome, hText', List.nil_append]
    · have hBehind : AllRead (Piece.blank lead :: pieces') [] := by
        refine allRead_cons.mpr ⟨?_, hRead'⟩
        rw [List.append_nil, hText']
        exact reads_behind_margin hLead hSome hHead
      refine readsAlike_of_pieces hRead hContents hBehind ?_ fun a =>
        (hSame.apply a).marks_eq.trans (hMarksLead a pieces').symm
      rw [String.toList_ofList, spelled_cons, hText']
      rfl

end Reckoner
