import Mathlib.Data.List.TakeWhile
import Reckoner.Output
import Reckoner.Text.Lines

/-!
# Texts

Runs of characters at the start of a text, blanks at its ends, its lines, and the pieces between the
occurrences of a character.

## Results

* `takeWhile_run`     — a run ends where a character does not belong to it.
* `trim_trim`         — what is left without the blanks at both ends has none there.
* `splitLines_textOf` — lines that are each ended are the lines of their text.
-/

namespace Reckoner

/-- A run of characters ends where a character does not belong to it. -/
theorem takeWhile_run {p : Char → Bool} {run rest : List Char} (hRun : ∀ c ∈ run, p c = true)
    (hRest : ∀ c ∈ rest.head?, p c = false) :
    (run ++ rest).takeWhile p = run ∧ (run ++ rest).dropWhile p = rest := by
  rw [List.takeWhile_append_of_pos hRun, List.dropWhile_append_of_pos hRun]
  cases rest with
  | nil => simp
  | cons c rest => simp [hRest c rfl]

namespace Text

-- ---------------------------------------------------------------------------
-- Blanks at the ends
-- ---------------------------------------------------------------------------

/-- A text with no blank at its ends is what is left of it without those blanks. -/
theorem trim_of_ends {cs : List Char} (hStart : ∀ c ∈ cs.head?, Unicode.isBlank c = false)
    (hEnd : ∀ c ∈ cs.getLast?, Unicode.isBlank c = false) : trim cs = cs := by
  have hBare : ∀ cs : List Char, (∀ c ∈ cs.head?, Unicode.isBlank c = false) → trimStart cs = cs :=
    fun cs hCs => (@takeWhile_run Unicode.isBlank [] cs (by simp) hCs).2
  rw [trim, hBare cs hStart, hBare cs.reverse (List.head?_reverse ▸ hEnd), List.reverse_reverse]

/-- What is left of a text without the blanks at both ends starts with none. -/
theorem trim_starts {cs more : List Char} {c : Char} (h : trim cs = c :: more) :
    Unicode.isBlank c = false := by
  have hFront : trim cs <+: trimStart cs := by
    unfold trim
    rw [← List.reverse_suffix, List.reverse_reverse]
    exact List.dropWhile_suffix _
  obtain ⟨tail, hTail⟩ := hFront
  rw [h, List.cons_append] at hTail
  have hHead := List.head?_dropWhile_not Unicode.isBlank cs
  rw [show cs.dropWhile Unicode.isBlank = c :: (more ++ tail) from hTail.symm] at hHead
  exact hHead

/-- Nor does it end with one. -/
theorem trim_ends {cs : List Char} {c : Char} (h : c ∈ (trim cs).getLast?) :
    Unicode.isBlank c = false := by
  rw [trim, List.getLast?_reverse] at h
  have hHead := List.head?_dropWhile_not Unicode.isBlank (trimStart cs).reverse
  rw [show ((trimStart cs).reverse.dropWhile Unicode.isBlank).head? = some c from h] at hHead
  exact hHead

theorem trim_trim (cs : List Char) : trim (trim cs) = trim cs := by
  refine trim_of_ends (fun c hc => ?_) fun c hc => trim_ends hc
  obtain ⟨more, hMore⟩ := List.head?_eq_some_iff.mp hc
  exact trim_starts hMore

-- ---------------------------------------------------------------------------
-- Lines
-- ---------------------------------------------------------------------------

/-- A character that ends no line is put in front of the first line. -/
theorem linesOf_inside {c : Char} (h : Unicode.isLineEnd c = false) (cs : List Char) :
    linesOf (c :: cs) = match linesOf cs with
      | [] => [[c]]
      | line :: lines => (c :: line) :: lines := by
  have hReturn : Unicode.isLineEnd '\r' = true := by decide
  have hNoReturn : c ≠ '\r' := by
    rintro rfl
    cases hReturn.symm.trans h
  refine (linesOf.eq_3 c cs fun _ hc => absurd hc hNoReturn).trans (if_neg ?_)
  rw [h]
  exact Bool.false_ne_true

/-- A line that is ended is the first line of its text. -/
theorem linesOf_cons {line : List Char} (h : ∀ c ∈ line, Unicode.isLineEnd c = false)
    (rest : List Char) : linesOf (line ++ '\n' :: rest) = line :: linesOf rest := by
  have hNewline : Unicode.isLineEnd '\n' = true := by decide
  induction line with
  | nil =>
    rw [List.nil_append, linesOf, if_pos hNewline]
    simp
  | cons c line ih =>
    obtain ⟨hFirst, hMore⟩ := List.forall_mem_cons.mp h
    rw [List.cons_append, linesOf_inside hFirst, ih hMore]

/-- **Lines that are each ended are the lines of their text**, if no line has an end of line in it. -/
theorem splitLines_textOf {lines : List String}
    (h : ∀ line ∈ lines, ∀ c ∈ line.toList, Unicode.isLineEnd c = false) :
    splitLines (Output.textOf lines) = lines := by
  unfold splitLines Output.textOf
  induction lines with
  | nil => rfl
  | cons line lines ih =>
    obtain ⟨hFirst, hMore⟩ := List.forall_mem_cons.mp h
    rw [List.map_cons, String.join_cons, String.toList_append, String.toList_append]
    rw [List.append_assoc, show "\n".toList = ['\n'] from rfl, List.singleton_append,
      linesOf_cons hFirst, List.map_cons, ih hMore, String.ofList_toList]

/-- A text without a line end is one line, or none if it is empty. -/
theorem linesOf_alone {cs : List Char} (h : ∀ c ∈ cs, Unicode.isLineEnd c = false) :
    linesOf cs = if cs = [] then [] else [cs] := by
  induction cs with
  | nil => rfl
  | cons c cs ih =>
    obtain ⟨hFirst, hMore⟩ := List.forall_mem_cons.mp h
    rw [linesOf_inside hFirst, ih hMore, if_neg (List.cons_ne_nil c cs)]
    cases cs <;> rfl

/-- A text is cut at its first line end. -/
theorem exists_lineEnd (cs : List Char) :
    (∀ c ∈ cs, Unicode.isLineEnd c = false) ∨
      ∃ front c rest, cs = front ++ c :: rest ∧ (∀ d ∈ front, Unicode.isLineEnd d = false) ∧
        Unicode.isLineEnd c = true := by
  induction cs with
  | nil => exact Or.inl (List.forall_mem_nil _)
  | cons d cs ih =>
    cases hFirst : Unicode.isLineEnd d with
    | true => exact Or.inr ⟨[], d, cs, rfl, List.forall_mem_nil _, hFirst⟩
    | false =>
      rcases ih with hNone | ⟨front, c, rest, rfl, hFront, hEnd⟩
      · exact Or.inl (List.forall_mem_cons.mpr ⟨hFirst, hNone⟩)
      · exact Or.inr ⟨d :: front, c, rest, rfl, List.forall_mem_cons.mpr ⟨hFirst, hFront⟩, hEnd⟩

theorem newline_not_mem {cs : List Char} (h : ∀ c ∈ cs, Unicode.isLineEnd c = false) : '\n' ∉ cs := by
  have hNewline : Unicode.isLineEnd '\n' = true := by decide
  intro hMem
  cases hNewline.symm.trans (h _ hMem)

-- ---------------------------------------------------------------------------
-- Pieces
-- ---------------------------------------------------------------------------

theorem splitAt_of_not_mem {separator : Char} {piece : List Char} (h : separator ∉ piece) :
    splitAt separator piece = [piece] := by
  induction piece with
  | nil => rfl
  | cons c piece ih =>
    obtain ⟨hc, hPiece⟩ := not_or.mp (mt List.mem_cons.mpr h)
    rw [splitAt, if_neg (Ne.symm hc), ih hPiece]

theorem splitAt_append {separator : Char} {piece : List Char} (h : separator ∉ piece)
    (rest : List Char) :
    splitAt separator (piece ++ separator :: rest) = piece :: splitAt separator rest := by
  induction piece with
  | nil => rw [List.nil_append, splitAt, if_pos rfl]
  | cons c piece ih =>
    obtain ⟨hc, hPiece⟩ := not_or.mp (mt List.mem_cons.mpr h)
    rw [List.cons_append, splitAt, if_neg (Ne.symm hc), ih hPiece]

end Text

end Reckoner
