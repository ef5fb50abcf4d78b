import Mathlib.Algebra.Ring.Int.Defs
import Mathlib.Data.List.Induction
import Mathlib.Data.List.TakeWhile
import Reckoner.Place

/-!
# Places in a text

A place is carried along character by character. It can be told by counting as well: the line counts the
newlines that were passed, and the column the characters behind the last of them.

## Results

* `Place.advance_eq`    — the place behind some characters, by counting.
* `placeAfter_eq`       — the place behind the characters with which a text starts.
* `eq_of_placeAfter_eq` — no two beginnings of a text reach the same place.
-/

namespace Reckoner

/-- The place behind some characters: the line counts the newlines among them, and the column counts
the characters behind the last newline, or all of them where there is none. -/
theorem Place.advance_eq (p : Place) (taken : List Char) :
    p.advance taken = ⟨p.line + taken.count '\n',
      if '\n' ∈ taken then 1 + (taken.reverse.takeWhile (· ≠ '\n')).length
      else p.col + taken.length⟩ := by
  induction taken using List.reverseRecOn with
  | nil => simp
  | append_singleton taken c ih =>
    rw [Place.advance_append, ih, Place.advance_cons, Place.advance_nil]
    unfold Place.after
    by_cases hc : c = '\n'
    · simp [hc, add_assoc]
    · by_cases hNewline : '\n' ∈ taken
      · simp [hc, hNewline, add_comm]
      · simp [hc, Ne.symm hc, hNewline, add_assoc]

/-- The place behind some characters of one line. -/
theorem Place.advance_line {taken : List Char} (h : '\n' ∉ taken) (p : Place) :
    p.advance taken = ⟨p.line, p.col + taken.length⟩ := by
  rw [Place.advance_eq, if_neg h, List.count_eq_zero.mpr h, Nat.cast_zero, add_zero]

/-- The place as many lines further down, in the same column. -/
def Place.below (lines : Int) (p : Place) : Place :=
  ⟨p.line + lines, p.col⟩

theorem Place.advance_below (lines : Int) (p : Place) (cs : List Char) :
    (p.below lines).advance cs = (p.advance cs).below lines := by
  induction cs generalizing p with
  | nil => rfl
  | cons c cs ih =>
    have hAfter : (p.below lines).after c = (p.after c).below lines := by
      unfold Place.after Place.below
      split
      · exact congrArg (Place.mk · 1) (add_right_comm p.line lines 1)
      · rfl
    rw [Place.advance_cons, Place.advance_cons, hAfter, ih]

namespace Lexer

/-- The place behind the characters with which a text starts: the line counts the newlines among them,
the column counts the characters behind the last newline. -/
def placeAfter (done : List Char) : Place :=
  ⟨1 + done.count '\n', 1 + (done.reverse.takeWhile (· ≠ '\n')).length⟩

/-- **The place that is carried along is the place told by counting.** -/
theorem placeAfter_eq (done : List Char) : Place.start.advance done = placeAfter done := by
  rw [Place.advance_eq, placeAfter]
  split
  · rfl
  · rename_i hNone
    have hAll : done.reverse.takeWhile (· ≠ '\n') = done.reverse := by
      refine List.takeWhile_eq_self_iff.mpr fun c hc => decide_eq_true ?_
      rintro rfl
      exact hNone (List.mem_reverse.mp hc)
    rw [hAll, List.length_reverse]
    rfl

theorem placeAfter_append (done more : List Char) :
    placeAfter (done ++ more) = (placeAfter done).advance more := by
  rw [← placeAfter_eq, ← placeAfter_eq, Place.advance_append]

/-- Every character moves the place on. -/
theorem eq_nil_of_placeAfter_eq {done more : List Char}
    (h : placeAfter (done ++ more) = placeAfter done) : more = [] := by
  obtain ⟨hLine, hCol⟩ := Place.mk.inj h
  rw [List.count_append] at hLine
  have hNone : '\n' ∉ more := List.count_eq_zero.mp (by omega)
  have hInside : ∀ c ∈ more.reverse, decide (c ≠ '\n') = true := by
    intro c hc
    refine decide_eq_true ?_
    rintro rfl
    exact hNone (List.mem_reverse.mp hc)
  rw [List.reverse_append, List.takeWhile_append_of_pos hInside, List.length_append,
    List.length_reverse] at hCol
  exact List.eq_nil_of_length_eq_zero (by omega)

/-- Two beginnings of a text that reach the same place are the same. -/
theorem eq_of_placeAfter_eq {cs done front front' : List Char} (h : front <+: cs) (h' : front' <+: cs)
    (hPlace : placeAfter (done ++ front) = placeAfter (done ++ front')) : front = front' := by
  rcases List.prefix_or_prefix_of_prefix h h' with ⟨more, rfl⟩ | ⟨more, rfl⟩
  · rw [← List.append_assoc] at hPlace
    rw [eq_nil_of_placeAfter_eq hPlace.symm, List.append_nil]
  · rw [← List.append_assoc] at hPlace
    rw [eq_nil_of_placeAfter_eq hPlace, List.append_nil]

end Lexer

end Reckoner
