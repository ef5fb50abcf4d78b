import Reckoner.Proofs.Grammar.SideBySide

/-!
# Trees without places

Which tree is built does not depend on the places of the tokens, but for the places in the tree, and
neither on blanks, but for a blank behind a backslash. There the name of a parameter has to stand, and
all that matters is whether it does: without it the lambda is refused, whatever else comes. So of a
sequence of tokens the grammar sees its `marks`: what the tokens are that are no blanks, and of each
backslash, whether an identifier stands directly behind it.

This is a pairing of two runs side by side in which all parse errors count as the same. It cannot tell
a blank behind a backslash from another token that is no identifier, which pairings that compare the
errors have to.

## Results

* `parseWithin_marks` — sequences of the same marks are parsed into the same tree, places aside.
-/

namespace Reckoner

theorem Token.isSymbol_of_content_eq {t t' : Token} (h : t.content = t'.content) (s : Symbol) :
    t.isSymbol s = t'.isSymbol s := by
  unfold Token.isSymbol
  rw [h]

namespace Grammar

open Attempt (Agrees)
open Cursor (next?)

-- ---------------------------------------------------------------------------
-- Marks
-- ---------------------------------------------------------------------------

/-- The tokens that are no blanks without their places, and whether the name of a parameter stands
directly behind them if they are backslashes. -/
def marks : List Token → List (Content × Bool)
  | [] => []
  | t :: ts =>
    if t.isBlank then marks ts
    else (t.content, t.isSymbol .backslash && namesParameter ts) :: marks ts

theorem marks_of_next? {ts rest : List Token} {t : Token} (h : next? ts = some (t, rest)) :
    marks ts = (t.content, t.isSymbol .backslash && namesParameter rest) :: marks rest := by
  induction ts with
  | nil => cases h
  | cons u us ih =>
    rw [next?] at h
    rw [marks]
    split at h
    · rename_i hBlank
      rw [if_pos hBlank, ih h]
    · rename_i hBlank
      obtain ⟨rfl, rfl⟩ := Prod.mk.inj (Option.some.inj h)
      rw [if_neg hBlank]

theorem marks_of_next?_none {ts : List Token} (h : next? ts = none) : marks ts = [] := by
  induction ts with
  | nil => rfl
  | cons u us ih =>
    rw [next?] at h
    rw [marks]
    split at h
    · rename_i hBlank
      rw [if_pos hBlank, ih h]
    · cases h

/-- Tokens of the same marks are at their end together. -/
theorem next?_of_marks_eq {ts ts' : List Token} (h : marks ts = marks ts') (hNone : next? ts = none) :
    next? ts' = none := by
  cases hNext : next? ts' with
  | none => rfl
  | some found =>
    rw [marks_of_next?_none hNone, marks_of_next? hNext] at h
    cases h

/-- The marks behind separators are those behind the marks of separators. -/
theorem marks_skipSeparators (ts : List Token) :
    marks (Cursor.skipSeparators ts) =
      (marks ts).dropWhile fun mark => Token.isSymbol ⟨mark.1, .unknown⟩ .semicolon := by
  induction ts with
  | nil => rfl
  | cons t ts ih =>
    unfold Cursor.skipSeparators at ih ⊢
    rw [List.dropWhile_cons, marks]
    by_cases hBlank : t.isBlank = true
    · rw [if_pos (by simp [hBlank]), if_pos hBlank, ih]
    · rw [if_neg hBlank, List.dropWhile_cons]
      have hMark : Token.isSymbol ⟨t.content, .unknown⟩ .semicolon = t.isSymbol .semicolon := rfl
      dsimp only
      rw [hMark]
      by_cases hSeparator : t.isSymbol .semicolon = true
      · rw [if_pos (by simp [hSeparator]), if_pos hSeparator, ih]
      · rw [if_neg (by simp [hBlank, hSeparator]), if_neg hSeparator, marks, if_neg hBlank]

-- ---------------------------------------------------------------------------
-- Two runs on the same marks
-- ---------------------------------------------------------------------------

/-- The same marks, whatever the errors. -/
def byMarks : Pairing where
  errors _ _ := True
  tokens _ ts ts' := marks ts = marks ts'
  twins t t' := t.content = t'.content

theorem behind_of_marks_eq {k : Nat} {ts ts' : List Token} (h : marks ts = marks ts')
    (hNamed : namesParameter ts = namesParameter ts') : byMarks.Behind k ts ts' := by
  cases hName : namesParameter ts with
  | false => exact .refused hName (hNamed ▸ hName) fun _ _ => trivial
  | true =>
    have hName' := hNamed ▸ hName
    unfold namesParameter at hName hName'
    split at hName
    · split at hName'
      · obtain ⟨hSame, hRest⟩ := List.cons.inj h
        exact .same (Prod.mk.inj hSame).1 fun _ _ => hRest
      · cases hName'
    · cases hName

theorem after_of_marks_eq {k : Nat} {t : Token} {ts ts' : List Token} (h : marks ts = marks ts')
    (hNamed : (t.isSymbol .backslash && namesParameter ts) =
      (t.isSymbol .backslash && namesParameter ts')) : byMarks.After k t.content ts ts' := by
  unfold Pairing.After
  split
  · exact ⟨h, next?_of_marks_eq h⟩
  · exact fun _ _ => h
  · exact fun _ => ⟨h, next?_of_marks_eq h⟩
  · rename_i hContent
    have hBackslash : t.isSymbol .backslash = true := by simp [Token.isSymbol, hContent]
    rw [hBackslash, Bool.true_and, Bool.true_and] at hNamed
    exact behind_of_marks_eq h hNamed
  · exact h

theorem byMarks_coherent : byMarks.Coherent where
  alike_errors _ := trivial
  missingDot _ := trivial
  alike_twins h := by
    rw [show _ = _ from h]
    exact .refl _
  facing := by
    intro k ts ts' h
    cases hNext : next? ts with
    | none => exact .ended hNext (next?_of_marks_eq h hNext) (fun _ => rfl) fun _ _ => h
    | some found =>
      obtain ⟨t, rest⟩ := found
      cases hNext' : next? ts' with
      | none => simp [next?_of_marks_eq h.symm hNext'] at hNext
      | some found' =>
        obtain ⟨t', rest'⟩ := found'
        have hSame := (marks_of_next? hNext).symm.trans (h.trans (marks_of_next? hNext'))
        obtain ⟨hMark, hRest⟩ := List.cons.inj hSame
        obtain ⟨hContent, hNamed⟩ := Prod.mk.inj hMark
        rw [← Token.isSymbol_of_content_eq hContent] at hNamed
        exact .same hContent hNext hNext' (after_of_marks_eq hRest hNamed)
  skipSeparators := by
    rintro k ts ts' - ⟨h, -⟩
    have hSkipped : marks (Cursor.skipSeparators ts) = marks (Cursor.skipSeparators ts') := by
      rw [marks_skipSeparators, marks_skipSeparators]
      exact congrArg _ h
    exact ⟨hSkipped, next?_of_marks_eq hSkipped⟩
  outermost _ := next?_of_marks_eq

-- ---------------------------------------------------------------------------
-- Tests on trees without places
-- ---------------------------------------------------------------------------

theorem isQuantityPart_withoutPlaces (n : Node) :
    isQuantityPart n.withoutPlaces = isQuantityPart n := by
  simp [isQuantityPart]

theorem isPowerOfNumber_withoutPlaces (n : Node) :
    isPowerOfNumber n.withoutPlaces = isPowerOfNumber n := by
  unfold isPowerOfNumber
  rw [Node.isBinary_withoutPlaces, Node.child_withoutPlaces]
  split
  · cases n.child 0 with
    | error fault => rfl
    | ok c =>
      show Except.ok c.withoutPlaces.isNumber = Except.ok c.isNumber
      rw [Node.isNumber_withoutPlaces]
  · rfl

theorem juxtapositionKind_withoutPlaces (units : List String) (l r : Node) :
    juxtapositionKind units l.withoutPlaces r.withoutPlaces = juxtapositionKind units l r := by
  simp [juxtapositionKind, isLikeNumber, isPrefixUnit, isPowerOfNumber_withoutPlaces]

theorem wholePart_withoutPlaces (n : Node) :
    wholePart n.withoutPlaces =
      (wholePart n).map (Prod.map (Option.map Node.withoutPlaces) Node.withoutPlaces) := by
  unfold wholePart
  rw [Node.isBinary_withoutPlaces, Node.twoChildren_withoutPlaces]
  split
  · cases n.twoChildren <;> rfl
  · rfl

/-- Trees that differ in places only. -/
def SameButPlaces (n m : Node) : Prop :=
  n.withoutPlaces = m.withoutPlaces

namespace SameButPlaces

variable {n m l l' r r' : Node}

/-- What does not look at places cannot tell the trees apart. -/
theorem congr {α : Type} {f : Node → α} (hf : ∀ n : Node, f n.withoutPlaces = f n)
    (h : SameButPlaces n m) : f m = f n := by
  rw [← hf m, ← hf n, show n.withoutPlaces = m.withoutPlaces from h]

theorem mk (kind : Kind) (value : Payload) (type : Option String) (p p' : Place) {ns ms : List Node}
    (h : ns.map Node.withoutPlaces = ms.map Node.withoutPlaces) :
    SameButPlaces (.mk kind value type p ns) (.mk kind value type p' ms) := by
  unfold SameButPlaces Node.withoutPlaces
  rw [Node.allWithoutPlaces_eq_map, Node.allWithoutPlaces_eq_map, h]

theorem leaf (kind : Kind) (value : Payload) (type : Option String) (p p' : Place) :
    SameButPlaces (.mk kind value type p []) (.mk kind value type p' []) :=
  .mk kind value type p p' rfl

theorem around (kind : Kind) (value : Payload) (p p' : Place) (h : SameButPlaces n m) :
    SameButPlaces (.mk kind value none p [n]) (.mk kind value none p' [m]) :=
  .mk kind value none p p' (congrArg (fun t => [t]) h)

theorem between (kind : Kind) (value : Payload) (p p' : Place) (hLeft : SameButPlaces l l')
    (hRight : SameButPlaces r r') :
    SameButPlaces (.mk kind value none p [l, r]) (.mk kind value none p' [l', r']) := by
  refine .mk kind value none p p' ?_
  rw [List.map_cons, List.map_cons, show l.withoutPlaces = _ from hLeft,
    show r.withoutPlaces = _ from hRight]
  rfl

theorem wholePart (h : SameButPlaces n m) :
    (∃ fault, Grammar.wholePart n = .error fault ∧ Grammar.wholePart m = .error fault) ∨
      ∃ a b, Grammar.wholePart n = .ok a ∧ Grammar.wholePart m = .ok b ∧
        Option.Rel SameButPlaces a.1 b.1 ∧ SameButPlaces a.2 b.2 := by
  have hParts := (wholePart_withoutPlaces n).symm.trans
    ((congrArg Grammar.wholePart h).trans (wholePart_withoutPlaces m))
  cases hn : Grammar.wholePart n with
  | error fault =>
    cases hm : Grammar.wholePart m with
    | error fault' =>
      rw [hn, hm] at hParts
      exact Or.inl ⟨fault, rfl, congrArg _ (Except.error.inj hParts).symm⟩
    | ok b => simp [hn, hm, Except.map] at hParts
  | ok a =>
    cases hm : Grammar.wholePart m with
    | error fault' => simp [hn, hm, Except.map] at hParts
    | ok b =>
      rw [hn, hm] at hParts
      obtain ⟨hOuter, hWhole⟩ := Prod.mk.inj (Except.ok.inj hParts)
      refine Or.inr ⟨a, b, rfl, rfl, ?_, hWhole⟩
      cases hLeft : a.1 <;> cases hRight : b.1 <;> rw [hLeft, hRight] at hOuter
      · exact .none
      · cases hOuter
      · cases hOuter
      · exact .some (Option.some.inj hOuter)

end SameButPlaces

/-- The rules build trees that differ in places only. -/
theorem byMarks_trees (units : List String) : byMarks.Trees units units SameButPlaces where
  number h := by
    obtain rfl := Content.number.inj h
    exact .leaf ..
  string h := by
    obtain rfl := Content.string.inj h
    exact .leaf ..
  ident h := by
    obtain rfl := Content.ident.inj h
    exact .leaf ..
  unit _ := .leaf ..
  nothing := .leaf ..
  member h hInner := by
    obtain rfl := Content.ident.inj h
    exact hInner.around ..
  lambda := by
    intro k ts ts' p p' x x' q q' rest rest' n m hTokens hNext hNext' hBody
    have hMarks : marks ts = marks ts' := hTokens
    rw [marks_of_next? hNext, marks_of_next? hNext'] at hMarks
    have hName := (List.cons.inj (List.cons.inj hMarks).2).1
    obtain rfl := Content.ident.inj (Prod.mk.inj hName).1
    exact hBody.around ..
  bound _ _ hName hBody := by
    rw [hName.congr Node.value_withoutPlaces]
    exact hBody.around ..
  wrap _ _ hInner := hInner.around ..
  factorial hInner := hInner.around ..
  binary op hLeft hRight := hLeft.between _ _ _ _ hRight
  pair _ hLeft hRight := hLeft.between _ _ _ _ hRight
  juxtaposed := by
    intro l l' r r' hLeft hRight
    have hKind : juxtapositionKind units l' r' = juxtapositionKind units l r := by
      rw [← juxtapositionKind_withoutPlaces units l r, ← juxtapositionKind_withoutPlaces units l' r',
        show l.withoutPlaces = _ from hLeft, show r.withoutPlaces = _ from hRight]
    rw [hKind]
    cases hFound : juxtapositionKind units l r with
    | error fault => exact Or.inl ⟨fault, rfl, rfl⟩
    | ok found =>
      refine Or.inr ⟨found, found, rfl, rfl, ?_⟩
      cases found with
      | none => exact .none
      | some kind => exact .some (hLeft.between _ _ _ _ hRight)
  isNumber_eq h := h.congr Node.isNumber_withoutPlaces
  isNegatedNumber_eq h := h.congr Node.isNegatedNumber_withoutPlaces
  kind_iff _ h := by rw [h.congr Node.kind_withoutPlaces]
  isQuantityPart_eq h := h.congr isQuantityPart_withoutPlaces
  wholePart h := h.wholePart

/-- **Sequences of the same marks are parsed into the same tree, places aside**, or both are refused. -/
theorem parseWithin_marks (depth : Nat) (units : List String) {tokens tokens' : List Token}
    (h : marks (significant tokens) = marks (significant tokens')) :
    Agrees (fun _ _ => True) SameButPlaces (parseWithin depth units tokens)
      (parseWithin depth units tokens') :=
  parseWithin_twinned byMarks_coherent (byMarks_trees units) depth ⟨h, next?_of_marks_eq h⟩

end Grammar

end Reckoner
