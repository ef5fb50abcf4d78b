import Reckoner.Proofs.Grammar.Remainder
import Reckoner.Proofs.Grammar.Unclosed

/-!
# Expressions in front of other tokens

What is read up to the end of the tokens is read in the same way where a `)` or a separator follows:
both end an expression as the end of the tokens does. Again two runs go side by side, on some tokens
and on the same tokens in front of a tail. Under an open parenthesis the first run never gets to the
end of its tokens, as long as they close all that they open: the `)` that it waits for is among them.
So the tail is seen only where nothing is open, by rules that stop there. Lists of statements would go
on at a separator, and they are not compared where nothing is open.

Between a `(` and the `)` that closes it something is open all the time (`Pairing.inside`), and the tail
is not seen at all. So an expression in parentheses is read in the same way in front of any tokens.

## Results

* `inFront_lawful`     — no rule but lists of statements can tell the tail from the end of the tokens.
* `assignment_inFront` — a statement is read in the same way in front of such a tail.
* `inside_lawful`      — in parentheses no rule can tell any tail from the end of the tokens.
* `parens_inFront`     — an expression in parentheses is read in the same way in front of any tail.
-/

namespace Reckoner

namespace Grammar

open Cursor (next? after? Meets)

/-- Any errors, and the same tokens in front of `tail`, which close all that is open. -/
def inFront (tail : List Token) : Pairing where
  errors _ _ := True
  tokens k ts ts' := ts' = ts ++ tail ∧ Owes k ts 0
  lists k := k ≠ 0

variable {units : List String} {tail ts rest : List Token} {t : Token} {k d : Nat} {n : Node}

/-- Tokens that close all that is open do not end where something is open. -/
theorem Owes.next?_ne_none (h : Owes k ts 0) (hk : k ≠ 0) : next? ts ≠ none :=
  fun hNone => hk (h.eq_of_none hNone).symm

/-- Where something is open, not everything is skipped before statements. -/
theorem skipSeparators_inFront (h : Owes k ts 0) (hk : k ≠ 0) (tail : List Token) :
    Cursor.skipSeparators (ts ++ tail) = Cursor.skipSeparators ts ++ tail := by
  have hSome : Cursor.skipSeparators ts ≠ [] := by
    intro hNil
    have hNext := h.skipSeparators.next?_ne_none hk
    rw [hNil] at hNext
    exact hNext rfl
  unfold Cursor.skipSeparators at hSome ⊢
  rw [List.dropWhile_append, if_neg (by simpa using hSome)]

/-- Where something is open, the tokens that are left before statements pair. -/
theorem fresh_inFront (h : Owes k ts 0) (hk : k ≠ 0) : (inFront tail).Fresh k ts (ts ++ tail) :=
  ⟨⟨rfl, h⟩, fun hNone => absurd hNone (h.next?_ne_none hk)⟩

/-- No name of a parameter stands at the start of the tail. -/
theorem namesParameter_tail (hTail : Meets (followers .assignment) tail) :
    namesParameter tail = false := by
  cases tail with
  | nil => rfl
  | cons t tail =>
    obtain ⟨content, place⟩ := t
    cases content with
    | ident x =>
      obtain ⟨y, -, hEq⟩ := hTail ⟨.ident x, place⟩ tail rfl
      cases hEq
    | _ => rfl

section Facing

/- Only where nothing is open the tail is seen. -/
variable (hTail : k = 0 → Meets (followers .assignment) tail)
include hTail

theorem behind_inFront (h : Owes k rest 0) : (inFront tail).Behind k rest (rest ++ tail) := by
  cases rest with
  | nil => exact .refused rfl (namesParameter_tail (hTail (h.eq_of_none rfl).symm)) fun _ _ => trivial
  | cons t rest =>
    refine .same rfl fun x hx => ⟨rfl, ?_⟩
    obtain ⟨content, place⟩ := t
    obtain rfl : content = .ident x := hx
    exact h.other rfl rfl rfl

theorem after_inFront (hNext : next? ts = some (t, rest)) (h : Owes k ts 0) :
    (inFront tail).After k t.content rest (rest ++ tail) := by
  unfold Pairing.After
  split
  · rename_i hContent
    exact fresh_inFront (h.opened hNext (by simp [Token.isSymbol, hContent])) (Nat.succ_ne_zero k)
  · rename_i hContent
    rintro j rfl
    exact ⟨rfl, h.closed hNext (by simp [Token.isSymbol, hContent])⟩
  · rename_i hContent
    intro hLists
    have hRest := h.other hNext (by simp [Token.isSymbol, hContent]) (by simp [Token.isSymbol, hContent])
    exact fresh_inFront hRest hLists
  · rename_i hContent
    exact behind_inFront hTail
      (h.other hNext (by simp [Token.isSymbol, hContent]) (by simp [Token.isSymbol, hContent]))
  · rename_i hOpen hClose _ _
    refine ⟨rfl, h.other hNext ?_ ?_⟩
    · rw [Bool.eq_false_iff, Ne, Token.isSymbol_iff]
      exact fun hEq => hOpen (by rw [hEq])
    · rw [Bool.eq_false_iff, Ne, Token.isSymbol_iff]
      exact fun hEq => hClose (by rw [hEq])

/-- At the end of the first run nothing is open, and the second run is at its end or sees a `)` or a
separator. -/
theorem facing_inFront (h : Owes k ts 0) : (inFront tail).Facing k ts (ts ++ tail) := by
  cases hNext : next? ts with
  | some found =>
    exact .same rfl hNext (Cursor.next?_append hNext tail) (after_inFront hTail hNext h)
  | none =>
    obtain rfl : 0 = k := h.eq_of_none hNext
    have hSame := Cursor.next?_append_of_none hNext tail
    cases hFound : next? tail with
    | none =>
      exact .ended hNext (hSame.trans hFound) (fun hLists => absurd rfl hLists) fun j hj => by omega
    | some found =>
      obtain ⟨t, after⟩ := found
      obtain ⟨y, hy, hEq⟩ := hTail rfl t after hFound
      rw [hEq] at hFound
      refine .closing y t.place hNext (hSame.trans hFound) (fun _ _ => trivial) ?_
      rcases (by simpa [followers] using hy : y = .closeParens ∨ y = .semicolon) with rfl | rfl
      · exact Or.inl ⟨rfl, fun j hj => by omega⟩
      · exact Or.inr ⟨rfl, fun hLists => hLists rfl⟩

end Facing

-- ---------------------------------------------------------------------------
-- In front of a separator or a parenthesis
-- ---------------------------------------------------------------------------

section Lawful

variable (hTail : Meets (followers .assignment) tail)
include hTail

/-- **Only a list of statements can tell a separator or a `)` from the end of the tokens.** -/
theorem inFront_lawful : (inFront tail).Lawful where
  alike_errors _ := trivial
  missingDot _ := trivial
  alike_twins h := h ▸ .refl _
  same_token := id
  facing := by
    rintro k ts _ ⟨rfl, h⟩
    exact facing_inFront (fun _ => hTail) h
  skipSeparators := by
    rintro k ts _ hLists ⟨⟨rfl, h⟩, -⟩
    rw [skipSeparators_inFront h hLists]
    exact fresh_inFront h.skipSeparators hLists
  outermost hLists := absurd rfl hLists
  lists_inside k := Nat.succ_ne_zero k

/-- **A statement is read in the same way in front of a separator or a `)`**, under the same bound on the
nesting, if its tokens close as many parentheses as they open. -/
theorem assignment_inFront (hBalance : Owes 0 ts 0)
    (h : ((Layers.within units d).assignment ts).result = .ok (n, rest)) :
    ((Layers.within units d).assignment (ts ++ tail)).result = .ok (n, rest ++ tail) := by
  have hLawful := inFront_lawful hTail
  have hTokens : (inFront tail).tokens 0 ts (ts ++ tail) := ⟨rfl, hBalance⟩
  have hAgrees :=
    (within_paired hLawful.toCoherent (same_trees hLawful units) d).assignment hTokens
  obtain ⟨hBuilds, hSame⟩ := hAgrees.built
  obtain ⟨⟨m, after⟩, hRead⟩ := hBuilds.mp ⟨_, h⟩
  obtain ⟨rfl, rfl, -⟩ := hSame _ _ h hRead
  exact hRead

end Lawful

-- ---------------------------------------------------------------------------
-- In parentheses
-- ---------------------------------------------------------------------------

/-- The same pairing under one more open parenthesis, which is not closed. -/
def Pairing.inside (P : Pairing) : Pairing :=
  { P with
    tokens := fun k => P.tokens (k + 1)
    lists := fun k => P.lists (k + 1) }

namespace Pairing

variable {P : Pairing} {ts' rest' : List Token}

theorem Behind.inside (h : P.Behind (k + 1) ts ts') : P.inside.Behind k ts ts' := by
  cases h with
  | same twins h => exact Behind.same (P := P.inside) twins h
  | ended => exact .ended
  | refused unnamed unnamed' h => exact Behind.refused (P := P.inside) unnamed unnamed' h

theorem After.inside {c : Content} (h : P.After (k + 1) c rest rest') :
    P.inside.After k c rest rest' := by
  cases c with
  | symbol y =>
    cases y with
    | closeParens =>
      rintro j rfl
      exact h (j + 1) rfl
    | backslash => exact Behind.inside h
    | _ => exact h
  | _ => exact h

theorem Facing.inside (h : P.Facing (k + 1) ts ts') : P.inside.Facing k ts ts' := by
  cases h with
  | same twins h h' after => exact .same twins h h' after.inside
  | ended h h' nothing outside =>
    refine .ended h h' nothing ?_
    rintro j rfl
    exact outside (j + 1) rfl
  | closing y p h h' errors closer =>
    refine .closing y p h h' errors (closer.imp_left ?_)
    rintro ⟨rfl, hClose⟩
    refine ⟨rfl, ?_⟩
    rintro j rfl
    exact hClose (j + 1) rfl

end Pairing

/-- **In parentheses no rule can tell a tail from the end of the tokens.** -/
theorem inside_lawful (tail : List Token) : (inFront tail).inside.Lawful where
  alike_errors _ := trivial
  missingDot _ := trivial
  alike_twins h := h ▸ .refl _
  same_token := id
  facing := by
    rintro k ts _ ⟨rfl, h⟩
    exact (facing_inFront (fun hZero => absurd hZero (Nat.succ_ne_zero k)) h).inside
  skipSeparators := by
    rintro k ts _ hLists ⟨⟨rfl, h⟩, -⟩
    rw [skipSeparators_inFront h hLists]
    exact fresh_inFront h.skipSeparators hLists
  outermost := by
    rintro ts _ hLists ⟨rfl, h⟩ hNone
    exact absurd hNone (h.next?_ne_none hLists)
  lists_inside k := Nat.succ_ne_zero (k + 1)

/-- Behind a `(` an expression is read in the same way in front of any tokens, if what is left closes the
parenthesis. -/
theorem expression_inside (tail : List Token) (hBalance : Owes 1 ts 0)
    (h : ((Layers.within units d).expression ts).result = .ok (n, rest)) :
    ((Layers.within units d).expression (ts ++ tail)).result = .ok (n, rest ++ tail) ∧
      Owes 1 rest 0 := by
  have hLawful := inside_lawful tail
  have hAgrees := (within_paired hLawful.toCoherent (same_trees hLawful units) d).expression
    (k := 0) Nat.one_ne_zero (fresh_inFront hBalance Nat.one_ne_zero)
  obtain ⟨hBuilds, hSame⟩ := hAgrees.built
  obtain ⟨⟨m, after⟩, hRead⟩ := hBuilds.mp ⟨_, h⟩
  obtain ⟨rfl, rfl, hRest⟩ := hSame _ _ h hRead
  exact ⟨hRead, hRest⟩

/-- The `)` that is taken is among the tokens, and what stands behind it closes nothing more. -/
theorem Owes.taken {mid : List Token} (h : Owes 1 mid 0) (hClose : after? .closeParens mid = some rest)
    (hMid : mid <:+ ts) :
    (∃ front q, ts = front ++ ⟨.symbol .closeParens, q⟩ :: rest) ∧ Owes 0 rest 0 := by
  obtain ⟨q, hNext⟩ := Cursor.after?_eq_some.mp hClose
  obtain ⟨front, hSplit⟩ := (Cursor.next?_suffix hNext).trans hMid
  exact ⟨⟨front, q, hSplit.symm⟩, h.closed hNext rfl⟩

/-- **An expression in parentheses is read in the same way in front of any tokens**, if its parenthesis is
closed. It takes the tokens up to a `)`. -/
theorem parens_inFront {p : Place} (tail : List Token) (hBalance : Owes 1 ts 0)
    (h : (parens (Layers.within units d) (⟨.symbol .openParens, p⟩ :: ts)).result = .ok (n, rest)) :
    (parens (Layers.within units d) (⟨.symbol .openParens, p⟩ :: (ts ++ tail))).result =
        .ok (n, rest ++ tail) ∧
      (∃ front q, ts = front ++ ⟨.symbol .closeParens, q⟩ :: rest) ∧ Owes 0 rest 0 := by
  obtain ⟨q, after, hNext, hCases⟩ := parens_ok.mp h
  cases hNext
  rcases hCases with ⟨hClose, rfl⟩ | ⟨hOpen, m, mid, hRead, rfl, hEnds⟩
  · exact ⟨parens_ok.mpr ⟨p, _, rfl, Or.inl ⟨Cursor.after?_append hClose tail, rfl⟩⟩,
      hBalance.taken hClose (List.suffix_refl ts)⟩
  · obtain ⟨hRead', hMid⟩ := expression_inside tail hBalance hRead
    obtain ⟨hEnd, -⟩ | ⟨-, hClose⟩ := hEnds
    · exact absurd (Cursor.atEnd_iff.mp hEnd) (hMid.next?_ne_none Nat.one_ne_zero)
    · obtain ⟨⟨t, more⟩, hFirst⟩ :=
        Option.ne_none_iff_exists'.mp (hBalance.next?_ne_none Nat.one_ne_zero)
      have hOpen' := Cursor.after?_append_none hFirst hOpen tail
      have hClose' := Cursor.after?_append hClose tail
      obtain ⟨q, hNext⟩ := Cursor.after?_eq_some.mp hClose'
      exact ⟨parens_ok.mpr ⟨p, _, rfl, Or.inr ⟨hOpen', m, _, hRead', rfl,
          Or.inr ⟨Cursor.atEnd_of_next? hNext, hClose'⟩⟩⟩,
        hMid.taken hClose ((within_leaves units d).expression hRead)⟩

end Grammar

end Reckoner
