import Reckoner.Proofs.Grammar.SideBySide

/-!
# What a parse does not depend on

Blanks mean nothing to the grammar, except directly behind a backslash, where the name of a parameter
has to stand. And the list of prefix units decides nothing but which of two kinds a juxtaposition
gets. Both are read off two runs side by side: on tokens that differ in blanks, and on the same tokens
under two lists of units.

## Results

* `parseWithin_respaced` — blanks that are put in or taken out change neither the tree nor the error.
* `parseWithin_units`    — prefix units change neither what is accepted nor how it is grouped.
-/

namespace Reckoner

namespace Grammar

open Cursor (next?)

-- ---------------------------------------------------------------------------
-- The blanks that matter
-- ---------------------------------------------------------------------------

/-- The tokens without the blanks that mean nothing: a blank counts only directly behind a
backslash. -/
def squeeze (behindBackslash : Bool) : List Token → List Token
  | [] => []
  | t :: ts =>
    if t.isBlank && !behindBackslash then squeeze false ts
    else t :: squeeze (t.isSymbol .backslash) ts

theorem squeeze_of_next? {ts rest : List Token} {t : Token} (h : next? ts = some (t, rest)) :
    squeeze false ts = t :: squeeze (t.isSymbol .backslash) rest := by
  induction ts with
  | nil => cases h
  | cons u us ih =>
    rw [next?] at h
    split at h
    · rename_i hBlank
      rw [squeeze, hBlank]
      exact ih h
    · rename_i hBlank
      obtain ⟨rfl, rfl⟩ : u = t ∧ us = rest := by simpa using h
      rw [squeeze, if_neg (by simp [hBlank])]

theorem squeeze_of_next?_none {ts : List Token} (h : next? ts = none) : squeeze false ts = [] := by
  induction ts with
  | nil => rfl
  | cons u us ih =>
    rw [next?] at h
    split at h
    · rename_i hBlank
      rw [squeeze, hBlank]
      exact ih h
    · cases h

/-- Where there is no backslash, no blank counts. -/
theorem squeeze_eq_solid {ts : List Token} (h : ∀ t ∈ ts, t.isSymbol .backslash = false) :
    squeeze false ts = Cursor.solid ts := by
  induction ts with
  | nil => rfl
  | cons u us ih =>
    obtain ⟨hHere, hLater⟩ := List.forall_mem_cons.mp h
    rw [squeeze, hHere, ih hLater]
    cases hBlank : u.isBlank <;> simp [Cursor.solid, hBlank]

theorem squeeze_behind_cons (t : Token) (ts : List Token) :
    squeeze true (t :: ts) = t :: squeeze (t.isSymbol .backslash) ts := by
  rw [squeeze, if_neg (by simp)]

theorem squeeze_skipSeparators (ts : List Token) :
    squeeze false (Cursor.skipSeparators ts) =
      (squeeze false ts).dropWhile fun t => t.isSymbol .semicolon := by
  induction ts with
  | nil => rfl
  | cons t ts ih =>
    unfold Cursor.skipSeparators at ih ⊢
    rw [List.dropWhile_cons]
    by_cases hBlank : t.isBlank = true
    · rw [if_pos (by simp [hBlank]), ih, squeeze, if_pos (by simp [hBlank])]
    · by_cases hSeparator : t.isSymbol .semicolon = true
      · rw [if_pos (by simp [hSeparator]), ih, squeeze, if_neg (by simp [hBlank]),
          List.dropWhile_cons_of_pos (by simp [hSeparator])]
        have hOther : t.isSymbol .backslash = false := by
          rw [Token.isSymbol_iff.mp hSeparator]
          rfl
        rw [hOther]
      · rw [if_neg (by simp [hBlank, hSeparator]), squeeze, if_neg (by simp [hBlank]),
          List.dropWhile_cons_of_neg (by simp [hSeparator])]

-- ---------------------------------------------------------------------------
-- Two runs that differ in blanks
-- ---------------------------------------------------------------------------

/-- The same errors, and the same tokens but for blanks that mean nothing. -/
def blanksAside : Pairing where
  errors := Eq
  tokens _ ts ts' := squeeze false ts = squeeze false ts'

theorem next?_of_squeeze_eq {ts ts' : List Token} (h : squeeze false ts = squeeze false ts')
    (hNone : next? ts = none) : next? ts' = none := by
  cases hNext : next? ts' with
  | none => rfl
  | some found =>
    rw [squeeze_of_next?_none hNone, squeeze_of_next? hNext] at h
    cases h

theorem behind_of_squeeze_eq {k : Nat} {ts ts' : List Token} (h : squeeze true ts = squeeze true ts') :
    blanksAside.Behind k ts ts' := by
  cases ts with
  | nil =>
    cases ts' with
    | nil => exact .ended
    | cons t' ts' =>
      rw [squeeze_behind_cons] at h
      cases h
  | cons t ts =>
    cases ts' with
    | nil =>
      rw [squeeze_behind_cons] at h
      cases h
    | cons t' ts' =>
      rw [squeeze_behind_cons, squeeze_behind_cons] at h
      obtain ⟨rfl, hRest⟩ := List.cons.inj h
      refine .same rfl fun x hx => ?_
      have hOther : t.isSymbol .backslash = false := by simp [Token.isSymbol, hx]
      rwa [hOther] at hRest

theorem after_of_squeeze_eq {k : Nat} {t : Token} {ts ts' : List Token}
    (h : squeeze (t.isSymbol .backslash) ts = squeeze (t.isSymbol .backslash) ts') :
    blanksAside.After k t.content ts ts' := by
  by_cases hBackslash : t.isSymbol .backslash = true
  · rw [hBackslash] at h
    rw [Token.isSymbol_iff.mp hBackslash]
    exact behind_of_squeeze_eq h
  · rw [Bool.not_eq_true] at hBackslash
    rw [hBackslash] at h
    unfold Pairing.After
    split
    · exact ⟨h, next?_of_squeeze_eq h⟩
    · exact fun _ _ => h
    · exact fun _ => ⟨h, next?_of_squeeze_eq h⟩
    · rename_i hContent
      simp [Token.isSymbol, hContent] at hBackslash
    · exact h

theorem blanksAside_lawful : blanksAside.Lawful where
  alike_errors h := h.eq id
  missingDot h := congrArg _ h
  alike_twins h := h ▸ .refl _
  same_token := id
  facing := by
    intro k ts ts' h
    cases hNext : next? ts with
    | none => exact .ended hNext (next?_of_squeeze_eq h hNext) (fun _ => rfl) fun _ _ => h
    | some found =>
      obtain ⟨t, rest⟩ := found
      cases hNext' : next? ts' with
      | none => simp [next?_of_squeeze_eq h.symm hNext'] at hNext
      | some found' =>
        obtain ⟨t', rest'⟩ := found'
        have hSame : t :: squeeze (t.isSymbol .backslash) rest =
            t' :: squeeze (t'.isSymbol .backslash) rest' := by
          rw [← squeeze_of_next? hNext, ← squeeze_of_next? hNext']
          exact h
        obtain ⟨rfl, hRest⟩ := List.cons.inj hSame
        exact .same rfl hNext hNext' (after_of_squeeze_eq hRest)
  skipSeparators := by
    rintro k ts ts' - ⟨h, -⟩
    have hSkipped : squeeze false (Cursor.skipSeparators ts) =
        squeeze false (Cursor.skipSeparators ts') := by
      rw [squeeze_skipSeparators, squeeze_skipSeparators]
      exact congrArg _ h
    exact ⟨hSkipped, next?_of_squeeze_eq hSkipped⟩
  outermost _ := next?_of_squeeze_eq

-- ---------------------------------------------------------------------------
-- Blanks
-- ---------------------------------------------------------------------------

/-- One list of tokens is obtained from another by putting in and taking out blanks, none of them
directly behind a backslash. -/
inductive Respaced (ts : List Token) : List Token → Prop where
  | refl : Respaced ts ts
  | insert {before after : List Token} {t : Token} (h : Respaced ts (before ++ after))
      (hBlank : t.isBlank = true) (hPlace : ∀ u ∈ before.getLast?, u.isSymbol .backslash = false) :
      Respaced ts (before ++ t :: after)
  | delete {before after : List Token} {t : Token} (h : Respaced ts (before ++ t :: after))
      (hBlank : t.isBlank = true) (hPlace : ∀ u ∈ before.getLast?, u.isSymbol .backslash = false) :
      Respaced ts (before ++ after)

/-- A blank that does not stand directly behind a backslash is squeezed out. -/
theorem squeeze_append_blank {before after : List Token} {t : Token} (hBlank : t.isBlank = true)
    {behind : Bool} (hBehind : before = [] → behind = false)
    (hPlace : ∀ u ∈ before.getLast?, u.isSymbol .backslash = false) :
    squeeze behind (before ++ t :: after) = squeeze behind (before ++ after) := by
  induction before generalizing behind with
  | nil =>
    rw [hBehind rfl, List.nil_append, List.nil_append, squeeze, if_pos (by simp [hBlank])]
  | cons u us ih =>
    have hLater : ∀ v ∈ us.getLast?, v.isSymbol .backslash = false := by
      intro v hv
      refine hPlace v ?_
      rw [List.getLast?_cons, Option.mem_def.mp hv]
      rfl
    have hHere : us = [] → u.isSymbol .backslash = false := by
      rintro rfl
      exact hPlace u rfl
    rw [List.cons_append, List.cons_append, squeeze, squeeze, ih (fun _ => rfl) hLater,
      ih hHere hLater]

theorem Respaced.squeeze_eq {ts ts' : List Token} (h : Respaced ts ts') :
    squeeze false ts = squeeze false ts' := by
  induction h with
  | refl => rfl
  | insert h hBlank hPlace ih => rw [ih, squeeze_append_blank hBlank (fun _ => rfl) hPlace]
  | delete h hBlank hPlace ih => rw [ih, squeeze_append_blank hBlank (fun _ => rfl) hPlace]

/-- Only the tokens that are left when blanks are squeezed out count. -/
theorem parseWithin_of_squeeze_eq (depth : Nat) (units : List String) {tokens tokens' : List Token}
    (h : squeeze false (significant tokens) = squeeze false (significant tokens')) :
    (parseWithin depth units tokens).result = (parseWithin depth units tokens').result := by
  have hAgrees := parseWithin_paired blanksAside_lawful depth units units
    ⟨h, next?_of_squeeze_eq h⟩
  exact (hAgrees.imp fun n m => eq_of_alikeUnder units n m).result_eq

/-- **Blanks never change a parse**, except directly behind a backslash: the outcome is the same tree,
places included, or the same error about the same token. -/
theorem parseWithin_respaced (depth : Nat) (units : List String) {tokens tokens' : List Token}
    (h : Respaced (significant tokens) (significant tokens')) :
    (parseWithin depth units tokens).result = (parseWithin depth units tokens').result :=
  parseWithin_of_squeeze_eq depth units h.squeeze_eq

/-- `\x . x` and `\x.x`: blanks behind the parameter and behind the dot. -/
theorem spaced_lambda_respaced :
    let slash : Token := ⟨.symbol .backslash, ⟨1, 1⟩⟩
    let parameter : Token := ⟨.ident "x", ⟨1, 2⟩⟩
    let dot : Token := ⟨.symbol .dot, ⟨1, 4⟩⟩
    let body : Token := ⟨.ident "x", ⟨1, 6⟩⟩
    let tight : List Token := [slash, parameter, dot, body]
    let spaced : List Token :=
      [slash, parameter, ⟨.blank " ", ⟨1, 3⟩⟩, dot, ⟨.blank " ", ⟨1, 5⟩⟩, body]
    (parse [] tight).result = .ok (.named .function (.text "x") (.ident "x" ⟨1, 6⟩) ⟨1, 1⟩) ∧
      Respaced (significant tight) (significant spaced) ∧
      (parse [] tight).result = (parse [] spaced).result := by
  intro slash parameter dot body tight spaced
  have hFirst : Respaced tight ([slash, parameter] ++ ⟨.blank " ", ⟨1, 3⟩⟩ :: [dot, body]) :=
    .insert .refl rfl (by simp [parameter])
  have hBoth : Respaced tight
      ([slash, parameter, ⟨.blank " ", ⟨1, 3⟩⟩, dot] ++ ⟨.blank " ", ⟨1, 5⟩⟩ :: [body]) :=
    .insert hFirst rfl (by simp [dot])
  exact ⟨rfl, hBoth, parseWithin_respaced maxNesting [] hBoth⟩

-- ---------------------------------------------------------------------------
-- Prefix units
-- ---------------------------------------------------------------------------

/-- **Prefix units change neither what is accepted nor how it is grouped**: under two lists of units
the same error is found, or two trees that differ only in whether an identifier that belongs to
exactly one of the lists is applied to a number or called with it. -/
theorem parseWithin_units (depth : Nat) (units units' : List String) (tokens : List Token) :
    (∃ stop, (parseWithin depth units tokens).result = .error stop ∧
        (parseWithin depth units' tokens).result = .error stop) ∨
      ∃ n m, (parseWithin depth units tokens).result = .ok n ∧
        (parseWithin depth units' tokens).result = .ok m ∧ AlikeUnder units units' n m := by
  have hFresh : blanksAside.Fresh 0 (significant tokens) (significant tokens) := ⟨rfl, id⟩
  have hAgrees := parseWithin_paired blanksAside_lawful depth units units' hFresh
  unfold Attempt.Agrees at hAgrees
  generalize (parseWithin depth units tokens).result = outcome at hAgrees ⊢
  generalize (parseWithin depth units' tokens).result = outcome' at hAgrees ⊢
  cases hAgrees with
  | ok h => exact Or.inr ⟨_, _, rfl, rfl, h⟩
  | error h =>
    obtain rfl := h
    exact Or.inl ⟨_, rfl, rfl⟩
  | tooDeep => exact Or.inl ⟨_, rfl, rfl⟩
  | misshapen fault => exact Or.inl ⟨_, rfl, rfl⟩

end Grammar

end Reckoner
