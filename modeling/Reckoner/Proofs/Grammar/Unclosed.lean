import Reckoner.Proofs.Grammar.Indifference

/-!
# Parentheses left open

A `)` that is missing at the end of the input may be left out: the tokens are parsed as if all of the
missing ones stood there. The runs with and without them go side by side. As long as the first run has
tokens, the second has the same ones; at the end of the first run the second has a `)` for every
parenthesis that is still open, and both close the same parentheses.

Nothing but the place where an expression starts tells the end from a `)`: `(` alone holds the empty
statements while `()` is the empty value, and behind a separator at the end no statement follows. So
the last token must not be one of these two.

## Results

* `parseWithin_unclosed` — a tree is parsed from tokens with and without the closing parentheses that
  they lack.
-/

namespace Reckoner

namespace Grammar

open Cursor (next? solid)

/-- How many of the tokens that are not blank are the given symbol. -/
def occurrences (s : Symbol) (ts : List Token) : Nat :=
  (solid ts).countP fun t => t.isSymbol s

/-- With `owed` closing parentheses more, the tokens close `k` open parentheses and those that they
open. -/
def Owes (k : Nat) (ts : List Token) (owed : Nat) : Prop :=
  occurrences .closeParens ts + owed = k + occurrences .openParens ts

/-- The last token that is not blank does not leave an expression to start. -/
def Settled (ts : List Token) : Prop :=
  ∀ t ∈ (solid ts).getLast?, t.isSymbol .openParens = false ∧ t.isSymbol .semicolon = false

/-- The tokens close what is open under `k` open parentheses, but for those closed by `closers`. -/
structure LeavesOpen (k : Nat) (ts closers : List Token) : Prop where
  closing : ∀ c ∈ closers, c.isSymbol .closeParens = true
  balance : occurrences .closeParens ts + closers.length = k + occurrences .openParens ts
  settled : Settled ts

/-- Any errors, and tokens that lack the closing parentheses of the others at their end. -/
def closersAside : Pairing where
  errors _ _ := True
  tokens k ts ts' :=
    ∃ closers, squeeze false ts' = squeeze false ts ++ closers ∧ LeavesOpen k ts closers

-- ---------------------------------------------------------------------------
-- Counting parentheses
-- ---------------------------------------------------------------------------

variable {k owed : Nat} {ts ts' rest rest' closers : List Token} {t : Token}

theorem occurrences_of_next? (h : next? ts = some (t, rest)) (s : Symbol) :
    occurrences s ts = occurrences s rest + if t.isSymbol s then 1 else 0 := by
  unfold occurrences
  rw [Cursor.solid_of_next? h, List.countP_cons]

theorem occurrences_of_next?_none (h : next? ts = none) (s : Symbol) : occurrences s ts = 0 := by
  unfold occurrences
  rw [Cursor.solid_of_next?_none h]
  rfl

/-- Blanks are no symbols. -/
theorem occurrences_eq_countP (s : Symbol) (ts : List Token) :
    occurrences s ts = ts.countP fun t => t.isSymbol s := by
  unfold occurrences solid
  rw [List.countP_filter]
  refine List.countP_congr fun t _ => ?_
  obtain ⟨content, place⟩ := t
  cases content <;> simp [Token.isSymbol, Token.isBlank]

theorem owes_iff : Owes k ts owed ↔ (ts.countP fun t => t.isSymbol .closeParens) + owed =
    k + ts.countP fun t => t.isSymbol .openParens := by
  unfold Owes
  rw [occurrences_eq_countP, occurrences_eq_countP]

/-- No symbol but separators is skipped before statements. -/
theorem occurrences_skipSeparators {s : Symbol} (hs : s ≠ .semicolon) (ts : List Token) :
    occurrences s ts = occurrences s (Cursor.skipSeparators ts) := by
  obtain ⟨ps, hSolid⟩ := Cursor.solid_skipSeparators ts
  unfold occurrences
  rw [hSolid, List.countP_append, List.countP_eq_zero.mpr, Nat.zero_add]
  intro u hu
  obtain ⟨p, -, rfl⟩ := List.mem_map.mp hu
  simpa using hs.symm

/-- At the end a `)` is owed for each open parenthesis. -/
theorem Owes.eq_of_none (h : Owes k ts owed) (hNone : next? ts = none) : owed = k := by
  unfold Owes at h
  rw [occurrences_of_next?_none hNone, occurrences_of_next?_none hNone] at h
  omega

/-- A token that is no parenthesis changes nothing about what is owed. -/
theorem Owes.other (h : Owes k ts owed) (hNext : next? ts = some (t, rest))
    (hOpen : t.isSymbol .openParens = false) (hClose : t.isSymbol .closeParens = false) :
    Owes k rest owed := by
  unfold Owes at h ⊢
  rw [occurrences_of_next? hNext, occurrences_of_next? hNext, hOpen, hClose] at h
  simpa using h

theorem Owes.opened (h : Owes k ts owed) (hNext : next? ts = some (t, rest))
    (hOpen : t.isSymbol .openParens = true) : Owes (k + 1) rest owed := by
  have hClose : t.isSymbol .closeParens = false := by
    rw [Token.isSymbol_iff.mp hOpen]
    rfl
  unfold Owes at h ⊢
  rw [occurrences_of_next? hNext, occurrences_of_next? hNext, hOpen, hClose] at h
  simp only [if_true, Bool.false_eq_true, if_false] at h
  omega

theorem Owes.closed (h : Owes (k + 1) ts owed) (hNext : next? ts = some (t, rest))
    (hClose : t.isSymbol .closeParens = true) : Owes k rest owed := by
  have hOpen : t.isSymbol .openParens = false := by
    rw [Token.isSymbol_iff.mp hClose]
    rfl
  unfold Owes at h ⊢
  rw [occurrences_of_next? hNext, occurrences_of_next? hNext, hOpen, hClose] at h
  simp only [if_true, Bool.false_eq_true, if_false] at h
  omega

/-- Separators at the start change nothing about what is owed. -/
theorem Owes.skipSeparators (h : Owes k ts owed) : Owes k (Cursor.skipSeparators ts) owed := by
  unfold Owes
  rw [← occurrences_skipSeparators (by decide), ← occurrences_skipSeparators (by decide)]
  exact h

-- ---------------------------------------------------------------------------
-- Tokens that leave parentheses open
-- ---------------------------------------------------------------------------

theorem Settled.later {used : List Token} (h : Settled ts) (hSolid : solid ts = used ++ solid rest) :
    Settled rest := by
  intro u hu
  refine h u ?_
  rw [hSolid, List.getLast?_append, Option.mem_def.mp hu]
  rfl

theorem Settled.next (h : Settled ts) (hNext : next? ts = some (t, rest)) : Settled rest := by
  have hSolid : solid ts = [t] ++ solid rest := Cursor.solid_of_next? hNext
  exact h.later hSolid

/-- Behind a `(` or a separator there is another token. -/
theorem Settled.next?_ne_none (h : Settled ts) (hNext : next? ts = some (t, rest))
    (hStart : t.isSymbol .openParens = true ∨ t.isSymbol .semicolon = true) :
    next? rest ≠ none := by
  intro hNone
  have hSolid : solid ts = [t] := by
    rw [Cursor.solid_of_next? hNext, Cursor.solid_of_next?_none hNone]
  obtain ⟨hOpen, hSeparator⟩ := h t (by rw [hSolid]; rfl)
  simp [hOpen, hSeparator] at hStart

theorem LeavesOpen.owes (h : LeavesOpen k ts closers) : Owes k ts closers.length :=
  h.balance

/-- A token that is no parenthesis changes nothing about what is open. -/
theorem LeavesOpen.other (h : LeavesOpen k ts closers) (hNext : next? ts = some (t, rest))
    (hOpen : t.isSymbol .openParens = false) (hClose : t.isSymbol .closeParens = false) :
    LeavesOpen k rest closers where
  closing := h.closing
  balance := h.owes.other hNext hOpen hClose
  settled := h.settled.next hNext

theorem LeavesOpen.opened (h : LeavesOpen k ts closers) (hNext : next? ts = some (t, rest))
    (hOpen : t.isSymbol .openParens = true) : LeavesOpen (k + 1) rest closers where
  closing := h.closing
  balance := h.owes.opened hNext hOpen
  settled := h.settled.next hNext

theorem LeavesOpen.closed (h : LeavesOpen (k + 1) ts closers) (hNext : next? ts = some (t, rest))
    (hClose : t.isSymbol .closeParens = true) : LeavesOpen k rest closers where
  closing := h.closing
  balance := h.owes.closed hNext hClose
  settled := h.settled.next hNext

/-- The end of the first run closes a parenthesis where the second takes a `)`. -/
theorem LeavesOpen.outside {c : Token} (h : LeavesOpen (k + 1) ts (c :: closers))
    (hNone : next? ts = none) : LeavesOpen k ts closers where
  closing d hd := h.closing d (List.mem_cons_of_mem _ hd)
  balance := by
    have hLength : closers.length + 1 = k + 1 := h.owes.eq_of_none hNone
    rw [occurrences_of_next?_none hNone, occurrences_of_next?_none hNone]
    omega
  settled := h.settled

/-- Separators at the start change nothing about what is open. -/
theorem LeavesOpen.skipSeparators (h : LeavesOpen k ts closers) :
    LeavesOpen k (Cursor.skipSeparators ts) closers := by
  obtain ⟨ps, hSolid⟩ := Cursor.solid_skipSeparators ts
  exact ⟨h.closing, h.owes.skipSeparators, h.settled.later hSolid⟩

-- ---------------------------------------------------------------------------
-- Two runs that differ in closing parentheses
-- ---------------------------------------------------------------------------

theorem next?_none_of_squeeze (h : squeeze false ts = []) : next? ts = none := by
  cases hNext : next? ts with
  | none => rfl
  | some found =>
    rw [squeeze_of_next? hNext] at h
    cases h

/-- The next token, if the squeezed tokens start with one. -/
theorem next?_of_squeeze_cons {us : List Token} (h : squeeze false ts = t :: us) :
    ∃ rest, next? ts = some (t, rest) ∧ squeeze (t.isSymbol .backslash) rest = us := by
  cases hNext : next? ts with
  | none =>
    rw [squeeze_of_next?_none hNext] at h
    cases h
  | some found =>
    obtain ⟨u, rest⟩ := found
    rw [squeeze_of_next? hNext] at h
    obtain ⟨rfl, hRest⟩ := List.cons.inj h
    exact ⟨rest, rfl, hRest⟩

theorem closer_eq {c : Token} (h : c.isSymbol .closeParens = true) :
    ∃ p, c = ⟨.symbol .closeParens, p⟩ :=
  ⟨c.place, Token.isSymbol_iff.mp h⟩

theorem behind_closersAside (hRest : squeeze true rest' = squeeze true rest ++ closers)
    (hOpen : LeavesOpen k rest closers) : closersAside.Behind k rest rest' := by
  cases rest with
  | nil =>
    cases rest' with
    | nil => exact .ended
    | cons t' rest' =>
      rw [squeeze_behind_cons] at hRest
      have hMem : t' ∈ closers := by
        have hClosers : t' :: _ = closers := hRest
        rw [← hClosers]
        exact List.mem_cons_self
      obtain ⟨p, rfl⟩ := closer_eq (hOpen.closing _ hMem)
      exact .refused rfl rfl fun _ _ => trivial
  | cons t rest =>
    cases rest' with
    | nil =>
      rw [squeeze_behind_cons] at hRest
      cases hRest
    | cons t' rest' =>
      rw [squeeze_behind_cons, squeeze_behind_cons, List.cons_append] at hRest
      obtain ⟨rfl, hRest⟩ := List.cons.inj hRest
      refine .same rfl fun x hx => ?_
      obtain ⟨content, place⟩ := t'
      obtain rfl : content = .ident x := hx
      exact ⟨closers, hRest, hOpen.other rfl rfl rfl⟩

theorem after_closersAside (hNext : next? ts = some (t, rest)) (hOpen : LeavesOpen k ts closers)
    (hRest : squeeze (t.isSymbol .backslash) rest' =
      squeeze (t.isSymbol .backslash) rest ++ closers) :
    closersAside.After k t.content rest rest' := by
  by_cases hBackslash : t.isSymbol .backslash = true
  · have hEq := Token.isSymbol_iff.mp hBackslash
    rw [hBackslash] at hRest
    rw [hEq] at hNext ⊢
    exact behind_closersAside hRest (hOpen.other hNext rfl rfl)
  · rw [Bool.not_eq_true] at hBackslash
    rw [hBackslash] at hRest
    unfold Pairing.After
    split
    · rename_i hContent
      have hSymbol : t.isSymbol .openParens = true := by simp [Token.isSymbol, hContent]
      have hMore := hOpen.settled.next?_ne_none hNext (Or.inl hSymbol)
      exact ⟨⟨closers, hRest, hOpen.opened hNext hSymbol⟩, fun hNone => absurd hNone hMore⟩
    · rename_i hContent
      have hSymbol : t.isSymbol .closeParens = true := by simp [Token.isSymbol, hContent]
      rintro j rfl
      exact ⟨closers, hRest, hOpen.closed hNext hSymbol⟩
    · rename_i hContent
      have hSymbol : t.isSymbol .semicolon = true := by simp [Token.isSymbol, hContent]
      have hMore := hOpen.settled.next?_ne_none hNext (Or.inr hSymbol)
      refine fun _ => ⟨⟨closers, hRest, hOpen.other hNext ?_ ?_⟩, fun hNone => absurd hNone hMore⟩
      · simp [Token.isSymbol, hContent]
      · simp [Token.isSymbol, hContent]
    · rename_i hContent
      simp [Token.isSymbol, hContent] at hBackslash
    · rename_i hOpenParens hCloseParens _ _
      refine ⟨closers, hRest, hOpen.other hNext ?_ ?_⟩
      · rw [Bool.eq_false_iff, Ne, Token.isSymbol_iff]
        exact fun hEq => hOpenParens (by rw [hEq])
      · rw [Bool.eq_false_iff, Ne, Token.isSymbol_iff]
        exact fun hEq => hCloseParens (by rw [hEq])

theorem facing_closersAside (h : closersAside.tokens k ts ts') : closersAside.Facing k ts ts' := by
  obtain ⟨closers, hSqueeze, hOpen⟩ := h
  cases hNext : next? ts with
  | none =>
    rw [squeeze_of_next?_none hNext, List.nil_append] at hSqueeze
    cases closers with
    | nil =>
      obtain rfl : 0 = k := hOpen.owes.eq_of_none hNext
      refine .ended hNext (next?_none_of_squeeze hSqueeze) (fun _ => ?_) fun j hj => by omega
      exact ⟨[], rfl, by simp, rfl, fun u hu => by cases hu⟩
    | cons c closers =>
      obtain ⟨p, rfl⟩ := closer_eq (hOpen.closing _ List.mem_cons_self)
      obtain ⟨rest', hNext', hRest⟩ := next?_of_squeeze_cons hSqueeze
      refine .closing _ p hNext hNext' (fun _ _ => trivial) (Or.inl ⟨rfl, fun j hj => ?_⟩)
      subst hj
      refine ⟨closers, ?_, hOpen.outside hNext⟩
      rw [squeeze_of_next?_none hNext]
      exact hRest
  | some found =>
    obtain ⟨t, rest⟩ := found
    rw [squeeze_of_next? hNext, List.cons_append] at hSqueeze
    obtain ⟨rest', hNext', hRest⟩ := next?_of_squeeze_cons hSqueeze
    exact .same rfl hNext hNext' (after_closersAside hNext hOpen hRest)

/-- If nothing but separators is left, nothing is left. -/
theorem Settled.next?_of_skipSeparators (h : Settled ts)
    (hNone : next? (Cursor.skipSeparators ts) = none) : next? ts = none := by
  cases hNext : next? ts with
  | none => rfl
  | some found =>
    obtain ⟨t, rest⟩ := found
    obtain ⟨ps, hSolid⟩ := Cursor.solid_skipSeparators ts
    rw [Cursor.solid_of_next?_none hNone, List.append_nil] at hSolid
    have hSome : ps ≠ [] := by
      rintro rfl
      rw [Cursor.solid_of_next? hNext] at hSolid
      cases hSolid
    have hLast : (solid ts).getLast? = some ⟨.symbol .semicolon, ps.getLast hSome⟩ := by
      rw [hSolid, List.getLast?_map, List.getLast?_eq_some_getLast hSome]
      rfl
    have hSeparator := (h _ hLast).2
    simp at hSeparator

theorem dropSeparators_append (us : List Token)
    (hClosing : ∀ c ∈ closers, c.isSymbol .closeParens = true) :
    ((us ++ closers).dropWhile fun t => t.isSymbol .semicolon) =
      (us.dropWhile fun t => t.isSymbol .semicolon) ++ closers := by
  induction us with
  | nil =>
    cases closers with
    | nil => rfl
    | cons c closers =>
      obtain ⟨p, rfl⟩ := closer_eq (hClosing _ List.mem_cons_self)
      rfl
  | cons u us ih =>
    rw [List.cons_append, List.dropWhile_cons, List.dropWhile_cons]
    split
    · exact ih
    · rfl

/-- At the end of both runs no `)` is missing. -/
theorem LeavesOpen.next?_eq_none (h : LeavesOpen 0 ts closers)
    (hSqueeze : squeeze false ts' = squeeze false ts ++ closers) (hNone : next? ts = none) :
    next? ts' = none := by
  obtain rfl : closers = [] := List.length_eq_zero_iff.mp (h.owes.eq_of_none hNone)
  rw [squeeze_of_next?_none hNone] at hSqueeze
  exact next?_none_of_squeeze hSqueeze

theorem closersAside_lawful : closersAside.Lawful where
  alike_errors _ := trivial
  missingDot _ := trivial
  alike_twins h := h ▸ .refl _
  same_token := id
  facing := facing_closersAside
  skipSeparators := by
    rintro k ts ts' - ⟨⟨closers, hSqueeze, hOpen⟩, hFresh⟩
    refine ⟨⟨closers, ?_, hOpen.skipSeparators⟩, fun hNone => ?_⟩
    · rw [squeeze_skipSeparators, squeeze_skipSeparators, hSqueeze,
        dropSeparators_append _ hOpen.closing]
    · have hEnd := hFresh (hOpen.settled.next?_of_skipSeparators hNone)
      refine next?_none_of_squeeze ?_
      rw [squeeze_skipSeparators, squeeze_of_next?_none hEnd]
      rfl
  outermost := by
    rintro ts ts' - ⟨closers, hSqueeze, hOpen⟩ hNone
    exact hOpen.next?_eq_none hSqueeze hNone

-- ---------------------------------------------------------------------------
-- Whole sequences of tokens
-- ---------------------------------------------------------------------------

theorem squeeze_closers (hClosing : ∀ c ∈ closers, c.isSymbol .closeParens = true)
    (behind : Bool) : squeeze behind closers = closers := by
  induction closers generalizing behind with
  | nil => rfl
  | cons c closers ih =>
    obtain ⟨p, rfl⟩ := closer_eq (hClosing _ List.mem_cons_self)
    have hLater := ih (fun d hd => hClosing d (List.mem_cons_of_mem _ hd)) false
    exact congrArg _ hLater

theorem squeeze_append_closers (hClosing : ∀ c ∈ closers, c.isSymbol .closeParens = true)
    (behind : Bool) (us : List Token) :
    squeeze behind (us ++ closers) = squeeze behind us ++ closers := by
  induction us generalizing behind with
  | nil => exact squeeze_closers hClosing behind
  | cons u us ih =>
    rw [List.cons_append, squeeze, squeeze, ih, ih]
    split <;> rfl

/-- No symbol is lost with the blanks and the marks of the end. -/
theorem occurrences_significant (s : Symbol) (tokens : List Token) :
    occurrences s (significant tokens) = tokens.countP fun t => t.isSymbol s := by
  rw [occurrences_eq_countP, significant, List.countP_filter]
  refine List.countP_congr fun t _ => ?_
  obtain ⟨content, place⟩ := t
  cases content <;> simp [Token.isSymbol, Token.isFinish]

theorem significant_append_closers (hClosing : ∀ c ∈ closers, c.isSymbol .closeParens = true)
    (tokens : List Token) : significant (tokens ++ closers) = significant tokens ++ closers := by
  unfold significant
  have hKept : (closers.filter fun t => !t.isFinish) = closers := by
    rw [List.filter_eq_self]
    intro c hc
    obtain ⟨p, rfl⟩ := closer_eq (hClosing c hc)
    rfl
  rw [List.filter_append, hKept]

/-- Tokens that do not leave an expression to start are parsed alike with and without the closing
parentheses that they lack. -/
theorem closers_agree (depth : Nat) (units : List String) {tokens : List Token}
    (hClosing : ∀ c ∈ closers, c.isSymbol .closeParens = true)
    (hCount : (tokens.countP fun t => t.isSymbol .closeParens) + closers.length =
      tokens.countP fun t => t.isSymbol .openParens)
    (hLast : Settled (significant tokens)) :
    Attempt.Agrees (fun _ _ => True) Eq (parseWithin depth units tokens)
      (parseWithin depth units (tokens ++ closers)) := by
  have hOpen : LeavesOpen 0 (significant tokens) closers := by
    refine ⟨hClosing, ?_, hLast⟩
    rw [occurrences_significant, occurrences_significant]
    omega
  have hSqueeze : squeeze false (significant (tokens ++ closers)) =
      squeeze false (significant tokens) ++ closers := by
    rw [significant_append_closers hClosing, squeeze_append_closers hClosing]
  have hFresh : closersAside.Fresh 0 (significant tokens) (significant (tokens ++ closers)) :=
    ⟨⟨closers, hSqueeze, hOpen⟩, hOpen.next?_eq_none hSqueeze⟩
  exact (parseWithin_paired closersAside_lawful depth units units hFresh).imp
    fun n m => eq_of_alikeUnder units n m

/-- **A parenthesis that is left open is closed at the end**: the same tree is parsed from tokens with
and without the closing parentheses that they lack, unless they end in `(` or in a separator. -/
theorem parseWithin_unclosed (depth : Nat) (units : List String) {tokens closers : List Token}
    (hClosing : ∀ c ∈ closers, c.isSymbol .closeParens = true)
    (hCount : (tokens.countP fun t => t.isSymbol .closeParens) + closers.length =
      tokens.countP fun t => t.isSymbol .openParens)
    (hLast : Settled (significant tokens)) (n : Node) :
    (parseWithin depth units tokens).result = .ok n ↔
      (parseWithin depth units (tokens ++ closers)).result = .ok n := by
  have hAgrees := closers_agree depth units hClosing hCount hLast
  exact hAgrees.ok_iff n

/-- `2 * (x + (y`, which lacks two closing parentheses. -/
theorem two_parentheses_unclosed :
    let tokens : List Token :=
      [⟨.number (.fraction 2), ⟨1, 1⟩⟩, ⟨.symbol .mul, ⟨1, 3⟩⟩, ⟨.symbol .openParens, ⟨1, 5⟩⟩,
       ⟨.ident "x", ⟨1, 6⟩⟩, ⟨.symbol .add, ⟨1, 8⟩⟩, ⟨.symbol .openParens, ⟨1, 10⟩⟩,
       ⟨.ident "y", ⟨1, 11⟩⟩]
    let closers : List Token :=
      [⟨.symbol .closeParens, ⟨1, 12⟩⟩, ⟨.symbol .closeParens, ⟨1, 13⟩⟩]
    let t : Node :=
      .binary .mul (.number (.fraction 2) ⟨1, 1⟩)
        (.wrap .parens
          (.binary .plus (.ident "x" ⟨1, 6⟩) (.wrap .parens (.ident "y" ⟨1, 11⟩) ⟨1, 10⟩)) ⟨1, 5⟩)
    (∀ c ∈ closers, c.isSymbol .closeParens = true) ∧
      (tokens.countP fun t => t.isSymbol .closeParens) + closers.length =
        (tokens.countP fun t => t.isSymbol .openParens) ∧
      Settled (significant tokens) ∧ (parse [] tokens).result = .ok t ∧
      (parse [] (tokens ++ closers)).result = .ok t := by
  intro tokens closers t
  have hClosing : ∀ c ∈ closers, c.isSymbol .closeParens = true := by decide
  have hCount : (tokens.countP fun t => t.isSymbol .closeParens) + closers.length =
      tokens.countP fun t => t.isSymbol .openParens := rfl
  have hLast : Settled (significant tokens) := by
    intro u hu
    obtain rfl : ⟨.ident "y", ⟨1, 11⟩⟩ = u := Option.some.inj hu
    exact ⟨rfl, rfl⟩
  have hParsed : (parse [] tokens).result = .ok t := rfl
  exact ⟨hClosing, hCount, hLast, hParsed,
    (parseWithin_unclosed maxNesting [] hClosing hCount hLast t).mp hParsed⟩

end Grammar

end Reckoner
