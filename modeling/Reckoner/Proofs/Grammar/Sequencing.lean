import Reckoner.Proofs.Grammar.Continued
import Reckoner.Proofs.Grammar.Powers
import Reckoner.Proofs.Grammar.Ranges

/-!
# Sequences of statements

Statements are parsed one after the other as each is parsed by itself. A piece that is one statement
by itself is some separators, the tokens of the statement, and separators again; what stands between
two such statements in a sequence is then nothing but separators, at least one of them. So every
statement ends in front of a separator, or at the end of the tokens, and it is read there as by itself
(`assignment_inFront`). The loop over the statements skips all separators but one between two
statements, by induction on what stands there, and takes the statements by induction on their list.

## Results

* `IsStatement.read`      — one statement between separators is what is read of its tokens.
* `runs_apart`            — a statement behind some separators is the next one.
* `parseWithin_sequence`  — a sequence of statements is parsed into their trees, nested to the left.
-/

namespace Reckoner

namespace Grammar

open Cursor (next? after? Avoids Meets)

-- ---------------------------------------------------------------------------
-- Separators
-- ---------------------------------------------------------------------------

/-- Nothing but blanks and separators. -/
def Separators (ts : List Token) : Prop :=
  ∀ t ∈ ts, (t.isBlank || t.isSymbol .semicolon) = true

variable {units : List String} {ts ts' gap rest mid : List Token} {t : Token} {n m final : Node}
variable {depth d : Nat}

theorem Separators.append (h : Separators ts) (h' : Separators ts') : Separators (ts ++ ts') :=
  fun t ht => (List.mem_append.mp ht).elim (h t) (h' t)

/-- Of what may stand between statements only blanks and separators are parsed. -/
theorem separators_significant (h : ∀ t ∈ ts, isIdle t = true) : Separators (significant ts) := by
  intro t ht
  obtain ⟨hMem, hFinish⟩ := List.mem_filter.mp ht
  have hIdle := h t hMem
  unfold isIdle at hIdle
  rwa [show t.isFinish = false by simpa using hFinish, Bool.or_false] at hIdle

/-- Where nothing comes next there are only blanks. -/
theorem separators_of_none (h : next? ts = none) : Separators ts := by
  intro t ht
  have hNot : t ∉ Cursor.solid ts := by simp [Cursor.solid_of_next?_none h]
  have hBlank : t.isBlank = true := by simpa [Cursor.solid, ht] using hNot
  rw [hBlank, Bool.true_or]

/-- Separators are skipped up to a token that is none. -/
theorem separators_split (ts : List Token) :
    ∃ front, ts = front ++ Cursor.skipSeparators ts ∧ Separators front ∧
      Avoids [.semicolon] (Cursor.skipSeparators ts) := by
  refine ⟨_, List.takeWhile_append_dropWhile.symm,
    fun t ht => List.all_eq_true.mp List.all_takeWhile t ht, fun t ht => ?_⟩
  have hHead := List.head?_dropWhile_not (fun t => t.isBlank || t.isSymbol .semicolon) ts
  unfold Cursor.skipSeparators at ht
  rw [Option.mem_def.mp ht] at hHead
  simpa using hHead

/-- The next token of separators is a separator. -/
theorem Separators.next (h : Separators ts) (hNext : next? ts = some (t, rest)) :
    t = ⟨.symbol .semicolon, t.place⟩ ∧ Separators rest := by
  obtain ⟨blanks, rfl, -, hBlank⟩ := Cursor.next?_split hNext
  have ht := h t (by simp)
  rw [hBlank, Bool.false_or] at ht
  exact ⟨Token.isSymbol_iff.mp ht, fun u hu => h u (by simp [hu])⟩

theorem Separators.meets (h : Separators ts) : Meets [.semicolon] ts :=
  fun _ _ hNext => ⟨.semicolon, by simp, (h.next hNext).1⟩

/-- Among separators there is a next token if one of them is not blank. -/
theorem next?_ne_none_of_semicolon (h : ∃ t ∈ ts, t.isSymbol .semicolon = true) : next? ts ≠ none := by
  obtain ⟨t, hMem, hSymbol⟩ := h
  refine Cursor.next?_ne_none ⟨t, hMem, ?_⟩
  rw [Token.isSymbol_iff.mp hSymbol]
  rfl

/-- Behind a separator, among separators, there is no statement yet. -/
theorem Separators.no_statement (h : Separators ts) :
    (Cursor.atEnd ts || (after? .semicolon ts).isSome) = true := by
  cases hNext : next? ts with
  | none => rw [Cursor.atEnd_iff.mpr hNext, Bool.true_or]
  | some found =>
    obtain ⟨t, rest⟩ := found
    rw [(h.next hNext).1] at hNext
    rw [Cursor.after?_eq_some.mpr ⟨_, hNext⟩, Option.isSome_some, Bool.or_true]

-- ---------------------------------------------------------------------------
-- Between statements
-- ---------------------------------------------------------------------------

/-- Separators at the end are skipped. -/
theorem runs_separators (units : List String) (d : Nat) (n : Node) (h : Separators ts) :
    ∃ rest, Runs (statementStep (Layers.within units d)) n ts n rest ∧ next? rest = none := by
  induction hLength : ts.length using Nat.strongRecOn generalizing ts with
  | ind length ih =>
    cases hNext : next? ts with
    | none =>
      have hNone : after? .semicolon ts = none := by simp [Cursor.after?, hNext]
      exact ⟨ts, .done (statementStep_none_iff.mpr hNone), hNext⟩
    | some found =>
      obtain ⟨t, after⟩ := found
      obtain ⟨hSymbol, hAfter⟩ := h.next hNext
      rw [hSymbol] at hNext
      have hStep : (statementStep (Layers.within units d) n ts).result = .ok (some (n, after)) :=
        statementStep_some.mpr ⟨after, Cursor.after?_eq_some.mpr ⟨_, hNext⟩,
          Or.inl ⟨hAfter.no_statement, rfl, rfl⟩⟩
      have hLess := (statementStep_takes units d hStep).2
      obtain ⟨rest, hRuns, hEnd⟩ := ih _ (hLength ▸ hLess) hAfter rfl
      exact ⟨rest, .more hStep hLess hRuns, hEnd⟩

/-- **A statement behind some separators is the next one**: all of them but the last are skipped. -/
theorem runs_apart (hGap : Separators gap) (hApart : ∃ t ∈ gap, t.isSymbol .semicolon = true)
    (hSome : ts ≠ []) (hAvoids : Avoids [.semicolon] ts)
    (h : ((Layers.within units d).assignment ts).result = .ok (m, mid))
    (hRuns : Runs (statementStep (Layers.within units d)) (.pair .statements n m) mid final rest) :
    Runs (statementStep (Layers.within units d)) n (gap ++ ts) final rest := by
  induction hLength : gap.length using Nat.strongRecOn generalizing gap with
  | ind length ih =>
    obtain ⟨⟨t, after⟩, hNext⟩ := Option.ne_none_iff_exists'.mp (next?_ne_none_of_semicolon hApart)
    obtain ⟨hSymbol, hAfter⟩ := hGap.next hNext
    have hShort : after.length < gap.length := by
      have hLess := (Cursor.next?_suffix hNext).length_le
      simp only [List.length_cons] at hLess
      omega
    rw [hSymbol] at hNext
    have hSeparator := Cursor.after?_append (Cursor.after?_eq_some.mpr ⟨_, hNext⟩) ts
    cases hMore : next? after with
    | none =>
      -- the last separator: the statement comes next
      have hSame := Cursor.next?_append_of_none hMore ts
      have hRead : ((Layers.within units d).assignment (after ++ ts)).result = .ok (m, mid) := by
        rw [assignment_congr hSame]
        exact h
      obtain ⟨u, us, rfl⟩ := List.exists_cons_of_ne_nil hSome
      have hHere : (Cursor.atEnd (after ++ u :: us) ||
          (after? .semicolon (after ++ u :: us)).isSome) = false := by
        have hNone : after? .semicolon (after ++ u :: us) = none := by
          have hFirst := Cursor.after?_of_avoids hAvoids (List.mem_singleton.mpr rfl)
          unfold Cursor.after? at hFirst ⊢
          rwa [hSame]
        rw [Cursor.atEnd_of_next? (hSame.trans hAvoids.next?), hNone]
        rfl
      have hStep : (statementStep (Layers.within units d) n (gap ++ u :: us)).result =
          .ok (some (.pair .statements n m, mid)) :=
        statementStep_some.mpr ⟨_, hSeparator, Or.inr ⟨hHere, m, hRead, rfl⟩⟩
      exact .more hStep (statementStep_takes units d hStep).2 hRuns
    | some found =>
      obtain ⟨u, later⟩ := found
      have hSymbol' := (hAfter.next hMore).1
      have hMem : u ∈ after := (Cursor.next?_suffix hMore).subset List.mem_cons_self
      have hHere : (Cursor.atEnd (after ++ ts) || (after? .semicolon (after ++ ts)).isSome) = true := by
        rw [hSymbol'] at hMore
        rw [Cursor.after?_append (Cursor.after?_eq_some.mpr ⟨_, hMore⟩), Option.isSome_some,
          Bool.or_true]
      have hStep : (statementStep (Layers.within units d) n (gap ++ ts)).result =
          .ok (some (n, after ++ ts)) :=
        statementStep_some.mpr ⟨_, hSeparator, Or.inl ⟨hHere, rfl, rfl⟩⟩
      refine .more hStep (statementStep_takes units d hStep).2 (ih _ (hLength ▸ hShort) hAfter ?_ rfl)
      exact ⟨u, hMem, Token.isSymbol_iff.mpr hSymbol'⟩

-- ---------------------------------------------------------------------------
-- One statement
-- ---------------------------------------------------------------------------

/-- The tokens are by themselves one statement, which closes the parentheses that it opens. -/
structure IsStatement (depth : Nat) (units : List String) (tokens : List Token) (n : Node) : Prop where
  something : ∃ t ∈ tokens, isIdle t = false
  balanced : (tokens.countP fun t => t.isSymbol .openParens) =
    tokens.countP fun t => t.isSymbol .closeParens
  parsed : (parseWithin depth units tokens).result = .ok n
  single : n.kind ≠ .statements

theorem IsStatement.not_separators {tokens : List Token} (h : IsStatement depth units tokens n) :
    ¬ Separators (significant tokens) := by
  intro hAll
  obtain ⟨t, hMem, hIdle⟩ := h.something
  simp only [isIdle, Bool.or_eq_false_iff] at hIdle
  obtain ⟨⟨hBlank, hFinish⟩, hSemicolon⟩ := hIdle
  have ht := hAll t (List.mem_filter.mpr ⟨hMem, by simp [hFinish]⟩)
  rw [hBlank, hSemicolon] at ht
  cases ht

/-- A loop over statements that comes to no list of statements has skipped separators. -/
theorem separators_of_runs (h : Runs (statementStep (Layers.within units d)) n ts m rest)
    (hEnd : next? rest = none) (hKind : m.kind ≠ .statements) : m = n ∧ Separators ts := by
  induction h with
  | done _ => exact ⟨rfl, separators_of_none hEnd⟩
  | @more n n' m ts ts' rest hStep hLess hRuns ih =>
    obtain ⟨hSame, hSeparators⟩ := ih hEnd hKind
    obtain ⟨after, hAfter, ⟨-, rfl, rfl⟩ | ⟨-, next, -, hPair⟩⟩ := statementStep_some.mp hStep
    · obtain ⟨p, hNext⟩ := Cursor.after?_eq_some.mp hAfter
      obtain ⟨blanks, rfl, hBlanks, -⟩ := Cursor.next?_split hNext
      exact ⟨hSame, .append (separators_of_none hBlanks) (List.forall_mem_cons.mpr ⟨rfl, hSeparators⟩)⟩
    · rw [hSame, hPair] at hKind
      exact absurd rfl hKind

/-- **One statement between separators is what is read of its tokens.** -/
theorem IsStatement.read {tokens : List Token} (h : IsStatement depth units tokens n) :
    ∃ d front body rest, depth = d + 2 ∧ significant tokens = front ++ body ∧ Separators front ∧
      body ≠ [] ∧ Avoids [.semicolon] body ∧ Owes 0 body 0 ∧
        ((Layers.within units d).assignment body).result = .ok (n, rest) ∧ Separators rest := by
  obtain ⟨rest, hRead, hEnd⟩ := parseWithin_ok.mp h.parsed
  obtain ⟨d, rfl, hRead⟩ := expression_deep hRead
  obtain ⟨front, hSplit, hFront, hAvoids⟩ := separators_split (significant tokens)
  have hBalance : Owes 0 (significant tokens) 0 := by
    unfold Owes
    rw [occurrences_significant, occurrences_significant, h.balanced, Nat.add_comm]
  rcases statements_ok.mp hRead with ⟨hNothing, -, -⟩ | ⟨hSomething, first, mid, hFirst, hLoop⟩
  · have hAll := hFront.append (separators_of_none (Cursor.atEnd_iff.mp hNothing))
    rw [← hSplit] at hAll
    exact absurd hAll h.not_separators
  · have hRuns := runs_of_extend (statementStep_takes units d) hLoop
    obtain ⟨rfl, hMid⟩ := separators_of_runs hRuns hEnd h.single
    refine ⟨d, front, _, mid, rfl, hSplit, hFront, ?_, hAvoids, hBalance.skipSeparators, hFirst, hMid⟩
    intro hNil
    rw [hNil] at hSomething
    cases hSomething

-- ---------------------------------------------------------------------------
-- Sequences
-- ---------------------------------------------------------------------------

/-- A statement in a sequence: what stands before it, its tokens, and its tree. -/
structure Statement where
  gap : List Token
  tokens : List Token
  tree : Node

/-- The tokens of some statements, and what stands behind the last one. -/
def sequence (statements : List Statement) (last : List Token) : List Token :=
  statements.flatMap (fun s => s.gap ++ s.tokens) ++ last

/-- The trees of statements behind a first one, nested to the left. -/
def nestStatements (first : Node) (more : List Statement) : Node :=
  more.foldl (fun n s => .pair .statements n s.tree) first

theorem significant_sequence_cons (s : Statement) (more : List Statement) (last : List Token) :
    significant (sequence (s :: more) last) =
      significant s.gap ++ (significant s.tokens ++ significant (sequence more last)) := by
  simp [sequence, significant, List.filter_append]

/-- What stands before and behind statements is idle, and a separator is before each of them. -/
structure Apart (statements : List Statement) (last : List Token) : Prop where
  gaps : ∀ s ∈ statements, (∀ t ∈ s.gap, isIdle t = true) ∧ ∃ t ∈ s.gap, t.isSymbol .semicolon = true
  last : ∀ t ∈ last, isIdle t = true

variable {s first : Statement} {more : List Statement} {last front : List Token}

theorem Apart.tail (h : Apart (s :: more) last) : Apart more last :=
  ⟨fun s hs => h.gaps s (List.mem_cons_of_mem _ hs), h.last⟩

/-- The separator before a statement is parsed. -/
theorem Apart.semicolon (h : Apart (s :: more) last) :
    ∃ t ∈ significant s.gap, t.isSymbol .semicolon = true := by
  obtain ⟨t, hMem, hSymbol⟩ := (h.gaps s List.mem_cons_self).2
  have hFinish : t.isFinish = false := by
    rw [Token.isSymbol_iff.mp hSymbol]
    rfl
  exact ⟨t, List.mem_filter.mpr ⟨hMem, by simp [hFinish]⟩, hSymbol⟩

/-- A statement is followed by a separator, or by nothing. -/
theorem Apart.meets (h : Apart more last) :
    Meets (followers .assignment) (significant (sequence more last)) := by
  cases more with
  | nil => exact (separators_significant h.last).meets.mono (by decide)
  | cons s more =>
    have hGap := separators_significant (h.gaps s List.mem_cons_self).1
    obtain ⟨⟨t, rest⟩, hNext⟩ := Option.ne_none_iff_exists'.mp (next?_ne_none_of_semicolon h.semicolon)
    rw [(hGap.next hNext).1] at hNext
    rw [significant_sequence_cons]
    exact Cursor.meets_of_next? (Cursor.next?_append hNext _) (by decide)

/-- **The loop over statements takes them one by one**, with the separators before each of them. -/
theorem runs_sequence (hApart : Apart more last)
    (hMore : ∀ s ∈ more, IsStatement (d + 2) units s.tokens s.tree) (hFront : Separators front)
    (n : Node) :
    ∃ rest, Runs (statementStep (Layers.within units d)) n
      (front ++ significant (sequence more last)) (nestStatements n more) rest ∧ next? rest = none := by
  induction more generalizing front n with
  | nil => exact runs_separators units d n (hFront.append (separators_significant hApart.last))
  | cons s more ih =>
    obtain ⟨_, front', body, mid, hDepth, hSplit, hFront', hSome, hAvoids, hBalance, hRead, hMid⟩ :=
      (hMore s List.mem_cons_self).read
    obtain rfl := Nat.add_right_cancel hDepth
    obtain ⟨rest, hRuns, hEnd⟩ := ih hApart.tail (fun s hs => hMore s (List.mem_cons_of_mem _ hs)) hMid
      (.pair .statements n s.tree)
    refine ⟨rest, ?_, hEnd⟩
    have hGap : Separators (front ++ significant s.gap ++ front') :=
      (hFront.append (separators_significant (hApart.gaps s List.mem_cons_self).1)).append hFront'
    have hSemicolon : ∃ t ∈ front ++ significant s.gap ++ front', t.isSymbol .semicolon = true := by
      obtain ⟨t, hMem, hSymbol⟩ := hApart.semicolon
      exact ⟨t, by simp [hMem], hSymbol⟩
    have hNext := assignment_inFront hApart.tail.meets hBalance hRead
    have hTokens : front ++ significant (sequence (s :: more) last) =
        (front ++ significant s.gap ++ front') ++ (body ++ significant (sequence more last)) := by
      rw [significant_sequence_cons, hSplit]
      simp only [List.append_assoc]
    rw [hTokens]
    exact runs_apart hGap hSemicolon (by simp [hSome]) (hAvoids.append hSome _) hNext hRuns

/-- **Statements are sequenced as they are**: pieces that are one statement each are parsed, one behind
the other with separators between them, into their trees, nested to the left. Every bound on the
nesting that allows the pieces allows the sequence. -/
theorem parseWithin_sequence (depth : Nat) (units : List String)
    (hPieces : ∀ s ∈ first :: more, IsStatement depth units s.tokens s.tree)
    (hFirst : ∀ t ∈ first.gap, isIdle t = true) (hApart : Apart more last) :
    (parseWithin depth units (sequence (first :: more) last)).result =
      .ok (nestStatements first.tree more) := by
  obtain ⟨d, front, body, mid, rfl, hSplit, hFront, hSome, hAvoids, hBalance, hRead, hMid⟩ :=
    (hPieces first List.mem_cons_self).read
  obtain ⟨rest, hRuns, hEnd⟩ :=
    runs_sequence hApart (fun s hs => hPieces s (List.mem_cons_of_mem _ hs)) hMid first.tree
  obtain ⟨t, body, rfl⟩ := List.exists_cons_of_ne_nil hSome
  have hSkip : Cursor.skipSeparators (significant (sequence (first :: more) last)) =
      t :: body ++ significant (sequence more last) := by
    obtain ⟨hBlank, hSymbols⟩ := hAvoids t rfl
    have hGap := (separators_significant hFirst).append hFront
    rw [significant_sequence_cons, hSplit, ← List.append_assoc, ← List.append_assoc,
      List.append_assoc _ (t :: body)]
    unfold Cursor.skipSeparators
    rw [List.dropWhile_append_of_pos hGap, List.cons_append,
      List.dropWhile_cons_of_neg (by simp [hBlank, hSymbols .semicolon (by simp)])]
  refine parseWithin_ok.mpr ⟨rest, statements_ok.mpr (Or.inr ?_), hEnd⟩
  rw [hSkip]
  have hNext : next? (t :: body ++ significant (sequence more last)) = some (t, _) :=
    Cursor.next?_append hAvoids.next? _
  exact ⟨Cursor.atEnd_of_next? hNext, first.tree, _, assignment_inFront hApart.meets hBalance hRead,
    extend_of_runs hRuns⟩

/-- `; a = 1 ;; (2); ;`, of the pieces `a = 1` and `(2);`. -/
theorem two_statements_sequenced :
    let first : Statement :=
      { gap := [⟨.symbol .semicolon, ⟨1, 1⟩⟩, ⟨.blank " ", ⟨1, 2⟩⟩]
        tokens := [⟨.ident "a", ⟨1, 3⟩⟩, ⟨.blank " ", ⟨1, 4⟩⟩, ⟨.symbol .equals, ⟨1, 5⟩⟩,
          ⟨.blank " ", ⟨1, 6⟩⟩, ⟨.number (.fraction 1), ⟨1, 7⟩⟩, ⟨.blank " ", ⟨1, 8⟩⟩]
        tree := .named .assignment (.text "a") (.number (.fraction 1) ⟨1, 7⟩) ⟨1, 3⟩ }
    let second : Statement :=
      { gap := [⟨.symbol .semicolon, ⟨1, 9⟩⟩, ⟨.symbol .semicolon, ⟨1, 10⟩⟩, ⟨.blank " ", ⟨1, 11⟩⟩]
        tokens := [⟨.symbol .openParens, ⟨1, 12⟩⟩, ⟨.number (.fraction 2), ⟨1, 13⟩⟩,
          ⟨.symbol .closeParens, ⟨1, 14⟩⟩, ⟨.symbol .semicolon, ⟨1, 15⟩⟩]
        tree := .wrap .parens (.number (.fraction 2) ⟨1, 13⟩) ⟨1, 12⟩ }
    let last : List Token :=
      [⟨.blank " ", ⟨1, 16⟩⟩, ⟨.symbol .semicolon, ⟨1, 17⟩⟩, ⟨.finish "EOF", ⟨1, 18⟩⟩]
    (∀ s ∈ [first, second], IsStatement maxNesting [] s.tokens s.tree) ∧
      (∀ t ∈ first.gap, isIdle t = true) ∧ Apart [second] last ∧
        (parse [] (sequence [first, second] last)).result =
          .ok (.pair .statements first.tree second.tree) := by
  intro first second last
  have hPieces : ∀ s ∈ [first, second], IsStatement maxNesting [] s.tokens s.tree := by
    simp only [List.forall_mem_cons]
    refine ⟨⟨⟨_, List.mem_cons_self, rfl⟩, rfl, rfl, by decide⟩,
      ⟨⟨_, List.mem_cons_self, rfl⟩, rfl, rfl, by decide⟩, by simp⟩
  have hFirst : ∀ t ∈ first.gap, isIdle t = true := by decide
  have hApart : Apart [second] last := by
    refine ⟨?_, by decide⟩
    simp only [List.forall_mem_cons]
    exact ⟨⟨by decide, by decide⟩, by simp⟩
  exact ⟨hPieces, hFirst, hApart, parseWithin_sequence maxNesting [] hPieces hFirst hApart⟩

/-- A mark of the end of the text is no blank and no separator, and it is parsed into the empty value.
But it is dropped before anything is parsed, so it is no statement of a sequence. -/
theorem end_mark_not_sequenced :
    let mark : Token := ⟨.finish "EOF", ⟨1, 1⟩⟩
    let separator : Token := ⟨.symbol .semicolon, ⟨1, 1⟩⟩
    let one : Token := ⟨.number (.fraction 1), ⟨1, 2⟩⟩
    (mark.isBlank = false ∧ mark.isSymbol .semicolon = false) ∧
      (parse [] [mark]).result = .ok (.unit .unknown) ∧ (Node.unit .unknown).kind ≠ .statements ∧
      (parse [] [one]).result = .ok (.number (.fraction 1) ⟨1, 2⟩) ∧
      (parse [] ([mark] ++ [separator] ++ [one])).result = .ok (.number (.fraction 1) ⟨1, 2⟩) ∧
      Node.number (.fraction 1) ⟨1, 2⟩ ≠
        .pair .statements (.unit .unknown) (.number (.fraction 1) ⟨1, 2⟩) := by
  intro mark separator one
  refine ⟨⟨rfl, rfl⟩, rfl, by decide, rfl, rfl, fun h => ?_⟩
  cases congrArg Node.kind h

end Grammar

end Reckoner
