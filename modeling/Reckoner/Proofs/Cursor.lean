import Reckoner.Grammar.Layers
import Reckoner.Proofs.Attempt

/-!
# What a cursor sees

The grammar looks at the tokens that are left through a few helpers, each of which skips blanks. So
all they see is `solid ts`, the tokens that are not blank, and a helper that succeeds has taken the
first of them: each has one lemma that says which (`next_ok`, `after?_eq_some`, `take_ok`,
`select?_eq_some`), and the others follow from it.

The last section compares what a helper sees of some tokens with what it sees of them in front of a
tail: what it takes in front of the tail does not depend on the tail.
-/

namespace Reckoner

theorem Token.isSymbol_iff {t : Token} {s : Symbol} :
    t.isSymbol s = true ↔ t = ⟨.symbol s, t.place⟩ := by
  obtain ⟨content, place⟩ := t
  cases content <;> simp [isSymbol]

@[simp] theorem Token.isSymbol_symbol (s s' : Symbol) (p : Place) :
    isSymbol ⟨.symbol s, p⟩ s' = decide (s = s') := rfl
@[simp] theorem Token.isSymbol_number (v : Payload) (p : Place) (s : Symbol) :
    isSymbol ⟨.number v, p⟩ s = false := rfl
@[simp] theorem Token.isSymbol_string (x : String) (p : Place) (s : Symbol) :
    isSymbol ⟨.string x, p⟩ s = false := rfl
@[simp] theorem Token.isSymbol_ident (x : String) (p : Place) (s : Symbol) :
    isSymbol ⟨.ident x, p⟩ s = false := rfl

namespace Cursor

/-- The tokens that are not blank. -/
def solid (ts : List Token) : List Token :=
  ts.filter fun t => !t.isBlank

@[simp] theorem solid_nil : solid [] = [] := rfl

-- ---------------------------------------------------------------------------
-- The next token
-- ---------------------------------------------------------------------------

theorem solid_of_next? {ts : List Token} {t : Token} {rest : List Token}
    (h : next? ts = some (t, rest)) : solid ts = t :: solid rest := by
  induction ts with
  | nil => simp [next?] at h
  | cons u us ih =>
    rw [next?] at h
    split at h
    · rename_i hBlank
      simpa [solid, hBlank] using ih h
    · rename_i hBlank
      obtain ⟨rfl, rfl⟩ : u = t ∧ us = rest := by simpa using h
      simp [solid, hBlank]

theorem solid_of_next?_none {ts : List Token} (h : next? ts = none) : solid ts = [] := by
  induction ts with
  | nil => rfl
  | cons u us ih =>
    rw [next?] at h
    split at h
    · rename_i hBlank
      simpa [solid, hBlank] using ih h
    · simp at h

/-- A token that is not blank comes next, if there is one. -/
theorem next?_ne_none {ts : List Token} (h : ∃ t ∈ ts, t.isBlank = false) : next? ts ≠ none := by
  intro hNone
  obtain ⟨t, hMem, hBlank⟩ := h
  have hSolid : t ∈ solid ts := List.mem_filter.mpr ⟨hMem, by simp [hBlank]⟩
  rw [solid_of_next?_none hNone] at hSolid
  cases hSolid

theorem next_ok {ts : List Token} {t : Token} {rest : List Token} :
    (next ts).result = .ok (t, rest) ↔ next? ts = some (t, rest) := by
  unfold next
  split
  · rename_i h
    simp [h]
  · rename_i h
    simp [h]

/-- Taking the next token answers with nothing else. -/
theorem next_eq {ts rest : List Token} {t : Token} {found : Token × List Token}
    (hNext : next? ts = some (t, rest)) (h : (next ts).result = .ok found) : found = (t, rest) := by
  obtain ⟨t', rest'⟩ := found
  rw [next_ok, hNext] at h
  exact (Option.some.inj h).symm

theorem nextRaw_ok {ts : List Token} {t : Token} {rest : List Token} :
    (nextRaw ts).result = .ok (t, rest) ↔ ts = t :: rest := by
  cases ts <;> simp [nextRaw]

theorem solid_of_atEnd {ts : List Token} (h : atEnd ts = true) : solid ts = [] := by
  apply solid_of_next?_none
  simpa [atEnd, peek?] using h

-- ---------------------------------------------------------------------------
-- Symbols
-- ---------------------------------------------------------------------------

/-- A symbol is what `after?` takes. -/
theorem after?_eq_some {s : Symbol} {ts rest : List Token} :
    after? s ts = some rest ↔ ∃ p, next? ts = some (⟨.symbol s, p⟩, rest) := by
  unfold after?
  cases hNext : next? ts with
  | none => simp
  | some found =>
    obtain ⟨t, us⟩ := found
    dsimp only
    split
    · rename_i hSymbol
      rw [Token.isSymbol_iff.mp hSymbol]
      simp
    · rename_i hOther
      constructor
      · exact fun h => nomatch h
      · rintro ⟨p, h⟩
        rw [(Prod.mk.inj (Option.some.inj h)).1] at hOther
        simp at hOther

theorem take_ok {s : Symbol} {ts rest : List Token} :
    (take s ts).result = .ok rest ↔ after? s ts = some rest := by
  unfold take next after?
  cases hNext : next? ts with
  | none => exact ⟨(nomatch ·), (nomatch ·)⟩
  | some found =>
    obtain ⟨⟨content, place⟩, us⟩ := found
    cases content with
    | symbol y =>
      show (if y = s then pure us else Attempt.reject _).result = _ ↔
        (if decide (y = s) = true then some us else none) = _
      by_cases hSame : y = s
      · simp [hSame]
      · simp [hSame]
    | _ => exact ⟨(nomatch ·), (nomatch ·)⟩

theorem take_none {s : Symbol} {ts : List Token} (h : after? s ts = none) :
    ∃ e, (take s ts).result = .error (.error e) := by
  unfold take next
  cases hNext : next? ts with
  | none => exact ⟨_, rfl⟩
  | some found =>
    obtain ⟨⟨content, place⟩, us⟩ := found
    cases content with
    | symbol y =>
      by_cases hSame : y = s
      · rw [after?_eq_some.mpr ⟨place, hSame ▸ hNext⟩] at h
        cases h
      · refine ⟨.expectedSymbol y s ⟨.symbol y, place⟩, ?_⟩
        show (if y = s then pure us else Attempt.reject _).result = _
        rw [if_neg hSame]
        rfl
    | _ => exact ⟨_, rfl⟩

theorem select?_eq_some {α : Type} {table : List (Symbol × α)} {ts : List Token}
    {entry : Symbol × α} {t : Token} {rest : List Token} :
    select? table ts = some (entry, t, rest) ↔
      next? ts = some (t, rest) ∧ (table.find? fun e => t.isSymbol e.1) = some entry := by
  unfold select?
  cases hNext : next? ts with
  | none => simp
  | some found =>
    obtain ⟨u, us⟩ := found
    simp only [Option.map_eq_some_iff, Option.some.injEq, Prod.mk.injEq]
    constructor
    · rintro ⟨e, hFind, rfl, rfl, rfl⟩
      exact ⟨⟨rfl, rfl⟩, hFind⟩
    · rintro ⟨⟨rfl, rfl⟩, hFind⟩
      exact ⟨entry, hFind, rfl, rfl, rfl⟩

theorem atEnd_iff {ts : List Token} : atEnd ts = true ↔ next? ts = none := by
  simp [atEnd, peek?]

theorem atEnd_of_next? {ts : List Token} {found : Token × List Token} (h : next? ts = some found) :
    atEnd ts = false := by
  simp [atEnd, peek?, h]

theorem solid_of_after? {s : Symbol} {ts rest : List Token} (h : after? s ts = some rest) :
    ∃ p, solid ts = ⟨.symbol s, p⟩ :: solid rest := by
  obtain ⟨p, hNext⟩ := after?_eq_some.mp h
  exact ⟨p, solid_of_next? hNext⟩

theorem solid_of_take {s : Symbol} {ts rest : List Token} (h : (take s ts).result = .ok rest) :
    ∃ p, solid ts = ⟨.symbol s, p⟩ :: solid rest :=
  solid_of_after? (take_ok.mp h)

theorem solid_of_select? {α : Type} {table : List (Symbol × α)} {ts : List Token}
    {entry : Symbol × α} {t : Token} {rest : List Token}
    (h : select? table ts = some (entry, t, rest)) :
    entry ∈ table ∧ t = ⟨.symbol entry.1, t.place⟩ ∧ solid ts = t :: solid rest := by
  obtain ⟨hNext, hFind⟩ := select?_eq_some.mp h
  have hSymbol : t.isSymbol entry.1 = true := by
    have hEntry := List.find?_some hFind
    exact hEntry
  exact ⟨List.mem_of_find?_eq_some hFind, Token.isSymbol_iff.mp hSymbol, solid_of_next? hNext⟩

/-- In a table with one entry for each symbol, the symbol of an entry selects that entry. -/
theorem select?_symbol {α : Type} {table : List (Symbol × α)} {y : Symbol} {a : α}
    (hMem : (y, a) ∈ table) (hDistinct : (table.map Prod.fst).Nodup) (p : Place)
    (ts : List Token) :
    select? table (⟨.symbol y, p⟩ :: ts) = some ((y, a), ⟨.symbol y, p⟩, ts) := by
  have hFind : table.find? (fun e => Token.isSymbol ⟨.symbol y, p⟩ e.1) = some (y, a) := by
    induction table with
    | nil => cases hMem
    | cons e table ih =>
      obtain ⟨hNew, hDistinct⟩ := List.nodup_cons.mp hDistinct
      rcases List.mem_cons.mp hMem with rfl | hMem
      · rw [List.find?_cons_of_pos (by simp)]
      · have hNe : y ≠ e.1 := by
          rintro rfl
          exact hNew (List.mem_map.mpr ⟨_, hMem, rfl⟩)
        rw [List.find?_cons_of_neg (by simpa using hNe)]
        exact ih hMem hDistinct
  show (table.find? fun e => Token.isSymbol ⟨.symbol y, p⟩ e.1).map _ = _
  rw [hFind]
  rfl

/-- Nothing but separators is skipped before statements. -/
theorem solid_skipSeparators (ts : List Token) :
    ∃ ps : List Place,
      solid ts = ps.map (fun p => ⟨.symbol .semicolon, p⟩) ++ solid (skipSeparators ts) := by
  induction ts with
  | nil => exact ⟨[], rfl⟩
  | cons t ts ih =>
    obtain ⟨ps, ih⟩ := ih
    unfold skipSeparators
    rw [List.dropWhile_cons]
    by_cases hBlank : t.isBlank = true
    · refine ⟨ps, ?_⟩
      simpa [solid, hBlank, skipSeparators] using ih
    · by_cases hSymbol : t.isSymbol .semicolon = true
      · refine ⟨t.place :: ps, ?_⟩
        rw [List.map_cons, ← Token.isSymbol_iff.mp hSymbol]
        simpa [solid, hBlank, hSymbol, skipSeparators] using ih
      · refine ⟨[], ?_⟩
        simp [hBlank, hSymbol]

-- ---------------------------------------------------------------------------
-- What comes next
-- ---------------------------------------------------------------------------

/-- Nothing is left, or a token comes next that is neither blank nor one of the symbols. -/
def Avoids (ys : List Symbol) (ts : List Token) : Prop :=
  ∀ t ∈ ts.head?, t.isBlank = false ∧ ∀ y ∈ ys, t.isSymbol y = false

theorem avoids_cons {ys : List Symbol} {t : Token} (hBlank : t.isBlank = false)
    (hSymbols : ∀ y ∈ ys, t.isSymbol y = false) (ts : List Token) : Avoids ys (t :: ts) := by
  intro u hu
  obtain rfl := Option.some.inj hu
  exact ⟨hBlank, hSymbols⟩

theorem avoids_number {ys : List Symbol} {v : Payload} {p : Place} (ts : List Token) :
    Avoids ys (⟨.number v, p⟩ :: ts) :=
  avoids_cons rfl (fun _ _ => rfl) ts

theorem avoids_ident {ys : List Symbol} {x : String} {p : Place} (ts : List Token) :
    Avoids ys (⟨.ident x, p⟩ :: ts) :=
  avoids_cons rfl (fun _ _ => rfl) ts

/-- Nothing is left, or one of the symbols comes next. -/
def Closes (ys : List Symbol) (ts : List Token) : Prop :=
  ∀ t ∈ ts.head?, ∃ y ∈ ys, t = ⟨.symbol y, t.place⟩

theorem closes_nil (ys : List Symbol) : Closes ys [] := by
  intro t ht
  cases ht

theorem closes_cons {ys : List Symbol} {y : Symbol} (hy : y ∈ ys) (p : Place) (ts : List Token) :
    Closes ys (⟨.symbol y, p⟩ :: ts) := by
  intro t ht
  obtain rfl : _ = t := Option.some.inj ht
  exact ⟨y, hy, rfl⟩

theorem Closes.mono {ys zs : List Symbol} {ts : List Token} (h : Closes ys ts)
    (hSub : ∀ y ∈ ys, y ∈ zs) : Closes zs ts := by
  intro t ht
  obtain ⟨y, hy, hEq⟩ := h t ht
  exact ⟨y, hSub y hy, hEq⟩

theorem Closes.avoids {ys zs : List Symbol} {ts : List Token} (h : Closes ys ts)
    (hDisjoint : ∀ y ∈ ys, y ∉ zs) : Avoids zs ts := by
  intro t ht
  obtain ⟨y, hy, hEq⟩ := h t ht
  rw [hEq]
  refine ⟨rfl, fun z hz => ?_⟩
  have hNe : y ≠ z := fun hSame => hDisjoint y hy (hSame ▸ hz)
  simpa using hNe

/-- Nothing but blanks is left, or one of the symbols comes next, perhaps behind blanks. -/
def Meets (ys : List Symbol) (ts : List Token) : Prop :=
  ∀ t rest, next? ts = some (t, rest) → ∃ y ∈ ys, t = ⟨.symbol y, t.place⟩

theorem meets_of_next? {ys : List Symbol} {ts rest : List Token} {y : Symbol} {p : Place}
    (hNext : next? ts = some (⟨.symbol y, p⟩, rest)) (hy : y ∈ ys) : Meets ys ts := by
  intro t after h
  obtain ⟨rfl, -⟩ := Prod.mk.inj (Option.some.inj (hNext.symm.trans h))
  exact ⟨y, hy, rfl⟩

theorem meets_of_none {ys : List Symbol} {ts : List Token} (h : next? ts = none) : Meets ys ts := by
  intro t rest hNext
  rw [h] at hNext
  cases hNext

theorem Meets.mono {ys zs : List Symbol} {ts : List Token} (h : Meets ys ts)
    (hSub : ∀ y ∈ ys, y ∈ zs) : Meets zs ts := by
  intro t rest hNext
  obtain ⟨y, hy, hEq⟩ := h t rest hNext
  exact ⟨y, hSub y hy, hEq⟩

/-- The blanks in front of what comes next do not matter. -/
theorem Meets.closes {ys : List Symbol} {ts : List Token} (h : Meets ys ts) :
    ∃ ts', next? ts = next? ts' ∧ Closes ys ts' := by
  cases hNext : next? ts with
  | none => exact ⟨[], rfl, closes_nil ys⟩
  | some found =>
    obtain ⟨t, rest⟩ := found
    obtain ⟨y, hy, hEq⟩ := h t rest hNext
    rw [hEq]
    exact ⟨⟨.symbol y, t.place⟩ :: rest, rfl, closes_cons hy _ _⟩

theorem Avoids.mono {ys zs : List Symbol} {ts : List Token} (h : Avoids ys ts)
    (hSub : ∀ z ∈ zs, z ∈ ys) : Avoids zs ts := by
  intro t ht
  obtain ⟨hBlank, hSymbols⟩ := h t ht
  exact ⟨hBlank, fun z hz => hSymbols z (hSub z hz)⟩

theorem Avoids.next? {ys : List Symbol} {t : Token} {ts : List Token} (h : Avoids ys (t :: ts)) :
    next? (t :: ts) = some (t, ts) := by
  rw [Cursor.next?, (h t rfl).1]
  rfl

theorem Avoids.append {ys : List Symbol} {ts : List Token} (h : Avoids ys ts) (hSome : ts ≠ [])
    (tail : List Token) : Avoids ys (ts ++ tail) := by
  obtain ⟨t, ts, rfl⟩ := List.exists_cons_of_ne_nil hSome
  exact h

theorem after?_of_avoids {ys : List Symbol} {ts : List Token} {y : Symbol} (h : Avoids ys ts)
    (hy : y ∈ ys) : after? y ts = none := by
  cases ts with
  | nil => rfl
  | cons t ts =>
    unfold after?
    rw [h.next?]
    simp [(h t rfl).2 y hy]

theorem after?_of_meets {ys : List Symbol} {ts : List Token} {y : Symbol} (h : Meets ys ts)
    (hy : y ∉ ys) : after? y ts = none := by
  obtain ⟨ts', hNext, hCloses⟩ := h.closes
  have hAvoids : Avoids [y] ts' := by
    refine hCloses.avoids fun z hz => ?_
    simpa using ne_of_mem_of_not_mem hz hy
  have hNone := after?_of_avoids hAvoids (List.mem_singleton.mpr rfl)
  unfold after? at hNone ⊢
  rwa [hNext]

theorem select?_of_avoids {α : Type} {ys : List Symbol} {ts : List Token}
    {table : List (Symbol × α)} (h : Avoids ys ts) (hTable : ∀ e ∈ table, e.1 ∈ ys) :
    select? table ts = none := by
  cases ts with
  | nil => rfl
  | cons t ts =>
    unfold select?
    rw [h.next?, Option.map_eq_none_iff, List.find?_eq_none]
    intro e he
    simp [(h t rfl).2 e.1 (hTable e he)]

-- ---------------------------------------------------------------------------
-- Cutting off the end
-- ---------------------------------------------------------------------------

section Cut

variable {p r tail ts ts' rest : List Token} {t : Token} {s : Symbol}

/-- The next token, with the blanks before it. -/
theorem next?_split (h : next? ts = some (t, rest)) :
    ∃ blanks, ts = blanks ++ t :: rest ∧ next? blanks = none ∧ t.isBlank = false := by
  induction ts with
  | nil => cases h
  | cons u us ih =>
    rw [next?] at h
    split at h
    · rename_i hBlank
      obtain ⟨blanks, rfl, hNone, ht⟩ := ih h
      refine ⟨u :: blanks, rfl, ?_, ht⟩
      rw [next?, if_pos hBlank, hNone]
    · rename_i hBlank
      obtain ⟨rfl, rfl⟩ := Prod.mk.inj (Option.some.inj h)
      exact ⟨[], rfl, rfl, by simpa using hBlank⟩

theorem next?_suffix (h : next? ts = some (t, rest)) : t :: rest <:+ ts := by
  obtain ⟨blanks, rfl, -⟩ := next?_split h
  exact List.suffix_append _ _

theorem length_of_next? (h : next? ts = some (t, rest)) : rest.length < ts.length :=
  (next?_suffix h).length_le

theorem length_of_after? (h : after? s ts = some rest) : rest.length < ts.length := by
  obtain ⟨p, hNext⟩ := after?_eq_some.mp h
  exact length_of_next? hNext

theorem length_of_select? {α : Type} {table : List (Symbol × α)} {entry : Symbol × α}
    (h : select? table ts = some (entry, t, rest)) : rest.length < ts.length :=
  length_of_next? (select?_eq_some.mp h).1

theorem next?_append (h : next? p = some (t, r)) (tail : List Token) :
    next? (p ++ tail) = some (t, r ++ tail) := by
  induction p with
  | nil => cases h
  | cons u us ih =>
    rw [next?] at h
    rw [List.cons_append, next?]
    split at h
    · rename_i hBlank
      rw [if_pos hBlank, ih h]
    · rename_i hBlank
      obtain ⟨rfl, rfl⟩ := Prod.mk.inj (Option.some.inj h)
      rw [if_neg hBlank]

theorem next?_append_of_none (h : next? p = none) (tail : List Token) :
    next? (p ++ tail) = next? tail := by
  induction p with
  | nil => rfl
  | cons u us ih =>
    rw [next?] at h
    rw [List.cons_append, next?]
    split at h
    · rename_i hBlank
      rw [if_pos hBlank, ih h]
    · cases h

/-- A token that is taken in front of `tail` does not belong to `tail`. -/
theorem next?_cut (h : next? (p ++ tail) = some (t, r ++ tail)) : next? p = some (t, r) := by
  cases hNext : next? p with
  | none =>
    rw [next?_append_of_none hNext] at h
    have hLength := (next?_suffix h).length_le
    simp only [List.length_cons, List.length_append] at hLength
    omega
  | some found =>
    obtain ⟨u, us⟩ := found
    rw [next?_append hNext] at h
    obtain ⟨rfl, hRest⟩ := Prod.mk.inj (Option.some.inj h)
    rw [List.append_cancel_right hRest]

theorem after?_append (h : after? s p = some r) (tail : List Token) :
    after? s (p ++ tail) = some (r ++ tail) := by
  obtain ⟨p, hNext⟩ := after?_eq_some.mp h
  exact after?_eq_some.mpr ⟨p, next?_append hNext tail⟩

theorem after?_cut (h : after? s (p ++ tail) = some (r ++ tail)) : after? s p = some r := by
  obtain ⟨p, hNext⟩ := after?_eq_some.mp h
  exact after?_eq_some.mpr ⟨p, next?_cut hNext⟩

theorem after?_cut_none (h : after? s (p ++ tail) = none) : after? s p = none := by
  cases hAfter : after? s p with
  | none => rfl
  | some r =>
    rw [after?_append hAfter] at h
    cases h

theorem after?_append_none (hNext : next? p = some (t, r)) (h : after? s p = none)
    (tail : List Token) : after? s (p ++ tail) = none := by
  unfold after? at h ⊢
  rw [hNext] at h
  rw [next?_append hNext]
  dsimp only at h ⊢
  split at h
  · cases h
  · rename_i hOther
    rw [if_neg hOther]

theorem select?_append {α : Type} {table : List (Symbol × α)} {entry : Symbol × α}
    (h : select? table p = some (entry, t, r)) (tail : List Token) :
    select? table (p ++ tail) = some (entry, t, r ++ tail) := by
  obtain ⟨hNext, hFind⟩ := select?_eq_some.mp h
  exact select?_eq_some.mpr ⟨next?_append hNext tail, hFind⟩

theorem select?_cut {α : Type} {table : List (Symbol × α)} {entry : Symbol × α}
    (h : select? table (p ++ tail) = some (entry, t, r ++ tail)) :
    select? table p = some (entry, t, r) := by
  obtain ⟨hNext, hFind⟩ := select?_eq_some.mp h
  exact select?_eq_some.mpr ⟨next?_cut hNext, hFind⟩

theorem select?_cut_none {α : Type} {table : List (Symbol × α)}
    (h : select? table (p ++ tail) = none) : select? table p = none := by
  cases hSelect : select? table p with
  | none => rfl
  | some found =>
    rw [select?_append hSelect] at h
    cases h

theorem select?_append_none {α : Type} {table : List (Symbol × α)} (hNext : next? p = some (t, r))
    (h : select? table p = none) (tail : List Token) : select? table (p ++ tail) = none := by
  unfold select? at h ⊢
  rw [hNext, Option.map_eq_none_iff] at h
  rw [next?_append hNext, Option.map_eq_none_iff]
  exact h

theorem skipSeparators_suffix (ts : List Token) : skipSeparators ts <:+ ts :=
  List.dropWhile_suffix _

/-- Nothing is skipped of tokens that begin with something else than a separator. -/
theorem skipSeparators_of_next? (h : next? ts = some (t, rest)) (ht : t.isSymbol .semicolon = false) :
    skipSeparators ts = t :: rest := by
  obtain ⟨blanks, rfl, hNone, hBlank⟩ := next?_split h
  have hBlanks : ∀ u ∈ blanks, (u.isBlank || u.isSymbol .semicolon) = true := by
    intro u hu
    have hNot : u ∉ solid blanks := by simp [solid_of_next?_none hNone]
    have hMust : u.isBlank = true := by simpa [solid, hu] using hNot
    rw [hMust, Bool.true_or]
  unfold skipSeparators
  rw [List.dropWhile_append_of_pos hBlanks, List.dropWhile_cons_of_neg (by simp [hBlank, ht])]

/-- Separators are skipped in front of `tail`, or up to `tail` and in it. -/
theorem skipSeparators_append (p tail : List Token) :
    skipSeparators (p ++ tail) = skipSeparators tail ∨
      skipSeparators (p ++ tail) = skipSeparators p ++ tail := by
  unfold skipSeparators
  rw [List.dropWhile_append]
  split
  · exact Or.inl rfl
  · exact Or.inr rfl

end Cut

end Cursor

end Reckoner
