import Mathlib.Data.List.Basic
import Reckoner.Alias.Table
import Reckoner.Proofs.Outcome

/-!
# Staging

A configuration is staged before it is taken over: its words are bound one after the other, and a
word that is bound to another symbol already, by the table or earlier in the configuration, is a
conflict. `Staging.Covers` says what has been staged when some words have been bound, and each further
word keeps it. So a configuration that is staged without a conflict binds exactly the words of its
groups, each to the symbol that its group names, and none of them to another symbol than the table
does.

## Results

* `lookup_update` — what is added to a table comes before what is there.
* `Covers.bind`   — what has been staged after one more word.
* `stage_ok`      — what a configuration without a conflict stages.
* `stage_fits`    — which configurations are without a conflict.
-/

namespace Reckoner

-- ---------------------------------------------------------------------------
-- Tables
-- ---------------------------------------------------------------------------

namespace AliasTable

/-- The words that a table binds. -/
def words (table : AliasTable) : List String :=
  table.map Prod.fst

theorem lookup_eq_none_iff {table : AliasTable} {word : String} :
    table.lookup word = none ↔ word ∉ table.words := by
  rw [List.lookup_eq_none_iff, words, List.mem_map]
  grind

theorem lookup_put (table : AliasTable) (word : String) (s : Symbol) (w : String) :
    (table.put word s).lookup w = if w = word then some s else table.lookup w := by
  induction table with
  | nil =>
    rw [put, List.lookup_cons]
    grind
  | cons entry rest ih =>
    obtain ⟨v, t⟩ := entry
    by_cases hv : v = word
    · rw [put, if_pos hv]
      grind
    · rw [put, if_neg hv]
      grind

theorem words_put (table : AliasTable) (word : String) (s : Symbol) :
    (table.put word s).words = if word ∈ table.words then table.words else table.words ++ [word] := by
  induction table with
  | nil => rfl
  | cons entry rest ih =>
    obtain ⟨v, t⟩ := entry
    unfold words at *
    by_cases hv : v = word
    · rw [put, if_pos hv]
      grind
    · rw [put, if_neg hv]
      grind

/-- No word is listed twice after one more word is bound. -/
theorem nodup_put {table : AliasTable} (h : table.words.Nodup) (word : String) (s : Symbol) :
    (table.put word s).words.Nodup := by
  rw [words_put]
  split
  · exact h
  · rename_i hWord
    exact List.nodup_append.mpr ⟨h, List.pairwise_singleton _ _, by grind⟩

theorem update_cons (table : AliasTable) (word : String) (s : Symbol) (more : AliasTable) :
    table.update ((word, s) :: more) = (table.put word s).update more := rfl

theorem nodup_update {table : AliasTable} (h : table.words.Nodup) (more : AliasTable) :
    (table.update more).words.Nodup := by
  induction more generalizing table with
  | nil => exact h
  | cons entry more ih => exact ih (nodup_put h entry.1 entry.2)

/-- **What is added to a table comes before what is there.** -/
theorem lookup_update {more : AliasTable} (h : more.words.Nodup) (table : AliasTable)
    (word : String) :
    (table.update more).lookup word = (more.lookup word).or (table.lookup word) := by
  induction more generalizing table with
  | nil => rfl
  | cons entry more ih =>
    obtain ⟨w, s⟩ := entry
    obtain ⟨hFresh, hMore⟩ := List.nodup_cons.mp h
    rw [update_cons, ih hMore, lookup_put, List.lookup_cons]
    by_cases hw : word = w
    · subst hw
      rw [lookup_eq_none_iff.mpr hFresh, beq_self_eq_true, if_pos rfl]
      rfl
    · rw [beq_false_of_ne hw, if_neg hw]

/-- A word is listed with the symbol that it stands for. -/
theorem mem_iff_lookup {table : AliasTable} (h : table.words.Nodup) {word : String} {s : Symbol} :
    (word, s) ∈ table ↔ table.lookup word = some s := by
  induction table with
  | nil => simp
  | cons entry rest ih =>
    obtain ⟨w, t⟩ := entry
    obtain ⟨hFresh, hRest⟩ := List.nodup_cons.mp h
    rw [List.mem_cons, ih hRest, List.lookup_cons]
    by_cases hw : word = w
    · subst hw
      have hNone : List.lookup word rest = none := lookup_eq_none_iff.mpr hFresh
      simp [hNone, eq_comm]
    · rw [beq_false_of_ne hw]
      simp [hw]

end AliasTable

-- ---------------------------------------------------------------------------
-- Symbols and bindings
-- ---------------------------------------------------------------------------

theorem Symbol.ofName?_eq_some {name : String} {s : Symbol} :
    ofName? name = some s ↔ name = s.name := by
  constructor
  · intro h
    simpa [eq_comm] using List.find?_some h
  · rintro rfl
    exact ofName?_name s

/-- Only the text of its name names a symbol. -/
theorem namedSymbol_ok {name : Json} {s : Symbol} :
    namedSymbol name = .ok s ↔ name = .string s.name := by
  unfold namedSymbol
  split
  · rename_i text
    cases hText : Symbol.ofName? text with
    | none =>
      have hNot : ∀ t : Symbol, text ≠ t.name := by
        intro t ht
        rw [Symbol.ofName?_eq_some.mpr ht] at hText
        cases hText
      simp [hNot]
    | some t =>
      obtain rfl := Symbol.ofName?_eq_some.mp hText
      constructor
      · intro h
        rw [Except.ok.inj h]
      · intro h
        have hSame : Symbol.ofName? s.name = some t := Json.string.inj h ▸ hText
        rw [Symbol.ofName?_name] at hSame
        rw [Option.some.inj hSame]
  · rename_i hNot
    constructor
    · intro h
      cases h
    · intro h
      exact absurd h (hNot _)

/-- A group of words is bound to the symbol of its name. -/
structure Binding.Binds (b : Binding) (word : String) (s : Symbol) : Prop where
  name : b.name = .string s.name
  word : word ∈ Alias.words b.group

-- ---------------------------------------------------------------------------
-- Staging
-- ---------------------------------------------------------------------------

namespace Staging

/-- What has been staged when the words in `P` have been bound. -/
structure Covers (table : AliasTable) (P : String → Symbol → Prop) (st : Staging) : Prop where
  nodup : st.staged.words.Nodup
  -- what is staged was bound, and not to another symbol than in the table
  bound : ∀ word s, st.staged.lookup word = some s → P word s
  agrees : ∀ word s t, st.staged.lookup word = some s → table.lookup word = some t → s = t
  -- what was bound is staged, or is a conflict
  staged : st.conflicts = [] → ∀ word s, P word s → st.staged.lookup word = some s
  -- and a conflict has two symbols for one word
  clear : (∀ word s t, P word s → P word t → s = t) →
    (∀ word s t, P word s → table.lookup word = some t → s = t) → st.conflicts = []

variable {table : AliasTable} {P Q : String → Symbol → Prop} {st : Staging}

theorem covers_nothing (table : AliasTable) : Covers table (fun _ _ => False) ⟨[], []⟩ where
  nodup := List.nodup_nil
  bound _ _ h := by cases h
  agrees _ _ _ h := by cases h
  staged _ _ _ h := h.elim
  clear _ _ := rfl

theorem Covers.congr (h : Covers table P st) (hPQ : ∀ word s, P word s ↔ Q word s) :
    Covers table Q st := by
  obtain rfl : P = Q := by
    funext word s
    exact propext (hPQ word s)
  exact h

theorem bind_conflict {word : String} {s bound : Symbol}
    (hBound : (st.staged.lookup word <|> table.lookup word) = some bound) (hs : bound ≠ s) :
    st.bind table s word =
      { st with conflicts := st.conflicts ++ [⟨word, bound, s⟩] } := by
  unfold bind
  rw [hBound]
  exact if_neg hs

theorem bind_stages {word : String} {s : Symbol}
    (hBound : ∀ bound, (st.staged.lookup word <|> table.lookup word) = some bound → bound = s) :
    st.bind table s word = { st with staged := st.staged.put word s } := by
  unfold bind
  split
  · rfl
  · rename_i bound h
    exact if_pos (hBound bound h)

/-- **What has been staged after one more word.** -/
theorem Covers.bind (h : Covers table P st) (word : String) (s : Symbol) :
    Covers table (fun w t => P w t ∨ (w = word ∧ t = s)) (st.bind table s word) := by
  by_cases hs : ∀ bound, (st.staged.lookup word <|> table.lookup word) = some bound → bound = s
  · rw [bind_stages hs]
    refine ⟨AliasTable.nodup_put h.nodup word s, ?_, ?_, ?_, fun hSingle hAgrees =>
      h.clear (fun w t t' ht ht' => hSingle w t t' (Or.inl ht) (Or.inl ht'))
        (fun w t t' ht => hAgrees w t t' (Or.inl ht))⟩
    · intro w t hw
      rw [AliasTable.lookup_put] at hw
      split at hw
      · exact Or.inr ⟨‹_›, (Option.some.inj hw).symm⟩
      · exact Or.inl (h.bound w t hw)
    · intro w t t' hw ht'
      rw [AliasTable.lookup_put] at hw
      split at hw
      · -- the word is staged already with the symbol of the table, or it is not staged yet
        rename_i hWord
        subst hWord
        obtain rfl := Option.some.inj hw
        cases hStaged : st.staged.lookup w with
        | none => exact (hs t' (by rw [hStaged, ht']; rfl)).symm
        | some u =>
          rw [← hs u (by rw [hStaged]; rfl)]
          exact h.agrees w u t' hStaged ht'
      · exact h.agrees w t t' hw ht'
    · intro hNone w t hw
      rw [AliasTable.lookup_put]
      rcases hw with hw | ⟨rfl, rfl⟩
      · have hStaged := h.staged hNone w t hw
        split
        · rename_i hWord
          subst hWord
          rw [hs t (by rw [hStaged]; rfl)]
        · exact hStaged
      · rw [if_pos rfl]
  · simp only [not_forall] at hs
    obtain ⟨bound, hBound, hs⟩ := hs
    rw [bind_conflict hBound hs]
    refine ⟨h.nodup, fun w t hw => Or.inl (h.bound w t hw), h.agrees, fun hNone => ?_,
      fun hSingle hAgrees => absurd ?_ hs⟩
    · simp at hNone
    · cases hStaged : st.staged.lookup word with
      | some u =>
        rw [hStaged] at hBound
        obtain rfl : u = bound := Option.some.inj hBound
        exact hSingle word u s (Or.inl (h.bound word u hStaged)) (Or.inr ⟨rfl, rfl⟩)
      | none =>
        rw [hStaged] at hBound
        exact (hAgrees word s bound (Or.inr ⟨rfl, rfl⟩) hBound).symm

theorem Covers.bindWords (h : Covers table P st) (s : Symbol) (words : List String) :
    Covers table (fun w t => P w t ∨ (w ∈ words ∧ t = s)) (words.foldl (Staging.bind table s) st) := by
  induction words generalizing P st with
  | nil => exact h.congr (by simp)
  | cons word words ih => exact (ih (h.bind word s)).congr (by simp; tauto)

theorem Covers.bindGroup {b : Binding} {st' : Staging} (h : Covers table P st)
    (hGroup : st.bindGroup table b = .ok st') :
    (∃ s : Symbol, b.name = .string s.name) ∧
      Covers table (fun w t => P w t ∨ b.Binds w t) st' := by
  obtain ⟨s, hName, hGroup⟩ := bind_eq_ok.mp hGroup
  obtain rfl := Except.ok.inj hGroup
  have hString := namedSymbol_ok.mp hName
  refine ⟨⟨s, hString⟩, (h.bindWords s (Alias.words b.group)).congr fun w t => or_congr_right ?_⟩
  constructor
  · rintro ⟨hw, rfl⟩
    exact ⟨hString, hw⟩
  · rintro ⟨hName', hw⟩
    have hSame : namedSymbol b.name = .ok t := namedSymbol_ok.mpr hName'
    rw [hName] at hSame
    exact ⟨hw, (Except.ok.inj hSame).symm⟩

theorem Covers.bindGroups {bindings : List Binding} {st' : Staging} (h : Covers table P st)
    (hGroups : bindings.foldlM (Staging.bindGroup table) st = .ok st') :
    (∀ b ∈ bindings, ∃ s : Symbol, b.name = .string s.name) ∧
      Covers table (fun w t => P w t ∨ ∃ b ∈ bindings, b.Binds w t) st' := by
  induction bindings generalizing P st with
  | nil =>
    obtain rfl := Except.ok.inj hGroups
    exact ⟨by simp, h.congr (by simp)⟩
  | cons b bindings ih =>
    rw [List.foldlM_cons] at hGroups
    obtain ⟨next, hGroup, hGroups⟩ := bind_eq_ok.mp hGroups
    obtain ⟨hName, hNext⟩ := h.bindGroup hGroup
    obtain ⟨hNames, hRest⟩ := ih hNext hGroups
    refine ⟨List.forall_mem_cons.mpr ⟨hName, hNames⟩, hRest.congr fun w t => ?_⟩
    rw [or_assoc, List.exists_mem_cons_iff]

end Staging

/-- Where every name names a symbol, all groups are bound. -/
theorem Staging.bindGroups_named (table : AliasTable) {bindings : List Binding}
    (h : ∀ b ∈ bindings, ∃ s : Symbol, b.name = .string s.name) (st : Staging) :
    ∃ st', bindings.foldlM (Staging.bindGroup table) st = .ok st' := by
  induction bindings generalizing st with
  | nil => exact ⟨st, rfl⟩
  | cons b bindings ih =>
    obtain ⟨⟨s, hs⟩, hRest⟩ := List.forall_mem_cons.mp h
    have hGroup : st.bindGroup table b =
        .ok ((Alias.words b.group).foldl (Staging.bind table s) st) :=
      bind_eq_ok.mpr ⟨s, namedSymbol_ok.mpr hs, rfl⟩
    obtain ⟨st', hst'⟩ := ih hRest ((Alias.words b.group).foldl (Staging.bind table s) st)
    exact ⟨st', by rw [List.foldlM_cons]; exact bind_eq_ok.mpr ⟨_, hGroup, hst'⟩⟩

/-- **What a configuration without a conflict stages**: exactly the words of its groups, each bound to
the symbol that its group names, and to no other than in the table. -/
theorem stage_ok {table staged : AliasTable} {bindings : List Binding}
    (h : stage table bindings = .ok staged) :
    staged.words.Nodup ∧
      (∀ b ∈ bindings, ∃ s : Symbol, b.name = .string s.name) ∧
      (∀ word s, staged.lookup word = some s ↔ ∃ b ∈ bindings, b.Binds word s) ∧
      ∀ word s t, staged.lookup word = some s → table.lookup word = some t → s = t := by
  obtain ⟨st, hStaging, h⟩ := bind_eq_ok.mp h
  obtain ⟨hNames, hCovers⟩ := (Staging.covers_nothing table).bindGroups hStaging
  have hCovers := hCovers.congr fun w t => iff_of_eq (false_or _)
  cases hConflicts : st.conflicts with
  | cons c cs => simp [hConflicts] at h
  | nil =>
    rw [hConflicts] at h
    obtain rfl : st.staged = staged := Except.ok.inj h
    exact ⟨hCovers.nodup, hNames,
      fun w t => ⟨hCovers.bound w t, hCovers.staged hConflicts w t⟩, hCovers.agrees⟩

/-- Bindings that can be added to a table: every name names a symbol, and no word stands for two. -/
structure Fits (table : AliasTable) (bindings : List Binding) : Prop where
  named : ∀ b ∈ bindings, ∃ s : Symbol, b.name = .string s.name
  single : ∀ word s t, (∃ b ∈ bindings, b.Binds word s) → (∃ b ∈ bindings, b.Binds word t) → s = t
  agrees : ∀ word s t, (∃ b ∈ bindings, b.Binds word s) → table.lookup word = some t → s = t

/-- **Exactly the configurations that fit the table are without a conflict.** -/
theorem stage_fits {table : AliasTable} {bindings : List Binding} :
    (∃ staged, stage table bindings = .ok staged) ↔ Fits table bindings := by
  constructor
  · rintro ⟨staged, hStaged⟩
    obtain ⟨-, hNames, hBinds, hAgrees⟩ := stage_ok hStaged
    refine ⟨hNames, fun word s t hs ht => ?_, fun word s t hs => hAgrees word s t ((hBinds word s).mpr hs)⟩
    have hSame := (hBinds word s).mpr hs
    rw [(hBinds word t).mpr ht] at hSame
    exact (Option.some.inj hSame).symm
  · intro hFits
    obtain ⟨st, hStaging⟩ := Staging.bindGroups_named table hFits.named ⟨[], []⟩
    have hCovers := ((Staging.covers_nothing table).bindGroups hStaging).2.congr
      fun w t => iff_of_eq (false_or _)
    have hClear : st.conflicts = [] := hCovers.clear hFits.single hFits.agrees
    exact ⟨st.staged, bind_eq_ok.mpr ⟨st, hStaging, by rw [hClear]; rfl⟩⟩

end Reckoner
