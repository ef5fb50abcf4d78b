import Reckoner.Proofs.Alias.Union
import Reckoner.Proofs.Json.Equality

/-!
# Keys of an alias file

A key of an alias file lists words, and the keys are regrouped by the words that they list before
anything is checked. Keys that are spelled differently may list the same words in the same order; of
their values only the last is kept (`lastFields`), and the others are neither checked nor bound. So a
file is judged by the last fields of each list of words (`load_judges`), and a contradiction between
two spellings of one list, or an unknown symbol that a later spelling replaces, is not seen
(`respelled_key_replaces`). Where no two keys list the same words for two values, nothing is replaced,
and a file is judged by all its fields.

## Results

* `mem_groupsOf` — which groups of words are bound, and to what.
* `load_judges`  — which files are refused, and what the others bind.
-/

namespace Reckoner

deriving instance DecidableEq for Aliases

/-- What comes of a change can be compared. -/
instance Change.decidableEqResult {α : Type} [DecidableEq α] :
    DecidableEq (EStateM.Result AliasError Aliases α)
  | .ok x a, .ok y b => decidable_of_iff (x = y ∧ a = b) (by simp)
  | .error e a, .error f b => decidable_of_iff (e = f ∧ a = b) (by simp)
  | .ok _ _, .error _ _ => isFalse nofun
  | .error _ _, .ok _ _ => isFalse nofun

namespace Alias

-- ---------------------------------------------------------------------------
-- Groups
-- ---------------------------------------------------------------------------

/-- The fields that are kept when fields are regrouped: of those whose keys list the same words in the
same order, the last. -/
def lastFields : List (String × Json) → List (String × Json)
  | [] => []
  | field :: fields =>
    if fields.any fun later => wordsOfKey later.1 = wordsOfKey field.1 then lastFields fields
    else field :: lastFields fields

theorem mem_putGroup {groups : List Group} {words : List String} {name : Json} {group : Group} :
    group ∈ putGroup groups words name ↔
      group = (words, name) ∨ (group ∈ groups ∧ group.1 ≠ words) := by
  unfold putGroup
  split
  · rename_i hAny
    obtain ⟨old, hOld, hWords⟩ := List.any_eq_true.mp hAny
    rw [List.mem_map]
    constructor
    · rintro ⟨g, hg, rfl⟩
      split
      · exact Or.inl rfl
      · exact Or.inr ⟨hg, ‹_›⟩
    · rintro (rfl | ⟨hg, hWords'⟩)
      · exact ⟨old, hOld, if_pos (of_decide_eq_true hWords)⟩
      · exact ⟨group, hg, if_neg hWords'⟩
  · rename_i hAny
    rw [List.mem_append, List.mem_singleton, or_comm]
    refine or_congr_right ⟨fun hg => ⟨hg, fun hWords => hAny ?_⟩, And.left⟩
    exact List.any_eq_true.mpr ⟨group, hg, decide_eq_true hWords⟩

/-- What regrouping adds to groups, and which of them it leaves. -/
theorem mem_regrouped {fields : List (String × Json)} {groups : List Group} {group : Group} :
    group ∈ fields.foldl (fun groups (key, name) => putGroup groups (wordsOfKey key) name) groups ↔
      (∃ field ∈ lastFields fields, group = (wordsOfKey field.1, field.2)) ∨
        (group ∈ groups ∧ ∀ field ∈ fields, wordsOfKey field.1 ≠ group.1) := by
  induction fields generalizing groups with
  | nil => simp [lastFields]
  | cons field fields ih =>
    rw [List.foldl_cons, ih, mem_putGroup, lastFields, List.forall_mem_cons]
    split
    · rename_i hAny
      obtain ⟨later, hLater, hWords⟩ := List.any_eq_true.mp hAny
      have hWords := of_decide_eq_true hWords
      refine or_congr_right ⟨?_, fun ⟨hg, hFirst, hRest⟩ => ⟨Or.inr ⟨hg, Ne.symm hFirst⟩, hRest⟩⟩
      rintro ⟨rfl | ⟨hg, hFirst⟩, hRest⟩
      · exact absurd hWords (hRest later hLater)
      · exact ⟨hg, Ne.symm hFirst, hRest⟩
    · rename_i hAny
      have hFresh : ∀ later ∈ fields, wordsOfKey later.1 ≠ wordsOfKey field.1 :=
        fun later hLater hWords =>
          hAny (List.any_eq_true.mpr ⟨later, hLater, decide_eq_true hWords⟩)
      rw [List.exists_mem_cons_iff]
      constructor
      · rintro (hLast | ⟨rfl | ⟨hg, hFirst⟩, hRest⟩)
        · exact Or.inl (Or.inr hLast)
        · exact Or.inl (Or.inl rfl)
        · exact Or.inr ⟨hg, Ne.symm hFirst, hRest⟩
      · rintro ((rfl | hLast) | ⟨hg, hFirst, hRest⟩)
        · exact Or.inr ⟨Or.inl rfl, hFresh⟩
        · exact Or.inl hLast
        · exact Or.inr ⟨Or.inr ⟨hg, Ne.symm hFirst⟩, hRest⟩

/-- **Which groups of words are bound, and to what**: those of the last fields. -/
theorem mem_groupsOf {fields : List (String × Json)} {group : Group} :
    group ∈ groupsOf fields ↔
      ∃ field ∈ lastFields (bindingFields fields), group = (wordsOfKey field.1, field.2) := by
  rw [groupsOf, mem_regrouped]
  simp

theorem mem_lastFields {fields : List (String × Json)} {field : String × Json}
    (h : field ∈ lastFields fields) : field ∈ fields := by
  induction fields with
  | nil => exact h
  | cons first fields ih =>
    rw [lastFields] at h
    split at h
    · exact List.mem_cons_of_mem _ (ih h)
    · rcases List.mem_cons.mp h with rfl | h
      · exact List.mem_cons_self
      · exact List.mem_cons_of_mem _ (ih h)

/-- Some last field lists the words of a field. -/
theorem exists_lastField {fields : List (String × Json)} {field : String × Json}
    (h : field ∈ fields) : ∃ last ∈ lastFields fields, wordsOfKey last.1 = wordsOfKey field.1 := by
  induction fields generalizing field with
  | nil => cases h
  | cons first fields ih =>
    rw [lastFields]
    split
    · rename_i hAny
      rcases List.mem_cons.mp h with rfl | h
      · obtain ⟨later, hLater, hWords⟩ := List.any_eq_true.mp hAny
        obtain ⟨last, hLast, hSame⟩ := ih hLater
        exact ⟨last, hLast, hSame.trans (of_decide_eq_true hWords)⟩
      · exact ih h
    · rcases List.mem_cons.mp h with rfl | h
      · exact ⟨field, List.mem_cons_self, rfl⟩
      · obtain ⟨last, hLast, hSame⟩ := ih h
        exact ⟨last, List.mem_cons_of_mem _ hLast, hSame⟩

-- ---------------------------------------------------------------------------
-- Bindings
-- ---------------------------------------------------------------------------

/-- Every value names a symbol. -/
def AreNamed (fields : List (String × Json)) : Prop :=
  ∀ field ∈ fields, ∃ s : Symbol, field.2 = .string s.name

/-- A key lists a word, and its value names a symbol. -/
def Lists (fields : List (String × Json)) (word : String) (s : Symbol) : Prop :=
  ∃ field ∈ fields, field.2 = .string s.name ∧ word ∈ wordsOfKey field.1

theorem words_strings (words : List String) : Alias.words (.array (words.map .string)) = words := by
  show allWords (words.map .string) = words
  induction words with
  | nil => rfl
  | cons word words ih => rw [List.map_cons, allWords, ih]; rfl

theorem regrouped_named {fields : List (String × Json)} :
    (∀ b ∈ (groupsOf fields).map bindingOfGroup, ∃ s : Symbol, b.name = .string s.name) ↔
      AreNamed (lastFields (bindingFields fields)) := by
  rw [List.forall_mem_map]
  constructor
  · intro h field hField
    exact h _ (mem_groupsOf.mpr ⟨field, hField, rfl⟩)
  · intro h group hGroup
    obtain ⟨field, hField, rfl⟩ := mem_groupsOf.mp hGroup
    exact h field hField

theorem regrouped_binds {fields : List (String × Json)} {word : String} {s : Symbol} :
    (∃ b ∈ (groupsOf fields).map bindingOfGroup, b.Binds word s) ↔
      Lists (lastFields (bindingFields fields)) word s := by
  constructor
  · rintro ⟨b, hb, hName, hWord⟩
    obtain ⟨group, hGroup, rfl⟩ := List.mem_map.mp hb
    obtain ⟨field, hField, rfl⟩ := mem_groupsOf.mp hGroup
    rw [bindingOfGroup, words_strings] at hWord
    exact ⟨field, hField, hName, hWord⟩
  · rintro ⟨field, hField, hName, hWord⟩
    refine ⟨_, List.mem_map_of_mem (mem_groupsOf.mpr ⟨field, hField, rfl⟩), hName, ?_⟩
    rwa [bindingOfGroup, words_strings]

theorem regrouped_fits {fields : List (String × Json)} {table : AliasTable} :
    Fits table ((groupsOf fields).map bindingOfGroup) ↔
      AreNamed (lastFields (bindingFields fields)) ∧
        SingleValued (Lists (lastFields (bindingFields fields))) ∧
        ∀ word s t, Lists (lastFields (bindingFields fields)) word s →
          table.lookup word = some t → s = t := by
  simp only [SingleValued, ← regrouped_binds, ← regrouped_named]
  exact ⟨fun ⟨hNamed, hSingle, hAgrees⟩ => ⟨hNamed, hSingle, hAgrees⟩,
    fun ⟨hNamed, hSingle, hAgrees⟩ => ⟨hNamed, hSingle, hAgrees⟩⟩

-- ---------------------------------------------------------------------------
-- Files
-- ---------------------------------------------------------------------------

/-- What comes of a file that is judged by some of its fields. It is refused and changes nothing when
one of them names no symbol, or two of them list one word for two symbols. Otherwise it is taken if no
word has another symbol in the table and the prefix units are no other value than a list; then every
word that a key lists stands for the symbol of the key, and the other words are as they were. -/
structure Judges (fields : List (String × Json)) (units : Option Json) (a : Aliases)
    (result : EStateM.Result AliasError Aliases Nat) : Prop where
  refused : ¬ AreNamed fields ∨ ¬ SingleValued (Lists fields) →
    ∃ reason, result = .error (.unloadable reason) a
  taken : AreNamed fields → SingleValued (Lists fields) →
    (∀ word s t, Lists fields word s → a.table.lookup word = some t → s = t) →
    units = none ∨ units = some .null ∨ (∃ items, units = some (.array items)) →
    ∃ groups b, result = .ok groups b ∧ ∀ word s,
      b.table.lookup word = some s ↔ a.table.lookup word = some s ∨ Lists fields word s

/-- Keys that list the same words in the same order have the same value. -/
def AgreeOnKeys (fields : List (String × Json)) : Prop :=
  ∀ field ∈ fields, ∀ other ∈ fields, wordsOfKey field.1 = wordsOfKey other.1 → field.2 = other.2

theorem AgreeOnKeys.named {fields : List (String × Json)} (h : AgreeOnKeys fields) :
    AreNamed (lastFields fields) ↔ AreNamed fields := by
  refine ⟨fun hNamed field hField => ?_,
    fun hNamed field hField => hNamed field (mem_lastFields hField)⟩
  obtain ⟨last, hLast, hWords⟩ := exists_lastField hField
  rw [← h last (mem_lastFields hLast) field hField hWords]
  exact hNamed last hLast

theorem AgreeOnKeys.lists {fields : List (String × Json)} (h : AgreeOnKeys fields) :
    Lists (lastFields fields) = Lists fields := by
  funext word s
  refine propext ⟨fun ⟨field, hField, hLists⟩ => ⟨field, mem_lastFields hField, hLists⟩, ?_⟩
  rintro ⟨field, hField, hName, hWord⟩
  obtain ⟨last, hLast, hWords⟩ := exists_lastField hField
  refine ⟨last, hLast, ?_, hWords ▸ hWord⟩
  rwa [h last (mem_lastFields hLast) field hField hWords]

theorem listedUnits_ok {units : Option Json}
    (h : units = none ∨ units = some .null ∨ ∃ items, units = some (.array items)) :
    ∃ listed, listedUnits units = .ok listed := by
  rcases h with rfl | rfl | ⟨items, rfl⟩
  · exact ⟨[], rfl⟩
  · exact ⟨[], rfl⟩
  · exact ⟨items, rfl⟩

/-- Fields are judged by the last ones of each list of words. -/
theorem loadFields_judges (fields : List (String × Json)) (a : Aliases) :
    Judges (lastFields (bindingFields fields)) (fields.lookup unitsKey) a
      (Change.loading (Change.loadFields fields) a) := by
  rw [Change.loading_run, Change.loadFields, Change.bind_run, Change.merge_run]
  cases hUnits : listedUnits (fields.lookup unitsKey) with
  | error e =>
    refine ⟨fun _ => ⟨e.message, rfl⟩, fun _ _ _ hListed => ?_⟩
    obtain ⟨listed, hOk⟩ := listedUnits_ok hListed
    rw [hUnits] at hOk
    cases hOk
  | ok units =>
    simp only [ok_bind, Config.bindings]
    cases hStage : stage a.table ((groupsOf fields).map bindingOfGroup) with
    | error e =>
      refine ⟨fun _ => ⟨e.message, rfl⟩, fun hNamed hSingle hAgrees _ => ?_⟩
      obtain ⟨entries, hEntries⟩ := stage_fits.mpr (regrouped_fits.mpr ⟨hNamed, hSingle, hAgrees⟩)
      rw [hStage] at hEntries
      cases hEntries
    | ok entries =>
      obtain ⟨hNamed, hSingle, -⟩ := regrouped_fits.mp (stage_fits.mp ⟨entries, hStage⟩)
      refine ⟨fun hWrong => ?_, fun _ _ _ _ => ⟨_, _, rfl, fun word s => ?_⟩⟩
      · rcases hWrong with hNot | hNot
        · exact absurd hNamed hNot
        · exact absurd hSingle hNot
      · have hGrown : Grown ⟨(groupsOf fields).map bindingOfGroup, units⟩ a _ := grown_extended hStage
        rw [← regrouped_binds]
        exact hGrown.words word s

/-- **Which files are refused, and what the others bind.** A file whose content is an object is judged
by the last of the fields that list the same words in the same order. Where fields that list the same
words have the same value, it is judged by all of them: it is refused and changes nothing when two of
them list one word for two symbols or one of them names no symbol; otherwise it is taken, unless a word
has another symbol already or the prefix units are no list, and binds every word of every key. -/
theorem load_judges {text : String} {fields : List (String × Json)}
    (hText : Json.ofText text = .ok (.object fields)) (a : Aliases) :
    Judges (lastFields (bindingFields fields)) (fields.lookup unitsKey) a
        (Change.load (.ok text) a) ∧
      (AgreeOnKeys (bindingFields fields) →
        Judges (bindingFields fields) (fields.lookup unitsKey) a (Change.load (.ok text) a)) := by
  have hLoad : Change.load (.ok text) = Change.loading (Change.loadFields fields) := by
    rw [Change.load, hText]
  have hLast := loadFields_judges fields a
  rw [hLoad]
  refine ⟨hLast, fun hAgree => ⟨fun hWrong => hLast.refused ?_, fun hNamed hSingle hAgrees => ?_⟩⟩
  · rwa [hAgree.named, hAgree.lists]
  · have hTaken := hLast.taken (hAgree.named.mpr hNamed)
    rw [hAgree.lists] at hTaken
    exact hTaken hSingle hAgrees

/-- A file that is judged by all its fields: it is taken, and its prefix unit is no word. -/
theorem documented_file_judged :
    let text := "\x7b\"by, times2\": \"MUL\", \"prefix_units\": [\"CHF\"]\x7d"
    let fields := [("by, times2", .string "MUL"), ("prefix_units", .array [.string "CHF"])]
    Json.ofText text = .ok (.object fields) ∧ AgreeOnKeys (bindingFields fields) ∧
      Judges (bindingFields fields) (fields.lookup unitsKey) .empty (Change.load (.ok text) .empty) ∧
      Change.load (.ok text) .empty =
        .ok 1 ⟨[("by", .mul), ("times2", .mul)], defaultPrefixUnits ++ ["CHF"]⟩ := by
  intro text fields
  have hText : Json.ofText text = .ok (.object fields) := by decide +kernel
  have hAgree : AgreeOnKeys (bindingFields fields) := by
    have hOne : bindingFields fields = [("by, times2", .string "MUL")] := by rfl
    intro field hField other hOther _
    rw [hOne, List.mem_singleton] at hField hOther
    rw [hField, hOther]
  have hLoad : Change.load (.ok text) .empty =
      .ok 1 ⟨[("by", .mul), ("times2", .mul)], defaultPrefixUnits ++ ["CHF"]⟩ := by
    rw [Change.load, hText]
    decide +kernel
  exact ⟨hText, hAgree, (load_judges hText .empty).2 hAgree, hLoad⟩

/-- A contradiction between two spellings of one list of words is not seen: the file is taken, and its
words stand for the symbol of the later spelling. -/
theorem respelled_key_replaces :
    let text := "\x7b\"a, b\": \"MUL\", \"a,b\": \"ADD\"\x7d"
    let fields := [("a, b", Json.string "MUL"), ("a,b", Json.string "ADD")]
    Json.ofText text = .ok (.object fields) ∧
      Lists (bindingFields fields) "a" .mul ∧ Lists (bindingFields fields) "a" .add ∧
      Change.load (.ok text) .empty = .ok 1 ⟨[("a", .add), ("b", .add)], defaultPrefixUnits⟩ := by
  intro text fields
  have hText : Json.ofText text = .ok (.object fields) := by decide +kernel
  have hLoad : Change.load (.ok text) .empty =
      .ok 1 ⟨[("a", .add), ("b", .add)], defaultPrefixUnits⟩ := by
    rw [Change.load, hText]
    decide +kernel
  exact ⟨hText, ⟨("a, b", .string "MUL"), List.mem_cons_self, rfl, by decide⟩,
    ⟨("a,b", .string "ADD"), List.mem_cons_of_mem _ List.mem_cons_self, rfl, by decide⟩, hLoad⟩

end Alias

end Reckoner
