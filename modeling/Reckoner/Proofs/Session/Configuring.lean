import Reckoner.Proofs.Alias.Regrouping
import Reckoner.Proofs.Json.Keys
import Reckoner.Proofs.Render.Documents
import Reckoner.Proofs.Session.Traces

/-!
# Two doors to the aliases

A session takes a configuration from an alias command, and from the alias file. The command binds each
key as it stands; the file divides its keys at commas, strips the words of blanks, and regroups the keys
by the words that they list. A key in which no comma and no blank at an end stands (`IsPlain`) lists one
word, itself, and the keys of an object that has been read are distinct (`Json.ofText_keys_nodup`). So where
all keys are plain nothing is regrouped (`groupsOf_plain`), both doors hand over the same bindings, and
they make the same change (`merge_plain`).

## Results

* `groupsOf_plain`             — plain keys are groups of one word each, in their order.
* `command_configures_as_file` — a command and a file with the same document make the same update.
-/

namespace Reckoner

-- ---------------------------------------------------------------------------
-- Plain keys
-- ---------------------------------------------------------------------------

namespace Alias

/-- No comma divides a key, and no blank stands at its ends. -/
structure IsPlain (key : String) : Prop where
  whole : ',' ∉ key.toList
  starts : ∀ c ∈ key.toList.head?, Unicode.isBlank c = false
  ends : ∀ c ∈ key.toList.getLast?, Unicode.isBlank c = false

/-- A plain key lists itself. -/
theorem IsPlain.words {key : String} (h : IsPlain key) : wordsOfKey key = [key] := by
  rw [wordsOfKey, Text.splitAt_of_not_mem h.whole, List.map_singleton,
    Text.trim_of_ends h.starts h.ends, String.ofList_toList]

variable {fields : List (String × Json)}

/-- A group of new words is put behind the others. -/
theorem putGroup_of_new {groups : List Group} {words : List String}
    (h : words ∉ groups.map Prod.fst) (name : Json) :
    putGroup groups words name = groups ++ [(words, name)] := by
  refine if_neg fun hAny => h ?_
  obtain ⟨group, hGroup, hWords⟩ := List.any_eq_true.mp hAny
  exact List.mem_map.mpr ⟨group, hGroup, of_decide_eq_true hWords⟩

/-- The group of a key that lists one word, itself. -/
def groupOfField (field : String × Json) : Group :=
  ([field.1], field.2)

/-- Plain keys that are distinct are put one behind the other. -/
theorem regrouped_plain {before fields : List (String × Json)}
    (hPlain : ∀ field ∈ fields, IsPlain field.1) (hKeys : (Json.keys (before ++ fields)).Nodup) :
    fields.foldl (fun groups (key, name) => putGroup groups (wordsOfKey key) name)
      (before.map groupOfField) = (before ++ fields).map groupOfField := by
  induction fields generalizing before with
  | nil => rw [List.foldl_nil, List.append_nil]
  | cons field fields ih =>
    obtain ⟨hFirst, hMore⟩ := List.forall_mem_cons.mp hPlain
    -- No group so far has the words of this key, for its only word is the key itself.
    have hNew : [field.1] ∉ (before.map groupOfField).map Prod.fst := by
      intro hMem
      obtain ⟨group, hGroup, hWords⟩ := List.mem_map.mp hMem
      obtain ⟨other, hOther, rfl⟩ := List.mem_map.mp hGroup
      have hDisjoint := List.disjoint_of_nodup_append (by rwa [Json.keys, List.map_append] at hKeys)
      refine hDisjoint (List.mem_map_of_mem hOther) ?_
      rw [show other.1 = field.1 from (List.cons.inj hWords).1]
      exact List.mem_map_of_mem List.mem_cons_self
    rw [List.append_cons] at hKeys ⊢
    rw [List.foldl_cons, ← ih hMore hKeys, List.map_append]
    dsimp only
    rw [hFirst.words, putGroup_of_new hNew]
    rfl

/-- The fields that bind words have distinct keys when all fields have. -/
theorem keys_bindingFields_nodup (h : (Json.keys fields).Nodup) :
    (Json.keys (bindingFields fields)).Nodup :=
  h.sublist (List.filter_sublist.map Prod.fst)

/-- **Plain keys are groups of one word each**, in their order. -/
theorem groupsOf_plain (hPlain : ∀ field ∈ fields, IsPlain field.1) (hKeys : (Json.keys fields).Nodup) :
    groupsOf fields = (bindingFields fields).map groupOfField := by
  have hBinding : ∀ field ∈ bindingFields fields, IsPlain field.1 :=
    fun field hField => hPlain field (List.mem_of_mem_filter hField)
  exact @regrouped_plain [] _ hBinding (keys_bindingFields_nodup hKeys)

end Alias

-- ---------------------------------------------------------------------------
-- The same bindings
-- ---------------------------------------------------------------------------

open Alias (IsPlain bindingFields groupsOf groupOfField)

/-- Of a group of words, only the words count. -/
theorem Staging.bindGroup_congr {table : AliasTable} {staging : Staging} {b b' : Binding}
    (hWords : Alias.words b.group = Alias.words b'.group) (hName : b.name = b'.name) :
    staging.bindGroup table b = staging.bindGroup table b' := by
  rw [bindGroup, bindGroup, hWords, hName]

/-- Fields are staged as the groups of their keys. -/
theorem stage_groups (table : AliasTable) (fields : List (String × Json)) :
    stage table ((fields.map groupOfField).map Alias.bindingOfGroup) =
      stage table (fields.map fun (key, name) => ⟨.string key, name⟩) := by
  rw [stage, stage, List.map_map, List.foldlM_map, List.foldlM_map]
  refine congrArg (· >>= _) (congrArg (fun step => fields.foldlM step _) ?_)
  funext staging field
  exact Staging.bindGroup_congr (Alias.words_strings [field.1]) rfl

/-- How the fields of a configuration are taken over when each key is a word as it stands. -/
def Change.mergeFields (fields : List (String × Json)) : Change Unit :=
  merge (.value (.object (bindingFields fields))) (fields.lookup Alias.unitsKey)

/-- **Plain keys make the same change** as words and as groups of words. -/
theorem Change.merge_plain {fields : List (String × Json)} (hPlain : ∀ field ∈ fields, IsPlain field.1)
    (hKeys : (Json.keys fields).Nodup) :
    merge (.groups ((groupsOf fields).map Alias.bindingOfGroup)) (fields.lookup Alias.unitsKey) =
      mergeFields fields := by
  funext a
  rw [mergeFields, merge_run, merge_run, Alias.groupsOf_plain hPlain hKeys]
  simp only [Config.bindings, ok_bind, stage_groups]

/-- **A file with plain keys** is taken over as its fields are. -/
theorem Change.loadFrom_plain {path text : String} {fields : List (String × Json)}
    (hText : Json.ofText text = .ok (.object fields)) (hPlain : ∀ field ∈ fields, IsPlain field.1)
    (a : Aliases) :
    loadFrom path (.ok text) a =
      match mergeFields fields a with
      | .ok _ b => .ok (loadRemark (bindingFields fields).length path) b
      | .error e b => .error (.unloadable e.message) b := by
  have hKeys := Json.ofText_keys_nodup hText
  simp only [loadFrom, load, hText, bind_run, loading_run, loadFields, merge_plain hPlain hKeys]
  rw [Alias.groupsOf_plain hPlain hKeys, List.length_map]
  cases mergeFields fields a <;> rfl

-- ---------------------------------------------------------------------------
-- Commands
-- ---------------------------------------------------------------------------

/-- An alias command starts with its word, so it asks for nothing else. -/
theorem AliasCommand.asks_of_argument {line argument : String}
    (h : argument? (Text.strip line) = some argument) : Session.Asks (Text.strip line) := by
  obtain ⟨rest, hRest, -⟩ := Option.map_eq_some_iff.mp h
  rw [Text.strip, String.toList_ofList, Text.trim_trim] at hRest
  rw [Text.strip]
  cases hTrim : Text.trim line.toList with
  | nil =>
    rw [hTrim] at hRest
    cases hRest
  | cons c more =>
    rw [hTrim, letters, afterLetters] at hRest
    have hFirst : c ∈ ['A', 'a'] := by
      by_contra hNot
      rw [if_neg hNot] at hRest
      cases hRest
    have hAll : ∀ c ∈ ['A', 'a'], c ≠ '#' ∧ (c ≠ 'e' ∧ c ≠ 'q') ∧
        Unicode.lowerSimple c ≠ 'v' ∧ c ≠ 'İ' ∧ c ≠ 'Σ' :=
      List.all_iff_forall_prop.mp (by decide +kernel)
    obtain ⟨hComment, hFarewell, hToggle⟩ := hAll c hFirst
    obtain ⟨hStays, hSpeaks, hPlain⟩ := Session.plain_of_head more hComment hFarewell hToggle
    exact ⟨hStays, hSpeaks, hPlain⟩

/-- A document that is an argument is taken over. -/
theorem AliasCommand.run_document {argument : String} {v : Json} (h : Json.ofText argument = .ok v)
    (a : Aliases) : run a argument = .ok (configure a v) := by
  have hAsks : argument ≠ "" := by
    rintro rfl
    cases h
  rw [run, if_neg hAsks, Json.ofText_eq_ok.mp h]

namespace Session

variable {s : Session} {path : String} {v : Json}

/-- What a document does at the two doors: to a session that is given it in an alias command, and to the
aliases of the session when they take over a file that holds it. Either both refuse it and leave the
aliases as they are, for the same reason if it is an object; or both take it, with the same aliases and
prefix units afterwards. -/
inductive Configures (s : Session) (path : String) :
    Json → Step → EStateM.Result AliasError Aliases Remark → Prop
  | shapeless {v : Json} (noObject : ∀ fields, v ≠ .object fields) :
      Configures s path v
        ⟨s, .ofLines (AliasCommand.rejection "ALIAS expects a JSON object" []), .ongoing⟩
        (.error (.unloadable (Alias.notAnObject v)) s.aliases)
  | refused {fields : List (String × Json)} {e : AliasError}
      (merge : Change.mergeFields fields s.aliases = .error e s.aliases) :
      Configures s path (.object fields)
        ⟨s, .ofLines (AliasCommand.rejection e.message e.conflicts), .ongoing⟩
        (.error (.unloadable e.message) s.aliases)
  | taken {fields : List (String × Json)} {b : Aliases}
      (merge : Change.mergeFields fields s.aliases = .ok () b) :
      Configures s path (.object fields)
        ⟨{ s with aliases := b },
          .ofLines ("[ok] >>> Aliases updated." :: AliasCommand.confirmations (bindingFields fields)),
          .ongoing⟩
        (.ok (Change.loadRemark (bindingFields fields).length path) b)

/-- Fields are taken over at both doors, or refused for the same reason. -/
theorem configures_object (s : Session) (path : String) (fields : List (String × Json)) :
    Configures s path (.object fields)
      ⟨{ s with aliases := (AliasCommand.configure s.aliases (.object fields)).1 },
        .ofLines (AliasCommand.configure s.aliases (.object fields)).2, .ongoing⟩
      (match Change.mergeFields fields s.aliases with
        | .ok _ b => .ok (Change.loadRemark (bindingFields fields).length path) b
        | .error e b => .error (.unloadable e.message) b) := by
  cases hMerge : Change.mergeFields fields s.aliases with
  | ok _ b =>
    have hConfigure : AliasCommand.configure s.aliases (.object fields) =
        (b, "[ok] >>> Aliases updated." :: AliasCommand.confirmations (bindingFields fields)) := by
      simp only [AliasCommand.configure, show Change.merge _ _ s.aliases = .ok () b from hMerge]
    rw [hConfigure]
    exact .taken hMerge
  | error e b =>
    obtain rfl : b = s.aliases := Change.merge_error hMerge
    have hConfigure : AliasCommand.configure s.aliases (.object fields) =
        (s.aliases, AliasCommand.rejection e.message e.conflicts) := by
      simp only [AliasCommand.configure,
        show Change.merge _ _ s.aliases = .error e s.aliases from hMerge]
    rw [hConfigure]
    exact .refused hMerge

/-- A document that is no object is refused at both doors. -/
theorem configures_shapeless (h : ∀ fields, v ≠ .object fields) :
    Configures s path v
      ⟨{ s with aliases := (AliasCommand.configure s.aliases v).1 },
        .ofLines (AliasCommand.configure s.aliases v).2, .ongoing⟩
      (.error (.unloadable (Alias.notAnObject v)) s.aliases) := by
  have hConfigure : AliasCommand.configure s.aliases v =
      (s.aliases, AliasCommand.rejection "ALIAS expects a JSON object" []) := by
    cases v with
    | object fields => exact absurd rfl (h fields)
    | _ => rfl
  rw [hConfigure]
  exact .shapeless h

/-- **An alias command and an alias file make the same update.** Take any session and a document that is
no object, or an object with plain keys. When the session is given the document in an alias command, and
the aliases of the session take over a file that holds it, both refuse the document and change nothing,
or both take it and lead to the same aliases and prefix units. -/
theorem command_configures_as_file (s : Session) {line argument : String} {files : Files}
    {path text : String} {v : Json}
    (hCommand : AliasCommand.argument? (Text.strip line) = some argument)
    (hArgument : Json.ofText argument = .ok v)
    (hFile : (files.read path).bind Disk.textOf = .ok text) (hText : Json.ofText text = .ok v)
    (hPlain : ∀ fields, v = .object fields → ∀ field ∈ fields, IsPlain field.1) :
    Configures s path v (s.step line) (((Change.ofFile Files.disk path).run files).1 s.aliases) := by
  have hStep : s.step line =
      ⟨{ s with aliases := (AliasCommand.configure s.aliases v).1 },
        .ofLines (AliasCommand.configure s.aliases v).2, .ongoing⟩ := by
    rw [(AliasCommand.asks_of_argument hCommand).step_command hCommand, runAliasCommand,
      AliasCommand.run_document hArgument]
  have hLoad : ((Change.ofFile Files.disk path).run files).1 = Change.loadFrom path (.ok text) :=
    congrArg (Change.loadFrom path) hFile
  rw [hStep, hLoad]
  by_cases hObject : ∃ fields, v = .object fields
  · obtain ⟨fields, rfl⟩ := hObject
    rw [Change.loadFrom_plain hText (hPlain fields rfl)]
    exact configures_object s path fields
  · have hShapeless : ∀ fields, v ≠ .object fields := fun fields h => hObject ⟨fields, h⟩
    have hRefused : Change.loadFrom path (.ok text) s.aliases =
        .error (.unloadable (Alias.notAnObject v)) s.aliases := by
      rw [Change.loadFrom, Change.bind_run, Change.load, hText]
      cases v with
      | object fields => exact absurd rfl (hShapeless fields)
      | _ => rfl
    rw [hRefused]
    exact configures_shapeless hShapeless

/-- A command and a file that are spaced differently teach a session one more word and one more unit. -/
theorem by_and_francs_configured :
    let s : Session := { format := some "infix", verbose := false, aliases := .canonical }
    let line := " alias \x7b\"by\": \"MUL\", \"prefix_units\": [\"CHF\"]\x7d"
    let argument := "\x7b\"by\": \"MUL\", \"prefix_units\": [\"CHF\"]\x7d"
    let text := "\x7b\"by\":\"MUL\",\"prefix_units\":[\"CHF\"]\x7d\n"
    let files : Files := ⟨["work"], [(["work"], .directory),
      (["work", "aliases.json"], .file (Utf8.encode text))]⟩
    let fields := [("by", .string "MUL"), ("prefix_units", .array [.string "CHF"])]
    let loaded := ((Change.ofFile Files.disk "aliases.json").run files).1 s.aliases
    AliasCommand.argument? (Text.strip line) = some argument ∧
      Json.ofText argument = .ok (.object fields) ∧
      (files.read "aliases.json").bind Disk.textOf = .ok text ∧
      Json.ofText text = .ok (.object fields) ∧ (∀ field ∈ fields, IsPlain field.1) ∧
      Configures s "aliases.json" (.object fields) (s.step line) loaded ∧
      loaded = .ok (Change.loadRemark 1 "aliases.json")
        ⟨Aliases.canonicalWords ++ [("by", .mul)], defaultPrefixUnits ++ ["CHF"]⟩ := by
  intro s line argument text files fields loaded
  have hCommand : AliasCommand.argument? (Text.strip line) = some argument := by decide +kernel
  have hArgument : Json.ofText argument = .ok (.object fields) := by decide +kernel
  have hFile : (files.read "aliases.json").bind Disk.textOf = .ok text := by decide +kernel
  have hText : Json.ofText text = .ok (.object fields) := by decide +kernel
  have hBy : IsPlain "by" :=
    ⟨by decide, by rintro c ⟨⟩; decide +kernel, by rintro c ⟨⟩; decide +kernel⟩
  have hUnits : IsPlain "prefix_units" :=
    ⟨by decide, by rintro c ⟨⟩; decide +kernel, by rintro c ⟨⟩; decide +kernel⟩
  have hPlain : ∀ field ∈ fields, IsPlain field.1 :=
    List.forall_mem_cons.mpr ⟨hBy, List.forall_mem_singleton.mpr hUnits⟩
  have hLoaded : loaded = .ok (Change.loadRemark 1 "aliases.json")
      ⟨Aliases.canonicalWords ++ [("by", .mul)], defaultPrefixUnits ++ ["CHF"]⟩ := by
    have hRead : loaded = Change.loadFrom "aliases.json" (.ok text) s.aliases :=
      congrArg (Change.loadFrom "aliases.json" · s.aliases) hFile
    rw [hRead, Change.loadFrom_plain hText hPlain]
    decide +kernel
  refine ⟨hCommand, hArgument, hFile, hText, hPlain, ?_, hLoaded⟩
  refine command_configures_as_file s hCommand hArgument hFile hText fun other hOther => ?_
  rwa [← Json.object.inj hOther]

end Session

end Reckoner
