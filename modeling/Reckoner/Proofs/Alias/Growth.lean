import Mathlib.Data.List.Forall2
import Reckoner.Alias.File
import Reckoner.Alias.Report
import Reckoner.Proofs.Alias.Staging
import Reckoner.Storage.Files

/-!
# Aliases only grow

Aliases are changed by calls: a configuration is taken over, with or without a list of prefix units,
or an alias file is. Each call checks everything that can go wrong before it adds anything
(`Call.change_eq`), so a call that fails leaves the aliases as they are, and a call that succeeds adds
what it hands over and nothing else. `Call.Answers` says this of one call, whatever the aliases are,
and what is true of one call is true of every call in every run. What runs keep (`Accounted`) is that
no word is listed twice, and that every word was bound by one of the calls to a symbol that its
configuration names; so looking words up, replacing them and reporting them is never stuck.

## Results

* `Call.change_eq`            — all checks come before the first addition.
* `Call.answers`              — one call is taken and adds what it hands over, or changes nothing.
* `calls_grow_or_change_nothing` — so is every call of every run, and the aliases stay usable.
-/

namespace Reckoner

-- ---------------------------------------------------------------------------
-- Changes
-- ---------------------------------------------------------------------------

namespace Change

variable {α β : Type}

/-- What is changed first stays changed when what follows fails. -/
theorem bind_run (change : Change α) (f : α → Change β) (a : Aliases) :
    (change >>= f) a = match change a with
      | .ok x b => f x b
      | .error e b => .error e b := by
  simp only [bind, EStateM.bind]
  cases change a <;> rfl

theorem check_run (x : Except AliasError α) (a : Aliases) :
    check x a = match x with
      | .ok y => .ok y a
      | .error e => .error e a := by
  cases x <;> rfl

theorem get_run (a : Aliases) : (get : Change Aliases) a = .ok a a := rfl

theorem discard_run (change : Change α) (a : Aliases) :
    discard change a = match change a with
      | .ok _ b => .ok () b
      | .error e b => .error e b := by
  simp only [discard, Functor.discard, Functor.mapConst, Function.comp, EStateM.map]
  cases change a <;> rfl

theorem loading_run (change : Change α) (a : Aliases) :
    loading change a = match change a with
      | .ok x b => .ok x b
      | .error e b => .error (.unloadable e.message) b := by
  simp only [loading, EStateM.adaptExcept]
  cases change a <;> rfl

/-- The aliases with entries and units added. -/
def extended (a : Aliases) (entries : AliasTable) (units : List Json) : Aliases :=
  ⟨a.table.update entries,
    units.foldl (fun known unit => insertPrefixUnit known unit.display) a.prefixUnits⟩

/-- What comes of a change that first checks and then adds what has been checked. -/
def added (a : Aliases) (checked : Except AliasError (AliasTable × List Json)) :
    EStateM.Result AliasError Aliases Unit :=
  match checked with
  | .ok (entries, units) => .ok () (extended a entries units)
  | .error e => .error e a

/-- Adding units never fails. -/
theorem addUnits_run (units : List Json) (a : Aliases) :
    units.forM addUnit a = .ok () (extended a [] units) := by
  induction units generalizing a with
  | nil => rfl
  | cons unit units ih =>
    show (addUnit unit >>= fun _ => units.forM addUnit) a = _
    rw [bind_run]
    exact ih _

/-- What is configured is staged first. -/
theorem configure_run (config : Config) (a : Aliases) :
    configure config a = added a do
      let bindings ← config.bindings
      return (← stage a.table bindings, []) := by
  simp only [configure, bind_run, check_run, get_run]
  cases config.bindings with
  | error e => rfl
  | ok bindings =>
    simp only [ok_bind]
    cases stage a.table bindings <;> rfl

/-- What is merged is staged first, and before that the list of units is looked at. -/
theorem merge_run (config : Config) (units : Option Json) (a : Aliases) :
    merge config units a = added a do
      let units ← listedUnits units
      let bindings ← config.bindings
      return (← stage a.table bindings, units) := by
  simp only [merge, bind_run, check_run, configure_run]
  cases listedUnits units with
  | error e => rfl
  | ok units =>
    cases config.bindings with
    | error e => rfl
    | ok bindings =>
      simp only [ok_bind]
      cases stage a.table bindings with
      | error e => rfl
      | ok entries => exact addUnits_run units _

end Change

theorem mem_insertPrefixUnit {known : List String} {unit u : String} :
    u ∈ insertPrefixUnit known unit ↔ u ∈ known ∨ u = unit := by
  unfold insertPrefixUnit
  split <;> grind

theorem mem_addedUnits {units : List Json} {known : List String} {u : String} :
    u ∈ units.foldl (fun known unit => insertPrefixUnit known unit.display) known ↔
      u ∈ known ∨ ∃ unit ∈ units, u = unit.display := by
  induction units generalizing known with
  | nil => simp
  | cons unit units ih =>
    rw [List.foldl_cons, ih, mem_insertPrefixUnit, List.exists_mem_cons_iff, or_assoc]

-- ---------------------------------------------------------------------------
-- Order
-- ---------------------------------------------------------------------------

namespace Text

variable {α : Type}

theorem perm_insertByKey (key : α → String) (x : α) (ys : List α) :
    (insertByKey key x ys).Perm (x :: ys) := by
  induction ys with
  | nil => exact List.Perm.refl _
  | cons y ys ih =>
    unfold insertByKey
    split
    · exact List.Perm.refl _
    · exact (ih.cons y).trans (List.Perm.swap x y ys)

/-- Sorting keeps every item. -/
theorem perm_sortByKey (key : α → String) (xs : List α) : (sortByKey key xs).Perm xs := by
  suffices h : ∀ sorted,
      (xs.foldl (fun sorted x => insertByKey key x sorted) sorted).Perm (xs ++ sorted) by
    have hNil := h []
    rwa [List.append_nil] at hNil
  intro sorted
  induction xs generalizing sorted with
  | nil => exact List.Perm.refl _
  | cons x xs ih =>
    refine (ih (insertByKey key x sorted)).trans ?_
    exact ((perm_insertByKey key x sorted).append_left xs).trans List.perm_middle

end Text

namespace Alias

-- ---------------------------------------------------------------------------
-- Calls
-- ---------------------------------------------------------------------------

/-- A call that changes aliases. An alias file is loaded from the files that are there then. -/
inductive Call where
  | configure (config : Config)
  | merge (config : Config) (units : Option Json)
  | load (files : Files) (path : String)

/-- What a call hands over: groups of words that are bound, and prefix units. -/
structure Request where
  bindings : List Binding
  units : List Json

namespace Call

/-- The change that a call makes. -/
def change : Call → Change Unit
  | configure config => Change.configure config
  | merge config units => Change.merge config units
  | load files path => discard ((Change.ofFile Files.disk path).run files).1

/-- What a call hands over, or why that has not the shape that is asked for. -/
def request : Call → Except AliasError Request
  | configure config => do return ⟨← config.bindings, []⟩
  | merge config units => do
    let units ← listedUnits units
    return ⟨← config.bindings, units⟩
  | load files path => do
    let text ← ((files.read path).bind Disk.textOf).mapError fun e => .unloadable e.message
    match Json.ofText text with
    | .error message => .error (.unloadable message)
    | .ok (.object fields) =>
      let units ← (listedUnits (fields.lookup unitsKey)).mapError fun e => .unloadable e.message
      return ⟨(groupsOf fields).map bindingOfGroup, units⟩
    | .ok other => .error (.unloadable (notAnObject other))

/-- How a call tells that what it hands over does not fit the aliases that are there. -/
def told : Call → AliasError → AliasError
  | load _ _, e => .unloadable e.message
  | _, e => e

/-- Everything that a call checks, which is done before it changes anything. -/
def checked (call : Call) (a : Aliases) : Except AliasError (AliasTable × List Json) := do
  let request ← call.request
  let entries ← (stage a.table request.bindings).mapError call.told
  return (entries, request.units)

/-- **All checks of a call come before its first addition.** -/
theorem change_eq (call : Call) (a : Aliases) : call.change a = Change.added a (call.checked a) := by
  cases call with
  | configure config =>
    simp only [change, Change.configure_run, checked, request]
    cases config.bindings with
    | error e => rfl
    | ok bindings =>
      simp only [ok_bind, pure_bind]
      cases stage a.table bindings <;> rfl
  | merge config units =>
    simp only [change, Change.merge_run, checked, request]
    cases listedUnits units with
    | error e => rfl
    | ok units =>
      cases config.bindings with
      | error e => rfl
      | ok bindings =>
        simp only [ok_bind, pure_bind]
        cases stage a.table bindings <;> rfl
  | load files path =>
    have hRead : ((Change.ofFile Files.disk path).run files).1 =
        Change.loadFrom path ((files.read path).bind Disk.textOf) := rfl
    simp only [change, hRead, Change.discard_run, Change.loadFrom, Change.bind_run, checked, request]
    cases (files.read path).bind Disk.textOf with
    | error e => rfl
    | ok text =>
      simp only [Change.load, Except.mapError, ok_bind]
      cases Json.ofText text with
      | error message => rfl
      | ok document =>
        cases document with
        | object fields =>
          simp only [Change.loading_run, Change.loadFields, Change.bind_run, Change.merge_run]
          cases listedUnits (fields.lookup unitsKey) with
          | error e => rfl
          | ok units =>
            simp only [Config.bindings, ok_bind, pure_bind, told]
            cases stage a.table ((groupsOf fields).map bindingOfGroup) <;> rfl
        | _ => rfl

end Call

-- ---------------------------------------------------------------------------
-- One call
-- ---------------------------------------------------------------------------

/-- A request binds a word to a symbol, which one of its bindings names. -/
def Request.Binds (request : Request) (word : String) (s : Symbol) : Prop :=
  ∃ b ∈ request.bindings, b.Binds word s

/-- The aliases `b` are the aliases `a` with what a request hands over, and nothing else. -/
structure Grown (request : Request) (a b : Aliases) : Prop where
  words : ∀ word s, b.table.lookup word = some s ↔
    a.table.lookup word = some s ∨ request.Binds word s
  units : ∀ unit, unit ∈ b.prefixUnits ↔
    unit ∈ a.prefixUnits ∨ ∃ listed ∈ request.units, unit = listed.display
  nodup : a.table.words.Nodup → b.table.words.Nodup

/-- What may come of a call: it is taken when what it hands over fits the aliases that are there, and
otherwise it is refused and changes nothing. -/
inductive Call.Answers (call : Call) (a : Aliases) :
    EStateM.Result AliasError Aliases Unit → Prop
  | taken {request : Request} {b : Aliases} (request_eq : call.request = .ok request)
      (fits : Fits a.table request.bindings) (grown : Grown request a b) :
      Call.Answers call a (.ok () b)
  | refused {e : AliasError}
      (unfit : ∀ request, call.request = .ok request → ¬ Fits a.table request.bindings) :
      Call.Answers call a (.error e a)

theorem grown_extended {a : Aliases} {request : Request} {entries : AliasTable}
    (h : stage a.table request.bindings = .ok entries) :
    Grown request a (Change.extended a entries request.units) := by
  obtain ⟨hNodup, -, hBinds, hAgrees⟩ := stage_ok h
  refine ⟨fun word s => ?_, fun unit => mem_addedUnits, fun hA => AliasTable.nodup_update hA entries⟩
  show (a.table.update entries).lookup word = some s ↔ _ ∨ ∃ b ∈ request.bindings, b.Binds word s
  rw [AliasTable.lookup_update hNodup, ← hBinds]
  cases hEntry : entries.lookup word with
  | none => simp
  | some t =>
    -- a word that is in the table already is staged with the symbol it has there
    have hSame := hAgrees word t s hEntry
    simp only [Option.some_or, Option.some.injEq]
    exact ⟨Or.inr, fun h => h.elim hSame id⟩

/-- **One call is taken and adds what it hands over, or is refused and changes nothing.** -/
theorem Call.answers (call : Call) (a : Aliases) : call.Answers a (call.change a) := by
  rw [change_eq, checked]
  cases hRequest : call.request with
  | error e => exact .refused fun request h => by rw [hRequest] at h; cases h
  | ok request =>
    rw [ok_bind]
    cases hStage : stage a.table request.bindings with
    | error e =>
      refine .refused fun other h hFits => ?_
      obtain rfl : request = other := Except.ok.inj (hRequest.symm.trans h)
      obtain ⟨entries, hEntries⟩ := stage_fits.mpr hFits
      rw [hStage] at hEntries
      cases hEntries
    | ok entries => exact .taken hRequest (stage_fits.mp ⟨entries, hStage⟩) (grown_extended hStage)

-- ---------------------------------------------------------------------------
-- Runs
-- ---------------------------------------------------------------------------

/-- The aliases after a call, whether it was taken or refused. -/
def Call.after (call : Call) (a : Aliases) : Aliases :=
  match call.change a with
  | .ok _ b => b
  | .error _ b => b

/-- The aliases after calls, one after the other. -/
def afterCalls (calls : List Call) (a : Aliases) : Aliases :=
  calls.foldl (fun a call => call.after a) a

/-- Every word of `a` stands for the same symbol in `b`, and every unit of `a` is one of `b`. -/
structure Extends (a b : Aliases) : Prop where
  words : ∀ word s, a.table.lookup word = some s → b.table.lookup word = some s
  units : ∀ unit, unit ∈ a.prefixUnits → unit ∈ b.prefixUnits

theorem Extends.refl (a : Aliases) : Extends a a := ⟨fun _ _ h => h, fun _ h => h⟩

theorem Extends.trans {a b c : Aliases} (hAB : Extends a b) (hBC : Extends b c) : Extends a c :=
  ⟨fun word s h => hBC.words word s (hAB.words word s h),
    fun unit h => hBC.units unit (hAB.units unit h)⟩

/-- What a run keeps: no word is listed twice, and every word was bound by one of the calls. -/
structure Accounted (calls : List Call) (a : Aliases) : Prop where
  nodup : a.table.words.Nodup
  bound : ∀ word s, (word, s) ∈ a.table →
    ∃ call ∈ calls, ∃ request, call.request = .ok request ∧ request.Binds word s

theorem extends_after (call : Call) (a : Aliases) : Extends a (call.after a) := by
  have hAnswers := call.answers a
  unfold Call.after
  cases hChange : call.change a with
  | ok u b =>
    rw [hChange] at hAnswers
    obtain ⟨-, -, hGrown⟩ := hAnswers
    exact ⟨fun word s h => (hGrown.words word s).mpr (Or.inl h),
      fun unit h => (hGrown.units unit).mpr (Or.inl h)⟩
  | error e b =>
    rw [hChange] at hAnswers
    obtain ⟨-⟩ := hAnswers
    exact Extends.refl a

/-- One call keeps the account. -/
theorem Accounted.after {calls : List Call} {a : Aliases} (h : Accounted calls a) (call : Call) :
    Accounted (calls ++ [call]) (call.after a) := by
  have hAnswers := call.answers a
  unfold Call.after
  cases hChange : call.change a with
  | ok u b =>
    rw [hChange] at hAnswers
    obtain ⟨hRequest, -, hGrown⟩ := hAnswers
    have hNodup := hGrown.nodup h.nodup
    refine ⟨hNodup, fun word s hWord => ?_⟩
    rcases (hGrown.words word s).mp ((AliasTable.mem_iff_lookup hNodup).mp hWord) with hOld | hNew
    · obtain ⟨earlier, hEarlier, hBound⟩ := h.bound word s ((AliasTable.mem_iff_lookup h.nodup).mpr hOld)
      exact ⟨earlier, List.mem_append_left _ hEarlier, hBound⟩
    · exact ⟨call, List.mem_append_right _ (List.mem_singleton_self call), _, hRequest, hNew⟩
  | error e b =>
    rw [hChange] at hAnswers
    obtain ⟨-⟩ := hAnswers
    refine ⟨h.nodup, fun word s hWord => ?_⟩
    obtain ⟨earlier, hEarlier, hBound⟩ := h.bound word s hWord
    exact ⟨earlier, List.mem_append_left _ hEarlier, hBound⟩

theorem extends_afterCalls (calls : List Call) (a : Aliases) : Extends a (afterCalls calls a) := by
  induction calls generalizing a with
  | nil => exact Extends.refl a
  | cons call calls ih => exact (extends_after call a).trans (ih (call.after a))

/-- A run keeps the account. -/
theorem Accounted.afterCalls {earlier : List Call} {a : Aliases} (h : Accounted earlier a)
    (calls : List Call) : Accounted (earlier ++ calls) (afterCalls calls a) := by
  induction calls generalizing earlier a with
  | nil => rwa [List.append_nil]
  | cons call calls ih =>
    rw [List.append_cons]
    exact ih (h.after call)

theorem accounted_empty : Accounted [] .empty :=
  ⟨List.nodup_nil, fun word s h => by cases h⟩

/-- The call that makes the aliases that are known from the start. -/
def canonicalCall : Call :=
  .configure (.value (.object (Aliases.canonicalWords.map fun (word, s) => (word, .string s.name))))

/-- So what is true after calls that start from nothing is also true after calls that start from the
canonical aliases. -/
theorem after_canonicalCall : canonicalCall.after .empty = .canonical := by
  rfl

-- ---------------------------------------------------------------------------
-- Use
-- ---------------------------------------------------------------------------

/-- A token after aliases are applied: the symbol of its word at its place, or the token itself. -/
inductive AppliedTo (a : Aliases) (t : Token) : Token → Prop
  | replaced {word : String} {s : Symbol} (content : t.content = .ident word)
      (listed : (word, s) ∈ a.table) : AppliedTo a t ⟨.symbol s, t.place⟩
  | kept (unlisted : ∀ word, t.content = .ident word → word ∉ a.table.words) : AppliedTo a t t

/-- Aliases can be looked up, applied and reported. -/
structure Usable (a : Aliases) : Prop where
  known : ∀ word s, (word, s) ∈ a.table → ∀ place, a.token? word place = some ⟨.symbol s, place⟩
  unknown : ∀ word, word ∉ a.table.words → ∀ place, a.token? word place = none
  applied : ∀ tokens, List.Forall₂ (AppliedTo a) tokens (a.apply tokens)
  reported : ∃ entries : AliasTable, entries.Perm a.table ∧ a.reportLines =
    entries.map (fun entry => Aliases.row entry.1 entry.2) ++
      ["prefix units: " ++ " ".intercalate a.sortedUnits]

theorem appliedTo_applyTo {a : Aliases} (h : a.table.words.Nodup) (t : Token) :
    AppliedTo a t (a.applyTo t) := by
  unfold Aliases.applyTo
  split
  · rename_i word hContent
    unfold Aliases.token?
    cases hWord : a.table.lookup word with
    | none =>
      refine .kept fun other hOther => ?_
      obtain rfl : word = other := Content.ident.inj (hContent.symm.trans hOther)
      exact AliasTable.lookup_eq_none_iff.mp hWord
    | some s => exact .replaced hContent ((AliasTable.mem_iff_lookup h).mpr hWord)
  · rename_i hContent
    exact .kept fun word hWord => absurd hWord (hContent word)

/-- Aliases of which no word is listed twice can be used. -/
theorem usable_of_nodup {a : Aliases} (h : a.table.words.Nodup) : Usable a where
  known word s hWord place := by
    rw [Aliases.token?, (AliasTable.mem_iff_lookup h).mp hWord]
    rfl
  unknown word hWord place := by
    rw [Aliases.token?, AliasTable.lookup_eq_none_iff.mpr hWord]
    rfl
  applied tokens := by
    rw [Aliases.apply, List.forall₂_map_right_iff, List.forall₂_same]
    exact fun t _ => appliedTo_applyTo h t
  reported := ⟨Text.sortByKey (·.1) a.table, Text.perm_sortByKey _ _, rfl⟩

/-- **Aliases only grow, over whole runs.** After any calls, every further call is taken and adds what
it hands over and nothing else, or it is refused and changes nothing; whatever calls follow, every word
keeps its symbol and every unit stays. No word is listed twice, every word was bound by one of the
calls to the symbol that its configuration names, and the aliases can be looked up, applied and
reported. -/
theorem calls_grow_or_change_nothing (calls : List Call) :
    let a := afterCalls calls .empty
    (∀ call : Call, call.Answers a (call.change a)) ∧
      (∀ more : List Call, Extends a (afterCalls more a)) ∧
      Accounted calls a ∧ Usable a := by
  intro a
  have hAccounted : Accounted calls a := accounted_empty.afterCalls calls
  exact ⟨fun call => call.answers a, fun more => extends_afterCalls more a, hAccounted,
    usable_of_nodup hAccounted.nodup⟩

end Alias

end Reckoner
