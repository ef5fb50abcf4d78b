import Reckoner.Alias.Words
import Reckoner.Lexer.Tokenize

/-!
# Alias tables

The words that stand for a symbol, and the prefix units that are known. A configuration binds groups
of words to symbols. It is rejected when it names an unknown symbol, or binds a word to another symbol
than the table or an earlier part of the configuration does.

A `Change` is carried out step by step on the aliases that are there: what it has added before it
fails stays added. So its checks have to come first.
-/

namespace Reckoner

-- ---------------------------------------------------------------------------
-- Errors
-- ---------------------------------------------------------------------------

/-- A word that is bound to one symbol and was to be bound to another. -/
structure Conflict where
  word : String
  bound : Symbol
  wanted : Symbol
  deriving DecidableEq, Repr

/-- The line that reports a conflict. -/
def Conflict.describe (c : Conflict) : String :=
  "'" ++ c.word ++ "' → conflict between " ++ c.bound.name ++ " and " ++ c.wanted.name

/-- Why a configuration is rejected. -/
inductive AliasError where
  | notAConfiguration
  | tooManyEntries
  | unitsNotAList
  | unknownSymbol (shown : String)
  | collisions (conflicts : List Conflict)
  /-- A file that could not be loaded, with the message of the failure. -/
  | unloadable (reason : String)
  deriving DecidableEq, Repr

namespace AliasError

/-- The message of an error. -/
def message : AliasError → String
  | notAConfiguration => "Configuration must be either a list or a dict"
  | tooManyEntries => "Too many entries in list-mode config"
  | unitsNotAList => "'prefix_units' must be a list"
  | unknownSymbol shown => "Unknown symbol name: " ++ shown
  | collisions _ => "Alias collision(s) detected"
  | unloadable reason => "Failed to load alias file: " ++ reason

/-- The conflicts that an error reports. -/
def conflicts : AliasError → List Conflict
  | collisions conflicts => conflicts
  | _ => []

end AliasError

-- ---------------------------------------------------------------------------
-- Tables
-- ---------------------------------------------------------------------------

/-- Words and the symbols they stand for; no word is listed twice. -/
abbrev AliasTable := List (String × Symbol)

namespace AliasTable

/-- The table in which a word stands for a symbol. A word that is listed keeps its place. -/
def put : AliasTable → String → Symbol → AliasTable
  | [], word, s => [(word, s)]
  | (w, t) :: rest, word, s => if w = word then (w, s) :: rest else (w, t) :: put rest word s

/-- The table with every entry of another one. -/
def update (table more : AliasTable) : AliasTable :=
  more.foldl (fun table (word, s) => table.put word s) table

end AliasTable

/-- The set of units with one more. -/
def insertPrefixUnit (units : List String) (unit : String) : List String :=
  if units.contains unit then units else units ++ [unit]

/-- What is configured: the words that stand for a symbol and the prefix units. -/
structure Aliases where
  table : AliasTable
  prefixUnits : List String
  deriving Inhabited

-- ---------------------------------------------------------------------------
-- Configurations
-- ---------------------------------------------------------------------------

/-- A group of words and the name of the symbol it is bound to, neither of them checked. -/
structure Binding where
  group : Json
  name : Json

/-- The bindings and conflicts found so far in a configuration. -/
structure Staging where
  staged : AliasTable
  conflicts : List Conflict

/-- Binds one more word. -/
def Staging.bind (table : AliasTable) (s : Symbol) (staging : Staging) (word : String) : Staging :=
  match staging.staged.lookup word <|> table.lookup word with
  | none => { staging with staged := staging.staged.put word s }
  | some bound =>
    if bound = s then { staging with staged := staging.staged.put word s }
    else { staging with conflicts := staging.conflicts ++ [⟨word, bound, s⟩] }

/-- The symbol that a configuration names. -/
def namedSymbol (name : Json) : Except AliasError Symbol :=
  match name with
  | .string s =>
    match Symbol.ofName? s with
    | some symbol => .ok symbol
    | none => .error (.unknownSymbol s)
  | other => .error (.unknownSymbol other.display)

/-- Binds the words of one more group. -/
def Staging.bindGroup (table : AliasTable) (staging : Staging) (b : Binding) :
    Except AliasError Staging := do
  let s ← namedSymbol b.name
  return (Alias.words b.group).foldl (Staging.bind table s) staging

/-- A configuration: a JSON value, or bindings of groups of words. -/
inductive Config where
  | value (v : Json)
  | groups (bindings : List Binding)

/-- The bindings of a configuration: those of its groups, the fields of an object, or the items of an
array, which are bound to the symbols by position. -/
def Config.bindings : Config → Except AliasError (List Binding)
  | groups bindings => .ok bindings
  | value (.object fields) => .ok (fields.map fun (word, name) => ⟨.string word, name⟩)
  | value (.array items) =>
    if Symbol.all.length < items.length then .error .tooManyEntries
    else .ok ((items.zip Symbol.all).map fun (group, s) => ⟨group, .string s.name⟩)
  | value _ => .error .notAConfiguration

/-- What a list of bindings adds to a table. -/
def stage (table : AliasTable) (bindings : List Binding) : Except AliasError AliasTable := do
  let staging ← bindings.foldlM (Staging.bindGroup table) ⟨[], []⟩
  if staging.conflicts.isEmpty then return staging.staged
  else .error (.collisions staging.conflicts)

/-- The prefix units that a configuration lists; none when the list is missing. -/
def listedUnits (units : Option Json) : Except AliasError (List Json) :=
  match units with
  | none | some .null => .ok []
  | some (.array items) => .ok items
  | some _ => .error .unitsNotAList

-- ---------------------------------------------------------------------------
-- Changes
-- ---------------------------------------------------------------------------

/-- A change of aliases in place. It may fail on its way, and what it has changed until then stays
changed. -/
abbrev Change := EStateM AliasError Aliases

namespace Change

variable {α : Type}

/-- A check that changes nothing. -/
def check (x : Except AliasError α) : Change α :=
  match x with
  | .ok a => pure a
  | .error e => throw e

/-- Adds entries to the table. -/
def addEntries (entries : AliasTable) : Change Unit :=
  modify fun a => { a with table := a.table.update entries }

/-- Adds one prefix unit. -/
def addUnit (unit : Json) : Change Unit :=
  modify fun a => { a with prefixUnits := insertPrefixUnit a.prefixUnits unit.display }

/-- Takes over a configuration. -/
def configure (config : Config) : Change Unit := do
  let bindings ← check config.bindings
  let a ← get
  addEntries (← check (stage a.table bindings))

/-- Takes over a configuration, then adds prefix units. The list of the units is checked first. -/
def merge (config : Config) (units : Option Json) : Change Unit := do
  let units ← check (listedUnits units)
  configure config
  units.forM addUnit

/-- The outcome of a change of the given aliases, with the aliases after it if it succeeds. -/
def outcome (change : Change α) (a : Aliases) : Except AliasError (α × Aliases) :=
  match change a with
  | .ok x a => .ok (x, a)
  | .error e _ => .error e

end Change

namespace Aliases

/-- No alias and the default prefix units. -/
def empty : Aliases := ⟨[], defaultPrefixUnits⟩

/-- Takes over a list of bindings. -/
def bindAll (a : Aliases) (bindings : List Binding) : Except AliasError Aliases :=
  ((Change.configure (.groups bindings)).outcome a).map Prod.snd

/-- Takes over a configuration. -/
def configure (a : Aliases) (config : Json) : Except AliasError Aliases :=
  ((Change.configure (.value config)).outcome a).map Prod.snd

/-- Takes over a configuration and a list of prefix units. -/
def merge (a : Aliases) (config : Json) (units : Option Json) : Except AliasError Aliases :=
  ((Change.merge (.value config) units).outcome a).map Prod.snd

/-- The words that are known from the start. -/
def canonicalWords : AliasTable :=
  [("plus", .add), ("minus", .sub), ("times", .mul), ("over", .div), ("divided_by", .div),
   ("modulo", .mod), ("into", .conversion)]

/-- The aliases that are known from the start. -/
def canonical : Aliases := ⟨canonicalWords, defaultPrefixUnits⟩

-- ---------------------------------------------------------------------------
-- Use
-- ---------------------------------------------------------------------------

/-- The symbol token that a word stands for. -/
def token? (a : Aliases) (word : String) (place : Place) : Option Token :=
  (a.table.lookup word).map fun s => ⟨.symbol s, place⟩

/-- A token in which an alias is replaced by its symbol. -/
def applyTo (a : Aliases) (t : Token) : Token :=
  match t.content with
  | .ident name => (a.token? name t.place).getD t
  | _ => t

/-- Tokens in which every alias is replaced by its symbol. -/
def apply (a : Aliases) (tokens : List Token) : List Token :=
  tokens.map a.applyTo

/-- The tokens of a source text, read with the known prefix units, aliases replaced. -/
def tokens (a : Aliases) (source : String) : Except LexError (List Token) :=
  (tokenize a.prefixUnits source).map a.apply

end Aliases

end Reckoner
