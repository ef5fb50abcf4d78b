/-!
# Output

What a run says: the lines it prints, and the remarks of its parts on their work, which are shown on
request.
-/

namespace Reckoner

/-- The parts of the program that remark on their work. -/
inductive Reporter where
  | batch
  | grammar
  | aliases
  deriving DecidableEq, Repr

/-- The name that a remark is made under. -/
def Reporter.name : Reporter → String
  | batch => "tally"
  | grammar => "tally.tally_parser"
  | aliases => "tally.tally_uimap"

/-- What a part of the program says about its work. -/
structure Remark where
  reporter : Reporter
  text : String
  deriving DecidableEq, Repr

/-- The line that shows a remark. -/
def Remark.line (r : Remark) : String :=
  "DEBUG " ++ r.reporter.name ++ ": " ++ r.text

/-- The lines printed and the remarks made, each in order. -/
structure Output where
  printed : List String
  remarks : List Remark
  deriving DecidableEq, Repr, Inhabited

namespace Output

/-- No output. -/
def nothing : Output := ⟨[], []⟩

/-- Printed lines. -/
def ofLines (lines : List String) : Output := ⟨lines, []⟩

/-- One printed line. -/
def ofLine (line : String) : Output := ofLines [line]

/-- Remarks and no printed line. -/
def ofRemarks (remarks : List Remark) : Output := ⟨[], remarks⟩

instance : Append Output where
  append a b := ⟨a.printed ++ b.printed, a.remarks ++ b.remarks⟩

/-- Lines as text: each of them is ended by a newline. -/
def textOf (lines : List String) : String :=
  String.join (lines.map (· ++ "\n"))

/-- The text of the printed lines. -/
def text (o : Output) : String := textOf o.printed

/-- The text of the remarks. -/
def remarkText (o : Output) : String := textOf (o.remarks.map Remark.line)

@[simp] theorem printed_append (a b : Output) : (a ++ b).printed = a.printed ++ b.printed := rfl

@[simp] theorem remarks_append (a b : Output) : (a ++ b).remarks = a.remarks ++ b.remarks := rfl

@[simp] theorem nothing_append (a : Output) : nothing ++ a = a := rfl

theorem append_assoc (a b c : Output) : a ++ b ++ c = a ++ (b ++ c) :=
  (mk.injEq ..).mpr ⟨List.append_assoc .., List.append_assoc ..⟩

end Output

end Reckoner
