/-!
# Columns and order

Texts padded to a width, and lists of texts in the order of their code points.
-/

namespace Reckoner

namespace Text

/-- A text preceded by spaces up to a width. -/
def alignRight (width : Nat) (s : String) : String :=
  String.ofList (List.replicate (width - s.length) ' ') ++ s

/-- A text followed by spaces up to a width. -/
def alignLeft (width : Nat) (s : String) : String :=
  s ++ String.ofList (List.replicate (width - s.length) ' ')

/-- A list in which `x` stands before the first item with a greater key. -/
def insertByKey {α : Type} (key : α → String) (x : α) : List α → List α
  | [] => [x]
  | y :: ys => if key x < key y then x :: y :: ys else y :: insertByKey key x ys

/-- A list in the order of the code points of its keys; items of one key keep their order. -/
def sortByKey {α : Type} (key : α → String) (xs : List α) : List α :=
  xs.foldl (fun sorted x => insertByKey key x sorted) []

end Text

end Reckoner
