import Reckoner.Json.Value

/-!
# Equality of values

Two values are equal when they are built alike. This can be computed (`same`), so that the value of a
given document can be found by computing as well. It is not the equality of diagnostics (`alike`), which
goes by what numbers stand for and by no order of fields.

## Results

* `same_iff` — values are equal just when the comparison says so.
-/

namespace Reckoner

namespace Json

mutual

/-- Whether two values are built alike. -/
def same : Json → Json → Bool
  | null, null => true
  | bool a, bool b => a = b
  | int a, int b => a = b
  | float a, float b => a = b
  | string a, string b => a = b
  | array xs, array ys => sameItems xs ys
  | object xs, object ys => sameFields xs ys
  | _, _ => false

/-- Whether two lists of values are built alike. -/
def sameItems : List Json → List Json → Bool
  | [], [] => true
  | x :: xs, y :: ys => same x y && sameItems xs ys
  | _, _ => false

/-- Whether two lists of fields are built alike, in their order. -/
def sameFields : List (String × Json) → List (String × Json) → Bool
  | [], [] => true
  | (key, x) :: xs, (key', y) :: ys => key = key' && (same x y && sameFields xs ys)
  | _, _ => false

end

mutual

/-- **Values are equal just when they are built alike.** -/
theorem same_iff : (a b : Json) → (same a b = true ↔ a = b)
  | null, b | bool _, b | int _, b | float _, b | string _, b => by cases b <;> simp [same]
  | array xs, b => by
    cases b with
    | array ys => simp [same, sameItems_iff xs ys]
    | _ => simp [same]
  | object xs, b => by
    cases b with
    | object ys => simp [same, sameFields_iff xs ys]
    | _ => simp [same]

theorem sameItems_iff : (xs ys : List Json) → (sameItems xs ys = true ↔ xs = ys)
  | [], ys => by cases ys <;> simp [sameItems]
  | x :: xs, [] => by simp [sameItems]
  | x :: xs, y :: ys => by simp [sameItems, same_iff x y, sameItems_iff xs ys]

theorem sameFields_iff : (xs ys : List (String × Json)) → (sameFields xs ys = true ↔ xs = ys)
  | [], ys => by cases ys <;> simp [sameFields]
  | (key, x) :: xs, [] => by simp [sameFields]
  | (key, x) :: xs, (key', y) :: ys => by
    simp [sameFields, same_iff x y, sameFields_iff xs ys, and_assoc]

end

instance : DecidableEq Json :=
  fun a b => decidable_of_iff _ (same_iff a b)

end Json

end Reckoner
