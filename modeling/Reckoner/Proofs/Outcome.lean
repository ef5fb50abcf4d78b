import Mathlib.Data.List.Forall2

/-!
# Computations that may fail

When a computation in steps succeeds, so do its steps. Later proofs take computations apart by these
lemmas and do not unfold how failures are passed on.
-/

namespace Reckoner

variable {ε ε' α β : Type}

theorem ok_bind (a : α) (f : α → Except ε β) : (Except.ok a >>= f) = f a := rfl

/-- What follows in a computation comes from what came before it. -/
theorem bind_eq_ok {x : Except ε α} {f : α → Except ε β} {b : β} :
    (x >>= f) = .ok b ↔ ∃ a, x = .ok a ∧ f a = .ok b := by
  cases x <;> simp [bind, Except.bind]

/-- A result does not depend on how errors are reported. -/
theorem mapError_eq_ok {x : Except ε α} {f : ε → ε'} {a : α} :
    x.mapError f = .ok a ↔ x = .ok a := by
  cases x <;> simp [Except.mapError]

/-- A computation succeeds on a list if it does on each item. -/
theorem mapM_eq_ok {f : α → Except ε β} {xs : List α} {ys : List β} :
    xs.mapM f = .ok ys ↔ List.Forall₂ (fun x y => f x = .ok y) xs ys := by
  induction xs generalizing ys with
  | nil =>
    rw [List.mapM_nil, List.forall₂_nil_left_iff]
    exact ⟨fun h => (Except.ok.inj h).symm, fun h => congrArg Except.ok h.symm⟩
  | cons x xs ih =>
    rw [List.mapM_cons, bind_eq_ok, List.forall₂_cons_left_iff]
    constructor
    · rintro ⟨y, hFirst, h⟩
      obtain ⟨ys', hRest, h⟩ := bind_eq_ok.mp h
      exact ⟨y, ys', hFirst, ih.mp hRest, (Except.ok.inj h).symm⟩
    · rintro ⟨y, ys', hFirst, hRest, rfl⟩
      exact ⟨y, hFirst, bind_eq_ok.mpr ⟨ys', ih.mpr hRest, rfl⟩⟩

/-- A computation that fails on a list fails as it does on the first item that it fails on. -/
theorem mapM_eq_error {f : α → Except ε β} {xs : List α} {e : ε} (h : xs.mapM f = .error e) :
    ∃ before x after, xs = before ++ x :: after ∧ (∀ y ∈ before, ∃ z, f y = .ok z) ∧
      f x = .error e := by
  induction xs with
  | nil => cases h
  | cons x xs ih =>
    rw [List.mapM_cons] at h
    cases hFirst : f x with
    | error e' =>
      rw [hFirst] at h
      obtain rfl : e' = e := Except.error.inj h
      exact ⟨[], x, xs, rfl, List.forall_mem_nil _, hFirst⟩
    | ok y =>
      rw [hFirst, ok_bind] at h
      have hRest : xs.mapM f = .error e := by
        cases hMore : xs.mapM f with
        | error e' => rw [hMore] at h; exact congrArg Except.error (Except.error.inj h)
        | ok ys => rw [hMore] at h; cases h
      obtain ⟨before, z, after, rfl, hBefore, hFails⟩ := ih hRest
      exact ⟨x :: before, z, after, rfl, List.forall_mem_cons.mpr ⟨⟨y, hFirst⟩, hBefore⟩, hFails⟩

/-- A computation fails on a list where it fails on the first item that it fails on. -/
theorem mapM_error_of_first {f : α → Except ε β} {before after : List α} {x : α} {e : ε}
    (hBefore : ∀ y ∈ before, ∃ z, f y = .ok z) (hFails : f x = .error e) :
    (before ++ x :: after).mapM f = .error e := by
  induction before with
  | nil =>
    rw [List.nil_append, List.mapM_cons, hFails]
    rfl
  | cons y before ih =>
    obtain ⟨⟨z, hFirst⟩, hMore⟩ := List.forall_mem_cons.mp hBefore
    rw [List.cons_append, List.mapM_cons, hFirst, ok_bind, ih hMore]
    rfl

/-- What is read off each item is read off the list. -/
theorem mapM_eq_some {f : β → Option α} {xs : List α} {ys : List β}
    (h : List.Forall₂ (fun x y => f y = some x) xs ys) : ys.mapM f = some xs := by
  induction h with
  | nil => rfl
  | cons hFirst _ ih => rw [List.mapM_cons, hFirst, ih]; rfl

/-- Things that exist for each item of a list are a list. -/
theorem exists_forall₂ {R : α → β → Prop} {xs : List α} (h : ∀ x ∈ xs, ∃ y, R x y) :
    ∃ ys, List.Forall₂ R xs ys := by
  induction xs with
  | nil => exact ⟨[], .nil⟩
  | cons x xs ih =>
    obtain ⟨⟨y, hFirst⟩, hRest⟩ := List.forall_mem_cons.mp h
    obtain ⟨ys, hYs⟩ := ih hRest
    exact ⟨y :: ys, .cons hFirst hYs⟩

/-- Each item of a list is related to something when the list is. -/
theorem exists_of_forall₂ {R : α → β → Prop} {xs : List α} {ys : List β} (h : List.Forall₂ R xs ys) :
    ∀ x ∈ xs, ∃ y, R x y := by
  induction h with
  | nil => exact List.forall_mem_nil _
  | cons hFirst _ ih => exact List.forall_mem_cons.mpr ⟨⟨_, hFirst⟩, ih⟩

/-- What is known of each thing that is related to another one. -/
theorem forall_of_forall₂ {R : α → β → Prop} {P : β → Prop} {xs : List α} {ys : List β}
    (h : List.Forall₂ R xs ys) (hP : ∀ x y, R x y → P y) : ∀ y ∈ ys, P y := by
  induction h with
  | nil => exact List.forall_mem_nil P
  | cons hFirst _ ih => exact List.forall_mem_cons.mpr ⟨hP _ _ hFirst, ih⟩

end Reckoner
