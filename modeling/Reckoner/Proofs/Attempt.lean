import Reckoner.Grammar.Attempt

/-!
# Outcomes of attempts

The outcome of an attempt is read off the outcomes of its parts: what a sequence builds, what is
left after a parse error was recovered from, and when a candidate is accepted or declined.

Attempts are compared by `Below`: `y` has the outcome of `x`, unless the bound on the nesting
stopped `x`. Every way to put attempts together keeps this order, since nothing recovers from
`Stop.tooDeep`.

`FailsOnly E` says of one attempt what can stop it: the bound, or a parse error that `E` allows.

Two attempts that run side by side, perhaps on different tokens, are compared by `Agrees`: both build
something, and what they build is related, or both are stopped by the same kind of stop. Every way to
put attempts together keeps this too.
-/

namespace Reckoner

namespace Attempt

variable {α β : Type}

-- ---------------------------------------------------------------------------
-- Sequences
-- ---------------------------------------------------------------------------

/-- A sequence builds `b` exactly when both of its parts build something. -/
theorem bind_ok {x : Attempt α} {f : α → Attempt β} {b : β} :
    (x >>= f).result = .ok b ↔ ∃ a, x.result = .ok a ∧ (f a).result = .ok b := by
  rw [result_bind]
  cases x.result <;> simp [Except.bind]

theorem result_bind_of_ok {x : Attempt α} {a : α} (h : x.result = .ok a) (f : α → Attempt β) :
    (x >>= f).result = (f a).result := by
  rw [result_bind, h]
  rfl

theorem result_bind_of_error {x : Attempt α} {stop : Stop} (h : x.result = .error stop)
    (f : α → Attempt β) : (x >>= f).result = .error stop := by
  rw [result_bind, h]
  rfl

/-- What stops a sequence stops one of its parts. -/
theorem bind_error {x : Attempt α} {f : α → Attempt β} {stop : Stop} :
    (x >>= f).result = .error stop ↔
      x.result = .error stop ∨ ∃ a, x.result = .ok a ∧ (f a).result = .error stop := by
  rw [result_bind]
  cases x.result <;> simp [Except.bind]

theorem shape_ok {r : Except Node.ShapeFault α} {a : α} :
    (shape r).result = .ok a ↔ r = .ok a := by
  cases r with
  | ok b =>
    show (Except.ok b : Except Stop α) = .ok a ↔ _
    simp
  | error e =>
    show (Except.error (.misshapen e) : Except Stop α) = .ok a ↔ _
    simp

-- ---------------------------------------------------------------------------
-- Recovery
-- ---------------------------------------------------------------------------

/-- What is built despite recovery was built at first, or by the handler of a parse error. -/
theorem recover_ok {x : Attempt α} {handle : ParseError → Attempt α} {a : α} :
    (x.recover handle).result = .ok a ↔
      x.result = .ok a ∨ ∃ e, x.result = .error (.error e) ∧ (handle e).result = .ok a := by
  unfold recover
  split
  · rename_i e he
    simp [he]
  · rename_i hne
    constructor
    · exact Or.inl
    · rintro (h | ⟨e, he, -⟩)
      · exact h
      · exact absurd he (hne e)

/-- A candidate is accepted exactly when the attempt behind it builds something. -/
theorem candidate_some {name : Candidate} {left : Nat} {x : Attempt α} {a : α} :
    (candidate name left x).result = .ok (some a) ↔ x.result = .ok a := by
  unfold candidate
  rw [recover_ok]
  constructor
  · rintro (h | ⟨e, -, h⟩)
    · obtain ⟨b, hb, h⟩ := bind_ok.mp h
      simp only [result_pure, Except.ok.injEq, Option.some.injEq] at h
      rw [hb, h]
    · obtain ⟨_, -, h⟩ := bind_ok.mp h
      simp at h
  · intro h
    exact Or.inl (bind_ok.mpr ⟨a, h, rfl⟩)

/-- A candidate is declined exactly when a parse error rejects the attempt behind it. -/
theorem candidate_none {name : Candidate} {left : Nat} {x : Attempt α} :
    (candidate name left x).result = .ok none ↔ ∃ e, x.result = .error (.error e) := by
  unfold candidate
  rw [recover_ok]
  constructor
  · rintro (h | ⟨e, h, -⟩)
    · obtain ⟨b, -, h⟩ := bind_ok.mp h
      simp at h
    · rw [result_bind] at h
      cases hx : x.result with
      | ok a => simp [hx, Except.bind] at h
      | error stop =>
        rw [hx] at h
        exact ⟨e, by simpa [Except.bind] using h⟩
  · rintro ⟨e, h⟩
    exact Or.inr ⟨e, result_bind_of_error h _, rfl⟩

/-- No parse error comes out of a candidate. -/
theorem candidate_error {name : Candidate} {left : Nat} {x : Attempt α} {e : ParseError} :
    (candidate name left x).result ≠ .error (.error e) := by
  unfold candidate recover
  split
  · exact fun h => nomatch h
  · rename_i hOther
    exact hOther e

-- ---------------------------------------------------------------------------
-- The order of nesting bounds
-- ---------------------------------------------------------------------------

/-- `y` has the outcome of `x`, unless the bound on the nesting stopped `x`. -/
def Below (x y : Attempt α) : Prop :=
  x.result = .error .tooDeep ∨ y.result = x.result

theorem Below.refl (x : Attempt α) : Below x x :=
  Or.inr rfl

/-- An attempt that is stopped by the bound is below every other. -/
theorem below_of_tooDeep {x y : Attempt α} (h : x.result = .error .tooDeep) : Below x y :=
  Or.inl h

theorem Below.bind {x y : Attempt α} {f g : α → Attempt β} (hxy : Below x y)
    (hfg : ∀ a, Below (f a) (g a)) : Below (x >>= f) (y >>= g) := by
  rcases hxy with h | h
  · exact Or.inl (result_bind_of_error h f)
  · cases hx : x.result with
    | error stop =>
      refine Or.inr ?_
      rw [result_bind_of_error hx, result_bind_of_error (h.trans hx)]
    | ok a =>
      unfold Below
      rw [result_bind_of_ok hx, result_bind_of_ok (h.trans hx)]
      exact hfg a

theorem Below.recover {x y : Attempt α} {f g : ParseError → Attempt α} (hxy : Below x y)
    (hfg : ∀ e, Below (f e) (g e)) : Below (x.recover f) (y.recover g) := by
  rcases hxy with h | h
  · refine Or.inl ?_
    unfold Attempt.recover
    rw [h]
    exact h
  · unfold Below Attempt.recover
    rw [h]
    split
    · exact hfg _
    · exact Or.inr h

theorem Below.candidate {x y : Attempt α} (name : Candidate) (left : Nat) (h : Below x y) :
    Below (x.candidate name left) (y.candidate name left) := by
  unfold Attempt.candidate
  exact Below.recover (h.bind fun a => .refl _) fun e => .refl _

/-- An outcome other than the bound's own is kept by whatever lies above. -/
theorem Below.result_eq {x y : Attempt α} (h : Below x y) (hx : x.result ≠ .error .tooDeep) :
    y.result = x.result :=
  h.resolve_left hx

theorem Below.ok {x y : Attempt α} {a : α} (h : Below x y) (hx : x.result = .ok a) :
    y.result = .ok a := by
  rw [h.result_eq (by simp [hx]), hx]

theorem Below.error {x y : Attempt α} {e : ParseError} (h : Below x y)
    (hx : x.result = .error (.error e)) : y.result = .error (.error e) := by
  rw [h.result_eq (by simp [hx]), hx]

-- ---------------------------------------------------------------------------
-- What stops an attempt
-- ---------------------------------------------------------------------------

/-- Nothing stops the attempt but the bound on the nesting and the parse errors that `E` allows. -/
def FailsOnly (E : ParseError → Prop) (x : Attempt α) : Prop :=
  ∀ stop, x.result = .error stop → stop = .tooDeep ∨ ∃ e, stop = .error e ∧ E e

section FailsOnly

variable {E E' : ParseError → Prop} {x : Attempt α}

theorem FailsOnly.of_ok {a : α} (h : x.result = .ok a) : FailsOnly E x := by
  intro stop hStop
  rw [h] at hStop
  cases hStop

theorem FailsOnly.of_tooDeep (h : x.result = .error .tooDeep) : FailsOnly E x := by
  intro stop hStop
  rw [h] at hStop
  cases hStop
  exact Or.inl rfl

theorem FailsOnly.pure (a : α) : FailsOnly E (Pure.pure a : Attempt α) :=
  .of_ok rfl

theorem FailsOnly.reject {e : ParseError} (h : E e) : FailsOnly E (.reject e : Attempt α) := by
  intro stop hStop
  cases hStop
  exact Or.inr ⟨e, rfl, h⟩

theorem FailsOnly.shape (a : α) : FailsOnly E (.shape (.ok a)) :=
  .of_ok rfl

theorem FailsOnly.imp (h : FailsOnly E x) (hE : ∀ e, E e → E' e) : FailsOnly E' x := by
  intro stop hStop
  rcases h stop hStop with rfl | ⟨e, rfl, he⟩
  · exact Or.inl rfl
  · exact Or.inr ⟨e, rfl, hE e he⟩

/-- The second part of a sequence matters only where the first one builds something. -/
theorem FailsOnly.bind {f : α → Attempt β} (hx : FailsOnly E x)
    (hf : ∀ a, x.result = .ok a → FailsOnly E (f a)) : FailsOnly E (x >>= f) := by
  intro stop hStop
  cases hResult : x.result with
  | ok a =>
    rw [result_bind_of_ok hResult] at hStop
    exact hf a hResult stop hStop
  | error stop' =>
    rw [result_bind_of_error hResult] at hStop
    obtain rfl : stop' = stop := Except.error.inj hStop
    exact hx _ hResult

theorem FailsOnly.recover {f : ParseError → Attempt α} (hx : FailsOnly E x)
    (hf : ∀ e, E e → FailsOnly E' (f e)) : FailsOnly E' (x.recover f) := by
  unfold Attempt.recover
  split
  · rename_i e hResult
    rcases hx _ hResult with h | ⟨e', h, he⟩
    · cases h
    · cases h
      exact hf e he
  · rename_i hOther
    intro stop hStop
    rcases hx stop hStop with rfl | ⟨e, rfl, -⟩
    · exact Or.inl rfl
    · exact absurd hStop (hOther e)

/-- A candidate fails with no parse error at all. -/
theorem FailsOnly.candidate (name : Candidate) (left : Nat) (hx : FailsOnly E x) :
    FailsOnly E' (x.candidate name left) := by
  have hFound : FailsOnly E (do return some (← x)) := hx.bind fun a _ => .pure _
  exact hFound.recover fun _ _ => .of_ok rfl

/-- An attempt builds something, or the bound stops it, or an error that is allowed. -/
theorem FailsOnly.cases (h : FailsOnly E x) :
    (∃ a, x.result = .ok a) ∨ x.result = .error .tooDeep ∨
      ∃ e, x.result = .error (.error e) ∧ E e := by
  cases hResult : x.result with
  | ok a => exact Or.inl ⟨a, rfl⟩
  | error stop =>
    rcases h stop hResult with rfl | ⟨e, rfl, he⟩
    · exact Or.inr (Or.inl rfl)
    · exact Or.inr (Or.inr ⟨e, rfl, he⟩)

end FailsOnly

-- ---------------------------------------------------------------------------
-- Two attempts side by side
-- ---------------------------------------------------------------------------

/-- Outcomes that agree: what is built is related by `R`, parse errors are related by `E`, and
nothing else that stops an attempt differs. -/
inductive Agree (E : ParseError → ParseError → Prop) (R : α → β → Prop) :
    Except Stop α → Except Stop β → Prop where
  | ok {a : α} {b : β} (h : R a b) : Agree E R (.ok a) (.ok b)
  | error {e e' : ParseError} (h : E e e') : Agree E R (.error (.error e)) (.error (.error e'))
  | tooDeep : Agree E R (.error .tooDeep) (.error .tooDeep)
  | misshapen (fault : Node.ShapeFault) :
      Agree E R (.error (.misshapen fault)) (.error (.misshapen fault))

/-- The outcomes of two attempts agree. -/
def Agrees (E : ParseError → ParseError → Prop) (R : α → β → Prop) (x : Attempt α)
    (y : Attempt β) : Prop :=
  Agree E R x.result y.result

section Agrees

variable {γ δ : Type} {E : ParseError → ParseError → Prop} {R : α → β → Prop} {S : γ → δ → Prop}
variable {x : Attempt α} {y : Attempt β}

theorem Agrees.pure {a : α} {b : β} (h : R a b) : Agrees E R (Pure.pure a) (Pure.pure b) :=
  .ok h

theorem Agrees.reject {e e' : ParseError} (h : E e e') : Agrees E R (.reject e) (.reject e') :=
  .error h

theorem Agrees.of_error {e e' : ParseError} (hx : x.result = .error (.error e))
    (hy : y.result = .error (.error e')) (h : E e e') : Agrees E R x y := by
  unfold Agrees
  rw [hx, hy]
  exact .error h

/-- Attempts that are both rejected agree where all errors count as the same. -/
theorem Agrees.of_errors (hx : ∃ e, x.result = .error (.error e))
    (hy : ∃ e, y.result = .error (.error e)) (hE : ∀ e e', E e e') : Agrees E R x y := by
  obtain ⟨e, he⟩ := hx
  obtain ⟨e', he'⟩ := hy
  exact .of_error he he' (hE e e')

theorem Agrees.imp {R' : α → β → Prop} (h : Agrees E R x y) (hR : ∀ a b, R a b → R' a b) :
    Agrees E R' x y := by
  obtain ⟨_, outcome⟩ := x
  obtain ⟨_, outcome'⟩ := y
  cases h with
  | ok hab => exact .ok (hR _ _ hab)
  | error he => exact .error he
  | tooDeep => exact .tooDeep
  | misshapen fault => exact .misshapen fault

theorem Agrees.bind_of_ok {f : α → Attempt γ} {g : β → Attempt δ} (hxy : Agrees E R x y)
    (hfg : ∀ a b, x.result = .ok a → y.result = .ok b → R a b → Agrees E S (f a) (g b)) :
    Agrees E S (x >>= f) (y >>= g) := by
  obtain ⟨_, outcome⟩ := x
  obtain ⟨_, outcome'⟩ := y
  cases hxy with
  | ok hab => exact hfg _ _ rfl rfl hab
  | error he => exact .error he
  | tooDeep => exact .tooDeep
  | misshapen fault => exact .misshapen fault

theorem Agrees.bind {f : α → Attempt γ} {g : β → Attempt δ} (hxy : Agrees E R x y)
    (hfg : ∀ a b, R a b → Agrees E S (f a) (g b)) : Agrees E S (x >>= f) (y >>= g) :=
  hxy.bind_of_ok fun a b _ _ => hfg a b

theorem Agrees.recover {f : ParseError → Attempt α} {g : ParseError → Attempt β}
    (hxy : Agrees E R x y) (hfg : ∀ e e', E e e' → Agrees E R (f e) (g e')) :
    Agrees E R (x.recover f) (y.recover g) := by
  obtain ⟨_, outcome⟩ := x
  obtain ⟨_, outcome'⟩ := y
  cases hxy with
  | ok hab => exact .ok hab
  | error he => exact hfg _ _ he
  | tooDeep => exact .tooDeep
  | misshapen fault => exact .misshapen fault

/-- A candidate is accepted in both attempts or in neither, wherever they were tried. -/
theorem Agrees.candidate (name name' : Candidate) (left left' : Nat) (h : Agrees E R x y) :
    Agrees E (Option.Rel R) (x.candidate name left) (y.candidate name' left') := by
  have hFound : Agrees E (Option.Rel R) (do return some (← x)) (do return some (← y)) :=
    h.bind fun a b hab => .pure (.some hab)
  exact hFound.recover fun _ _ _ => .ok .none

/-- Looking at the shapes of two nodes agrees when both looks find a fault, and the same one, or
neither does. -/
theorem Agrees.shape {r : Except Node.ShapeFault α} {r' : Except Node.ShapeFault β}
    (h : (∃ fault, r = .error fault ∧ r' = .error fault) ∨ ∃ a b, r = .ok a ∧ r' = .ok b ∧ R a b) :
    Agrees E R (.shape r) (.shape r') := by
  rcases h with ⟨fault, rfl, rfl⟩ | ⟨a, b, rfl, rfl, hab⟩
  · exact .misshapen fault
  · exact .ok hab

/-- With equality on both sides, outcomes that agree are the same. -/
theorem Agrees.result_eq {x y : Attempt α} (h : Agrees Eq Eq x y) : x.result = y.result := by
  obtain ⟨_, outcome⟩ := x
  obtain ⟨_, outcome'⟩ := y
  cases h with
  | ok hab => rw [hab]
  | error he => rw [he]
  | tooDeep => rfl
  | misshapen fault => rfl

/-- Attempts that agree build something together, and it is related. -/
theorem Agrees.built (h : Agrees E R x y) :
    ((∃ a, x.result = .ok a) ↔ ∃ b, y.result = .ok b) ∧
      ∀ a b, x.result = .ok a → y.result = .ok b → R a b := by
  obtain ⟨_, outcome⟩ := x
  obtain ⟨_, outcome'⟩ := y
  cases h with
  | @ok a b hab =>
    refine ⟨⟨fun _ => ⟨b, rfl⟩, fun _ => ⟨a, rfl⟩⟩, fun a' b' ha hb => ?_⟩
    obtain rfl := Except.ok.inj ha
    obtain rfl := Except.ok.inj hb
    exact hab
  | _ => simp

/-- Attempts that agree on the same build the same. -/
theorem Agrees.ok_iff {x y : Attempt α} (h : Agrees E Eq x y) (a : α) :
    x.result = .ok a ↔ y.result = .ok a := by
  obtain ⟨hBuilds, hSame⟩ := h.built
  constructor
  · intro hx
    obtain ⟨b, hy⟩ := hBuilds.mp ⟨a, hx⟩
    rw [hSame a b hx hy, hy]
  · intro hy
    obtain ⟨b, hx⟩ := hBuilds.mpr ⟨a, hy⟩
    rw [← hSame b a hx hy, hx]

end Agrees

end Attempt

end Reckoner
