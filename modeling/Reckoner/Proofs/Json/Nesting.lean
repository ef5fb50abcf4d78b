import Mathlib.Data.List.Basic
import Reckoner.Json.Reader
import Reckoner.Proofs.Outcome

/-!
# Documents that are nested too deeply

The reader goes into an array or an object only behind the bracket that opens it. It never goes back in
the text: whatever it has read, a suffix of the text is left (`Keeps.ok`). So when it finds no room for
one more container, it has gone past more opening brackets than there was room for.

## Results

* `keeps_value`        — reading leaves a suffix, or it is stopped for some reason.
* `readDocument_opens` — a document without room has more opening brackets than the room was for.
-/

namespace Reckoner

namespace Json

/-- Whether a character opens an array or an object. -/
def isOpening (c : Char) : Bool :=
  c = '[' || c = '\x7b'

/-- What comes of reading the text `cs` with room for `depth` containers inside one another: a suffix of
it is left, or there are more opening brackets than there is room for, or it is stopped for some other
reason. -/
inductive Keeps {α : Type} (depth : Nat) (cs : List Char) : Except Stop (α × List Char) → Prop
  | ok {a : α} {rest : List Char} (suffix : rest <:+ cs) : Keeps depth cs (.ok (a, rest))
  | nesting (container : Container) (deep : depth < cs.countP isOpening) :
      Keeps depth cs (.error (.nesting container))
  | fault (fault : Fault) (left : Nat) : Keeps depth cs (.error (.fault fault left))
  | digits (limit : DigitLimit) : Keeps depth cs (.error (.digits limit))

namespace Keeps

variable {α β : Type} {depth : Nat} {cs cs' : List Char} {x : Except Stop (α × List Char)}

/-- A reader of a suffix is a reader of the text. -/
theorem of_suffix (hSuffix : cs' <:+ cs) (h : Keeps depth cs' x) : Keeps depth cs x := by
  cases h with
  | ok hRest => exact .ok (hRest.trans hSuffix)
  | nesting container hDeep =>
    exact .nesting container (Nat.lt_of_lt_of_le hDeep hSuffix.sublist.countP_le)
  | fault f left => exact .fault f left
  | digits limit => exact .digits limit

/-- What stands behind the bracket of a container has room for one container less. -/
theorem inside {c : Char} (hOpening : isOpening c = true) (hSuffix : cs' <:+ cs)
    (h : Keeps (depth - 1) cs' x) : Keeps depth (c :: cs) x := by
  cases h with
  | ok hRest => exact .ok ((hRest.trans hSuffix).trans (List.suffix_cons c cs))
  | nesting container hDeep =>
    refine .nesting container ?_
    have hLater := hSuffix.sublist.countP_le (p := isOpening)
    rw [List.countP_cons_of_pos hOpening]
    omega
  | fault f left => exact .fault f left
  | digits limit => exact .digits limit

theorem bind {f : α × List Char → Except Stop (β × List Char)} (hx : Keeps depth cs x)
    (hf : ∀ a rest, rest <:+ cs → Keeps depth cs (f (a, rest))) : Keeps depth cs (x >>= f) := by
  cases hx with
  | ok hRest => exact hf _ _ hRest
  | nesting container hDeep => exact .nesting container hDeep
  | fault f left => exact .fault f left
  | digits limit => exact .digits limit

end Keeps

-- ---------------------------------------------------------------------------
-- Texts and scalars
-- ---------------------------------------------------------------------------

variable {depth : Nat}

theorem skipSpace_suffix (cs : List Char) : skipSpace cs <:+ cs :=
  List.dropWhile_suffix isSpace

/-- An escape by code point is read, or it is at fault. -/
theorem readCodeUnit_cases (digits : List Char) :
    (∃ n, readCodeUnit digits = .ok n) ∨
      ∃ fault left, readCodeUnit digits = .error (.fault fault left) := by
  unfold readCodeUnit
  split
  · split
    · exact Or.inr ⟨_, _, rfl⟩
    · exact Or.inl ⟨_, rfl⟩
  · exact Or.inr ⟨_, _, rfl⟩

theorem readCodeEscape_cases (digits : List Char) :
    (∃ found, readCodeEscape digits = .ok found) ∨
      ∃ fault left, readCodeEscape digits = .error (.fault fault left) := by
  have hLow : (∃ low, readLowSurrogate (digits.drop 4) = .ok low) ∨
      ∃ fault left, readLowSurrogate (digits.drop 4) = .error (.fault fault left) := by
    unfold readLowSurrogate
    split
    · rename_i more _
      split
      · exact Or.inl ⟨_, rfl⟩
      · rcases readCodeUnit_cases more with ⟨n, hn⟩ | ⟨fault, left, hFault⟩
        · exact Or.inl ⟨_, by rw [hn]; rfl⟩
        · exact Or.inr ⟨fault, left, by rw [hFault]; rfl⟩
    · exact Or.inl ⟨_, rfl⟩
  unfold readCodeEscape
  rcases readCodeUnit_cases digits with ⟨n, hn⟩ | ⟨fault, left, hFault⟩
  · rw [hn, ok_bind]
    split
    · rcases hLow with ⟨low, hLow⟩ | ⟨fault, left, hLow⟩
      · rw [hLow, ok_bind]
        cases low <;> exact Or.inl ⟨_, rfl⟩
      · exact Or.inr ⟨fault, left, by rw [hLow]; rfl⟩
    · exact Or.inl ⟨_, rfl⟩
  · exact Or.inr ⟨fault, left, by rw [hFault]; rfl⟩

theorem keeps_chars (left steps : Nat) (cs : List Char) : Keeps depth cs (readChars left steps cs) := by
  fun_induction readChars left steps cs with
  | case1 => exact .fault _ _
  | case2 => exact .fault _ _
  | case3 => exact .ok (List.suffix_cons _ _)
  | case4 => exact .fault _ _
  | case5 steps digits hSlash ih =>
    rcases readCodeEscape_cases digits with ⟨⟨char, pair⟩, hFound⟩ | ⟨fault, left, hFault⟩
    · rw [hFound, ok_bind]
      have hLater : digits.drop (if pair then 10 else 4) <:+ '\\' :: 'u' :: digits :=
        (List.drop_suffix _ digits).trans (List.suffix_append ['\\', 'u'] digits)
      exact ((ih pair).of_suffix hLater).bind fun chars rest hRest => .ok hRest
    · rw [hFault]
      exact .fault fault left
  | case6 steps e rest _ char _ _ ih =>
    exact (ih.of_suffix (List.suffix_append ['\\', e] rest)).bind fun chars rest hRest => .ok hRest
  | case7 => exact .fault _ _
  | case8 => exact .fault _ _
  | case9 steps c rest _ _ _ ih =>
    exact (ih.of_suffix (List.suffix_cons c rest)).bind fun chars rest hRest => .ok hRest

theorem keeps_string (cs : List Char) : Keeps depth cs (readString cs) :=
  (keeps_chars _ _ cs).bind fun _ _ hRest => .ok hRest

/-- What follows a number is left of it by dropping its parts. -/
theorem readUnsigned_suffix {negative : Bool} {cs rest : List Char} {found : Except DigitLimit Json}
    (h : readUnsigned negative cs = some (found, rest)) : rest <:+ cs := by
  unfold readUnsigned at h
  dsimp only at h
  generalize integerDigits cs = whole at h
  generalize fractionDigits? (cs.drop whole.length) = fraction at h
  generalize hTail : (cs.drop whole.length).drop (fraction.elim 0 (·.length + 1)) = tail at h
  have hSuffix : tail <:+ cs := by
    rw [← hTail]
    exact (List.drop_suffix _ _).trans (List.drop_suffix _ _)
  have hRest : rest = tail.drop ((exponentPart? tail).elim 0 (·.1)) := by
    split at h
    · cases h
    · split at h
      · split at h
        · exact (Prod.mk.inj (Option.some.inj h)).2.symm
        · exact (Prod.mk.inj (Option.some.inj h)).2.symm
      · exact (Prod.mk.inj (Option.some.inj h)).2.symm
  rw [hRest]
  exact (List.drop_suffix _ tail).trans hSuffix

theorem keeps_number (cs : List Char) : Keeps depth cs (readNumber cs) := by
  unfold readNumber
  dsimp only
  split
  · rename_i value rest hNumber
    split at hNumber
    · exact .ok ((readUnsigned_suffix hNumber).trans (List.suffix_cons _ _))
    · exact .ok (readUnsigned_suffix hNumber)
  · exact .digits _
  · exact .fault _ _

theorem keeps_scalar (cs : List Char) : Keeps depth cs (readScalar cs) := by
  unfold readScalar
  split
  · exact .ok (List.drop_suffix _ cs)
  · exact keeps_number cs

-- ---------------------------------------------------------------------------
-- Values
-- ---------------------------------------------------------------------------

/-- What the readers of documents keep under a number of steps. -/
structure KeepsWithin (steps : Nat) : Prop where
  value (depth : Nat) (cs : List Char) : Keeps depth cs (readValue depth steps cs)
  items (depth : Nat) (cs : List Char) : Keeps depth cs (readItems depth steps cs)
  fields (depth : Nat) (fields : List (String × Json)) (cs : List Char) :
    Keeps depth cs (readFields depth steps fields cs)

variable {steps : Nat}

theorem keeps_value (h : KeepsWithin steps) (depth : Nat) (cs : List Char) :
    Keeps depth cs (readValue depth (steps + 1) cs) := by
  rw [readValue.eq_def]
  dsimp only
  split
  · rename_i rest
    exact ((keeps_string rest).of_suffix (List.suffix_cons _ rest)).bind fun s more hMore => .ok hMore
  · rename_i rest
    split
    · rename_i hDepth
      exact .nesting _ (by rw [hDepth]; simp [isOpening])
    · split
      · rename_i more hClosed
        have hMore : more <:+ rest := (List.suffix_cons _ more).trans (hClosed ▸ skipSpace_suffix rest)
        exact .ok (hMore.trans (List.suffix_cons _ rest))
      · have hOpening : isOpening '\x7b' = true := by decide
        have hFields :=
          (h.fields (depth - 1) [] (skipSpace rest)).inside hOpening (skipSpace_suffix rest)
        exact hFields.bind fun fields more hMore => .ok hMore
  · rename_i rest
    split
    · rename_i hDepth
      exact .nesting _ (by rw [hDepth]; simp [isOpening])
    · split
      · rename_i more hClosed
        have hMore : more <:+ rest := (List.suffix_cons _ more).trans (hClosed ▸ skipSpace_suffix rest)
        exact .ok (hMore.trans (List.suffix_cons _ rest))
      · have hOpening : isOpening '[' = true := by decide
        have hItems :=
          (h.items (depth - 1) (skipSpace rest)).inside hOpening (skipSpace_suffix rest)
        exact hItems.bind fun items more hMore => .ok hMore
  · exact keeps_scalar _

theorem keeps_items (h : KeepsWithin steps) (depth : Nat) (cs : List Char) :
    Keeps depth cs (readItems depth (steps + 1) cs) := by
  rw [readItems.eq_def]
  dsimp only
  refine (h.value depth cs).bind fun item rest hRest => ?_
  have hSpace := (skipSpace_suffix rest).trans hRest
  dsimp only
  split
  · rename_i more hClosed
    rw [hClosed] at hSpace
    exact .ok ((List.suffix_cons _ more).trans hSpace)
  · rename_i more hComma
    rw [hComma] at hSpace
    have hNext := (skipSpace_suffix more).trans ((List.suffix_cons _ more).trans hSpace)
    exact ((h.items depth (skipSpace more)).of_suffix hNext).bind fun items rest hRest => .ok hRest
  · exact .fault _ _

theorem keeps_fields (h : KeepsWithin steps) (depth : Nat) (fields : List (String × Json))
    (cs : List Char) : Keeps depth cs (readFields depth (steps + 1) fields cs) := by
  rw [readFields.eq_def]
  dsimp only
  split
  · rename_i rest
    refine ((keeps_string rest).of_suffix (List.suffix_cons _ rest)).bind fun key more hMore => ?_
    have hColon := (skipSpace_suffix more).trans hMore
    dsimp only
    split
    · rename_i more hFound
      rw [hFound] at hColon
      have hValue := (skipSpace_suffix more).trans ((List.suffix_cons _ more).trans hColon)
      refine ((h.value depth (skipSpace more)).of_suffix hValue).bind fun value more hMore => ?_
      have hSpace := (skipSpace_suffix more).trans hMore
      dsimp only
      split
      · rename_i more hClosed
        rw [hClosed] at hSpace
        exact .ok ((List.suffix_cons _ more).trans hSpace)
      · rename_i more hComma
        rw [hComma] at hSpace
        have hNext := (skipSpace_suffix more).trans ((List.suffix_cons _ more).trans hSpace)
        exact (h.fields depth _ (skipSpace more)).of_suffix hNext
      · exact .fault _ _
    · exact .fault _ _
  · exact .fault _ _

theorem keepsWithin (steps : Nat) : KeepsWithin steps := by
  induction steps with
  | zero => exact ⟨fun _ _ => .fault _ _, fun _ _ => .fault _ _, fun _ _ _ => .fault _ _⟩
  | succ steps ih => exact ⟨keeps_value ih, keeps_items ih, keeps_fields ih⟩

/-- **A document that finds no room** has more opening brackets than there is room for. -/
theorem readDocument_opens {depth : Nat} {cs : List Char} {container : Container}
    (h : readDocument depth cs = .error (.nesting container)) : depth < cs.countP isOpening := by
  unfold readDocument at h
  split at h
  · cases h
  · have hKeeps := (keepsWithin (stepsFor (skipSpace cs))).value depth (skipSpace cs)
    dsimp only at h
    generalize readValue depth _ (skipSpace cs) = x at hKeeps h
    cases hKeeps with
    | @ok value rest _ =>
      rw [ok_bind] at h
      dsimp only at h
      split at h <;> cases h
    | nesting _ hDeep =>
      exact Nat.lt_of_lt_of_le hDeep (skipSpace_suffix cs).sublist.countP_le
    | fault f left => cases h
    | digits limit => cases h

end Json

end Reckoner
