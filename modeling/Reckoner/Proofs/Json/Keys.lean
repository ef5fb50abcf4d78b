import Mathlib.Data.List.Nodup
import Reckoner.Json.Reader
import Reckoner.Proofs.Outcome

/-!
# The keys of an object

An object is read field by field. A field whose key is known already takes the place of the earlier one,
so no key is there twice.

## Results

* `ofText_keys_nodup` — the keys of an object that has been read are distinct.
-/

namespace Reckoner

namespace Json

/-- The keys of an object, in order. -/
def keys (fields : List (String × Json)) : List String :=
  fields.map Prod.fst

/-- No key is there twice after a field has been put. -/
theorem nodup_putField {fields : List (String × Json)} (h : (keys fields).Nodup) (key : String)
    (value : Json) : (keys (putField fields key value)).Nodup := by
  unfold putField
  split
  · have hSame : keys (fields.map fun field => if field.1 = key then (key, value) else field) =
        keys fields := by
      rw [keys, keys, List.map_map]
      refine List.map_congr_left fun field _ => ?_
      rw [Function.comp_apply]
      split
      · exact Eq.symm ‹_›
      · rfl
    rwa [hSame]
  · rename_i hFresh
    rw [keys, List.map_append, List.map_singleton]
    refine h.append (List.nodup_singleton key) (List.disjoint_singleton.mpr fun hKey => hFresh ?_)
    obtain ⟨field, hField, hSame⟩ := List.mem_map.mp hKey
    exact List.any_eq_true.mpr ⟨field, hField, decide_eq_true hSame⟩

/-- The reader puts one field after the other. -/
theorem nodup_readFields {depth steps : Nat} {fields found : List (String × Json)} {cs rest : List Char}
    (hKeys : (keys fields).Nodup) (h : readFields depth steps fields cs = .ok (found, rest)) :
    (keys found).Nodup := by
  induction steps generalizing fields cs with
  | zero => cases h
  | succ steps ih =>
    rw [readFields.eq_def] at h
    dsimp only at h
    split at h
    · obtain ⟨⟨key, more⟩, -, h⟩ := bind_eq_ok.mp h
      dsimp only at h
      split at h
      · obtain ⟨⟨value, more⟩, -, h⟩ := bind_eq_ok.mp h
        have hPut := nodup_putField hKeys key value
        dsimp only at h
        -- Behind the value a brace ends the object, and only a comma goes on.
        split at h
        · cases h
          exact hPut
        · exact ih hPut h
        · cases h
      · cases h
    · cases h

/-- What is spelled by a word or by digits is no object. -/
theorem readScalar_ne_object {cs rest : List Char} {fields : List (String × Json)} :
    readScalar cs ≠ .ok (.object fields, rest) := by
  intro h
  unfold readScalar at h
  split at h
  · rename_i word value hFound
    obtain ⟨rfl, -⟩ := Prod.mk.inj (Except.ok.inj h)
    have hMem : (word, Json.object fields) ∈ wordValues := List.mem_of_find?_eq_some hFound
    simp [wordValues] at hMem
  · unfold readNumber at h
    dsimp only at h
    split at h
    · rename_i value more hNumber
      obtain ⟨rfl, -⟩ := Prod.mk.inj (Except.ok.inj h)
      have hUnsigned : ∀ negative cs, readUnsigned negative cs ≠ some (.ok (.object fields), more) := by
        intro negative cs h
        unfold readUnsigned at h
        dsimp only at h
        split at h
        · cases h
        split at h
        · split at h <;> cases h
        · cases h
      split at hNumber
      · exact hUnsigned _ _ hNumber
      · exact hUnsigned _ _ hNumber
    · cases h
    · cases h

/-- An object is read behind an opening brace, and all its fields are put into an empty object. -/
theorem nodup_readValue {depth steps : Nat} {fields : List (String × Json)} {cs rest : List Char}
    (h : readValue depth steps cs = .ok (.object fields, rest)) : (keys fields).Nodup := by
  cases steps with
  | zero => cases h
  | succ steps =>
    rw [readValue.eq_def] at h
    dsimp only at h
    split at h
    · obtain ⟨⟨text, more⟩, -, h⟩ := bind_eq_ok.mp h
      cases h
    · split at h
      · cases h
      · split at h
        · cases h
          exact List.nodup_nil
        · obtain ⟨⟨found, more⟩, hFields, h⟩ := bind_eq_ok.mp h
          cases h
          have hNone : (keys []).Nodup := List.nodup_nil
          exact nodup_readFields hNone hFields
    · split at h
      · cases h
      · split at h
        · cases h
        · obtain ⟨⟨items, more⟩, -, h⟩ := bind_eq_ok.mp h
          cases h
    · exact absurd h readScalar_ne_object

/-- The value of a text is what the document reads as. -/
theorem ofText_eq_ok {text : String} {v : Json} :
    ofText text = .ok v ↔ readDocument maxDepth text.toList = .ok v :=
  mapError_eq_ok

/-- **The keys of an object that has been read are distinct.** -/
theorem ofText_keys_nodup {text : String} {fields : List (String × Json)}
    (h : ofText text = .ok (.object fields)) : (keys fields).Nodup := by
  have hDocument := ofText_eq_ok.mp h
  unfold readDocument at hDocument
  split at hDocument
  · cases hDocument
  · obtain ⟨⟨value, rest⟩, hValue, hEnd⟩ := bind_eq_ok.mp hDocument
    dsimp only at hEnd
    split at hEnd
    · cases hEnd
      exact nodup_readValue hValue
    · cases hEnd

end Json

end Reckoner
