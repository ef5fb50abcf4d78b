import Reckoner.Json.Reader
import Reckoner.Proofs.Outcome

/-!
# Escapes of half a pair

An escape in a JSON text spells a code unit. Two of them that follow one another may be the halves of a
surrogate pair and spell one character; half a pair without the other half spells none. The reader takes
the replacement character for it (`readCodeEscape_spells`), so a document that holds such an escape
(`spellsHalf`) is not read for what it says.

## Results

* `readCodeEscape_spells` — what an escape is read as, by what it spells.
-/

namespace Reckoner

namespace Json

/-- The first half of a surrogate pair. -/
def isFirstHalf (unit : Nat) : Bool :=
  0xD800 ≤ unit ∧ unit < 0xDC00

/-- The second half of a surrogate pair. -/
def isSecondHalf (unit : Nat) : Bool :=
  0xDC00 ≤ unit ∧ unit < 0xE000

/-- The code unit of the escape at the start of a text. A document goes on behind it. -/
def escapedUnit? : List Char → Option Nat
  | '\\' :: 'u' :: digits => if digits.length ≤ 4 then none else codeUnit? (digits.take 4)
  | _ => none

/-- Whether an escape spells the first half of a pair and the escape behind it spells the second half.
The digits of the escape start the text. -/
def startsPair (digits : List Char) : Bool :=
  (codeUnit? (digits.take 4)).any isFirstHalf && (escapedUnit? (digits.drop 4)).any isSecondHalf

/-- Whether an escape spells half a pair by itself. The digits of the escape start the text. -/
def isHalf (digits : List Char) : Bool :=
  (codeUnit? (digits.take 4)).any (fun unit => isFirstHalf unit || isSecondHalf unit) &&
    !startsPair digits

/-- Whether a document holds an escape of half a pair by itself. The next escape may be known to be the
second one of a pair. -/
def spellsHalf (second : Bool) : List Char → Bool
  | '\\' :: 'u' :: rest =>
    if second then spellsHalf false rest else isHalf rest || spellsHalf (startsPair rest) rest
  | '\\' :: _ :: rest => spellsHalf second rest
  | _ :: rest => spellsHalf second rest
  | [] => false

/-- What an escape spells whose digits start a text, and whether a second escape belongs to it: a
character by its code unit, a character by a pair of them, or half a pair, which is replaced. -/
inductive Spells (digits : List Char) : Char → Bool → Prop
  | unit {c : Char} (whole : isHalf digits = false) (code : codeUnit? (digits.take 4) = some c.toNat) :
      Spells digits c false
  | pair {c : Char} {high low : Nat} (pair : startsPair digits = true)
      (first : codeUnit? (digits.take 4) = some high)
      (second : escapedUnit? (digits.drop 4) = some low)
      (code : c.toNat = 0x10000 + (high - 0xD800) * 0x400 + (low - 0xDC00)) : Spells digits c true
  | half (half : isHalf digits = true) : Spells digits '\ufffd' false

theorem readCodeUnit_ok {digits : List Char} {unit : Nat} (h : readCodeUnit digits = .ok unit) :
    codeUnit? (digits.take 4) = some unit := by
  unfold readCodeUnit at h
  split at h
  · split at h
    · cases h
    · rename_i hUnit _
      obtain rfl := Except.ok.inj h
      exact hUnit
  · cases h

theorem hexValue?_lt {c : Char} {n : Nat} (h : hexValue? c = some n) : n < 16 := by
  have hChars (lower upper : Char) (hc : lower ≤ c ∧ c ≤ upper) :
      lower.toNat ≤ c.toNat ∧ c.toNat ≤ upper.toNat := hc
  unfold hexValue? at h
  split at h
  · have hDigit := hChars '0' '9' ‹_›
    obtain rfl := Option.some.inj h
    simp only [Char.reduceToNat] at hDigit ⊢
    omega
  split at h
  · have hLetter := hChars 'a' 'f' ‹_›
    obtain rfl := Option.some.inj h
    simp only [Char.reduceToNat] at hLetter ⊢
    omega
  split at h
  · have hLetter := hChars 'A' 'F' ‹_›
    obtain rfl := Option.some.inj h
    simp only [Char.reduceToNat] at hLetter ⊢
    omega
  · cases h

theorem codeUnit?_lt {digits : List Char} {unit : Nat} (h : codeUnit? digits = some unit) :
    unit < 0x10000 := by
  unfold codeUnit? at h
  split at h
  · simp only [Option.bind_eq_bind, Option.bind_eq_some_iff] at h
    obtain ⟨a, ha, b, hb, c, hc, d, hd, hUnit⟩ := h
    have := hexValue?_lt ha
    have := hexValue?_lt hb
    have := hexValue?_lt hc
    have := hexValue?_lt hd
    obtain rfl := Option.some.inj hUnit
    omega
  · cases h

theorem toNat_ofNat {n : Nat} (h : n < 0xD800 ∨ 0xE000 ≤ n ∧ n < 0x110000) :
    (Char.ofNat n).toNat = n := by
  have hValid : n.isValidChar := by
    unfold Nat.isValidChar
    omega
  rw [Char.ofNat, dif_pos hValid]
  exact UInt32.toNat_ofNatLT

/-- The second half of a pair is an escape of its own. -/
theorem readLowSurrogate_ok {rest : List Char} {low : Option Nat}
    (h : readLowSurrogate rest = .ok low) : low = (escapedUnit? rest).filter isSecondHalf := by
  unfold readLowSurrogate at h
  split at h
  · rw [escapedUnit?]
    split at h
    · rw [if_pos ‹_›]
      exact (Except.ok.inj h).symm
    · obtain ⟨unit, hUnit, h⟩ := bind_eq_ok.mp h
      rw [if_neg ‹_›, readCodeUnit_ok hUnit, ← Except.ok.inj h]
      simp [Option.filter, isSecondHalf]
  · rename_i hNoEscape
    rw [escapedUnit?.eq_2 rest hNoEscape]
    exact (Except.ok.inj h).symm

/-- **An escape is read as the character that it spells**, and half a pair as the replacement
character. -/
theorem readCodeEscape_spells {digits : List Char} {c : Char} {pair : Bool}
    (h : readCodeEscape digits = .ok (c, pair)) : Spells digits c pair := by
  obtain ⟨unit, hUnit, h⟩ := bind_eq_ok.mp h
  have hUnit := readCodeUnit_ok hUnit
  have hBound := codeUnit?_lt hUnit
  split at h
  · rename_i hFirst
    have hHigh : isFirstHalf unit = true := decide_eq_true hFirst
    obtain ⟨low, hLow, h⟩ := bind_eq_ok.mp h
    have hLow := readLowSurrogate_ok hLow
    cases low with
    | some low =>
      obtain ⟨hSecond, hHalf⟩ := Option.filter_eq_some_iff.mp hLow.symm
      have hRange : 0xDC00 ≤ low ∧ low < 0xE000 := of_decide_eq_true hHalf
      obtain ⟨rfl, rfl⟩ := Prod.mk.inj (Except.ok.inj h)
      refine .pair ?_ hUnit hSecond (toNat_ofNat (by omega))
      rw [startsPair, hUnit, hSecond]
      simp [hHigh, hHalf]
    | none =>
      obtain ⟨rfl, rfl⟩ := Prod.mk.inj (Except.ok.inj h)
      refine .half ?_
      have hAlone : (escapedUnit? (digits.drop 4)).any isSecondHalf = false :=
        (Option.any_eq_false _ _).mpr fun unit hUnit =>
          eq_false_of_ne_true (Option.filter_eq_none_iff.mp hLow.symm unit hUnit)
      rw [isHalf, startsPair, hUnit, hAlone]
      simp [hHigh]
  · rename_i hFirst
    have hHigh : isFirstHalf unit = false := decide_eq_false hFirst
    have hAlone : startsPair digits = false := by
      rw [startsPair, hUnit]
      simp [hHigh]
    obtain ⟨hChar, rfl⟩ := Prod.mk.inj (Except.ok.inj h)
    split at hChar
    · rename_i hSecond
      have hLow : isSecondHalf unit = true := decide_eq_true hSecond
      obtain rfl := hChar
      refine .half ?_
      rw [isHalf, hAlone, hUnit]
      simp [hLow]
    · rename_i hSecond
      have hLow : isSecondHalf unit = false := decide_eq_false hSecond
      obtain rfl := hChar
      refine .unit ?_ ?_
      · rw [isHalf, hUnit]
        simp [hHigh, hLow]
      · rw [hUnit, toNat_ofNat (by omega)]

/-- An emoji is spelled by a pair. Its first half alone is no character. -/
example : spellsHalf false "\"\\ud83d\\ude00\"".toList = false ∧
    spellsHalf false "\"\\ud83d!\"".toList = true := by
  decide

end Json

end Reckoner
