import Mathlib.Tactic.NormNum
import Reckoner.Number.Numeral
import Reckoner.Proofs.Number.Rounding
import Reckoner.Proofs.Outcome
import Reckoner.Proofs.Text
import Reckoner.Render.Fault

/-!
# Numerals that are written and read

The text of a number is a numeral, and it is read back as that numeral wherever no digit, point or
letter of an exponent follows. So a number is written and read without loss when it is an integer
that is not too long, or when it has a decimal expansion that is short and does not reach below the
least exponent.

## Results

* `Numeral.read_complete` — a numeral is read back from its text.
* `Decimal.numeral_value` — the numeral of a decimal has its value.
* `IsWritable.writes`     — a number that is written without loss is read back.
-/

namespace Reckoner

open Unicode (isDecimalDigit digitValue)

-- ---------------------------------------------------------------------------
-- Digits
-- ---------------------------------------------------------------------------

theorem digitValue?_of_isDigit {c : Char} (h : c.isDigit = true) :
    Unicode.digitValue? c = some (c.toNat - '0'.toNat) := by
  have hRange : '0'.toNat ≤ c.toNat ∧ c.toNat ≤ '9'.toNat := by
    simpa [Char.isDigit, UInt32.le_iff_toNat_le] using h
  unfold Unicode.digitValue? Unicode.decimalZeros
  rw [List.find?_cons_of_pos]
  · rfl
  · have hLow : 48 ≤ c.toNat := hRange.1
    have hHigh : c.toNat ≤ 57 := hRange.2
    simp only [Bool.and_eq_true, decide_eq_true_eq]
    omega

theorem isDecimalDigit_of_isDigit {c : Char} (h : c.isDigit = true) : isDecimalDigit c = true := by
  unfold isDecimalDigit
  rw [digitValue?_of_isDigit h]
  rfl

theorem digitValue_of_isDigit {c : Char} (h : c.isDigit = true) :
    digitValue c = c.toNat - '0'.toNat := by
  unfold digitValue
  rw [digitValue?_of_isDigit h]
  rfl

/-- Some of the digits `0` to `9`. -/
def AreDigits (ds : List Char) : Prop :=
  ∀ c ∈ ds, c.isDigit = true

theorem areDigits_toDigits (n : Nat) : AreDigits (Nat.toDigits 10 n) :=
  fun _ hc => Nat.isDigit_of_mem_toDigits (by decide) (by decide) hc

theorem areDigits_zeros (k : Nat) : AreDigits (List.replicate k '0') := by
  intro c hc
  rw [List.eq_of_mem_replicate hc]
  rfl

theorem digitsValue_foldl (ds : List Char) (k : Nat) :
    ds.foldl (fun n d => 10 * n + digitValue d) k = k * tenTo ds.length + digitsValue ds := by
  induction ds generalizing k with
  | nil => exact (Nat.mul_one k).symm
  | cons d ds ih =>
    unfold digitsValue
    have hStep : tenTo (ds.length + 1) = 10 * tenTo ds.length := Nat.pow_succ'
    rw [List.foldl_cons, List.foldl_cons, ih, ih, List.length_cons, hStep]
    ring

theorem digitsValue_append (ds es : List Char) :
    digitsValue (ds ++ es) = digitsValue ds * tenTo es.length + digitsValue es := by
  rw [digitsValue, List.foldl_append, digitsValue_foldl]
  rfl

theorem digitsValue_zeros (k : Nat) : digitsValue (List.replicate k '0') = 0 := by
  induction k with
  | zero => rfl
  | succ k ih => exact ih

/-- The digits of a number write that number. -/
theorem digitsValue_toDigits (n : Nat) : digitsValue (Nat.toDigits 10 n) = n := by
  have hSame : digitsValue (Nat.toDigits 10 n) = Nat.ofDigitChars 10 (Nat.toDigits 10 n) 0 := by
    rw [Nat.ofDigitChars_eq_foldl]
    unfold digitsValue
    refine List.foldl_ext _ _ _ fun k c hc => ?_
    rw [digitValue_of_isDigit (Nat.isDigit_of_mem_toDigits (by decide) (by decide) hc)]
  rw [hSame, Nat.ofDigitChars_ten_toDigits]

theorem length_toDigits_le {n k : Nat} (hk : 0 < k) (h : n < tenTo k) :
    (Nat.toDigits 10 n).length ≤ k :=
  (Nat.length_toDigits_le_iff (by decide) hk).mpr h

-- ---------------------------------------------------------------------------
-- Reading numerals
-- ---------------------------------------------------------------------------

/-- No numeral goes on with these characters. -/
def EndsNumeral (rest : List Char) : Prop :=
  ∀ c ∈ rest.head?, isDecimalDigit c = false ∧ c ≠ '.' ∧ c ≠ 'e' ∧ c ≠ 'E'

theorem endsNumeral_nil : EndsNumeral [] := by
  simp [EndsNumeral]

namespace Lexer

/-- Some decimal digits of any script. -/
def AreDecimal (ds : List Char) : Prop :=
  ds ≠ [] ∧ ∀ c ∈ ds, isDecimalDigit c = true

/-- A numeral: digits, then possibly a point and digits, then possibly the letter of an exponent, a sign
or none, and digits. -/
structure IsNumeral (n : Numeral) : Prop where
  whole : AreDecimal n.whole
  fraction : ∀ ds ∈ n.fraction, AreDecimal ds
  exponent : ∀ e ∈ n.exponent, (e.mark = 'e' ∨ e.mark = 'E') ∧
    (∀ sign ∈ e.sign, sign = '+' ∨ sign = '-') ∧ AreDecimal e.digits

end Lexer

namespace Numeral

open Lexer (AreDecimal IsNumeral)

/-- The numerals that are written: digits, a point only before more digits, and an exponent with a
sign. -/
structure Regular (n : Numeral) : Prop where
  nonempty : n.whole ≠ []
  whole : AreDigits n.whole
  fraction : ∀ ds ∈ n.fraction, ds ≠ [] ∧ AreDigits ds
  exponent : ∀ e ∈ n.exponent, e.mark = 'E' ∧ (e.sign = some '+' ∨ e.sign = some '-') ∧
    e.digits ≠ [] ∧ AreDigits e.digits

/-- A sign is told from the digit behind it. -/
theorem splitSign_text {sign : Option Char} (hSign : ∀ c ∈ sign, c = '+' ∨ c = '-') {d : Char}
    (hd : isDecimalDigit d = true) (rest : List Char) :
    splitSign (sign.toList ++ d :: rest) = (sign, d :: rest) := by
  cases sign with
  | none =>
    unfold splitSign
    split
    · rename_i hPlus
      obtain rfl : d = '+' := (List.cons.inj hPlus).1
      cases hd
    · rename_i hMinus
      obtain rfl : d = '-' := (List.cons.inj hMinus).1
      cases hd
    · rfl
  | some c => rcases hSign c rfl with rfl | rfl <;> rfl

theorem readExponent_text {e : Exponent} {rest : List Char} (hMark : e.mark = 'e' ∨ e.mark = 'E')
    (hSign : ∀ sign ∈ e.sign, sign = '+' ∨ sign = '-') (hDigits : AreDecimal e.digits)
    (hRest : ∀ c ∈ rest.head?, isDecimalDigit c = false) :
    readExponent (e.text ++ rest) = some (e, rest) := by
  obtain ⟨mark, sign, digits⟩ := e
  obtain ⟨hSome, hDigits⟩ := hDigits
  obtain ⟨hTake, hDrop⟩ := takeWhile_run hDigits hRest
  obtain ⟨d, ds, rfl⟩ := List.exists_cons_of_ne_nil hSome
  have hd : isDecimalDigit d = true := hDigits d List.mem_cons_self
  have hHead : (d :: ds ++ rest).head?.any isDecimalDigit = true := hd
  show readExponent (mark :: (sign.toList ++ (d :: ds)) ++ rest) = _
  rw [List.cons_append, List.append_assoc, readExponent, List.cons_append, splitSign_text hSign hd]
  dsimp only
  rw [← List.cons_append, if_pos ⟨hMark, hHead⟩, hTake, hDrop]

theorem readFraction_text {ds rest : List Char} (hDigits : AreDecimal ds)
    (hRest : ∀ c ∈ rest.head?, isDecimalDigit c = false) :
    readFraction ('.' :: ds ++ rest) = some (ds, rest) := by
  obtain ⟨hSome, hDigits⟩ := hDigits
  obtain ⟨hTake, hDrop⟩ := takeWhile_run hDigits hRest
  obtain ⟨d, ds, rfl⟩ := List.exists_cons_of_ne_nil hSome
  have hd : isDecimalDigit d = true := hDigits d List.mem_cons_self
  rw [List.cons_append] at hTake hDrop
  simp only [List.cons_append, readFraction, hd, if_true]
  rw [hTake, hDrop]

theorem readFraction_none {rest : List Char} (h : ∀ c ∈ rest.head?, c ≠ '.') :
    readFraction rest = none := by
  unfold readFraction
  split
  · exact absurd rfl (h _ rfl)
  · rfl

theorem readExponent_none {rest : List Char} (h : ∀ c ∈ rest.head?, c ≠ 'e' ∧ c ≠ 'E') :
    readExponent rest = none := by
  cases rest with
  | nil => rfl
  | cons c rest =>
    have hc := h c rfl
    simp [readExponent, hc.1, hc.2]

/-- A numeral does not go on with these characters: not with a digit, and where it has no exponent,
neither with a point and a digit nor with an exponent. -/
structure Complete (n : Numeral) (rest : List Char) : Prop where
  digit : ∀ c ∈ rest.head?, isDecimalDigit c = false
  fraction : n.exponent = none → readFraction rest = none
  exponent : n.exponent = none → readExponent rest = none

/-- **A numeral is read back from its text** wherever it does not go on. -/
theorem read_complete {n : Numeral} {rest : List Char} (hn : IsNumeral n) (h : n.Complete rest) :
    read (n.text ++ rest) = .ok (n, rest) := by
  obtain ⟨whole, fraction, exponent⟩ := n
  obtain ⟨hWhole, hFraction, hExponent⟩ := hn
  obtain ⟨hDigit, hNoFraction, hNoExponent⟩ := h
  dsimp only at hWhole hFraction hExponent hNoFraction hNoExponent
  -- what follows the fraction
  generalize hTail : exponent.elim [] Exponent.text ++ rest = tail
  have hTailHead : ∀ c ∈ tail.head?, isDecimalDigit c = false := by
    rw [← hTail]
    cases exponent with
    | none => exact hDigit
    | some e =>
      intro c hc
      obtain rfl : e.mark = c := Option.some.inj hc
      rcases (hExponent e rfl).1 with hMark | hMark <;> rw [hMark] <;> rfl
  have hClose : readExponent tail = exponent.map fun e => (e, rest) := by
    rw [← hTail]
    cases exponent with
    | none => exact hNoExponent rfl
    | some e =>
      obtain ⟨hMark, hSign, hDigits⟩ := hExponent e rfl
      exact readExponent_text hMark hSign hDigits hDigit
  have hNoMore : readFraction tail = none := by
    rw [← hTail]
    cases exponent with
    | none => exact hNoFraction rfl
    | some e =>
      refine readFraction_none fun c hc => ?_
      obtain rfl : e.mark = c := Option.some.inj hc
      rcases (hExponent e rfl).1 with hMark | hMark <;> rw [hMark] <;> decide
  unfold Numeral.text
  rw [List.append_assoc, hTail, List.append_assoc]
  cases fraction with
  | none =>
    obtain ⟨hTake, hDrop⟩ := takeWhile_run hWhole.2 hTailHead
    unfold read
    simp only [Option.elim_none, List.nil_append, hTake, hDrop, hNoMore, hClose]
    cases exponent with
    | none =>
      rw [← hTail]
      rfl
    | some e => rfl
  | some ds =>
    have hPoint : ∀ c ∈ ('.' :: ds ++ tail).head?, isDecimalDigit c = false := by
      intro c hc
      obtain rfl : '.' = c := Option.some.inj hc
      rfl
    obtain ⟨hTake, hDrop⟩ := takeWhile_run hWhole.2 hPoint
    have hRead := readFraction_text (hFraction ds rfl) hTailHead
    unfold read
    simp only [Option.elim_some, hTake, hDrop, hRead, hNoMore, hClose]
    cases exponent with
    | none =>
      rw [← hTail]
      rfl
    | some e => rfl

/-- A regular numeral is read back from its text. -/
theorem read_text {n : Numeral} {rest : List Char} (h : n.Regular) (hRest : EndsNumeral rest) :
    read (n.text ++ rest) = .ok (n, rest) := by
  have hDigits : ∀ {ds}, AreDigits ds → ∀ c ∈ ds, isDecimalDigit c = true :=
    fun hDs c hc => isDecimalDigit_of_isDigit (hDs c hc)
  refine read_complete ⟨⟨h.nonempty, hDigits h.whole⟩, fun ds hDs => ?_, fun e he => ?_⟩ ⟨?_, ?_, ?_⟩
  · exact ⟨(h.fraction ds hDs).1, hDigits (h.fraction ds hDs).2⟩
  · obtain ⟨hMark, hSign, hSome, hDs⟩ := h.exponent e he
    refine ⟨Or.inr hMark, fun sign hMem => ?_, hSome, hDigits hDs⟩
    rw [Option.mem_def.mp hMem] at hSign
    exact hSign.imp Option.some.inj Option.some.inj
  · exact fun c hc => (hRest c hc).1
  · exact fun _ => readFraction_none fun c hc => (hRest c hc).2.1
  · exact fun _ => readExponent_none fun c hc => (hRest c hc).2.2

/-- The exponent that a numeral names. -/
def power (n : Numeral) : Int :=
  match n.exponent with
  | some e => if e.sign = some '-' then -(digitsValue e.digits : Int) else digitsValue e.digits
  | none => 0

/-- No part of a numeral is too long to be read. -/
structure Short (n : Numeral) : Prop where
  whole : n.whole.length ≤ maxDigits
  fraction : (n.fraction.getD []).length ≤ maxDigits
  exponent : ∀ e ∈ n.exponent, e.digits.length ≤ maxDigits

theorem readDigits_of_le {ds : List Char} (h : ds.length ≤ maxDigits) :
    readDigits ds = .ok (digitsValue ds) := by
  unfold readDigits
  rw [if_neg (by omega)]

theorem value_of_short {n : Numeral} (h : n.Short) :
    n.value = .ok (scaled (digitsValue (n.whole ++ n.fraction.getD []))
      (n.power - (n.fraction.getD []).length)) := by
  obtain ⟨whole, fraction, exponent⟩ := n
  obtain ⟨hWhole, hFraction, hExponent⟩ := h
  dsimp only at hWhole hFraction hExponent
  have hPower : exponent.elim (.ok 0) Exponent.value =
      .ok (power ⟨whole, fraction, exponent⟩) := by
    cases exponent with
    | none => rfl
    | some e =>
      show Exponent.value e = _
      unfold Exponent.value
      rw [readDigits_of_le (hExponent e rfl)]
      rfl
  unfold value
  dsimp only
  rw [readDigits_of_le hWhole, readDigits_of_le hFraction, hPower, digitsValue_append]
  rfl

/-- The value of a numeral in the field of fractions. -/
theorem scaled_eq (digits : Nat) (e : Int) : scaled digits e = digits * (10 : ℚ) ^ e := by
  unfold scaled
  rw [Rat.mkRat_eq_div, ten_zpow]
  push_cast
  ring

/-- Digits alone write their value. -/
theorem value_digits {ds : List Char} (hShort : ds.length ≤ maxDigits) :
    (⟨ds, none, none⟩ : Numeral).value = .ok (digitsValue ds) := by
  have hNumeral : Short ⟨ds, none, none⟩ := ⟨hShort, Nat.zero_le _, by simp⟩
  rw [value_of_short hNumeral, scaled_eq]
  show Except.ok ((digitsValue (ds ++ []) : ℚ) * (10 : ℚ) ^ ((0 : Int) - 0)) = _
  rw [List.append_nil, sub_zero, zpow_zero, mul_one]

theorem regular_digits {ds : List Char} (hSome : ds ≠ []) (hDigits : AreDigits ds) :
    Regular ⟨ds, none, none⟩ :=
  ⟨hSome, hDigits, by simp, by simp⟩

/-- What is too long is not read. -/
theorem length_of_readDigits {ds : List Char} {k : Nat} (h : readDigits ds = .ok k) :
    ds.length ≤ maxDigits := by
  unfold readDigits at h
  split at h
  · cases h
  · omega

theorem short_of_value {n : Numeral} {q : ℚ} (h : n.value = .ok q) : n.Short := by
  unfold value at h
  obtain ⟨whole, hWhole, h⟩ := bind_eq_ok.mp h
  obtain ⟨fraction, hFraction, h⟩ := bind_eq_ok.mp h
  obtain ⟨exponent, hExponent, -⟩ := bind_eq_ok.mp h
  refine ⟨length_of_readDigits hWhole, length_of_readDigits hFraction, fun e he => ?_⟩
  rw [Option.mem_def.mp he] at hExponent
  obtain ⟨k, hDigits, -⟩ := bind_eq_ok.mp hExponent
  exact length_of_readDigits hDigits

/-- **The value of a numeral** is what its digits write, moved by its exponent and its point. -/
theorem value_eq {n : Numeral} {q : ℚ} (h : n.value = .ok q) :
    q = digitsValue (n.whole ++ n.fraction.getD []) *
      (10 : ℚ) ^ (n.power - (n.fraction.getD []).length) := by
  rw [value_of_short (short_of_value h)] at h
  rw [← Except.ok.inj h, scaled_eq]

/-- A numeral has no sign. -/
theorem value_nonneg {n : Numeral} {q : ℚ} (h : n.value = .ok q) : 0 ≤ q := by
  unfold value at h
  obtain ⟨whole, -, h⟩ := bind_eq_ok.mp h
  obtain ⟨fraction, -, h⟩ := bind_eq_ok.mp h
  obtain ⟨e, -, h⟩ := bind_eq_ok.mp h
  obtain rfl := Except.ok.inj h
  rw [scaled_eq]
  positivity

end Numeral

-- ---------------------------------------------------------------------------
-- The numerals of decimals
-- ---------------------------------------------------------------------------

namespace Decimal

/-- The numeral of a decimal that is not negative. -/
def numeral (d : Decimal) : Numeral :=
  let digits := Nat.toDigits 10 d.digits
  let position : Int := d.exponent + digits.length
  if d.exponent ≤ 0 ∧ -6 < position then
    if d.exponent = 0 then ⟨digits, none, none⟩
    else if position ≤ 0 then
      ⟨['0'], some (List.replicate (-position).toNat '0' ++ digits), none⟩
    else ⟨digits.take position.toNat, some (digits.drop position.toNat), none⟩
  else
    let tail := digits.drop 1
    ⟨digits.take 1, if tail.isEmpty then none else some tail,
      some ⟨'E', some (if position - 1 < 0 then '-' else '+'),
        Nat.toDigits 10 (position - 1).natAbs⟩⟩

theorem toList_toString (n : Nat) : (toString n).toList = Nat.toDigits 10 n := by
  rw [Nat.toString_eq_ofList_toDigits, String.toList_ofList]

theorem exponentText_eq (e : Int) : (exponentText e).toList =
    Exponent.text ⟨'E', some (if e < 0 then '-' else '+'), Nat.toDigits 10 e.natAbs⟩ := by
  unfold exponentText Exponent.text
  rw [String.toList_append, toList_toString]
  split <;> rfl

theorem text_eq {d : Decimal} (h : d.negative = false) : d.text.toList = d.numeral.text := by
  unfold text numeral Numeral.text
  rw [h, toList_toString]
  dsimp only
  rw [if_neg (by simp)]
  generalize Nat.toDigits 10 d.digits = digits
  split
  · split
    · simp
    · split
      · simp [zeros]
      · simp
  · rw [String.toList_append, String.toList_append, exponentText_eq, String.toList_ofList]
    dsimp only
    split
    · simp
    · simp

/-- The ways in which the numeral of a decimal is laid out, given the digits and the exponent: an
integer, digits behind zeros, digits on both sides of the point, and scientific notation. -/
inductive Layout (digits : List Char) : Int → Numeral → Prop where
  | integer : Layout digits 0 ⟨digits, none, none⟩
  | behindZeros {zeros : Nat} (hFew : zeros < 6) :
      Layout digits (-((zeros + digits.length : Nat) : Int))
        ⟨['0'], some (List.replicate zeros '0' ++ digits), none⟩
  | aroundPoint {left right : List Char} (hDigits : digits = left ++ right) (hLeft : left ≠ [])
      (hRight : right ≠ []) : Layout digits (-(right.length : Int)) ⟨left, some right, none⟩
  | scientific {c : Char} {tail : List Char} {fraction : Option (List Char)} (position : Int)
      (hDigits : digits = c :: tail) (hTail : fraction.getD [] = tail) (hSome : fraction ≠ some []) :
      Layout digits (position - tail.length) ⟨[c], fraction,
        some ⟨'E', some (if position < 0 then '-' else '+'), Nat.toDigits 10 position.natAbs⟩⟩

theorem numeral_layout (d : Decimal) :
    Layout (Nat.toDigits 10 d.digits) d.exponent d.numeral := by
  have hSome := List.length_pos_iff.mpr (Nat.toDigits_ne_nil : Nat.toDigits 10 d.digits ≠ [])
  unfold numeral
  dsimp only
  generalize Nat.toDigits 10 d.digits = digits at hSome
  split
  · split
    · rename_i hZero
      rw [hZero]
      exact .integer
    · split
      · rename_i hPositional hZero hPosition
        generalize hZeros : (-(d.exponent + (digits.length : Int))).toNat = zeros
        have hExponent : -((zeros + digits.length : Nat) : Int) = d.exponent := by omega
        rw [← hExponent]
        exact .behindZeros (by omega)
      · rename_i hPositional hZero hPosition
        generalize hWhole : (d.exponent + (digits.length : Int)).toNat = whole
        have hExponent : -((digits.drop whole).length : Int) = d.exponent := by
          rw [List.length_drop]
          omega
        rw [← hExponent]
        refine .aroundPoint (List.take_append_drop whole digits).symm ?_ ?_
        · rw [← List.length_pos_iff, List.length_take]
          omega
        · rw [← List.length_pos_iff, List.length_drop]
          omega
  · obtain ⟨c, tail, rfl⟩ := List.exists_cons_of_ne_nil (List.length_pos_iff.mp hSome)
    generalize hPosition : d.exponent + ((c :: tail).length : Int) - 1 = position
    have hExponent : position - (tail.length : Int) = d.exponent := by
      rw [List.length_cons] at hPosition
      omega
    rw [← hExponent]
    refine .scientific position rfl ?_ ?_
    · cases tail <;> rfl
    · cases tail <;> simp

theorem power_scientific (whole : List Char) (fraction : Option (List Char)) (position : Int) :
    Numeral.power ⟨whole, fraction, some ⟨'E', some (if position < 0 then '-' else '+'),
      Nat.toDigits 10 position.natAbs⟩⟩ = position := by
  unfold Numeral.power
  dsimp only
  rw [digitsValue_toDigits]
  split
  · rw [if_pos rfl]
    omega
  · rw [if_neg (by decide)]
    omega

/-- The parts of the numeral, put together again: its digits and its exponent. -/
theorem numeral_parts (d : Decimal) :
    digitsValue (d.numeral.whole ++ d.numeral.fraction.getD []) = d.digits ∧
      d.numeral.power - (d.numeral.fraction.getD []).length = d.exponent := by
  have hLayout := d.numeral_layout
  have hValue := digitsValue_toDigits d.digits
  generalize Nat.toDigits 10 d.digits = digits at hLayout hValue
  generalize d.numeral = n, d.exponent = e at hLayout ⊢
  cases hLayout with
  | integer =>
    refine ⟨?_, rfl⟩
    rw [← hValue]
    exact congrArg digitsValue (List.append_nil digits)
  | @behindZeros zeros hFew =>
    refine ⟨?_, ?_⟩
    · show digitsValue (List.replicate (zeros + 1) '0' ++ digits) = d.digits
      rw [digitsValue_append, digitsValue_zeros, hValue]
      omega
    · show (0 : Int) - (List.replicate zeros '0' ++ digits).length = _
      rw [List.length_append, List.length_replicate]
      omega
  | @aroundPoint left right hDigits hLeft hRight =>
    refine ⟨?_, ?_⟩
    · rw [← hValue, hDigits]
      rfl
    · show (0 : Int) - right.length = _
      omega
  | @scientific c tail fraction position hDigits hTail hSome =>
    dsimp only
    rw [hTail, power_scientific, ← hValue, hDigits]
    exact ⟨rfl, rfl⟩

theorem numeral_regular (d : Decimal) : d.numeral.Regular := by
  have hLayout := d.numeral_layout
  have hDigits := areDigits_toDigits d.digits
  have hNonempty : Nat.toDigits 10 d.digits ≠ [] := Nat.toDigits_ne_nil
  generalize Nat.toDigits 10 d.digits = digits at hLayout hDigits hNonempty
  generalize d.numeral = n, d.exponent = e at hLayout ⊢
  cases hLayout with
  | integer => exact ⟨hNonempty, hDigits, by simp, by simp⟩
  | @behindZeros zeros hFew =>
    refine ⟨by simp, areDigits_zeros 1, fun ds hds => ?_, by simp⟩
    obtain rfl := Option.some.inj hds
    refine ⟨by simp [hNonempty], fun c hc => ?_⟩
    rcases List.mem_append.mp hc with hc | hc
    · exact areDigits_zeros _ c hc
    · exact hDigits c hc
  | @aroundPoint left right hSplit hLeft hRight =>
    rw [hSplit] at hDigits
    refine ⟨hLeft, fun c hc => hDigits c (List.mem_append_left _ hc), fun ds hds => ?_, by simp⟩
    obtain rfl := Option.some.inj hds
    exact ⟨hRight, fun c hc => hDigits c (List.mem_append_right _ hc)⟩
  | @scientific c tail fraction position hSplit hTail hSome =>
    rw [hSplit] at hDigits
    refine ⟨by simp, fun d hd => hDigits d ?_, fun ds hds => ?_, fun e he => ?_⟩
    · rw [List.mem_singleton.mp hd]
      exact List.mem_cons_self
    · obtain rfl : fraction = some ds := hds
      obtain rfl : ds = tail := hTail
      exact ⟨fun hNone => hSome (congrArg some hNone), fun d hd => hDigits d (List.mem_cons_of_mem _ hd)⟩
    · obtain rfl := Option.some.inj he
      refine ⟨rfl, ?_, Nat.toDigits_ne_nil, areDigits_toDigits _⟩
      dsimp only
      split
      · exact Or.inr rfl
      · exact Or.inl rfl

/-- The numeral of a short decimal is short, if its exponent is. -/
theorem numeral_short {d : Decimal} (hDigits : d.digits < tenTo precision)
    (hExponent : d.exponent.natAbs < tenTo 7) : d.numeral.Short := by
  have hLayout := d.numeral_layout
  have hLength := length_toDigits_le (by decide) hDigits
  have hBound : precision + 6 ≤ maxDigits := by decide
  generalize Nat.toDigits 10 d.digits = digits at hLayout hLength
  generalize d.numeral = n, d.exponent = e at hLayout hExponent ⊢
  cases hLayout with
  | integer => exact ⟨by dsimp only; omega, Nat.zero_le _, by simp⟩
  | @behindZeros zeros hFew =>
    refine ⟨by show 1 ≤ maxDigits; decide, ?_, by simp⟩
    show (List.replicate zeros '0' ++ digits).length ≤ maxDigits
    rw [List.length_append, List.length_replicate]
    omega
  | @aroundPoint left right hSplit hLeft hRight =>
    rw [hSplit, List.length_append] at hLength
    refine ⟨?_, ?_, by simp⟩
    · show left.length ≤ maxDigits
      omega
    · show right.length ≤ maxDigits
      omega
  | @scientific c tail fraction position hSplit hTail hSome =>
    rw [hSplit, List.length_cons] at hLength
    refine ⟨by show 1 ≤ maxDigits; decide, ?_, fun e he => ?_⟩
    · show (fraction.getD []).length ≤ maxDigits
      rw [hTail]
      omega
    · obtain rfl := Option.some.inj he
      have hSmall : position.natAbs < tenTo 8 := by
        have hExponent : (position - (tail.length : Int)).natAbs < 10000000 := hExponent
        show _ < 100000000
        have hPrecision : precision = 64 := rfl
        omega
      exact (length_toDigits_le (by decide) hSmall).trans (by decide)

/-- **The numeral of a decimal has its value**, if it is short and neither too large nor too small
for its exponent to be read. -/
theorem numeral_value {d : Decimal} (hDigits : d.digits < tenTo precision)
    (hExponent : d.exponent.natAbs < tenTo 7) : d.numeral.value = .ok d.magnitude := by
  obtain ⟨hValue, hPower⟩ := d.numeral_parts
  rw [Numeral.value_of_short (numeral_short hDigits hExponent), hValue, hPower, Numeral.scaled_eq]
  rfl

end Decimal

-- ---------------------------------------------------------------------------
-- Numbers
-- ---------------------------------------------------------------------------

/-- An integer that is not too long is written in full. -/
theorem writeInt_ok {n : Int} (h : tooManyDigits n = false) : writeInt n = .ok (toString n) := by
  rw [writeInt, h]
  rfl

/-- The numbers that are written without loss: integers of at most 4300 digits, and numbers with a
decimal expansion of at most 64 significant digits that ends at most 1000062 places behind the
point. -/
def IsWritable (q : ℚ) : Prop :=
  q.den = 1 ∧ tooManyDigits q.num = false ∨
    ∃ digits places : Nat, digits < 10 ^ Decimal.precision ∧
      (places : Int) ≤ -Decimal.leastExponent ∧ q = digits / 10 ^ places

/-- A numeral that is read back from the text of a number. -/
structure Numeral.Writes (n : Numeral) (q : ℚ) : Prop where
  regular : n.Regular
  value : n.value = .ok q
  text : ∃ s, Render.formatNumber (.fraction q) = .ok s ∧ s.toList = n.text

theorem writes_integer {q : ℚ} (hq : 0 ≤ q) (hDen : q.den = 1)
    (hShort : tooManyDigits q.num = false) : ∃ n : Numeral, n.Writes q := by
  obtain ⟨k, hk⟩ := Int.eq_ofNat_of_zero_le (Rat.num_nonneg.mpr hq)
  have hBound : k < tenTo maxDigits := by
    unfold tooManyDigits at hShort
    rw [hk] at hShort
    simpa using hShort
  refine ⟨⟨Nat.toDigits 10 k, none, none⟩,
    Numeral.regular_digits Nat.toDigits_ne_nil (areDigits_toDigits k), ?_, ?_⟩
  · rw [Numeral.value_digits (length_toDigits_le (by decide) hBound), digitsValue_toDigits]
    refine congrArg Except.ok ?_
    have hNum : (q.num : ℚ) = q := Rat.den_eq_one_iff q |>.mp hDen
    rw [← hNum, hk]
    rfl
  · refine ⟨toString q.num, ?_, ?_⟩
    · show (if q.den = 1 then writeInt q.num else _) = _
      unfold writeInt
      rw [if_pos hDen, hShort]
      rfl
    · rw [hk]
      show (toString k).toList = _
      rw [Decimal.toList_toString]
      simp [Numeral.text]

theorem writes_decimal {q : ℚ} (hq : 0 ≤ q) (hDen : q.den ≠ 1) {digits places : Nat}
    (hDigits : digits < 10 ^ Decimal.precision) (hPlaces : (places : Int) ≤ -Decimal.leastExponent)
    (hValue : q = digits / 10 ^ places) : ∃ n : Numeral, n.Writes q := by
  have hPositive : 0 < q := by
    refine lt_of_le_of_ne hq ?_
    rintro rfl
    exact hDen rfl
  obtain ⟨k, hPos, hSplit, hQuotient⟩ := Decimal.ofRat_eq_quotient hPositive
  obtain ⟨hMagnitude, hSign, hFew, hLow⟩ :=
    Decimal.quotient_exact hPos q.den_pos (hSplit.trans hValue) hDigits hPlaces
  rw [← hQuotient] at hMagnitude hSign hFew hLow
  rw [hSplit] at hMagnitude
  have hHigh : (Decimal.ofRat q).exponent ≤ 0 := by
    -- a positive exponent would make an integer
    by_contra hPositive
    obtain ⟨j, hj⟩ := Int.eq_ofNat_of_zero_le (by omega : 0 ≤ (Decimal.ofRat q).exponent)
    refine hDen ?_
    rw [← hMagnitude]
    unfold Decimal.magnitude
    rw [hj]
    show (((Decimal.ofRat q).digits : ℚ) * (10 : ℚ) ^ (j : Int)).den = 1
    rw [zpow_natCast]
    exact_mod_cast Rat.den_natCast ((Decimal.ofRat q).digits * 10 ^ j)
  refine ⟨(Decimal.ofRat q).numeral, Decimal.numeral_regular _, ?_, (Decimal.ofRat q).text, ?_, ?_⟩
  · have hLow : -1000062 ≤ (Decimal.ofRat q).exponent := hLow
    have hExponent : (Decimal.ofRat q).exponent.natAbs < 10000000 := by omega
    rw [Decimal.numeral_value hFew hExponent, hMagnitude]
  · show (if q.den = 1 then _ else Except.ok (Decimal.ofRat q).text) = _
    rw [if_neg hDen]
  · exact Decimal.text_eq hSign

/-- An integer that has a short decimal expansion is not too long. -/
theorem not_tooManyDigits {q : ℚ} (hq : 0 ≤ q) (hDen : q.den = 1) (h : IsWritable q) :
    tooManyDigits q.num = false := by
  rcases h with ⟨-, hShort⟩ | ⟨digits, places, hDigits, -, hValue⟩
  · exact hShort
  · obtain ⟨k, hk⟩ := Int.eq_ofNat_of_zero_le (Rat.num_nonneg.mpr hq)
    have hNum : (k : ℚ) = digits / 10 ^ places := by
      rw [← hValue, ← (Rat.den_eq_one_iff q).mp hDen, hk]
      rfl
    have hLe : (k : ℚ) ≤ digits := by
      rw [hNum]
      have hOne : (1 : ℚ) ≤ 10 ^ places := one_le_pow₀ (by norm_num)
      exact (div_le_iff₀ (by positivity)).mpr (le_mul_of_one_le_right (Nat.cast_nonneg _) hOne)
    have hLe : k ≤ digits := by exact_mod_cast hLe
    have hBound : Decimal.precision ≤ maxDigits := by decide
    have hLess : k < tenTo maxDigits :=
      lt_of_lt_of_le (hLe.trans_lt hDigits) (tenTo_mono hBound)
    unfold tooManyDigits
    rw [hk]
    simpa using hLess

/-- **A number that is written without loss is read back.** -/
theorem IsWritable.writes {q : ℚ} (hq : 0 ≤ q) (h : IsWritable q) : ∃ n : Numeral, n.Writes q := by
  by_cases hDen : q.den = 1
  · exact writes_integer hq hDen (not_tooManyDigits hq hDen h)
  · rcases h with ⟨hOne, -⟩ | ⟨digits, places, hDigits, hPlaces, hValue⟩
    · exact absurd hOne hDen
    · exact writes_decimal hq hDen hDigits hPlaces hValue

end Reckoner
