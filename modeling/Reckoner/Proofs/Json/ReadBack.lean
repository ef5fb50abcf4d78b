import Reckoner.Json.Reader
import Reckoner.Json.Writer
import Reckoner.Proofs.Lexer.Reading
import Reckoner.Proofs.Outcome

/-!
# Documents are read back

A JSON document that is made of texts, integers, arrays and objects, and of nothing else but `null`, is
written on one line and can be read again: `decode` is a reader of such documents alone that gives back
the value that was written, whatever the texts in it are. The reader of configurations would do for texts
(`readString_written`), but it refuses long integers and drops repeated keys.

## Results

* `readString_written` — a written text is read back.
* `decode_write`       — a written document is read back.
* `newline_not_mem_write` — it is written on one line.
-/

namespace Reckoner

namespace Json

-- ---------------------------------------------------------------------------
-- Texts
-- ---------------------------------------------------------------------------

theorem codeUnit?_hexDigits :
    ∀ k < 0x20, codeUnit? (Text.hexDigits 4 k) = some k ∧ (Text.hexDigits 4 k).length = 4 := by
  decide

/-- A control character is read from its code. -/
theorem readCodeEscape_control {k : Nat} (h : k < 0x20) {rest : List Char} (hRest : rest ≠ []) :
    readCodeEscape (Text.hexDigits 4 k ++ rest) = .ok (Char.ofNat k, false) := by
  obtain ⟨hUnit, hLength⟩ := codeUnit?_hexDigits k h
  have hTake : (Text.hexDigits 4 k ++ rest).take 4 = Text.hexDigits 4 k := List.take_left' hLength
  have hMore : ¬ (Text.hexDigits 4 k ++ rest).length ≤ 4 := by
    have hPos := List.length_pos_iff.mpr hRest
    rw [List.length_append, hLength]
    omega
  have hRead : readCodeUnit (Text.hexDigits 4 k ++ rest) = .ok k := by
    rw [readCodeUnit, hTake, hUnit]
    exact if_neg hMore
  rw [readCodeEscape, hRead, ok_bind, if_neg (by omega), if_neg (by omega)]
  rfl

/-- The ways in which a character is written in a text: by a letter, by its code, and as it stands. -/
inductive Escapes (c : Char) : List Char → Prop
  | letter {e : Char} (stands : escapedChar? e = some c) (notCode : e ≠ 'u') (visible : e ≠ '\n') :
      Escapes c ['\\', e]
  | code (control : c.toNat < 0x20) : Escapes c ('\\' :: 'u' :: Text.hexDigits 4 c.toNat)
  | plain (notQuote : c ≠ '"') (notSlash : c ≠ '\\') (visible : ¬ c.toNat < 0x20) : Escapes c [c]

theorem escapes_escapeChar (c : Char) : Escapes c (escapeChar c) := by
  unfold escapeChar
  split_ifs with hSign hNewline hReturn hTab hBack hFeed hControl
  · rcases hSign with rfl | rfl <;> exact .letter rfl (by decide) (by decide)
  · exact hNewline ▸ .letter rfl (by decide) (by decide)
  · exact hReturn ▸ .letter rfl (by decide) (by decide)
  · exact hTab ▸ .letter rfl (by decide) (by decide)
  · exact hBack ▸ .letter rfl (by decide) (by decide)
  · exact hFeed ▸ .letter rfl (by decide) (by decide)
  · exact .code hControl
  · obtain ⟨hQuote, hSlash⟩ := not_or.mp hSign
    exact .plain hQuote hSlash hControl

/-- The reader takes the escape of a character for that character. -/
theorem readChars_escapeChar (left steps : Nat) (c : Char) {rest : List Char} (hRest : rest ≠ []) :
    readChars left (steps + 1) (escapeChar c ++ rest) =
      (readChars left steps rest).map fun (chars, rest) => (c :: chars, rest) := by
  have hEscapes := escapes_escapeChar c
  generalize escapeChar c = escape at hEscapes
  cases hEscapes with
  | @letter e hStands hCode _ =>
    rw [List.cons_append, List.cons_append, List.nil_append, readChars.eq_5 _ _ _ _ _ hCode,
      if_neg (by decide), if_pos rfl, hStands]
    cases readChars left steps rest <;> rfl
  | code hControl =>
    have hDrop : (Text.hexDigits 4 c.toNat ++ rest).drop 4 = rest :=
      List.drop_left' (codeUnit?_hexDigits c.toNat hControl).2
    rw [List.cons_append, List.cons_append, readChars, if_neg (by decide), if_pos rfl]
    dsimp only
    rw [readCodeEscape_control hControl hRest, ok_bind]
    dsimp only
    rw [if_neg (by simp), hDrop, Char.ofNat_toNat]
    cases readChars left steps rest <;> rfl
  | plain hQuote hSlash hVisible =>
    rw [List.cons_append, List.nil_append, readChars.eq_def]
    dsimp only
    rw [if_neg hQuote, if_neg hSlash, if_neg hVisible]
    cases readChars left steps rest <;> rfl

theorem readChars_escaped (left : Nat) {steps : Nat} {chars : List Char} (hSteps : chars.length < steps)
    (rest : List Char) :
    readChars left steps (chars.flatMap escapeChar ++ '"' :: rest) = .ok (chars, rest) := by
  induction chars generalizing steps with
  | nil =>
    obtain ⟨steps, rfl⟩ : ∃ k, steps = k + 1 := ⟨steps - 1, by simp at hSteps; omega⟩
    rfl
  | cons c chars ih =>
    rw [List.length_cons] at hSteps
    obtain ⟨steps, rfl⟩ : ∃ k, steps = k + 1 := ⟨steps - 1, by omega⟩
    rw [List.flatMap_cons, List.append_assoc, readChars_escapeChar left steps c (by simp),
      ih (by omega)]
    rfl

theorem length_escapes {c : Char} {escape : List Char} (h : Escapes c escape) : 1 ≤ escape.length := by
  cases h <;> simp

theorem length_le_escaped (chars : List Char) : chars.length ≤ (chars.flatMap escapeChar).length := by
  induction chars with
  | nil => exact Nat.le_refl _
  | cons c chars ih =>
    have hOne := length_escapes (escapes_escapeChar c)
    rw [List.flatMap_cons, List.length_append, List.length_cons]
    omega

/-- The characters of a written text. -/
theorem toList_writeString (s : String) :
    (writeString s).toList = '"' :: (s.toList.flatMap escapeChar ++ ['"']) := by
  simp [writeString]

/-- **A written text is read back**, whatever follows it. -/
theorem readString_written (s : String) (rest : List Char) :
    readString (s.toList.flatMap escapeChar ++ '"' :: rest) = .ok (s, rest) := by
  have hSteps := length_le_escaped s.toList
  have hLength : s.toList.length < (s.toList.flatMap escapeChar ++ '"' :: rest).length + 1 := by
    rw [List.length_append]
    omega
  rw [readString, readChars_escaped _ hLength, ok_bind]
  exact congrArg (fun text => Except.ok (text, rest)) String.ofList_toList

theorem newline_not_mem_escapes {c : Char} {escape : List Char} (h : Escapes c escape) :
    '\n' ∉ escape := by
  cases h with
  | letter _ _ hVisible => simp [Ne.symm hVisible]
  | code hControl =>
    have hAll : ∀ k < 0x20, '\n' ∉ Text.hexDigits 4 k := by decide
    simp [hAll c.toNat hControl]
  | plain _ _ hVisible =>
    intro hMem
    obtain rfl := List.mem_singleton.mp hMem
    exact hVisible (by decide)

/-- A text is written on one line. -/
theorem newline_not_mem_writeString (s : String) : '\n' ∉ (writeString s).toList := by
  rw [toList_writeString]
  simp only [List.mem_cons, List.mem_append, List.mem_flatMap, List.not_mem_nil, or_false]
  rintro (hOpen | ⟨c, -, hc⟩ | hClose)
  · exact absurd hOpen (by decide)
  · exact newline_not_mem_escapes (escapes_escapeChar c) hc
  · exact absurd hClose (by decide)

-- ---------------------------------------------------------------------------
-- Integers
-- ---------------------------------------------------------------------------

/-- Reads at the start of a text. Gives what was read and what follows it. -/
abbrev Decoder (α : Type) := List Char → Option (α × List Char)

/-- A written natural number. -/
def decodeNatural : Decoder Nat := fun cs =>
  let digits := cs.takeWhile Char.isDigit
  if digits.isEmpty then none else some (digitsValue digits, cs.dropWhile Char.isDigit)

/-- A written integer. -/
def decodeInteger : Decoder Int
  | '-' :: rest => (decodeNatural rest).map fun (n, rest) => (-n, rest)
  | cs => (decodeNatural cs).map fun (n, rest) => (n, rest)

/-- No natural number goes on with these characters. -/
def EndsNatural (rest : List Char) : Prop :=
  ∀ c ∈ rest.head?, c.isDigit = false

theorem decodeNatural_digits (n : Nat) (rest : List Char) (hRest : EndsNatural rest) :
    decodeNatural (Nat.toDigits 10 n ++ rest) = some (n, rest) := by
  obtain ⟨hTake, hDrop⟩ := takeWhile_run (areDigits_toDigits n) hRest
  rw [decodeNatural, hTake, hDrop, digitsValue_toDigits]
  exact if_neg (by simp [List.isEmpty_iff, Nat.toDigits_ne_nil])

/-- A negative integer is written with a sign. -/
theorem toList_toString_negSucc (n : Nat) :
    (toString (Int.negSucc n)).toList = '-' :: Nat.toDigits 10 (n + 1) := by
  rw [Int.toString_eq_repr, Int.repr, String.toList_append]
  exact congrArg ('-' :: ·) (Decimal.toList_toString (n + 1))

/-- An integer is written with digits, behind a sign if it is negative. -/
theorem decodeInteger_written (n : Int) (rest : List Char) (hRest : EndsNatural rest) :
    decodeInteger ((toString n).toList ++ rest) = some (n, rest) := by
  cases n with
  | ofNat k =>
    have hRead := decodeNatural_digits k rest hRest
    have hDigits := areDigits_toDigits k
    have hText : (toString (Int.ofNat k)).toList = Nat.toDigits 10 k := Decimal.toList_toString k
    obtain ⟨d, ds, hSome⟩ := List.exists_cons_of_ne_nil (Nat.toDigits_ne_nil : Nat.toDigits 10 k ≠ [])
    rw [hSome, List.cons_append] at hRead
    rw [hSome] at hDigits
    rw [hText, hSome, List.cons_append]
    have hSign : d ≠ '-' := by
      rintro rfl
      exact absurd (hDigits '-' List.mem_cons_self) (by decide)
    unfold decodeInteger
    split
    · rename_i hMinus
      exact absurd (List.cons.inj hMinus).1 hSign
    · rw [hRead]
      rfl
  | negSucc k =>
    rw [toList_toString_negSucc, List.cons_append, decodeInteger, decodeNatural_digits _ rest hRest]
    rfl

-- ---------------------------------------------------------------------------
-- Reading documents
-- ---------------------------------------------------------------------------

/-- A written text. -/
def decodeText : Decoder String
  | '"' :: rest => (readString rest).toOption
  | _ => none

/-- A list up to the closing character, which may come at once. -/
def decodeUpTo {α : Type} (close : Char) (list : Decoder (List α)) : Decoder (List α)
  | [] => none
  | c :: rest => if c = close then some ([], rest) else list (c :: rest)

/-- What is left of a list behind one of its parts: a comma and more, or the closing character. -/
def decodeMore {α : Type} (close : Char) (list : Decoder (List α)) : Decoder (List α)
  | ',' :: ' ' :: rest => list rest
  | c :: rest => if c = close then some ([], rest) else none
  | [] => none

/-- A colon and a blank. -/
def decodeColon : List Char → Option (List Char)
  | ':' :: ' ' :: rest => some rest
  | _ => none

mutual

/-- A value at the start of a text, within a number of steps. -/
def decodeValue : Nat → Decoder Json
  | 0, _ => none
  | steps + 1, cs =>
    match cs with
    | 'n' :: 'u' :: 'l' :: 'l' :: rest => some (.null, rest)
    | '"' :: rest => (decodeText ('"' :: rest)).map fun (text, rest) => (.string text, rest)
    | '[' :: rest =>
      (decodeUpTo ']' (decodeItems steps) rest).map fun (items, rest) => (.array items, rest)
    | '\x7b' :: rest =>
      (decodeUpTo '\x7d' (decodeFields steps) rest).map fun (fields, rest) => (.object fields, rest)
    | cs => (decodeInteger cs).map fun (n, rest) => (.int n, rest)

/-- The items of an array from the next one on, and the closing bracket. -/
def decodeItems : Nat → Decoder (List Json)
  | 0, _ => none
  | steps + 1, cs => do
    let (item, rest) ← decodeValue steps cs
    let (items, rest) ← decodeMore ']' (decodeItems steps) rest
    return (item :: items, rest)

/-- The fields of an object from the next one on, and the closing brace. -/
def decodeFields : Nat → Decoder (List (String × Json))
  | 0, _ => none
  | steps + 1, cs => do
    let (key, rest) ← decodeText cs
    let (value, rest) ← decodeValue steps (← decodeColon rest)
    let (fields, rest) ← decodeMore '\x7d' (decodeFields steps) rest
    return ((key, value) :: fields, rest)

end

/-- The value of a whole document. -/
def decode (cs : List Char) : Option Json := do
  let (value, rest) ← decodeValue cs.length cs
  if rest.isEmpty then return value else none

theorem decodeText_written (s : String) (rest : List Char) :
    decodeText ((writeString s).toList ++ rest) = some (s, rest) := by
  rw [toList_writeString, List.cons_append, List.append_assoc, List.cons_append, List.nil_append,
    decodeText, readString_written]
  rfl

-- ---------------------------------------------------------------------------
-- Documents
-- ---------------------------------------------------------------------------

mutual

/-- A value that is made of texts, integers, arrays, objects and `null`. -/
def IsPlain : Json → Prop
  | null | int _ | string _ => True
  | bool _ | float _ => False
  | array items => ArePlainItems items
  | object fields => ArePlainFields fields

/-- Items that are made of those. -/
def ArePlainItems : List Json → Prop
  | [] => True
  | item :: items => IsPlain item ∧ ArePlainItems items

/-- Fields that are made of those. -/
def ArePlainFields : List (String × Json) → Prop
  | [] => True
  | (_, value) :: fields => IsPlain value ∧ ArePlainFields fields

end

theorem arePlainItems_of_forall : {items : List Json} → (∀ item ∈ items, IsPlain item) →
    ArePlainItems items
  | [], _ => trivial
  | _ :: _, h => ⟨h _ List.mem_cons_self, arePlainItems_of_forall fun _ hv => h _ (List.mem_cons_of_mem _ hv)⟩

theorem toList_writeArray (items : List String) :
    (writeArray items).toList = '[' :: ((", ".intercalate items).toList ++ [']']) := by
  simp [writeArray]

/-- The characters of one written field. -/
def fieldText (field : String × String) : String :=
  writeString field.1 ++ ": " ++ field.2

theorem toList_fieldText (key value : String) :
    (fieldText (key, value)).toList = (writeString key).toList ++ ':' :: ' ' :: value.toList := by
  rw [fieldText, String.toList_append, String.toList_append, List.append_assoc]
  rfl

theorem toList_writeObject (fields : List (String × String)) :
    (writeObject fields).toList =
      '\x7b' :: ((", ".intercalate (fields.map fieldText)).toList ++ ['\x7d']) := by
  unfold writeObject
  simp
  rfl

theorem toList_intercalate_cons (x y : String) (more : List String) :
    (", ".intercalate (x :: y :: more)).toList =
      x.toList ++ ',' :: ' ' :: (", ".intercalate (y :: more)).toList := by
  rw [String.intercalate_cons_cons, String.toList_append, String.toList_append, List.append_assoc]
  rfl

theorem write_mem_writeItems {item : Json} {items : List Json} (h : item ∈ items) :
    write item ∈ writeItems items := by
  induction items with
  | nil => cases h
  | cons first more ih =>
    rw [writeItems]
    rcases List.mem_cons.mp h with rfl | h
    · exact List.mem_cons_self
    · exact List.mem_cons_of_mem _ (ih h)

/-- Written parts that are joined are each no longer than the whole. -/
theorem length_le_intercalate {text : String} {texts : List String} (h : text ∈ texts) :
    text.toList.length ≤ (", ".intercalate texts).toList.length := by
  induction texts with
  | nil => cases h
  | cons first more ih =>
    cases more with
    | nil =>
      rw [String.intercalate_singleton, List.mem_singleton.mp h]
    | cons next more =>
      rw [toList_intercalate_cons, List.length_append, List.length_cons, List.length_cons]
      rcases List.mem_cons.mp h with rfl | h
      · omega
      · have hMore := ih h
        omega

/-- A character that starts a written value. -/
def startsValue (c : Char) : Prop :=
  c = 'n' ∨ c = '"' ∨ c = '[' ∨ c = '\x7b' ∨ c = '-' ∨ c.isDigit = true

theorem toString_cons (n : Int) :
    ∃ c cs, (toString n).toList = c :: cs ∧ (c = '-' ∨ c.isDigit = true) := by
  cases n with
  | ofNat k =>
    have hDigits := areDigits_toDigits k
    have hText : (toString (Int.ofNat k)).toList = Nat.toDigits 10 k := Decimal.toList_toString k
    obtain ⟨d, ds, hSome⟩ := List.exists_cons_of_ne_nil (Nat.toDigits_ne_nil : Nat.toDigits 10 k ≠ [])
    rw [hText, hSome]
    rw [hSome] at hDigits
    exact ⟨d, ds, rfl, Or.inr (hDigits d List.mem_cons_self)⟩
  | negSucc k => exact ⟨'-', _, toList_toString_negSucc k, Or.inl rfl⟩

theorem write_cons {v : Json} (h : IsPlain v) :
    ∃ c cs, (write v).toList = c :: cs ∧ startsValue c := by
  cases v with
  | null => exact ⟨'n', _, rfl, Or.inl rfl⟩
  | int n =>
    obtain ⟨c, cs, hText, hStart⟩ := toString_cons n
    refine ⟨c, cs, hText, ?_⟩
    unfold startsValue
    tauto
  | string s => exact ⟨'"', _, toList_writeString s, by simp [startsValue]⟩
  | array items => exact ⟨'[', _, toList_writeArray _, by simp [startsValue]⟩
  | object fields => exact ⟨'\x7b', _, toList_writeObject _, by simp [startsValue]⟩
  | bool b => exact h.elim
  | float x => exact h.elim

/-- What starts with a digit or a sign is an integer. -/
theorem decodeValue_integer (steps : Nat) {c : Char} (cs : List Char)
    (h : c = '-' ∨ c.isDigit = true) :
    decodeValue (steps + 1) (c :: cs) =
      (decodeInteger (c :: cs)).map fun (n, rest) => (.int n, rest) := by
  have hNot : ∀ d ∈ ['n', '"', '[', '\x7b'], c ≠ d := by
    rintro d hd rfl
    have hAll : ∀ d ∈ ['n', '"', '[', '\x7b'], ¬ (d = '-' ∨ d.isDigit = true) :=
      List.all_iff_forall_prop.mp (by decide)
    exact hAll c hd h
  unfold decodeValue
  split
  · exact absurd (List.cons.inj ‹_›).1 (hNot 'n' (by decide))
  · exact absurd (List.cons.inj ‹_›).1 (hNot '"' (by decide))
  · exact absurd (List.cons.inj ‹_›).1 (hNot '[' (by decide))
  · exact absurd (List.cons.inj ‹_›).1 (hNot '\x7b' (by decide))
  · rfl

/-- What is read back within a number of steps: all that is not longer. -/
structure DecodesWithin (steps : Nat) : Prop where
  value : ∀ (rest : List Char) {v : Json}, IsPlain v → (write v).toList.length ≤ steps →
    EndsNatural rest → decodeValue steps ((write v).toList ++ rest) = some (v, rest)
  items : ∀ (rest : List Char) {items : List Json}, items ≠ [] → ArePlainItems items →
    (", ".intercalate (writeItems items)).toList.length < steps →
      decodeItems steps ((", ".intercalate (writeItems items)).toList ++ ']' :: rest) =
        some (items, rest)
  fields : ∀ (rest : List Char) {fields : List (String × Json)}, fields ≠ [] →
    ArePlainFields fields →
      (", ".intercalate ((writeFields fields).map fieldText)).toList.length < steps →
        decodeFields steps
            ((", ".intercalate ((writeFields fields).map fieldText)).toList ++ '\x7d' :: rest) =
          some (fields, rest)

variable {steps : Nat} {rest : List Char}

/-- The first character of written items. -/
theorem writeItems_cons {item : Json} (items : List Json) (h : IsPlain item) :
    ∃ c cs, (", ".intercalate (writeItems (item :: items))).toList = c :: cs ∧ startsValue c := by
  obtain ⟨c, cs, hText, hStart⟩ := write_cons h
  cases items with
  | nil => exact ⟨c, cs, by rw [writeItems, writeItems, String.intercalate_singleton, hText], hStart⟩
  | cons next items =>
    rw [writeItems, writeItems, toList_intercalate_cons, hText]
    exact ⟨c, _, rfl, hStart⟩

/-- The first character of written fields. -/
theorem writeFields_cons (field : String × Json) (fields : List (String × Json)) :
    ∃ c cs, (", ".intercalate ((writeFields (field :: fields)).map fieldText)).toList = c :: cs ∧
      startsValue c := by
  have hKey : ∃ cs, (fieldText (field.1, write field.2)).toList = '"' :: cs := by
    unfold fieldText
    rw [String.toList_append, String.toList_append, toList_writeString]
    exact ⟨_, rfl⟩
  obtain ⟨cs, hKey⟩ := hKey
  refine ⟨'"', ?_⟩
  cases fields with
  | nil =>
    rw [writeFields, writeFields, List.map_cons, List.map_nil, String.intercalate_singleton, hKey]
    exact ⟨cs, rfl, by simp [startsValue]⟩
  | cons next fields =>
    rw [writeFields, writeFields, List.map_cons, List.map_cons, toList_intercalate_cons, hKey]
    exact ⟨_, rfl, by simp [startsValue]⟩

theorem startsValue_ne {c : Char} (h : startsValue c) : c ≠ ']' ∧ c ≠ '\x7d' := by
  unfold startsValue at h
  constructor <;> rintro rfl <;> exact absurd h (by decide)

theorem decodeValue_step (h : DecodesWithin steps) {v : Json} (hPlain : IsPlain v)
    (hSteps : (write v).toList.length ≤ steps + 1) (hRest : EndsNatural rest) :
    decodeValue (steps + 1) ((write v).toList ++ rest) = some (v, rest) := by
  cases v with
  | null => rfl
  | int n =>
    obtain ⟨c, cs, hText, hStart⟩ := toString_cons n
    have hRead := decodeInteger_written n rest hRest
    rw [hText, List.cons_append] at hRead
    rw [write, hText, List.cons_append, decodeValue_integer steps _ hStart, hRead]
    rfl
  | string s =>
    have hRead := decodeText_written s rest
    rw [write]
    rw [toList_writeString, List.cons_append] at hRead ⊢
    rw [decodeValue, hRead]
    rfl
  | array items =>
    rw [write, toList_writeArray] at hSteps ⊢
    rw [List.length_cons, List.length_append, List.length_singleton] at hSteps
    rw [List.cons_append, List.append_assoc, List.singleton_append, decodeValue]
    cases items with
    | nil => rfl
    | cons item items =>
      have hItems := h.items rest (by simp) hPlain (by omega)
      obtain ⟨c, cs, hText, hStart⟩ := writeItems_cons items hPlain.1
      rw [hText, List.cons_append] at hItems ⊢
      rw [decodeUpTo, if_neg (startsValue_ne hStart).1, hItems]
      rfl
  | object fields =>
    rw [write, toList_writeObject] at hSteps ⊢
    rw [List.length_cons, List.length_append, List.length_singleton] at hSteps
    rw [List.cons_append, List.append_assoc, List.singleton_append, decodeValue]
    cases fields with
    | nil => rfl
    | cons field fields =>
      have hFields := h.fields rest (by simp) hPlain (by omega)
      obtain ⟨c, cs, hText, hStart⟩ := writeFields_cons field fields
      rw [hText, List.cons_append] at hFields ⊢
      rw [decodeUpTo, if_neg (startsValue_ne hStart).2, hFields]
      rfl
  | bool b => exact hPlain.elim
  | float x => exact hPlain.elim

theorem decodeItems_step (h : DecodesWithin steps) {items : List Json} (hSome : items ≠ [])
    (hPlain : ArePlainItems items)
    (hSteps : (", ".intercalate (writeItems items)).toList.length < steps + 1) :
    decodeItems (steps + 1) ((", ".intercalate (writeItems items)).toList ++ ']' :: rest) =
      some (items, rest) := by
  obtain ⟨item, items, rfl⟩ := List.exists_cons_of_ne_nil hSome
  obtain ⟨hItem, hItems⟩ := hPlain
  cases items with
  | nil =>
    rw [writeItems, writeItems, String.intercalate_singleton] at hSteps ⊢
    have hValue := h.value (']' :: rest) hItem (by omega) (by simp [EndsNatural])
    rw [decodeItems, hValue]
    rfl
  | cons next items =>
    rw [writeItems, writeItems, toList_intercalate_cons, ← writeItems] at hSteps ⊢
    rw [List.length_append, List.length_cons, List.length_cons] at hSteps
    rw [List.append_assoc, List.cons_append, List.cons_append]
    generalize hMore : (", ".intercalate (writeItems (next :: items))).toList = more at hSteps ⊢
    have hValue := h.value (',' :: ' ' :: (more ++ ']' :: rest)) hItem (by omega)
      (by simp [EndsNatural])
    have hItems := h.items rest (by simp) hItems (by rw [hMore]; omega)
    rw [hMore] at hItems
    simp only [decodeItems, hValue, Option.bind_eq_bind, Option.bind_some, decodeMore, hItems]
    rfl

theorem decodeFields_step (h : DecodesWithin steps) {fields : List (String × Json)}
    (hSome : fields ≠ []) (hPlain : ArePlainFields fields)
    (hSteps : (", ".intercalate ((writeFields fields).map fieldText)).toList.length < steps + 1) :
    decodeFields (steps + 1)
        ((", ".intercalate ((writeFields fields).map fieldText)).toList ++ '\x7d' :: rest) =
      some (fields, rest) := by
  obtain ⟨⟨key, value⟩, fields, rfl⟩ := List.exists_cons_of_ne_nil hSome
  obtain ⟨hField, hFields⟩ := hPlain
  cases fields with
  | nil =>
    rw [writeFields, writeFields, List.map_cons, List.map_nil, String.intercalate_singleton,
      toList_fieldText] at hSteps ⊢
    simp only [List.length_append, List.length_cons] at hSteps
    simp only [List.append_assoc, List.cons_append]
    have hValue := h.value ('\x7d' :: rest) hField (by omega) (by simp [EndsNatural])
    simp only [decodeFields, decodeText_written, Option.bind_eq_bind, Option.bind_some, decodeColon,
      hValue]
    rfl
  | cons next fields =>
    rw [writeFields, writeFields, List.map_cons, List.map_cons, toList_intercalate_cons, ← List.map_cons,
      ← writeFields, toList_fieldText] at hSteps ⊢
    simp only [List.length_append, List.length_cons] at hSteps
    simp only [List.append_assoc, List.cons_append]
    generalize hMore : (", ".intercalate ((writeFields (next :: fields)).map fieldText)).toList = more
      at hSteps ⊢
    have hValue := h.value (',' :: ' ' :: (more ++ '\x7d' :: rest)) hField (by omega)
      (by simp [EndsNatural])
    have hFields := h.fields rest (by simp) hFields (by rw [hMore]; omega)
    rw [hMore] at hFields
    simp only [decodeFields, decodeText_written, Option.bind_eq_bind, Option.bind_some, decodeColon,
      hValue, decodeMore, hFields]
    rfl

theorem decodesWithin (steps : Nat) : DecodesWithin steps := by
  induction steps with
  | zero =>
    refine ⟨fun _ _ hPlain hSteps _ => ?_, fun _ _ _ _ hSteps => absurd hSteps (by omega),
      fun _ _ _ _ hSteps => absurd hSteps (by omega)⟩
    obtain ⟨c, cs, hText, -⟩ := write_cons hPlain
    rw [hText] at hSteps
    simp at hSteps
  | succ steps ih => exact ⟨fun _ => decodeValue_step ih, fun _ => decodeItems_step ih, fun _ => decodeFields_step ih⟩

/-- **A written document is read back.** -/
theorem decode_write {v : Json} (h : IsPlain v) : decode (write v).toList = some v := by
  have hValue := (decodesWithin (write v).toList.length).value [] h (Nat.le_refl _)
    (by simp [EndsNatural])
  rw [List.append_nil] at hValue
  rw [decode, hValue]
  rfl

-- ---------------------------------------------------------------------------
-- One line
-- ---------------------------------------------------------------------------

theorem newline_not_mem_intercalate {texts : List String} (h : ∀ text ∈ texts, '\n' ∉ text.toList) :
    '\n' ∉ (", ".intercalate texts).toList := by
  induction texts with
  | nil => exact List.not_mem_nil
  | cons text texts ih =>
    obtain ⟨hText, hTexts⟩ := List.forall_mem_cons.mp h
    cases texts with
    | nil => rwa [String.intercalate_singleton]
    | cons next texts =>
      rw [toList_intercalate_cons]
      simp [-String.toList_intercalate, hText, ih hTexts]

theorem newline_not_mem_toString (n : Int) : '\n' ∉ (toString n).toList := by
  have hDigits : ∀ k, '\n' ∉ Nat.toDigits 10 k := fun k hMem =>
    absurd (areDigits_toDigits k _ hMem) (by decide)
  cases n with
  | ofNat k => exact Decimal.toList_toString k ▸ hDigits k
  | negSucc k =>
    rw [toList_toString_negSucc]
    simp [hDigits]

mutual

/-- **A document is written on one line.** -/
theorem newline_not_mem_write : (v : Json) → IsPlain v → '\n' ∉ (write v).toList
  | null, _ => by decide
  | int n, _ => newline_not_mem_toString n
  | string s, _ => newline_not_mem_writeString s
  | array items, h => by
    rw [write, toList_writeArray]
    simp [-String.toList_intercalate, newline_not_mem_intercalate (newline_not_mem_items items h)]
  | object fields, h => by
    rw [write, toList_writeObject]
    simp [-String.toList_intercalate, newline_not_mem_intercalate (newline_not_mem_fields fields h)]
  | bool _, h => h.elim
  | float _, h => h.elim

theorem newline_not_mem_items : (items : List Json) → ArePlainItems items →
    ∀ text ∈ writeItems items, '\n' ∉ text.toList
  | [], _ => by simp [writeItems]
  | item :: items, h =>
    List.forall_mem_cons.mpr ⟨newline_not_mem_write item h.1, newline_not_mem_items items h.2⟩

theorem newline_not_mem_fields : (fields : List (String × Json)) → ArePlainFields fields →
    ∀ text ∈ (writeFields fields).map fieldText, '\n' ∉ text.toList
  | [], _ => by simp [writeFields]
  | (key, value) :: fields, h => by
    refine List.forall_mem_cons.mpr ⟨?_, newline_not_mem_fields fields h.2⟩
    rw [toList_fieldText]
    simp [newline_not_mem_writeString, newline_not_mem_write value h.1]

end

end Json

end Reckoner
