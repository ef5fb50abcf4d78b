import Reckoner.Proofs.Json.ReadBack
import Reckoner.Proofs.Lexer.Literals
import Reckoner.Render.Fault

/-!
# Strings that are written and read

A string literal is written as documents write a text, and read with the escapes of the lexer. The two
know different escapes, but none that stands for one character when it is written and for another when
it is read (`escapes_agree`). So what is read back differs from what was written only by the control
characters that the lexer has no escape for: the backslash in front of them is kept, and they come back
as the text of their escape.

## Results

* `readString_rereadChar`  — the escape of any character is read, be it known to the lexer or not.
* `reread_eq_iff`          — only control characters come back changed.
* `literal_rereads_string` — the text of a string literal is one string token.
-/

namespace Reckoner

namespace Lexer

open Json (escapeChar)

/-- A control character that is written by an escape which the lexer does not know. -/
def IsExotic (c : Char) : Prop :=
  c.toNat < 0x20 ∧ c ≠ '\n' ∧ c ≠ '\t'

instance (c : Char) : Decidable (IsExotic c) :=
  inferInstanceAs (Decidable (_ ∧ _ ∧ _))

/-- The characters that are read where a character was written. -/
def rereadChar (c : Char) : List Char :=
  if IsExotic c then escapeChar c else [c]

/-- The string that is read where a string was written. -/
def reread (s : String) : String :=
  String.ofList (s.toList.flatMap rereadChar)

-- ---------------------------------------------------------------------------
-- Escapes
-- ---------------------------------------------------------------------------

/-- A letter that is an escape in documents and in the lexer stands for one character in both. -/
theorem escapes_agree {letter stands c : Char} (h : (letter, stands) ∈ escapes)
    (hWritten : Json.escapedChar? letter = some c) : c = stands := by
  have hAll : ∀ entry ∈ escapes, (Json.escapedChar? entry.1).all (· == entry.2) = true :=
    List.all_iff_forall_prop.mp (by decide)
  have hSame := hAll _ h
  rw [hWritten] at hSame
  exact beq_iff_eq.mp hSame

/-- No escape of the lexer stands for an exotic character. -/
theorem not_isExotic_of_escapes {letter stands : Char} (h : (letter, stands) ∈ escapes) :
    ¬ IsExotic stands := by
  have hAll : ∀ entry ∈ escapes, ¬ IsExotic entry.2 := List.all_iff_forall_prop.mp (by decide)
  exact hAll _ h

variable {cs : List Char}

/-- What holds neither a quote nor a backslash is read as it stands. -/
theorem readString_plain {run : List Char} (hRun : ∀ c ∈ run, c ≠ '"' ∧ c ≠ '\\') (hSome : cs ≠ []) :
    readString '"' (run ++ cs) = (readString '"' cs).map fun (s, rest) => (run ++ s, rest) := by
  induction run with
  | nil =>
    rw [List.nil_append]
    cases readString '"' cs <;> rfl
  | cons c run ih =>
    obtain ⟨⟨hQuote, hSlash⟩, hRun⟩ := List.forall_mem_cons.mp hRun
    have hPart := (StringPart.plain c hQuote hSlash).readString_part (by decide)
      (show run ++ cs ≠ [] by simp [hSome])
    rw [show (StringPart.plain c hQuote hSlash).text = [c] from rfl, List.singleton_append, ih hRun]
      at hPart
    rw [List.cons_append, hPart, Option.map_map]
    rfl

/-- A backslash in front of a letter that the lexer has no escape for is read as it stands, and so is
what follows up to a quote or a backslash. -/
theorem readString_kept {letter : Char} {digits : List Char}
    (hFree : ∀ stands, (letter, stands) ∉ escapes) (hDigits : ∀ c ∈ digits, c ≠ '"' ∧ c ≠ '\\')
    (hSome : cs ≠ []) :
    readString '"' ('\\' :: letter :: digits ++ cs) =
      (readString '"' cs).map fun (s, rest) => ('\\' :: letter :: digits ++ s, rest) := by
  have hPart := (StringPart.kept letter hFree : StringPart '"').readString_part (by decide)
    (show digits ++ cs ≠ [] by simp [hSome])
  rw [readString_plain hDigits hSome, Option.map_map] at hPart
  exact hPart

theorem hexDigits_plain {k : Nat} (h : k < 0x20) :
    ∀ c ∈ Text.hexDigits 4 k, c ≠ '"' ∧ c ≠ '\\' := by
  have hAll : ∀ k < 0x20, '"' ∉ Text.hexDigits 4 k ∧ '\\' ∉ Text.hexDigits 4 k := by decide
  obtain ⟨hQuote, hSlash⟩ := hAll k h
  exact fun c hc => ⟨ne_of_mem_of_not_mem hc hQuote, ne_of_mem_of_not_mem hc hSlash⟩

/-- The escape of an exotic character is read as it stands. -/
theorem readString_exotic {c : Char} (h : IsExotic c) (hSome : cs ≠ []) :
    readString '"' (escapeChar c ++ cs) =
      (readString '"' cs).map fun (s, rest) => (escapeChar c ++ s, rest) := by
  have hEscapes := Json.escapes_escapeChar c
  generalize escapeChar c = escape at hEscapes
  cases hEscapes with
  | @letter letter hStands _ _ =>
    refine readString_kept (fun stands hListed => ?_) (by simp) hSome
    rw [escapes_agree hListed hStands] at h
    exact not_isExotic_of_escapes hListed h
  | code hControl =>
    exact readString_kept (by simp [escapes]) (hexDigits_plain hControl) hSome
  | plain _ _ hVisible => exact absurd h.1 hVisible

/-- **The escape of any character is read**, be it known to the lexer or not. -/
theorem readString_rereadChar (c : Char) (hSome : cs ≠ []) :
    readString '"' (escapeChar c ++ cs) =
      (readString '"' cs).map fun (s, rest) => (rereadChar c ++ s, rest) := by
  unfold rereadChar
  split
  · rename_i hExotic
    exact readString_exotic hExotic hSome
  · rename_i hKnown
    refine readString_escapeChar (fun hControl => ?_) hSome
    by_contra hOther
    exact hKnown ⟨hControl, not_or.mp hOther⟩

theorem readString_reread (chars rest : List Char) :
    readString '"' (chars.flatMap escapeChar ++ '"' :: rest) =
      some (chars.flatMap rereadChar, rest) := by
  induction chars with
  | nil => cases rest <;> rfl
  | cons c chars ih =>
    rw [List.flatMap_cons, List.append_assoc, readString_rereadChar c (by simp), ih]
    rfl

-- ---------------------------------------------------------------------------
-- What comes back changed
-- ---------------------------------------------------------------------------

/-- An exotic character comes back with a backslash in its place. -/
theorem rereadChar_exotic {c : Char} (h : IsExotic c) : ∃ more, rereadChar c = '\\' :: more := by
  rw [rereadChar, if_pos h]
  have hEscapes := Json.escapes_escapeChar c
  generalize escapeChar c = escape at hEscapes
  cases hEscapes with
  | letter => exact ⟨_, rfl⟩
  | code => exact ⟨_, rfl⟩
  | plain _ _ hVisible => exact absurd h.1 hVisible

theorem flatMap_rereadChar_eq_iff {chars : List Char} :
    chars.flatMap rereadChar = chars ↔ ∀ c ∈ chars, ¬ IsExotic c := by
  induction chars with
  | nil => simp
  | cons c chars ih =>
    rw [List.flatMap_cons, List.forall_mem_cons, ← ih]
    by_cases hExotic : IsExotic c
    · obtain ⟨more, hSlash⟩ := rereadChar_exotic hExotic
      refine ⟨fun hSame => ?_, fun h => absurd hExotic h.1⟩
      -- the first characters differ, as a backslash is not exotic
      rw [hSlash, List.cons_append] at hSame
      rw [← (List.cons.inj hSame).1] at hExotic
      exact absurd hExotic (by decide)
    · rw [rereadChar, if_neg hExotic, List.singleton_append, List.cons_inj_right]
      exact ⟨fun h => ⟨hExotic, h⟩, fun h => h.2⟩

/-- **Only control characters come back changed**, newlines and tabs excepted. -/
theorem reread_eq_iff {s : String} : reread s = s ↔ IsWritableText s := by
  have hChars : reread s = s ↔ s.toList.flatMap rereadChar = s.toList := by
    rw [← String.toList_inj, reread, String.toList_ofList]
  rw [hChars, flatMap_rereadChar_eq_iff]
  refine forall₂_congr fun c _ => ?_
  unfold IsExotic
  tauto

example : reread "\"a\x08\n" = "\"a\\b\n" := by decide +kernel

end Lexer

open Lexer (IsWritableText reread)

/-- **The text of a string literal is one string token**, whatever the string is. It is the string that
was written exactly if that holds no control character below U+0020 other than a newline or a tab; if it
holds any, each comes back as the text of its escape. -/
theorem literal_rereads_string (kind : Kind) (s : String) (place : Place) (children : List Node) :
    ∃ text, Render.literal (.mk kind (.text s) (some "string") place children) = .ok text ∧
      (tokenize defaultPrefixUnits text = .ok [⟨.string s, .start⟩] ↔ IsWritableText s) ∧
      tokenize defaultPrefixUnits text = .ok [⟨.string (reread s), .start⟩] ∧
      (¬ IsWritableText s → reread s ≠ s) := by
  have hRead := Lexer.read_quoted (Lexer.readString_reread s.toList [])
  rw [List.append_nil, ← Json.toList_writeString] at hRead
  have hToken : tokenize defaultPrefixUnits (Json.writeString s) =
      .ok [⟨.string (reread s), .start⟩] := Lexer.tokenize_token hRead nofun
  refine ⟨Json.writeString s, rfl, ?_, hToken, mt Lexer.reread_eq_iff.mp⟩
  rw [hToken, ← Lexer.reread_eq_iff]
  constructor
  · intro hSame
    have hFirst := (List.cons.inj (Except.ok.inj hSame)).1
    exact Content.string.inj (Token.mk.inj hFirst).1
  · intro hSame
    rw [hSame]

end Reckoner
