import Reckoner.Text.Quoted

/-!
# UTF-8

Octets as text. A character is one lead octet and up to three continuation octets; some lead octets
narrow the range of the octet after them, so that each character has one form only. Decoding stops
at the first octet that cannot be part of a character there, and says which octets are at fault.
-/

namespace Reckoner

namespace Utf8

/-- What is wrong with a sequence of octets. -/
inductive Reason where
  | invalidStart
  | invalidContinuation
  | unexpectedEnd
  deriving DecidableEq, Repr

/-- The wording of a reason. -/
def Reason.message : Reason → String
  | invalidStart => "invalid start byte"
  | invalidContinuation => "invalid continuation byte"
  | unexpectedEnd => "unexpected end of data"

/-- Octets that are no text: the first one, its position, and how many of them are at fault. -/
structure Error where
  octet : UInt8
  position : Nat
  count : Nat
  reason : Reason
  deriving DecidableEq, Repr

/-- The message of an error. -/
def Error.message (e : Error) : String :=
  if e.count = 1 then
    let octet := String.ofList (Text.hexDigits 2 e.octet.toNat)
    s!"'utf-8' codec can't decode byte 0x{octet} in position {e.position}: {e.reason.message}"
  else
    let last := e.position + e.count - 1
    s!"'utf-8' codec can't decode bytes in position {e.position}-{last}: {e.reason.message}"

/-- What a lead octet says: its bits of the code point, how many octets follow, and the range of the
first of them. -/
structure Lead where
  bits : Nat
  following : Nat
  low : UInt8
  high : UInt8

/-- The meaning of a lead octet. -/
def lead? (b : UInt8) : Option Lead :=
  let n := b.toNat
  if b ≤ 0x7F then some ⟨n, 0, 0x80, 0xBF⟩
  else if b < 0xC2 then none
  else if b ≤ 0xDF then some ⟨n - 0xC0, 1, 0x80, 0xBF⟩
  else if b = 0xE0 then some ⟨0, 2, 0xA0, 0xBF⟩
  else if b = 0xED then some ⟨0xD, 2, 0x80, 0x9F⟩
  else if b ≤ 0xEF then some ⟨n - 0xE0, 2, 0x80, 0xBF⟩
  else if b = 0xF0 then some ⟨0, 3, 0x90, 0xBF⟩
  else if b ≤ 0xF3 then some ⟨n - 0xF0, 3, 0x80, 0xBF⟩
  else if b = 0xF4 then some ⟨4, 3, 0x80, 0x8F⟩
  else none

/-- The code point whose leading bits are `bits`, with `following` octets to come of which
the next lies between `low` and `high`, and the octets after it. A failure says how many
octets were taken. -/
def continuation (low high : UInt8) :
    Nat → Nat → Nat → List UInt8 → Except (Reason × Nat) (Nat × List UInt8)
  | 0, bits, _, rest => .ok (bits, rest)
  | _ + 1, _, taken, [] => .error (.unexpectedEnd, taken)
  | following + 1, bits, taken, b :: rest =>
    if low ≤ b ∧ b ≤ high then
      continuation 0x80 0xBF following (bits * 64 + (b.toNat - 0x80)) (taken + 1) rest
    else .error (.invalidContinuation, taken)

/-- The characters of octets that start at a position, at most `fuel` of them. -/
def decodeFrom : Nat → Nat → List UInt8 → Except Error (List Char)
  | 0, _, _ => .ok []
  | _, _, [] => .ok []
  | fuel + 1, position, b :: rest =>
    match lead? b with
    | none => .error ⟨b, position, 1, .invalidStart⟩
    | some lead =>
      match continuation lead.low lead.high lead.following lead.bits 1 rest with
      | .error (reason, count) => .error ⟨b, position, count, reason⟩
      | .ok (code, rest) => do
        let chars ← decodeFrom fuel (position + lead.following + 1) rest
        return Char.ofNat code :: chars

/-- The text that octets write. -/
def decode (octets : List UInt8) : Except Error (List Char) :=
  decodeFrom octets.length 0 octets

/-- The octets of a text. -/
def encode (s : String) : List UInt8 :=
  s.toUTF8.toList

end Utf8

end Reckoner
