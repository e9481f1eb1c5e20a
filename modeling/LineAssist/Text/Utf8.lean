import LineAssist.Text.Basic

/-!
# UTF-8

Reading octets as text, strictly or with a replacement character for each maximal part that cannot
be continued to a character, and writing text as octets. The reader is a machine that takes one
octet at a time; a machine state holds the character begun, the octets still owed and the least
and greatest value the next one may have.
-/

namespace LineAssist.Text

/-- A character begun: its bits so far, the number of octets owed, and the bounds of the next. -/
structure Utf8Partial where
  bits : Nat
  owed : Nat
  low : Nat
  high : Nat

/-- What one octet does to the reader. -/
inductive Utf8Step where
  | char (c : Char)
  | more (p : Utf8Partial)
  | refused

/-- The first octet of a character. -/
def utf8First (b : Nat) : Utf8Step :=
  if b ≤ 0x7F then .char (Char.ofNat b)
  else if 0xC2 ≤ b && b ≤ 0xDF then .more ⟨b - 0xC0, 1, 0x80, 0xBF⟩
  else if b == 0xE0 then .more ⟨0, 2, 0xA0, 0xBF⟩
  else if b == 0xED then .more ⟨0xD, 2, 0x80, 0x9F⟩
  else if 0xE1 ≤ b && b ≤ 0xEF then .more ⟨b - 0xE0, 2, 0x80, 0xBF⟩
  else if b == 0xF0 then .more ⟨0, 3, 0x90, 0xBF⟩
  else if 0xF1 ≤ b && b ≤ 0xF3 then .more ⟨b - 0xF0, 3, 0x80, 0xBF⟩
  else if b == 0xF4 then .more ⟨4, 3, 0x80, 0x8F⟩
  else .refused

/-- A further octet of a character begun. -/
def utf8Next (p : Utf8Partial) (b : Nat) : Utf8Step :=
  if p.low ≤ b && b ≤ p.high then
    let bits := p.bits * 64 + (b - 0x80)
    if p.owed ≤ 1 then .char (Char.ofNat bits) else .more ⟨bits, p.owed - 1, 0x80, 0xBF⟩
  else .refused

/-- Reads octets as text; none when they are not UTF-8. -/
def decodeUtf8From? : Option Utf8Partial → List UInt8 → Option Text
  | none, [] => some []
  | some _, [] => none
  | state, b :: rest =>
    let step := match state with
      | none => utf8First b.toNat
      | some p => utf8Next p b.toNat
    match step with
    | .char c => (decodeUtf8From? none rest).map (c :: ·)
    | .more p => decodeUtf8From? (some p) rest
    | .refused => none

def decodeUtf8? (octets : List UInt8) : Option Text :=
  decodeUtf8From? none octets

/-- The character that stands for octets that are no character. -/
def replacement : Char := '\uFFFD'

/-- Reads octets as text, with one replacement character for each maximal part that starts a
character and cannot be continued, and one for each octet that starts none. -/
def decodeUtf8LossyFrom : Option Utf8Partial → List UInt8 → Text
  | none, [] => []
  | some _, [] => [replacement]
  | none, b :: rest =>
    match utf8First b.toNat with
    | .char c => c :: decodeUtf8LossyFrom none rest
    | .more p => decodeUtf8LossyFrom (some p) rest
    | .refused => replacement :: decodeUtf8LossyFrom none rest
  | some p, b :: rest =>
    match utf8Next p b.toNat with
    | .char c => c :: decodeUtf8LossyFrom none rest
    | .more p' => decodeUtf8LossyFrom (some p') rest
    | .refused =>
      match utf8First b.toNat with
      | .char c => replacement :: c :: decodeUtf8LossyFrom none rest
      | .more p' => replacement :: decodeUtf8LossyFrom (some p') rest
      | .refused => replacement :: replacement :: decodeUtf8LossyFrom none rest

def decodeUtf8Lossy (octets : List UInt8) : Text :=
  decodeUtf8LossyFrom none octets

/-- The octets of one character. -/
def utf8Octets (c : Char) : List UInt8 :=
  let n := c.toNat
  let tail (k : Nat) : UInt8 := UInt8.ofNat (0x80 + n / Nat.pow 64 k % 64)
  if n ≤ 0x7F then [UInt8.ofNat n]
  else if n ≤ 0x7FF then [UInt8.ofNat (0xC0 + n / 64), tail 0]
  else if n ≤ 0xFFFF then [UInt8.ofNat (0xE0 + n / 4096), tail 1, tail 0]
  else [UInt8.ofNat (0xF0 + n / 262144), tail 2, tail 1, tail 0]

/-- The octets of a text. -/
def encodeUtf8 (t : Text) : List UInt8 :=
  t.flatMap utf8Octets

end LineAssist.Text
