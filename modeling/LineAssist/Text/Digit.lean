import LineAssist.Text.Basic

/-!
# Decimal digits

The decimal digits of every script come in runs of ten, zero first, so the code point of each
script's zero determines the value of the digits (Unicode 14).
-/

namespace LineAssist.Text

/-- The code points of the digits zero. -/
def zeroDigits : List Nat :=
  [48, 1632, 1776, 1984, 2406, 2534, 2662, 2790, 2918, 3046, 3174, 3302, 3430, 3558, 3664, 3792,
    3872, 4160, 4240, 6112, 6160, 6470, 6608, 6784, 6800, 6992, 7088, 7232, 7248, 42528, 43216,
    43264, 43472, 43504, 43600, 44016, 65296, 66720, 68912, 69734, 69872, 69942, 70096, 70384,
    70736, 70864, 71248, 71360, 71472, 71904, 72016, 72784, 73040, 73120, 92768, 92864, 93008,
    120782, 120792, 120802, 120812, 120822, 123200, 123632, 125264, 130032]

/-- The value of a decimal digit of any script. -/
def digitValue? (c : Char) : Option Nat :=
  let n := c.toNat
  (zeroDigits.find? fun z => z ≤ n && n ≤ z + 9).map fun z => n - z

/-- An ASCII decimal digit. -/
def isDigit (c : Char) : Bool :=
  c.isDigit

/-- The value of a text of ASCII decimal digits. -/
def digitsValue (t : Text) : Nat :=
  t.foldl (fun n c => n * 10 + (c.toNat - 48)) 0

/-- The value of a hexadecimal digit. -/
def hexValue? (c : Char) : Option Nat :=
  if c.isDigit then some (c.toNat - 48)
  else if 'a' ≤ c ∧ c ≤ 'f' then some (c.toNat - 87)
  else if 'A' ≤ c ∧ c ≤ 'F' then some (c.toNat - 55)
  else none

/-- The ASCII digits at the start of a text and the rest. -/
def spanDigits (t : Text) : Text × Text :=
  t.span isDigit

end LineAssist.Text
