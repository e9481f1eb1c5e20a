import LineAssist.Number.Binary64
import LineAssist.Text.Digit

/-!
# Numbers in texts

Reading a whole text as an integer or as a decimal number, with white space around it, digits of
any script, and single underscores between digits. Integers have at most 4300 digits.
-/

namespace LineAssist.Number

open LineAssist

/-- The most digits that an integer text may have. -/
def digitLimit : Nat := 4300

/-- An integer is short enough to have a text. -/
def isShort (i : Int) : Bool :=
  i.natAbs < Nat.pow 10 digitLimit

/-- White space around a number; the separators of the ASCII controls do not count. -/
def isSpace (c : Char) : Bool :=
  Text.isBlank c && !Text.inRanges [(0x1C, 0x1F)] c.toNat

/-- A text without white space around it. -/
def trimSpace (t : Text) : Text :=
  ((t.dropWhile isSpace).reverse.dropWhile isSpace).reverse

/-- Digits of every script as ASCII digits; other characters stay. -/
def asciiDigits (t : Text) : Text :=
  t.map fun c =>
    match Text.digitValue? c with
    | some v => Char.ofNat (48 + v)
    | none => c

/-- Drops underscores that stand between two digits; none when one stands elsewhere. -/
def dropUnderscoresFrom (previous : Option Char) : Text → Option Text
  | [] => if previous = some '_' then none else some []
  | c :: rest =>
    if c = '_' then
      if previous.any Text.isDigit then dropUnderscoresFrom (some c) rest else none
    else if previous = some '_' ∧ !Text.isDigit c then none
    else (dropUnderscoresFrom (some c) rest).map (c :: ·)

def dropUnderscores? (t : Text) : Option Text :=
  dropUnderscoresFrom none t

/-- A sign in front of a text, true for minus, and the text after it. -/
def spanSign : Text → Bool × Text
  | '-' :: rest => (true, rest)
  | '+' :: rest => (false, rest)
  | t => (false, t)

/-- An integer with an optional sign. -/
def readInt? (t : Text) : Option Int := do
  let plain ← dropUnderscores? (asciiDigits (trimSpace t))
  let (negative, digits) := spanSign plain
  if digits.isEmpty || !digits.all Text.isDigit || digitLimit < digits.length then none
  else
    let n : Int := (Text.digitsValue digits : Nat)
    some (if negative then -n else n)

/-- The decimal exponent behind a mantissa: `e`, an optional sign and digits, or nothing. -/
def readExponent? : Text → Option Int
  | [] => some 0
  | c :: rest =>
    if c = 'e' ∨ c = 'E' then
      let (negative, digits) := spanSign rest
      if digits.isEmpty || !digits.all Text.isDigit then none
      else
        let n : Int := (Text.digitsValue digits : Nat)
        some (if negative then -n else n)
    else none

/-- A decimal number without sign: digits, optionally a point and digits, at least one digit in
all, and optionally an exponent. -/
def readMagnitude? (negative : Bool) (t : Text) : Option Binary64 := do
  let (whole, rest) := Text.spanDigits t
  let (fraction, rest) := match rest with
    | '.' :: more => Text.spanDigits more
    | _ => ([], rest)
  if whole.isEmpty && fraction.isEmpty then none
  else
    let e ← readExponent? rest
    some (Binary64.ofDecimal negative (Text.digitsValue (whole ++ fraction)) (e - (fraction.length : Int)))

/-- A decimal number, an infinity or not a number, with an optional sign. -/
def readBinary64? (t : Text) : Option Binary64 := do
  let plain ← dropUnderscores? (asciiDigits (trimSpace t))
  let (negative, magnitude) := spanSign plain
  let word := Text.lower magnitude
  if word = "inf".toList ∨ word = "infinity".toList then some (.infinity negative)
  else if word = "nan".toList then some .nan
  else readMagnitude? negative magnitude

end LineAssist.Number
