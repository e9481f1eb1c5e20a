import LineAssist.Number.Binary64
import LineAssist.Text.Basic

/-!
# Shortest decimals

The decimal text of a binary number has the fewest digits that read back as the same number, and
of those the digits nearest to it; an exact tie goes to the even last digit. The reals that read
back as a number form an interval around it, whose ends belong to it when the mantissa is even.
-/

namespace LineAssist.Binary64

/-- The exponent of the greatest power of ten that is at most a quotient. -/
def decimalExponent (num den : Nat) : Int :=
  if den ≤ num then ((Nat.toDigits 10 (num / den)).length : Int) - 1
  else
    let k := ((List.range 400).find? fun k => den ≤ num * Nat.pow 10 k).getD 400
    Int.neg k

/-- Four times a number and the ends of the interval that reads back as it, over one denominator. -/
structure Interval where
  low : Nat
  value : Nat
  high : Nat
  den : Nat
  closed : Bool

def interval (mantissa : Nat) (exponent : Int) : Interval :=
  let down := if mantissa = Nat.pow 2 52 ∧ -1074 < exponent then 1 else 2
  let e := exponent - 2
  let scale := if 0 ≤ e then Nat.pow 2 e.toNat else 1
  let den := if 0 ≤ e then 1 else Nat.pow 2 (-e).toNat
  ⟨(4 * mantissa - down) * scale, 4 * mantissa * scale, (4 * mantissa + 2) * scale, den,
    mantissa % 2 = 0⟩

/-- The decimal `digits * 10 ^ exponent` reads back as the number. -/
def Interval.contains (i : Interval) (digits : Nat) (exponent : Int) : Bool :=
  let x := if 0 ≤ exponent then digits * Nat.pow 10 exponent.toNat * i.den else digits * i.den
  let scale := if 0 ≤ exponent then 1 else Nat.pow 10 (-exponent).toNat
  let low := i.low * scale
  let high := i.high * scale
  if i.closed then low ≤ x && x ≤ high else low < x && x < high

/-- The digits with a given count that read back, the nearer of the two neighbours on that grid. -/
def Interval.digits? (i : Interval) (k : Int) (count : Nat) : Option (Nat × Int) :=
  let grid := k - ((count : Int) - 1)
  let num := if 0 ≤ grid then i.value else i.value * Nat.pow 10 (-grid).toNat
  let den := if 0 ≤ grid then i.den * Nat.pow 10 grid.toNat else i.den
  let nearest := roundQuotient num den
  let other := if nearest = num / den then nearest + 1 else nearest - 1
  if i.contains nearest grid then some (nearest, grid)
  else if i.contains other grid then some (other, grid)
  else none

/-- Digits without trailing zeros and the power of ten of the last one. -/
def stripZeros (fuel : Nat) (digits : Nat) (exponent : Int) : Nat × Int :=
  match fuel with
  | 0 => (digits, exponent)
  | fuel + 1 =>
    if digits % 10 = 0 ∧ digits ≠ 0 then stripZeros fuel (digits / 10) (exponent + 1)
    else (digits, exponent)

/-- The fewest digits that read back as a positive number, with the power of ten of the last. -/
def shortest (mantissa : Nat) (exponent : Int) : Nat × Int :=
  let i := interval mantissa exponent
  let k := decimalExponent i.value i.den
  let found := (List.range 17).findSome? fun n => i.digits? k (n + 1)
  match found with
  | some (d, e) => stripZeros 20 d e
  | none => (0, 0)

/-- How a decimal is laid out: the exponents of the first digit that are written positionally, the
least number of exponent digits, and the texts of the values that are no finite numbers. -/
structure Layout where
  leastPositional : Int
  greatestPositional : Int
  exponentDigits : Nat
  nan : Text
  infinity : Text

/-- Zeros in front of a text up to a width. -/
def padZeros (width : Nat) (t : Text) : Text :=
  List.replicate (width - t.length) '0' ++ t

/-- Digits whose first one has the given power of ten. -/
def Layout.place (layout : Layout) (digits : Text) (first : Int) : Text :=
  if layout.leastPositional ≤ first ∧ first ≤ layout.greatestPositional then
    if first < 0 then "0.".toList ++ List.replicate ((-first).toNat - 1) '0' ++ digits
    else
      let whole := first.toNat + 1
      let front := digits.take whole
      let rest := digits.drop whole
      front ++ List.replicate (whole - front.length) '0' ++ '.' :: (if rest.isEmpty then ['0'] else rest)
  else
    let rest := digits.drop 1
    let sign := if first < 0 then '-' else '+'
    digits.take 1 ++ (if rest.isEmpty then [] else '.' :: rest) ++
      'e' :: sign :: padZeros layout.exponentDigits (Text.ofNat first.natAbs)

/-- The text of a number in a layout. -/
def Layout.text (layout : Layout) : Binary64 → Text
  | .nan => layout.nan
  | .infinity n => (if n then ['-'] else []) ++ layout.infinity
  | .finite n m e =>
    let sign := if n then ['-'] else []
    if m = 0 then sign ++ "0.0".toList
    else
      let (d, last) := shortest m e
      let digits := Text.ofNat d
      sign ++ layout.place digits (last + ((digits.length : Int) - 1))

end LineAssist.Binary64
