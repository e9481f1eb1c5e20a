/-!
# Binary floating point with 64 bits

A number is not a number, an infinity, or a signed mantissa times a power of two. Every operation
is exact arithmetic on natural numbers followed by one rounding to the nearest representable
value, a tie going to the even mantissa. Finite values are kept in one form each: a mantissa below
`2 ^ 53`, and at least `2 ^ 52` unless the exponent is the least one, `-1074`.
-/

namespace LineAssist

inductive Binary64 where
  | nan
  | infinity (negative : Bool)
  | finite (negative : Bool) (mantissa : Nat) (exponent : Int)
  deriving DecidableEq, Repr, Inhabited

namespace Binary64

def zero : Binary64 := .finite false 0 (-1074)

/-- A quotient rounded to the nearest natural number, a tie to the even one. -/
def roundQuotient (num den : Nat) : Nat :=
  let q := num / den
  let r := num % den
  if 2 * r < den then q
  else if den < 2 * r then q + 1
  else if q % 2 = 0 then q else q + 1

/-- The exponent of the greatest power of two that is at most the quotient. -/
def binaryExponent (num den : Nat) : Int :=
  let e : Int := (num.log2 : Int) - (den.log2 : Int)
  let reaches := if 0 ≤ e then den * Nat.pow 2 e.toNat ≤ num else den ≤ num * Nat.pow 2 (-e).toNat
  if reaches then e else e - 1

/-- The number nearest to a quotient with a sign; infinite when the quotient is too large. -/
def ofRatio (negative : Bool) (num den : Nat) : Binary64 :=
  if num = 0 then .finite negative 0 (-1074)
  else
    let q := max (binaryExponent num den - 52) (-1074)
    let m := if 0 ≤ q then roundQuotient num (den * Nat.pow 2 q.toNat)
      else roundQuotient (num * Nat.pow 2 (-q).toNat) den
    let (m, q) := if m = Nat.pow 2 53 then (Nat.pow 2 52, q + 1) else (m, q)
    if 971 < q then .infinity negative else .finite negative m q

/-- The number nearest to an integer. -/
def ofInt (i : Int) : Binary64 :=
  ofRatio (i < 0) i.natAbs 1

/-- A power of ten scales the digits; exponents far outside the range are not computed. -/
def ofDecimal (negative : Bool) (digits : Nat) (exponent : Int) : Binary64 :=
  if digits = 0 then .finite negative 0 (-1074)
  else
    let size : Int := (digits.log2 : Int)
    if 1200 < exponent then .infinity negative
    else if exponent * 3 + size < -1200 then .finite negative 0 (-1074)
    else if 0 ≤ exponent then ofRatio negative (digits * Nat.pow 10 exponent.toNat) 1
    else ofRatio negative digits (Nat.pow 10 (-exponent).toNat)

def isZero : Binary64 → Bool
  | .finite _ 0 _ => true
  | _ => false

def isNegative : Binary64 → Bool
  | .nan => false
  | .infinity n => n
  | .finite n m _ => n && m != 0

/-- Numerator and denominator of a finite number. -/
def ratio? : Binary64 → Option (Int × Nat)
  | .finite n m e =>
    let (num, den) := if 0 ≤ e then (m * Nat.pow 2 e.toNat, 1) else (m, Nat.pow 2 (-e).toNat)
    some (if n then -(num : Int) else num, den)
  | _ => none

/-- A number or an integer on a common scale with the infinities at the ends. -/
inductive Extended where
  | below
  | ratio (num : Int) (den : Nat)
  | above

def extended? : Binary64 → Option Extended
  | .nan => none
  | .infinity true => some .below
  | .infinity false => some .above
  | x@(.finite ..) => x.ratio?.map fun (n, d) => .ratio n d

/-- Exact order of two values on the common scale. -/
def Extended.compare : Extended → Extended → Ordering
  | .below, .below => .eq
  | .below, _ => .lt
  | _, .below => .gt
  | .above, .above => .eq
  | .above, _ => .gt
  | _, .above => .lt
  | .ratio a b, .ratio c d => Ord.compare (a * (d : Int)) (c * (b : Int))

/-- The order of two numbers; none when one of them is not a number. -/
def compare? (x y : Binary64) : Option Ordering :=
  match x.extended?, y.extended? with
  | some a, some b => some (a.compare b)
  | _, _ => none

/-- The order of a number and an integer, exact for every integer. -/
def compareInt? (x : Binary64) (i : Int) : Option Ordering :=
  x.extended?.map fun a => a.compare (.ratio i 1)

def neg : Binary64 → Binary64
  | .nan => .nan
  | .infinity n => .infinity !n
  | .finite n m e => .finite (!n) m e

def abs : Binary64 → Binary64
  | .nan => .nan
  | .infinity _ => .infinity false
  | .finite _ m e => .finite false m e

/-- The nearest number to a quotient whose numerator carries the sign; a zero is positive unless
it comes from two negative zeros. -/
def ofSigned (num : Int) (den : Nat) (zeroNegative : Bool) : Binary64 :=
  if num = 0 then .finite zeroNegative 0 (-1074) else ofRatio (num < 0) num.natAbs den

def add : Binary64 → Binary64 → Binary64
  | .nan, _ => .nan
  | _, .nan => .nan
  | .infinity a, .infinity b => if a = b then .infinity a else .nan
  | .infinity a, .finite .. => .infinity a
  | .finite .., .infinity b => .infinity b
  | x@(.finite n ..), y@(.finite n' ..) =>
    match x.ratio?, y.ratio? with
    | some (a, b), some (c, d) => ofSigned (a * (d : Int) + c * (b : Int)) (b * d) (n && n')
    | _, _ => .nan

def mul : Binary64 → Binary64 → Binary64
  | .nan, _ => .nan
  | _, .nan => .nan
  | .infinity a, y => if y.isZero then .nan else .infinity (a != y.isNegative)
  | x, .infinity b => if x.isZero then .nan else .infinity (x.isNegative != b)
  | x@(.finite n ..), y@(.finite n' ..) =>
    match x.ratio?, y.ratio? with
    | some (a, b), some (c, d) => ofSigned (a * c) (b * d) (n != n')
    | _, _ => .nan

/-- The quotient by a positive natural number. -/
def divNat (x : Binary64) (k : Nat) : Binary64 :=
  match x, x.ratio? with
  | .finite n .., some (a, b) => ofSigned a (b * k) n
  | _, _ => x

/-- The least integer that is not below a finite number. -/
def ceil? (x : Binary64) : Option Int :=
  x.ratio?.map fun (a, b) => -((-a) / (b : Int))

/-- The greatest integer that is not above a finite number. -/
def floor? (x : Binary64) : Option Int :=
  x.ratio?.map fun (a, b) => a / (b : Int)

end Binary64

end LineAssist
