import LineAssist.Shell.MachineWord
import LineAssist.Text.Digit

/-!
# Arithmetic of a shell

Expressions over integers with the usual operators, from the loosest to the tightest: a choice,
disjunction, conjunction, operations on bits, comparisons, shifts, sums, products and signs. A name
stands for the value of its variable.
-/

namespace LineAssist.Shell

inductive ArithmeticFault where
  | malformed
  | divisionByZero
  deriving DecidableEq, Repr

namespace Arithmetic

/-- The binary operators of each level, the longer ones first. -/
def levels : List (List String) :=
  [["||"], ["&&"], ["|"], ["^"], ["&"], ["==", "!="], ["<=", ">=", "<", ">"], ["<<", ">>"],
    ["+", "-"], ["*", "/", "%"]]

def truth (b : Bool) : Int :=
  if b then 1 else 0

/-- Applies an operation on bits to the residues modulo the word size. -/
def onBits (f : Nat → Nat → Nat) (a b : Int) : Int :=
  Int.bmod (f (a % wordSize).toNat (b % wordSize).toNat : Nat) wordSize

def apply (operator : String) (a b : Int) : Except ArithmeticFault Int :=
  match operator with
  | "||" => .ok (truth (a != 0 || b != 0))
  | "&&" => .ok (truth (a != 0 && b != 0))
  | "|" => .ok (onBits Nat.lor a b)
  | "^" => .ok (onBits Nat.xor a b)
  | "&" => .ok (onBits Nat.land a b)
  | "==" => .ok (truth (a == b))
  | "!=" => .ok (truth (a != b))
  | "<=" => .ok (truth (a ≤ b))
  | ">=" => .ok (truth (b ≤ a))
  | "<" => .ok (truth (a < b))
  | ">" => .ok (truth (b < a))
  | "<<" => .ok (Int.bmod (a * Nat.pow 2 (b % 64).toNat) wordSize)
  | ">>" => .ok (Int.fdiv a (Nat.pow 2 (b % 64).toNat))
  | "+" => .ok (Int.bmod (a + b) wordSize)
  | "-" => .ok (Int.bmod (a - b) wordSize)
  | "*" => .ok (Int.bmod (a * b) wordSize)
  | "/" => if b = 0 then .error .divisionByZero else .ok (Int.bmod (Int.tdiv a b) wordSize)
  | "%" => if b = 0 then .error .divisionByZero else .ok (Int.tmod a b)
  | _ => .error .malformed

def skipSpace (t : Text) : Text :=
  t.dropWhile fun c => c == ' ' || c == '\t' || c == '\n'

/-- The operator of a level at the start of a text. A single sign is none when it is the start of
a doubled one. -/
def operator? (level : List String) (t : Text) : Option (String × Text) :=
  level.findSome? fun operator =>
    match Text.stripStart? operator.toList t with
    | some rest =>
      let doubled := operator.toList.length = 1 && rest.head? == operator.toList.head? &&
        ["|", "&", "<", ">"].contains operator
      if doubled then none else some (operator, rest)
    | none => none

/-- An integer: decimal, octal behind a zero, or hexadecimal behind `0x`. -/
def number? (t : Text) : Option (Int × Text) :=
  let based (base : Nat) (digits rest : Text) : Option (Int × Text) := do
    let values ← digits.mapM Text.hexValue?
    if values.all (· < base) then
      some ((values.foldl (fun n v => base * n + v) 0 : Nat), rest)
    else none
  let (digits, rest) := t.span Char.isAlphanum
  match digits with
  | '0' :: 'x' :: hex => if hex.isEmpty then none else based 16 hex rest
  | '0' :: octal => based 8 octal rest
  | _ :: _ => based 10 digits rest
  | [] => none

mutual

/-- A sign, a bracket, a name or a number. -/
def readAtom (value : Text → Int) : Nat → Text → Except ArithmeticFault (Int × Text)
  | 0, _ => .error .malformed
  | fuel + 1, t =>
    match skipSpace t with
    | '-' :: rest => do
      let (a, rest) ← readAtom value fuel rest
      .ok (a.neg, rest)
    | '+' :: rest => readAtom value fuel rest
    | '!' :: rest => do
      let (a, rest) ← readAtom value fuel rest
      .ok (truth (a == 0), rest)
    | '~' :: rest => do
      let (a, rest) ← readAtom value fuel rest
      .ok (Int.neg a - 1, rest)
    | '(' :: rest => do
      let (a, rest) ← readChoice value fuel rest
      match skipSpace rest with
      | ')' :: rest => .ok (a, rest)
      | _ => .error .malformed
    | '$' :: c :: rest =>
      let (name, rest) := (c :: rest).span fun c => c.isAlphanum || c == '_'
      if name.isEmpty then .error .malformed else .ok (value name, rest)
    | c :: rest =>
      if c.isAlpha || c == '_' then
        let (name, rest) := (c :: rest).span fun c => c.isAlphanum || c == '_'
        .ok (value name, rest)
      else
        match number? (c :: rest) with
        | some found => .ok found
        | none => .error .malformed
    | [] => .error .malformed

/-- Operands of a level with its operators between them, from the left. -/
def readLevel (value : Text → Int) : Nat → List (List String) → Text →
    Except ArithmeticFault (Int × Text)
  | 0, _, _ => .error .malformed
  | fuel + 1, [], t => readAtom value fuel t
  | fuel + 1, level :: tighter, t => do
    let (a, rest) ← readLevel value fuel tighter t
    readMore value fuel level tighter a rest

/-- Further operands of a level. -/
def readMore (value : Text → Int) : Nat → List String → List (List String) → Int → Text →
    Except ArithmeticFault (Int × Text)
  | 0, _, _, _, _ => .error .malformed
  | fuel + 1, level, tighter, a, t =>
    match operator? level (skipSpace t) with
    | none => .ok (a, t)
    | some (operator, rest) => do
      let (b, rest) ← readLevel value fuel tighter rest
      readMore value fuel level tighter (← apply operator a b) rest

/-- A choice between two values, or a single one. -/
def readChoice (value : Text → Int) : Nat → Text → Except ArithmeticFault (Int × Text)
  | 0, _ => .error .malformed
  | fuel + 1, t => do
    let (a, rest) ← readLevel value fuel levels t
    match skipSpace rest with
    | '?' :: rest => do
      let (b, rest) ← readChoice value fuel rest
      match skipSpace rest with
      | ':' :: rest => do
        let (c, rest) ← readChoice value fuel rest
        .ok (if a = 0 then c else b, rest)
      | _ => .error .malformed
    | rest => .ok (a, rest)

end

/-- The value of a whole expression; an empty one is zero. -/
def eval (value : Text → Int) (t : Text) : Except ArithmeticFault Int := do
  if (skipSpace t).isEmpty then .ok 0
  else
    let (a, rest) ← readChoice value (16 * t.length + 32) t
    if (skipSpace rest).isEmpty then .ok a else .error .malformed

end Arithmetic

end LineAssist.Shell
