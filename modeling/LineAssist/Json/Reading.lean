import LineAssist.Json.Basic
import LineAssist.Number.Reading

/-!
# Reading JSON

A recursive descent over the text that returns the value and the text behind it. White space is
the four JSON characters. `NaN`, `Infinity` and `-Infinity` are numbers; a number with a fraction
or an exponent is a binary fraction; an integer has at most 4300 digits. A key that is written
twice keeps its first place and its last value.

Every array and object that is open, empty ones too, takes a level of the stack. The text that goes
deeper than there is room for is given up where it does, even if it is malformed behind that place.
-/

namespace LineAssist.Json

/-- Why a text is not read. -/
inductive ReadError where
  /-- The text is not JSON. -/
  | malformed
  /-- An integer has too many digits. -/
  | longInteger
  /-- Arrays and objects nest too deep. -/
  | tooDeep
  deriving DecidableEq, Repr

/-- White space between the tokens. -/
def isSpace (c : Char) : Bool :=
  c == ' ' || c == '\t' || c == '\n' || c == '\r'

def skipSpace (t : Text) : Text :=
  t.dropWhile isSpace

/-- The value of four hexadecimal digits. -/
def hexUnit? (a b c d : Char) : Option Nat := do
  let a ← Text.hexValue? a
  let b ← Text.hexValue? b
  let c ← Text.hexValue? c
  let d ← Text.hexValue? d
  some (((a * 16 + b) * 16 + c) * 16 + d)

/-- The character behind a backslash, other than the one for a hexadecimal unit. -/
def escaped? : Char → Option Char
  | '"' => some '"'
  | '\\' => some '\\'
  | '/' => some '/'
  | 'b' => some '\x08'
  | 'f' => some '\x0c'
  | 'n' => some '\n'
  | 'r' => some '\r'
  | 't' => some '\t'
  | _ => none

/-- The units of a string up to its closing quote, and the text behind the quote. -/
def readUnits : Text → Option (List Nat × Text)
  | [] => none
  | '"' :: rest => some ([], rest)
  | '\\' :: 'u' :: a :: b :: c :: d :: rest => do
    let n ← hexUnit? a b c d
    let (units, after) ← readUnits rest
    some (n :: units, after)
  | '\\' :: c :: rest => do
    let e ← escaped? c
    let (units, after) ← readUnits rest
    some (e.toNat :: units, after)
  | c :: rest => do
    if c.toNat < 0x20 ∨ c = '\\' then none
    else
      let (units, after) ← readUnits rest
      some (c.toNat :: units, after)

/-- Units as characters; a high surrogate and the low one behind it are one character, and one
that stands alone is the replacement character. -/
def ofUnits : List Nat → Text
  | [] => []
  | [n] => [if 0xD800 ≤ n ∧ n ≤ 0xDFFF then '\uFFFD' else Char.ofNat n]
  | n :: m :: rest =>
    if 0xD800 ≤ n ∧ n ≤ 0xDBFF ∧ 0xDC00 ≤ m ∧ m ≤ 0xDFFF then
      Char.ofNat (0x10000 + (n - 0xD800) * 0x400 + (m - 0xDC00)) :: ofUnits rest
    else
      (if 0xD800 ≤ n ∧ n ≤ 0xDFFF then '\uFFFD' else Char.ofNat n) :: ofUnits (m :: rest)

/-- A string behind its opening quote, and the text behind its closing one. -/
def readString (t : Text) : Option (Text × Text) :=
  (readUnits t).map fun (units, rest) => (ofUnits units, rest)

/-- A fraction: a point and at least one digit. -/
def readFraction (t : Text) : Option Text × Text :=
  match t with
  | '.' :: rest =>
    let (digits, after) := Text.spanDigits rest
    if digits.isEmpty then (none, t) else (some digits, after)
  | _ => (none, t)

/-- An exponent: `e`, an optional sign and at least one digit. -/
def readExponent (t : Text) : Option Int × Text :=
  match t with
  | c :: rest =>
    if c = 'e' ∨ c = 'E' then
      let (negative, unsigned) := Number.spanSign rest
      let (digits, after) := Text.spanDigits unsigned
      if digits.isEmpty then (none, t)
      else
        let n : Int := (Text.digitsValue digits : Nat)
        (some (if negative then -n else n), after)
    else (none, t)
  | [] => (none, t)

/-- The whole part of a number: a zero, or digits that do not start with one. -/
def readWhole (t : Text) : Option (Text × Text) :=
  match t with
  | '0' :: rest => some (['0'], rest)
  | _ =>
    let (digits, rest) := Text.spanDigits t
    if digits.isEmpty then none else some (digits, rest)

/-- A number without its sign. -/
def readMagnitude (negative : Bool) (t : Text) : Except ReadError (Json × Text) :=
  match readWhole t with
  | none => .error .malformed
  | some (whole, rest) =>
    let (fraction, rest) := readFraction rest
    let (exponent, rest) := readExponent rest
    match fraction, exponent with
    | none, none =>
      if Number.digitLimit < whole.length then .error .longInteger
      else
        let n : Int := (Text.digitsValue whole : Nat)
        .ok (.int (if negative then -n else n), rest)
    | _, _ =>
      let digits := fraction.getD []
      let e := exponent.getD 0 - (digits.length : Int)
      .ok (.float (Binary64.ofDecimal negative (Text.digitsValue (whole ++ digits)) e), rest)

/-- The words that are values. -/
def readWord (t : Text) : Option (Json × Text) :=
  let named (word : String) (v : Json) := (Text.stripStart? word.toList t).map fun rest => (v, rest)
  named "null" .null <|> named "true" (.bool true) <|> named "false" (.bool false) <|>
    named "NaN" (.float .nan) <|> named "Infinity" (.float (.infinity false)) <|>
    named "-Infinity" (.float (.infinity true))

/-- The room inside of an array or object, if there is room for one. -/
def enter : Option Nat → Except ReadError (Option Nat)
  | none => .ok none
  | some 0 => .error .tooDeep
  | some (levels + 1) => .ok (some levels)

mutual

/-- A value at the start of the text, and the text behind it. -/
def readValue (room : Option Nat) : Nat → Text → Except ReadError (Json × Text)
  | 0, _ => .error .malformed
  | fuel + 1, t =>
    match t with
    | '"' :: rest =>
      match readString rest with
      | some (s, after) => .ok (.str s, after)
      | none => .error .malformed
    | '[' :: rest => do
      let inside ← enter room
      match skipSpace rest with
      | ']' :: after => .ok (.arr [], after)
      | first => do
        let (items, after) ← readItems inside fuel first
        .ok (.arr items, after)
    | '{' :: rest => do
      let inside ← enter room
      match skipSpace rest with
      | '}' :: after => .ok (.obj [], after)
      | first => do
        let (fields, after) ← readFields inside fuel first
        .ok (.obj (ofEntries fields), after)
    | _ =>
      match readWord t with
      | some found => .ok found
      | none =>
        match t with
        | '-' :: rest => readMagnitude true rest
        | _ => readMagnitude false t

/-- The items of an array from its first one to the closing bracket. -/
def readItems (room : Option Nat) : Nat → Text → Except ReadError (List Json × Text)
  | 0, _ => .error .malformed
  | fuel + 1, t => do
    let (v, rest) ← readValue room fuel t
    match skipSpace rest with
    | ']' :: after => .ok ([v], after)
    | ',' :: more => do
      let (items, after) ← readItems room fuel (skipSpace more)
      .ok (v :: items, after)
    | _ => .error .malformed

/-- The fields of an object from its first key to the closing brace. -/
def readFields (room : Option Nat) :
    Nat → Text → Except ReadError (List (Text × Json) × Text)
  | 0, _ => .error .malformed
  | fuel + 1, t =>
    match t with
    | '"' :: quoted =>
      match readString quoted with
      | none => .error .malformed
      | some (key, rest) =>
        match skipSpace rest with
        | ':' :: valueText => do
          let (v, rest) ← readValue room fuel (skipSpace valueText)
          match skipSpace rest with
          | '}' :: after => .ok ([(key, v)], after)
          | ',' :: more => do
            let (fields, after) ← readFields room fuel (skipSpace more)
            .ok ((key, v) :: fields, after)
          | _ => .error .malformed
        | _ => .error .malformed
    | _ => .error .malformed

end

/-- Reads a whole text as one value, for which there is some room. -/
def readWithin (room : Option Nat) (t : Text) : Except ReadError Json := do
  let start := skipSpace t
  let (v, rest) ← readValue room (start.length + 1) start
  if (skipSpace rest).isEmpty then .ok v else .error .malformed

/-- Reads a whole text as one value, to whatever level it nests. -/
def read (t : Text) : Except ReadError Json :=
  readWithin none t

end LineAssist.Json
