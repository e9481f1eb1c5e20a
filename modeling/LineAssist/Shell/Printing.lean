import LineAssist.Shell.MachineWord
import LineAssist.Text.Digit
import LineAssist.Text.Utf8

/-!
# Printing of a shell

The escapes and formats by which `echo` and `printf` print their arguments as octets.
-/

namespace LineAssist.Shell

abbrev Octets := List UInt8

def octets (s : String) : Octets :=
  Text.encodeUtf8 s.toList

namespace Printing

def octet (c : Char) : UInt8 :=
  UInt8.ofNat c.toNat

def isOctal (b : UInt8) : Bool :=
  0x30 ≤ b && b ≤ 0x37

/-- The octet of at most so many octal digits, and what follows them. -/
def spanOctal (width value : Nat) : Octets → UInt8 × Octets
  | [] => (UInt8.ofNat value, [])
  | b :: rest =>
    if width = 0 || !isOctal b then (UInt8.ofNat value, b :: rest)
    else spanOctal (width - 1) (8 * value + (b.toNat - 0x30)) rest

/-- The letters that stand for controls behind a backslash. -/
def controls : List (Char × Nat) :=
  [('\\', 0x5C), ('a', 7), ('b', 8), ('f', 12), ('n', 10), ('r', 13), ('t', 9), ('v', 11)]

/-- The octet that an escape behind a backslash stands for, and what follows; a backslash that
starts no escape stands for itself. -/
def escape (t : Octets) : UInt8 × Octets :=
  match t with
  | [] => (octet '\\', [])
  | b :: rest =>
    if isOctal b then spanOctal 3 0 t
    else
      match controls.find? fun (c, _) => octet c == b with
      | some (_, n) => (UInt8.ofNat n, rest)
      | none => (octet '\\', t)

/-- A text with its escapes read, where octal digits stand behind a zero, and whether it ends the
output. -/
def unescape : Nat → Octets → Octets × Bool
  | 0, _ => ([], false)
  | _, [] => ([], false)
  | fuel + 1, b :: rest =>
    if b != octet '\\' then
      let (out, stops) := unescape fuel rest
      (b :: out, stops)
    else
      match rest with
      | c :: digits =>
        if c = octet 'c' then ([], true)
        else
          let (x, after) := if c = octet '0' then spanOctal 3 0 digits else escape rest
          let (out, stops) := unescape fuel after
          (x :: out, stops)
      | [] => ([b], false)

/-- What `echo` prints. -/
def echo (arguments : List Octets) : Octets :=
  let (plain, arguments) := match arguments with
    | first :: rest => if first = octets "-n" then (true, rest) else (false, first :: rest)
    | [] => (false, [])
  let body := (arguments.intersperse [octet ' ']).flatten
  let (out, stops) := unescape (body.length + 1) body
  if stops || plain then out else out ++ [octet '\n']

/-- A conversion of a format: how a value is padded, and its letter. -/
structure Conversion where
  isLeft : Bool
  isZero : Bool
  isSigned : Bool
  width : Nat
  precision : Option Nat
  letter : Char

/-- Decimal digits at the start. -/
def spanNumber (t : Octets) : Nat × Octets :=
  let (digits, rest) := t.span fun b => 0x30 ≤ b && b ≤ 0x39
  (digits.foldl (fun n b => 10 * n + (b.toNat - 0x30)) 0, rest)

/-- The conversion behind a percent sign. -/
def conversion? (t : Octets) : Option (Conversion × Octets) :=
  let (flags, t) := t.span fun b => "-0+ #".toList.any fun c => octet c == b
  let (width, t) := spanNumber t
  let (precision, t) := match t with
    | b :: rest =>
      if b = octet '.' then
        let (n, rest) := spanNumber rest
        (some n, rest)
      else (none, t)
    | [] => (none, t)
  match t with
  | letter :: rest =>
    some (⟨flags.contains (octet '-'), flags.contains (octet '0'), flags.contains (octet '+'), width,
      precision, Char.ofNat letter.toNat⟩, rest)
  | [] => none

/-- Pads a value to a width. -/
def pad (c : Conversion) (isNumber : Bool) (value : Octets) : Octets :=
  let missing := c.width - value.length
  if c.isLeft then value ++ List.replicate missing (octet ' ')
  else if c.isZero && isNumber then
    match value with
    | b :: digits =>
      if b = octet '-' then b :: List.replicate missing (octet '0') ++ digits
      else List.replicate missing (octet '0') ++ value
    | [] => List.replicate missing (octet '0')
  else List.replicate missing (octet ' ') ++ value

/-- An integer argument: decimal, octal, hexadecimal, or a character behind a quote. -/
def integerOf (t : Octets) : Int :=
  let text := (Text.decodeUtf8Lossy t).dropWhile Text.isBlank
  let (negative, digits) := match text with
    | '-' :: rest => (true, rest)
    | '+' :: rest => (false, rest)
    | rest => (false, rest)
  let based (base : Nat) (t : Text) : Nat :=
    ((t.map Text.hexValue?).takeWhile fun v => v.any (· < base)).foldl
      (fun n v => base * n + v.getD 0) 0
  let n := match digits with
    | '\'' :: c :: _ => c.toNat
    | '"' :: c :: _ => c.toNat
    | '0' :: 'x' :: rest => based 16 rest
    | '0' :: 'X' :: rest => based 16 rest
    | '0' :: rest => based 8 rest
    | rest => based 10 rest
  if negative then Int.neg n else n

/-- The text of an argument under a conversion, and whether it ends the output. -/
def convert (c : Conversion) (argument : Octets) : Option (Octets × Bool) :=
  let number (base : Nat) (i : Int) : Octets × Bool :=
    let n := if base = 10 then i.natAbs else (i % wordSize).toNat
    let digits := Text.encodeUtf8 (Nat.toDigits base n)
    let digits := List.replicate (c.precision.getD 1 - digits.length) (octet '0') ++ digits
    let sign := if base = 10 ∧ i < 0 then [octet '-'] else if c.isSigned then [octet '+'] else []
    (pad c c.precision.isNone (sign ++ digits), false)
  let cut (t : Octets) : Octets := (c.precision.map fun n => t.take n).getD t
  match c.letter with
  | 's' => some (pad c false (cut argument), false)
  | 'b' =>
    let (out, stops) := unescape (argument.length + 1) argument
    some (pad c false (cut out), stops)
  | 'c' => some (pad c false (argument.take 1), false)
  | 'd' => some (number 10 (integerOf argument))
  | 'i' => some (number 10 (integerOf argument))
  | 'u' => some (number 10 (integerOf argument % wordSize))
  | 'o' => some (number 8 (integerOf argument))
  | 'x' => some (number 16 (integerOf argument))
  | 'X' =>
    let (out, stops) := number 16 (integerOf argument)
    some (out.map fun b => if 0x61 ≤ b && b ≤ 0x66 then b - 0x20 else b, stops)
  | _ => none

/-- Prints a format once: the output, the arguments left, whether one was taken, and whether the
output ends here. None when a conversion is not known. -/
def formatOnce : Nat → Octets → List Octets → Bool → Option (Octets × List Octets × Bool × Bool)
  | 0, _, arguments, taken => some ([], arguments, taken, false)
  | _, [], arguments, taken => some ([], arguments, taken, false)
  | fuel + 1, b :: rest, arguments, taken => do
    if b = octet '\\' then
      let (x, after) := escape rest
      let (out, arguments, taken, stops) ← formatOnce fuel after arguments taken
      some (x :: out, arguments, taken, stops)
    else if b != octet '%' then
      let (out, arguments, taken, stops) ← formatOnce fuel rest arguments taken
      some (b :: out, arguments, taken, stops)
    else
      match rest with
      | [] => none
      | c :: after =>
        if c = octet '%' then
          let (out, arguments, taken, stops) ← formatOnce fuel after arguments taken
          some (c :: out, arguments, taken, stops)
        else
          let (conversion, after) ← conversion? rest
          let (shown, stops) ← convert conversion (arguments.headD [])
          if stops then some (shown, [], true, true)
          else
            let (out, left, _, stops) ← formatOnce fuel after arguments.tail true
            some (shown ++ out, left, true, stops)

/-- Prints a format again as long as arguments are left and taken. -/
def format : Nat → Octets → List Octets → Option Octets
  | 0, _, _ => some []
  | fuel + 1, form, arguments => do
    let (out, left, taken, stops) ← formatOnce (form.length + 1) form arguments false
    if stops || !taken || left.isEmpty then some out
    else some (out ++ (← format fuel form left))

end Printing

end LineAssist.Shell
