import LineAssist.Json.Basic
import LineAssist.Number.Reading
import LineAssist.Query.Value
import LineAssist.Unreachable

/-!
# Requests to run a line

The editor names a document and a line of it in an object. A line number may also be written as a
truth value, as a decimal number without a fraction, or as a text.
-/

namespace LineAssist.Editor

structure RunRequest where
  uri : Text
  line : Int
  deriving DecidableEq, Repr

namespace RunRequest

/-- Why a payload is not a request. -/
inductive Fault where
  /-- The payload is not an object at all. -/
  | payload (report : Unreachable)
  /-- The number of fields that are missing or cannot be used. -/
  | fields (count : Nat)
  deriving DecidableEq, Repr

/-- The name of the command in the editor. -/
def command : Text := "clisense.runLineInEditor".toList

/-- The summary of a fault. -/
def Fault.message : Fault → Text
  | .payload report => report.report
  | .fields count =>
    Text.ofNat count ++ " validation error".toList ++ (if count = 1 then [] else ['s'])
      ++ " for RunLineRequest".toList

/-- The text behind zeros, and underscores among them, in front of a number: from its first other
digit or a minus, or from the last zero in front of a point or of the end. The text begins behind a
zero or an underscore, which is given. -/
def behindZeros? (previous : Char) : Text → Option Text
  | [] => some [previous]
  | c :: rest =>
    if c = '0' ∨ c = '_' then behindZeros? c rest
    else if Text.isDigit c ∨ c = '-' then some (c :: rest)
    else if c = '.' then some (previous :: c :: rest)
    else none

/-- A number without zeros in front. It has to start with a digit. -/
def withoutZeros? : Text → Option Text
  | '0' :: rest => behindZeros? '0' rest
  | c :: rest => if Text.isDigit c then some (c :: rest) else none
  | [] => none

/-- A number without a fraction of zeros. -/
def withoutFraction (t : Text) : Text :=
  match Text.cut? '.' t with
  | some (whole, fraction) => if !fraction.isEmpty && fraction.all (· == '0') then whole else t
  | none => t

/-- A number without its underscores, if they are single and none is at an end. -/
def withoutUnderscores (t : Text) : Text :=
  if t.head? == some '_' || t.getLast? == some '_' || Text.containsText ['_', '_'] t then t
  else t.filter (· != '_')

/-- An integer in its plain form: digits without a zero in front, behind an optional minus. -/
def plainInteger? (t : Text) : Option Int :=
  let (negative, digits) := match t with
    | '-' :: rest => (true, rest)
    | _ => (false, t)
  if digits.isEmpty || !digits.all Text.isDigit || (digits.head? == some '0' && digits != ['0']) ||
    Number.digitLimit < t.length then none
  else
    let n : Int := (Text.digitsValue digits : Nat)
    some (if negative then Int.neg n else n)

/-- An integer as a text may give it: with white space around it, a sign, zeros in front, single
underscores and a fraction of zeros. -/
def integer? (t : Text) : Option Int := do
  let (negative, magnitude) := Number.spanSign (Number.trimSpace t)
  let plain := withoutUnderscores (withoutFraction (← withoutZeros? magnitude))
  plainInteger? (if negative then '-' :: plain else plain)

/-- The decimal numbers that may stand for integers lie below this bound. -/
def floatBound : Int := 0x8000000000000000

/-- The line number that a value stands for. -/
def lineOf? : Json → Option Int
  | .int i => some i
  | .bool b => some (if b then 1 else 0)
  | .float x =>
    match x.floor?, x.ceil? with
    | some low, some high =>
      if low = high ∧ Int.neg floatBound < low ∧ low < floatBound then some low else none
    | _, _ => none
  | .str t => integer? t
  | _ => none

/-- The URI that a value stands for. -/
def uriOf? : Json → Option Text
  | .str t => some t
  | _ => none

/-- The report about a payload that is there and is not an object. -/
def wrongPayload (payload : Json) : Unreachable :=
  Unreachable.of "invalid command payload type".toList [("command".toList, .str command),
    ("payload_type".toList, .str (Query.Value.ofJson payload).elementName)]

/-- The report about a payload that is not there. -/
def missingPayload : Unreachable :=
  Unreachable.of "missing command payload".toList [("command".toList, .str command)]

/-- Reads a payload; other fields do not matter. -/
def read (payload : Json) : Except Fault RunRequest :=
  match payload with
  | .null => .error (.payload missingPayload)
  | .obj fields =>
    match (lookup "uri".toList fields).bind uriOf?, (lookup "line".toList fields).bind lineOf? with
    | some uri, some line => .ok ⟨uri, line⟩
    | none, none => .error (.fields 2)
    | _, _ => .error (.fields 1)
  | other => .error (.payload (wrongPayload other))

end RunRequest

end LineAssist.Editor
