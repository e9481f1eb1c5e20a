import LineAssist.Calendar
import LineAssist.Query.Value

/-!
# Values of documents

Keys are compared by value, so that a key written twice, or as an equal number or the same moment,
is one key: the first spelling stays with the last value. The word for what is not a number is one
key too; a text that is read as such a number is the key of its node alone.
-/

namespace LineAssist.Yaml

inductive Value where
  | null
  | bool (b : Bool)
  | int (i : Int)
  | float (x : Binary64)
  /-- What a node spells that is not a number, other than by its word. -/
  | indefinite (place : Nat)
  | str (t : Text)
  | octets (os : List UInt8)
  | moment (m : Calendar.Moment)
  | list (items : List Value)
  /-- A pair of an ordered mapping. -/
  | couple (key value : Value)
  | set (items : List Value)
  | map (pairs : List (Value × Value))
  deriving Inhabited, Repr

namespace Value

/-- The value can be a key. -/
def isKey : Value → Bool
  | .list _ => false
  | .couple k v => k.isKey && v.isKey
  | .set _ => false
  | .map _ => false
  | _ => true

/-- The numeric value of a number or a truth value. -/
def number? : Value → Option Query.Number
  | .bool b => some (.int (if b then 1 else 0))
  | .int i => some (.int i)
  | .float x => some (.float x)
  | .indefinite _ => some (.float .nan)
  | _ => none

/-- Equality of keys. -/
def keyEq (a b : Value) : Bool :=
  match a.number?, b.number? with
  | some x, some y =>
    match a, b with
    | .float .nan, .float .nan => true
    | .indefinite p, .indefinite q => p == q
    | _, _ => x.compare? y == some .eq
  | _, _ =>
    match a, b with
    | .null, .null => true
    | .str s, .str t => s == t
    | .octets s, .octets t => s == t
    | .moment s, .moment t => s.same t
    | .couple k v, .couple l w => keyEq k l && keyEq v w
    | _, _ => false

/-- Writes a pair: a known key keeps its place and spelling. -/
def put {α : Type} (key : Value) (value : α) : List (Value × α) → List (Value × α)
  | [] => [(key, value)]
  | (k, v) :: rest => if keyEq k key then (k, value) :: rest else (k, v) :: put key value rest

def ofPairs {α : Type} (pairs : List (Value × α)) : List (Value × α) :=
  pairs.foldl (fun acc (k, v) => put k v acc) []

/-- The value under a text key. -/
def get? (key : Text) : List (Value × Value) → Option Value
  | [] => none
  | (k, v) :: rest => if keyEq k (.str key) then some v else get? key rest

/-- Null, false, zero and everything empty count as nothing. -/
def isNothing : Value → Bool
  | .null => true
  | .bool b => !b
  | .int i => i == 0
  | .float x => x.isZero
  | .indefinite _ => false
  | .str t => t.isEmpty
  | .octets os => os.isEmpty
  | .moment _ => false
  | .list items => items.isEmpty
  | .couple _ _ => false
  | .set items => items.isEmpty
  | .map pairs => pairs.isEmpty

/-- An octet inside a shown octet text between quotes. -/
def shownOctet (quote : Char) (o : UInt8) : Text :=
  let n := o.toNat
  if n = 9 then "\\t".toList
  else if n = 10 then "\\n".toList
  else if n = 13 then "\\r".toList
  else if n = quote.toNat then ['\\', quote]
  else if n = 92 then "\\\\".toList
  else if 32 ≤ n && n < 127 then [Char.ofNat n]
  else "\\x".toList ++ Text.hex 2 n

/-- Octets as they are shown: in double quotes if they hold only single ones. -/
def shownOctets (os : List UInt8) : Text :=
  let quote := if os.contains 39 && !os.contains 34 then '"' else '\''
  'b' :: quote :: os.flatMap (shownOctet quote) ++ [quote]

/-- The text of a key of a mapping; a long integer has none. -/
def keyText? : Value → Option Text
  | .null => some "None".toList
  | .bool true => some "True".toList
  | .bool false => some "False".toList
  | .int i => if LineAssist.Number.isShort i then some (Text.ofInt i) else none
  | .float x => some (Json.shownDecimals.text x)
  | .indefinite _ => some (Json.shownDecimals.text .nan)
  | .str t => some t
  | .octets os => some (shownOctets os)
  | .moment m => some (m.text ' ')
  | _ => none

end Value

end LineAssist.Yaml
