import LineAssist.Query.Expr
import LineAssist.Text.Quoted

/-!
# Values of a query

What an expression evaluates to: a JSON value that may hold references to expressions, and whose
object keys may be any scalar. Equality compares numbers and booleans by their numeric value and
objects without regard to order.

What is not a number equals no number. Inside an array or an object it still stands for itself: all
of JSON are one, and each one that is computed carries a mark of its own. A reference carries a
mark for the same reason and equals only itself.
-/

namespace LineAssist.Query

inductive Value where
  | null
  | bool (b : Bool)
  | int (i : Int)
  | float (x : Binary64)
  | str (t : Text)
  | arr (items : List Value)
  | obj (fields : List (Value × Value))
  | reference (mark : Nat) (e : Expr)
  /-- A computed result that is not a number. -/
  | indefinite (mark : Nat)
  deriving Inhabited, Repr

/-- An exact integer or a binary fraction. -/
inductive Number where
  | int (i : Int)
  | float (x : Binary64)
  deriving DecidableEq, Repr

namespace Number

/-- The order of two numbers; none when one is not a number. -/
def compare? : Number → Number → Option Ordering
  | .int a, .int b => some (Ord.compare a b)
  | .int a, .float y => (y.compareInt? a).map Ordering.swap
  | .float x, .int b => x.compareInt? b
  | .float x, .float y => x.compare? y

def isZero : Number → Bool
  | .int i => i == 0
  | .float x => x.isZero

end Number

namespace Value

mutual

def ofJson : Json → Value
  | .null => .null
  | .bool b => .bool b
  | .int i => .int i
  | .float x => .float x
  | .str t => .str t
  | .arr items => .arr (ofItems items)
  | .obj fields => .obj (ofFields fields)

def ofItems : List Json → List Value
  | [] => []
  | v :: rest => ofJson v :: ofItems rest

def ofFields : List (Text × Json) → List (Value × Value)
  | [] => []
  | (k, v) :: rest => (.str k, ofJson v) :: ofFields rest

end

/-- A number that is no boolean. -/
def number? : Value → Option Number
  | .int i => some (.int i)
  | .float x => some (.float x)
  | .indefinite _ => some (.float .nan)
  | _ => none

/-- The numeric value of a number or a boolean. -/
def numeric? : Value → Option Number
  | .bool b => some (.int (if b then 1 else 0))
  | v => v.number?

/-- Equality of values that hold no others. -/
def scalarEq (a b : Value) : Bool :=
  match a.numeric?, b.numeric? with
  | some x, some y => x.compare? y == some .eq
  | _, _ =>
    match a, b with
    | .null, .null => true
    | .str s, .str t => s == t
    | .reference m _, .reference n _ => m == n
    | _, _ => false

/-- Both are the same thing that is not a number. -/
def sameIndefinite : Value → Value → Bool
  | .float .nan, .float .nan => true
  | .indefinite m, .indefinite n => m == n
  | _, _ => false

/-- Two keys of objects have one place. -/
def sameKey (a b : Value) : Bool :=
  a.sameIndefinite b || a.scalarEq b

/-- The value under a key. -/
def lookupKey (key : Value) : List (Value × Value) → Option Value
  | [] => none
  | (k, v) :: rest => if k.sameKey key then some v else lookupKey key rest

/-- Writes a value under a key, which keeps its place and spelling if it is there. -/
def putKey (key value : Value) : List (Value × Value) → List (Value × Value)
  | [] => [(key, value)]
  | (k, v) :: rest =>
    if k.sameKey key then (k, value) :: rest else (k, v) :: putKey key value rest

mutual

/-- Equality of values. What stands inside an array or an object equals itself, even if it is not a
number. -/
def eq : Value → Value → Bool
  | .arr xs, .arr ys => eqItems xs ys
  | .obj fs, .obj gs => fs.length == gs.length && eqFields fs gs
  | a, b => scalarEq a b

def eqItems : List Value → List Value → Bool
  | [], [] => true
  | x :: xs, y :: ys => (x.sameIndefinite y || eq x y) && eqItems xs ys
  | _, _ => false

/-- Every field has an equal one. -/
def eqFields : List (Value × Value) → List (Value × Value) → Bool
  | [], _ => true
  | (k, v) :: rest, gs =>
    (match lookupKey k gs with
      | some w => v.sameIndefinite w || eq v w
      | none => false) && eqFields rest gs

end

/-- A value is among those of an array. -/
def isAmong (v : Value) (items : List Value) : Bool :=
  items.any fun item => item.sameIndefinite v || item.eq v

/-- Null, false and everything empty count as false. -/
def isFalse : Value → Bool
  | .null => true
  | .bool b => !b
  | .str t => t.isEmpty
  | .arr items => items.isEmpty
  | .obj fields => fields.isEmpty
  | _ => false

/-- The types of the query language. -/
inductive Kind where
  | null
  | boolean
  | number
  | string
  | array
  | object
  | expref
  deriving DecidableEq, Repr

def kind : Value → Kind
  | .null => .null
  | .bool _ => .boolean
  | .int _ => .number
  | .float _ => .number
  | .str _ => .string
  | .arr _ => .array
  | .obj _ => .object
  | .reference .. => .expref
  | .indefinite _ => .number

def Kind.name : Kind → Text
  | .null => "null".toList
  | .boolean => "boolean".toList
  | .number => "number".toList
  | .string => "string".toList
  | .array => "array".toList
  | .object => "object".toList
  | .expref => "expref".toList

/-- The name of an element's type in a message about a typed array. -/
def elementName : Value → Text
  | .null => "NoneType".toList
  | .bool _ => "bool".toList
  | .int _ => "int".toList
  | .float _ => "float".toList
  | .str _ => "str".toList
  | .arr _ => "list".toList
  | .obj _ => "dict".toList
  | .reference .. => "_Expression".toList
  | .indefinite _ => "float".toList

mutual

/-- How a value is shown inside another one in a message. -/
def shown : Value → Text
  | .null => "None".toList
  | .bool true => "True".toList
  | .bool false => "False".toList
  | .int i => Text.ofInt i
  | .float x => Json.shownDecimals.text x
  | .str t => Text.shown t
  | .arr [] => ['[', ']']
  | .arr (v :: rest) => '[' :: shown v ++ shownItems rest ++ [']']
  | .obj [] => ['{', '}']
  | .obj ((k, v) :: rest) => '{' :: shown k ++ ": ".toList ++ shown v ++ shownFields rest ++ ['}']
  | .reference .. => "<expression>".toList
  | .indefinite _ => Json.shownDecimals.text .nan

/-- The further items of an array, each behind a comma. -/
def shownItems : List Value → Text
  | [] => []
  | v :: rest => ", ".toList ++ shown v ++ shownItems rest

/-- The further fields of an object, each behind a comma. -/
def shownFields : List (Value × Value) → Text
  | [] => []
  | (k, v) :: rest => ", ".toList ++ shown k ++ ": ".toList ++ shown v ++ shownFields rest

end

mutual

/-- A value with texts in place of its references. -/
def spelled : Value → Value
  | .reference m e => .str (shown (.reference m e))
  | .arr items => .arr (spelledItems items)
  | .obj fields => .obj (spelledFields fields)
  | v => v

def spelledItems : List Value → List Value
  | [] => []
  | v :: rest => spelled v :: spelledItems rest

def spelledFields : List (Value × Value) → List (Value × Value)
  | [] => []
  | (k, v) :: rest => (k, spelled v) :: spelledFields rest

end

/-- How a value is shown in a message: a text by itself stands bare. -/
def message : Value → Text
  | .str t => t
  | v => v.shown

end Value

/-- Why a value has no JSON text. -/
inductive DumpError where
  /-- The value holds a reference to an expression. -/
  | reference
  /-- An integer has too many digits. -/
  | longInteger
  deriving DecidableEq, Repr

namespace Value

/-- The text of an object key. -/
def keyText : Value → Except DumpError Text
  | .str t => .ok t
  | .null => .ok "null".toList
  | .bool true => .ok "true".toList
  | .bool false => .ok "false".toList
  | .int i => if LineAssist.Number.isShort i then .ok (Text.ofInt i)
    else .error .longInteger
  | .float x => .ok (Json.decimals.text x)
  | .indefinite _ => .ok (Json.decimals.text .nan)
  | _ => .error .reference

mutual

/-- The JSON value that can be written, or the first fault in the order of writing. -/
def toJson : Value → Except DumpError Json
  | .null => .ok .null
  | .bool b => .ok (.bool b)
  | .int i => if LineAssist.Number.isShort i then .ok (.int i)
    else .error .longInteger
  | .float x => .ok (.float x)
  | .str t => .ok (.str t)
  | .arr items => do .ok (.arr (← toItems items))
  | .obj fields => do .ok (.obj (← toFields fields))
  | .reference .. => .error .reference
  | .indefinite _ => .ok (.float .nan)

def toItems : List Value → Except DumpError (List Json)
  | [] => .ok []
  | v :: rest => do
    let j ← toJson v
    let more ← toItems rest
    .ok (j :: more)

def toFields : List (Value × Value) → Except DumpError (List (Text × Json))
  | [] => .ok []
  | (k, v) :: rest => do
    let key ← keyText k
    let j ← toJson v
    let more ← toFields rest
    .ok ((key, j) :: more)

end

end Value

end LineAssist.Query
