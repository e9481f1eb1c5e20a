import LineAssist.Query.Marking
import LineAssist.Query.Sorting

/-!
# Functions of the query language

Each function declares the types of its arguments. A call is checked against them first and then
computed. Functions that take an expression reference apply it through `apply`.
-/

namespace LineAssist.Query

/-- The declared types of arguments; an array type may name the kind of its elements. -/
inductive Declared where
  | kind (k : Value.Kind)
  | arrayOf (k : Value.Kind)
  deriving DecidableEq, Repr

namespace Declared

def name : Declared → Text
  | .kind k => k.name
  | .arrayOf k => "array-".toList ++ k.name

def outer : Declared → Value.Kind
  | .kind k => k
  | .arrayOf _ => .array

def element? : Declared → Option Value.Kind
  | .kind _ => none
  | .arrayOf k => some k

end Declared

inductive Function where
  | abs
  | avg
  | ceil
  | contains
  | endsWith
  | floor
  | join
  | keys
  | length
  | map
  | max
  | maxBy
  | merge
  | min
  | minBy
  | notNull
  | reverse
  | sort
  | sortBy
  | startsWith
  | sum
  | toArray
  | toNumber
  | toString
  | type
  | values
  deriving DecidableEq, Repr

namespace Function

def all : List Function :=
  [.abs, .avg, .ceil, .contains, .endsWith, .floor, .join, .keys, .length, .map, .max, .maxBy,
    .merge, .min, .minBy, .notNull, .reverse, .sort, .sortBy, .startsWith, .sum, .toArray,
    .toNumber, .toString, .type, .values]

def name : Function → Text
  | .abs => "abs".toList
  | .avg => "avg".toList
  | .ceil => "ceil".toList
  | .contains => "contains".toList
  | .endsWith => "ends_with".toList
  | .floor => "floor".toList
  | .join => "join".toList
  | .keys => "keys".toList
  | .length => "length".toList
  | .map => "map".toList
  | .max => "max".toList
  | .maxBy => "max_by".toList
  | .merge => "merge".toList
  | .min => "min".toList
  | .minBy => "min_by".toList
  | .notNull => "not_null".toList
  | .reverse => "reverse".toList
  | .sort => "sort".toList
  | .sortBy => "sort_by".toList
  | .startsWith => "starts_with".toList
  | .sum => "sum".toList
  | .toArray => "to_array".toList
  | .toNumber => "to_number".toList
  | .toString => "to_string".toList
  | .type => "type".toList
  | .values => "values".toList

def ofName? (name : Text) : Option Function :=
  all.find? fun f => f.name == name

/-- The declared types of each argument; no types accept every value. -/
def signature : Function → List (List Declared)
  | .abs => [[.kind .number]]
  | .avg => [[.arrayOf .number]]
  | .ceil => [[.kind .number]]
  | .contains => [[.kind .array, .kind .string], []]
  | .endsWith => [[.kind .string], [.kind .string]]
  | .floor => [[.kind .number]]
  | .join => [[.kind .string], [.arrayOf .string]]
  | .keys => [[.kind .object]]
  | .length => [[.kind .string, .kind .array, .kind .object]]
  | .map => [[.kind .expref], [.kind .array]]
  | .max => [[.arrayOf .number, .arrayOf .string]]
  | .maxBy => [[.kind .array], [.kind .expref]]
  | .merge => [[.kind .object]]
  | .min => [[.arrayOf .number, .arrayOf .string]]
  | .minBy => [[.kind .array], [.kind .expref]]
  | .notNull => [[]]
  | .reverse => [[.kind .array, .kind .string]]
  | .sort => [[.arrayOf .string, .arrayOf .number]]
  | .sortBy => [[.kind .array], [.kind .expref]]
  | .startsWith => [[.kind .string], [.kind .string]]
  | .sum => [[.arrayOf .number]]
  | .toArray => [[]]
  | .toNumber => [[]]
  | .toString => [[]]
  | .type => [[]]
  | .values => [[.kind .object]]

/-- Further arguments are accepted behind the declared ones. -/
def isVariadic : Function → Bool
  | .merge => true
  | .notNull => true
  | _ => false

/-- The number of arguments fits the signature. -/
def accepts (f : Function) (count : Nat) : Bool :=
  if f.isVariadic then f.signature.length ≤ count else count == f.signature.length

end Function

/-- An element of an array is of a kind. -/
def checkElement (function : Text) (expected : List Declared) (k : Value.Kind) (v : Value) :
    Except EvalError Unit :=
  if v.kind = k then .ok ()
  else .error (.wrongType function v (expected.map Declared.name) v.elementName)

/-- The elements of an array are of the declared kind; of two, the first element decides. -/
def checkElements (function : Text) (expected : List Declared) (items : List Value) :
    Except EvalError Unit :=
  match expected.filterMap Declared.element?, items with
  | [], _ => .ok ()
  | _, [] => .ok ()
  | [k], _ => items.forM (checkElement function expected k)
  | kinds, first :: _ =>
    if kinds.contains first.kind then items.forM (checkElement function expected first.kind)
    else .error (.wrongType function first (expected.map Declared.name) first.elementName)

/-- An argument is of one of its declared types. -/
def checkArgument (function : Text) (expected : List Declared) (v : Value) :
    Except EvalError Unit :=
  if expected.isEmpty then .ok ()
  else if (expected.map Declared.outer).contains v.kind then
    match v with
    | .arr items => checkElements function expected items
    | _ => .ok ()
  else .error (.wrongType function v (expected.map Declared.name) v.kind.name)

def checkArguments (function : Text) (signature : List (List Declared)) (arguments : List Value) :
    Except EvalError Unit :=
  (signature.zip arguments).forM fun (expected, v) => checkArgument function expected v

/-- The order of two keys; numbers and texts are not comparable with each other. -/
def lessThan (a b : Value) : Except EvalError Bool :=
  match a.number?, b.number?, a, b with
  | some x, some y, _, _ => .ok (x.compare? y == some .lt)
  | _, _, .str s, .str t => .ok (Text.before s t)
  | _, _, _, _ => .error .incomparable

/-- The order of two keys of one type. -/
def less (a b : Value) : Bool :=
  match lessThan a b with
  | .ok r => r
  | .error _ => false

/-- A fraction that an integer is converted to. -/
def toFraction : Number → Except EvalError Binary64
  | .float x => .ok x
  | .int i =>
    match Binary64.ofInt i with
    | .infinity _ => .error .overflow
    | x => .ok x

def addNumbers : Number → Number → Except EvalError Number
  | .int a, .int b => .ok (.int (a + b))
  | a, b => do .ok (.float ((← toFraction a).add (← toFraction b)))

/-- The sum from left to right. -/
def sumNumbers (items : List Value) : Except EvalError Number :=
  (items.filterMap Value.number?).foldlM addNumbers (.int 0)

/-- The mean of numbers as a fraction. -/
def mean (total : Number) (count : Nat) : Except EvalError Number :=
  match total with
  | .int i =>
    match Binary64.ofSigned i count false with
    | .infinity _ => .error .overflow
    | x => .ok (.float x)
  | .float x => .ok (.float (x.divNat count))

/-- An integer next to a number. -/
def toInteger (round : Binary64 → Option Int) : Value → Except EvalError Value
  | .float x =>
    match round x, x with
    | some i, _ => .ok (.int i)
    | none, .nan => .error .notANumber
    | none, _ => .error .overflow
  | .indefinite _ => .error .notANumber
  | v => .ok v

/-- The first of the best elements under `better`. -/
def selectBest (better : Value → Value → Except EvalError Bool) :
    List (Value × Value) → Except EvalError (Option Value)
  | [] => .ok none
  | (k, v) :: rest => do
    let best ← rest.foldlM (fun (bk, bv) (k, v) => do
      if ← better k bk then .ok (k, v) else .ok (bk, bv)) (k, v)
    .ok (some best.2)

/-- The first of the best elements, each with the key that an expression gives. -/
def selectBestBy (better : Value → Value → Except EvalError Bool)
    (key : Value → Evaluation Value) (items : List Value) : Evaluation Value := do
  let best ← items.foldlM (fun (best : Option (Value × Value)) v => do
    let k ← key v
    match best with
    | none => pure (some (k, v))
    | some (bk, bv) => if ← better k bk then pure (some (k, v)) else pure (some (bk, bv))) none
  pure (best.elim .null Prod.snd)

/-- The key of an element, which has one of the given kinds. -/
def keyOf (function : Text) (expected : List Value.Kind) (apply : Value → Evaluation Value)
    (v : Value) : Evaluation Value := do
  let k ← apply v
  if expected.contains k.kind then pure k
  else throw (.wrongType function k (expected.map Value.Kind.name) k.kind.name)

/-- The items that a value offers when it is merged as one pair. -/
def pairItems? : Value → Option (List Value)
  | .arr items => some items
  | .str t => some (t.map fun c => .str [c])
  | .obj fields => some (fields.map Prod.fst)
  | _ => none

/-- A value that can be a key. -/
def isKey : Value → Bool
  | .arr _ => false
  | .obj _ => false
  | _ => true

def mergePair (fields : List (Value × Value)) (pair : Value) :
    Except EvalError (List (Value × Value)) :=
  match pairItems? pair with
  | none => .error .notPairs
  | some [k, v] => if isKey k then .ok (Value.putKey k v fields) else .error .notPairs
  | some _ => .error .pairLength

/-- Writes the fields of an object, or pairs, over fields. -/
def mergeInto (fields : List (Value × Value)) (v : Value) :
    Except EvalError (List (Value × Value)) :=
  match v with
  | .obj more => .ok (more.foldl (fun acc (k, v) => Value.putKey k v acc) fields)
  | .arr items => items.foldlM mergePair fields
  | .str t => (t.map fun c => Value.str [c]).foldlM mergePair fields
  | _ => .error .notPairs

def mergeAll (values : List Value) : Except EvalError (List (Value × Value)) :=
  values.foldlM mergeInto []

/-- A text as a number: an integer if it is one, else a fraction. -/
def textNumber? (t : Text) : Option Number :=
  match LineAssist.Number.readInt? t with
  | some i => some (.int i)
  | none => (LineAssist.Number.readBinary64? t).map .float

/-- The compact text of a value; a reference in it is spelled as a text. -/
def compactText (v : Value) : Except EvalError Value :=
  match v with
  | .str t => .ok (.str t)
  | _ =>
    match v.spelled.toJson with
    | .ok j => .ok (.str (Json.write .compact j))
    | .error .longInteger => .error .notANumber
    | .error .reference => .error .referenceValue

/-- What a function gives for arguments that fit its signature. -/
def Function.compute (apply : Expr → Value → Evaluation Value) :
    Function → List Value → Evaluation Value
  | .abs, [.int i] => pure (.int i.natAbs)
  | .abs, [.float x] => computed (.float x.abs)
  | .abs, [.indefinite _] => computed (.float .nan)
  | .avg, [.arr []] => pure .null
  | .avg, [.arr items] => do computed (← mean (← sumNumbers items) items.length)
  | .ceil, [v] => liftM (toInteger Binary64.ceil? v)
  | .floor, [v] => liftM (toInteger Binary64.floor? v)
  | .contains, [.arr items, v] => pure (.bool (v.isAmong items))
  | .contains, [.str t, .str s] => pure (.bool (Text.containsText s t))
  | .contains, _ => throw .notText
  | .endsWith, [.str t, .str s] => pure (.bool (s.isSuffixOf t))
  | .startsWith, [.str t, .str s] => pure (.bool (s.isPrefixOf t))
  | .join, [.str separator, .arr items] =>
    pure (.str (Text.join separator (items.filterMap fun | .str t => some t | _ => none)))
  | .keys, [.obj fields] => pure (.arr (fields.map Prod.fst))
  | .values, [.obj fields] => pure (.arr (fields.map Prod.snd))
  | .length, [.str t] => pure (.int t.length)
  | .length, [.arr items] => pure (.int items.length)
  | .length, [.obj fields] => pure (.int fields.length)
  | .map, [.reference _ e, .arr items] => do pure (.arr (← items.mapM (apply e)))
  | .max, [.arr items] => do
    pure ((← selectBest (fun a b => lessThan b a) (items.map fun v => (v, v))).getD .null)
  | .min, [.arr items] => do
    pure ((← selectBest lessThan (items.map fun v => (v, v))).getD .null)
  | .maxBy, [.arr items, .reference _ e] =>
    selectBestBy (fun a b => lessThan b a)
      (keyOf "max_by".toList [.number, .string] (apply e)) items
  | .minBy, [.arr items, .reference _ e] =>
    selectBestBy lessThan (keyOf "min_by".toList [.number, .string] (apply e)) items
  | .merge, arguments => do pure (.obj (← mergeAll arguments))
  | .notNull, arguments =>
    pure ((arguments.find? fun v => v.kind != .null).getD .null)
  | .reverse, [.str t] => pure (.str t.reverse)
  | .reverse, [.arr items] => pure (.arr items.reverse)
  | .sort, [.arr items] => pure (.arr (sortList less items))
  | .sortBy, [.arr [], _] => pure (.arr [])
  | .sortBy, [.arr (first :: rest), .reference _ e] => do
    let k := (← apply e first).kind
    if k = .number ∨ k = .string then
      let keyed ← (first :: rest).mapM fun v => do
        pure (← keyOf "sort_by".toList [k] (apply e) v, v)
      pure (.arr ((sortList (fun a b => less a.1 b.1) keyed).map Prod.snd))
    else
      throw (.wrongType "sort_by".toList first ["string".toList, "number".toList] k.name)
  | .sum, [.arr items] => do computed (← sumNumbers items)
  | .toArray, [.arr items] => pure (.arr items)
  | .toArray, [v] => pure (.arr [v])
  | .toNumber, [.str t] =>
    match textNumber? t with
    | some x => computed x
    | none => pure .null
  | .toNumber, [.reference ..] => throw .referenceValue
  | .toNumber, [v] => pure (if v.kind = .number then v else .null)
  | .toString, [v] => liftM (compactText v)
  | .type, [.reference ..] => pure .null
  | .type, [v] => pure (.str v.kind.name)
  | _, _ => pure .null

/-- A call by name: the function is looked up, the arguments are counted and checked, and the
result is computed. -/
def callFunction (apply : Expr → Value → Evaluation Value) (name : Text)
    (arguments : List Value) : Evaluation Value :=
  match Function.ofName? name with
  | none => throw (.unknownFunction name)
  | some f =>
    if f.accepts arguments.length then do
      checkArguments name f.signature arguments
      f.compute apply arguments
    else throw (.arity name)

end LineAssist.Query
