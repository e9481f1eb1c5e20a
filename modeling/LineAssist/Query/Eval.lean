import LineAssist.Query.Function

/-!
# Evaluation of queries

An expression is evaluated against a value. Evaluation follows the expression; only applying a
reference to an expression starts over, and references are applied inside each other to a fixed
depth at most. That the stack also limits how deep an expression and the values that it works on can
nest is left out.
-/

namespace LineAssist.Query

/-- The field of an object; every other value has none. -/
def fieldOf (name : Text) : Value → Value
  | .obj fields => (Value.lookupKey (.str name) fields).getD .null
  | _ => .null

/-- The element at an index, counted from the end when negative. -/
def elementAt (i : Int) : Value → Value
  | .arr items =>
    let n := if i < 0 then i + items.length else i
    if n < 0 then .null else (items[n.toNat]?).getD .null
  | _ => .null

/-- A slice bound counted from the start and kept between two limits. -/
def clampBound (length low high : Int) (i : Int) : Int :=
  let n := if i < 0 then i + length else i
  max low (min high n)

/-- The elements from a start towards a stop. -/
def takeStepping (items : Array Value) (step stop : Int) : Nat → Int → List Value
  | 0, _ => []
  | fuel + 1, i =>
    if (if 0 < step then i < stop else stop < i) then
      (items[i.toNat]?).toList ++ takeStepping items step stop fuel (i + step)
    else []

/-- A slice of an array. -/
def sliceOf (start stop step : Option Int) : Value → Except EvalError Value
  | .arr items =>
    let length : Int := items.length
    let step := step.getD 1
    if step = 0 then .error .zeroStep
    else
      let (low, high) := if step < 0 then (-1, length - 1) else (0, length)
      let start := start.elim (if step < 0 then high else low) (clampBound length low high)
      let stop := stop.elim (if step < 0 then low else high) (clampBound length low high)
      .ok (.arr (takeStepping items.toArray step stop items.length start))
  | _ => .ok .null

def compareValues (op : Comparison) (a b : Value) : Except EvalError Value :=
  let mixed := match a, b with
    | .bool _, v => v.number?.isSome
    | v, .bool _ => v.number?.isSome
    | _, _ => false
  let same := !mixed && a.eq b
  let comparable (v : Value) := v.kind = .number ∨ v.kind = .string
  match op with
  | .eq => .ok (.bool same)
  | .ne => .ok (.bool !same)
  | _ =>
    if comparable a ∧ comparable b then
      match a.number?, b.number?, a, b with
      | some x, some y, _, _ => .ok (.bool (holds op (x.compare? y)))
      | _, _, .str s, .str t =>
        let order := if s = t then Ordering.eq else if Text.before s t then .lt else .gt
        .ok (.bool (holds op (some order)))
      | _, _, _, _ => .error .incomparable
    else .ok .null
where
  /-- The comparison holds for an order; none holds without one. -/
  holds (op : Comparison) (order : Option Ordering) : Bool :=
    match op, order with
    | .lt, some .lt => true
    | .le, some .lt => true
    | .le, some .eq => true
    | .gt, some .gt => true
    | .ge, some .gt => true
    | .ge, some .eq => true
    | _, _ => false

/-- The elements of the inner arrays in place of these. -/
def flattenItems : List Value → List Value
  | [] => []
  | .arr inner :: rest => inner ++ flattenItems rest
  | v :: rest => v :: flattenItems rest

/-- The results for the elements, nulls left out. -/
def collect (each : Value → Evaluation Value) : List Value → Evaluation (List Value)
  | [] => pure []
  | v :: rest => do
    let r ← each v
    let more ← collect each rest
    pure (if r.kind = .null then more else r :: more)

/-- The results for the elements that meet a condition, nulls left out. -/
def collectIf (condition each : Value → Evaluation Value) : List Value → Evaluation (List Value)
  | [] => pure []
  | v :: rest => do
    let c ← condition v
    if c.isFalse then collectIf condition each rest
    else
      let r ← each v
      let more ← collectIf condition each rest
      pure (if r.kind = .null then more else r :: more)

mutual

/-- The value of an expression; `apply` evaluates referenced expressions. -/
def evalWith (apply : Expr → Value → Evaluation Value) : Expr → Value → Evaluation Value
  | .current, v => pure v
  | .field name, v => pure (fieldOf name v)
  | .literal j, _ => pure (.ofJson j)
  | .sub first second, v => do evalWith apply second (← evalWith apply first v)
  | .subscript base index, v => do evalWith apply index (← evalWith apply base v)
  | .pipe first second, v => do evalWith apply second (← evalWith apply first v)
  | .index i, v => pure (elementAt i v)
  | .slice start stop step, v => liftM (sliceOf start stop step v)
  | .flatten base, v => do
    match ← evalWith apply base v with
    | .arr items => pure (.arr (flattenItems items))
    | _ => pure .null
  | .project base each, v => do
    match ← evalWith apply base v with
    | .arr items => do pure (.arr (← collect (evalWith apply each) items))
    | _ => pure .null
  | .projectValues base each, v => do
    match ← evalWith apply base v with
    | .obj fields => do pure (.arr (← collect (evalWith apply each) (fields.map Prod.snd)))
    | _ => pure .null
  | .filter base each condition, v => do
    match ← evalWith apply base v with
    | .arr items => do
      pure (.arr (← collectIf (evalWith apply condition) (evalWith apply each) items))
    | _ => pure .null
  | .compare op left right, v => do
    let a ← evalWith apply left v
    let b ← evalWith apply right v
    liftM (compareValues op a b)
  | .or left right, v => do
    let a ← evalWith apply left v
    if a.isFalse then evalWith apply right v else pure a
  | .and left right, v => do
    let a ← evalWith apply left v
    if a.isFalse then pure a else evalWith apply right v
  | .not e, v => do pure (.bool (← evalWith apply e v).isFalse)
  | .list items, v =>
    if v.kind = .null then pure .null else do pure (.arr (← evalItems apply items v))
  | .hash fields, v =>
    if v.kind = .null then pure .null
    else do
      let entries ← evalFields apply fields v
      pure (.obj (entries.foldl (fun acc (k, w) => Value.putKey (.str k) w acc) []))
  | .call name arguments, v => do callFunction apply name (← evalItems apply arguments v)
  | .reference e, _ => do pure (.reference (← freshMark) e)

def evalItems (apply : Expr → Value → Evaluation Value) : List Expr → Value →
    Evaluation (List Value)
  | [], _ => pure []
  | e :: rest, v => do
    let r ← evalWith apply e v
    let more ← evalItems apply rest v
    pure (r :: more)

def evalFields (apply : Expr → Value → Evaluation Value) : List (Text × Expr) → Value →
    Evaluation (List (Text × Value))
  | [], _ => pure []
  | (k, e) :: rest, v => do
    let r ← evalWith apply e v
    let more ← evalFields apply rest v
    pure ((k, r) :: more)

end

/-- Evaluation with references applied inside each other up to a depth. -/
def evalDepth : Nat → Expr → Value → Evaluation Value
  | 0 => evalWith fun _ _ => throw .tooDeep
  | depth + 1 => evalWith (evalDepth depth)

/-- The depth of references that evaluation goes to. It stands for the limit of the stack, which
depends on the expressions as well. -/
def referenceDepth : Nat := 200

/-- The value of an expression. -/
def eval (e : Expr) (v : Value) : Except EvalError Value :=
  (evalDepth referenceDepth e v).run' 0

/-- Why a query has no value. -/
inductive QueryError where
  | syntaxError (e : SyntaxError)
  | evaluation (e : EvalError)
  deriving Repr

namespace QueryError

/-- The query cannot be right for any value: it is incomplete or malformed, or calls a function
with the wrong number of arguments. -/
def isSyntactic : QueryError → Bool
  | .syntaxError .malformed => true
  | .evaluation (.arity _) => true
  | _ => false

/-- The text of a failure that the query language words itself. -/
def message? : QueryError → Option Text
  | .evaluation (.unknownFunction name) => some ("Unknown function: ".toList ++ name ++ "()".toList)
  | .evaluation (.wrongType function value expected received) =>
    some ("In function ".toList ++ function ++ "(), invalid type for value: ".toList ++
      value.message ++ ", expected one of: ".toList ++
      (Value.arr (expected.map .str)).shown ++ ", received: \"".toList ++ received ++ ['"'])
  | _ => none

/-- The query language reports the failure; every other failure comes from a value that one of its
operations cannot take. -/
def isReported (e : QueryError) : Bool :=
  e.isSyntactic || e.message?.isSome

end QueryError

/-- The value of a query applied to a JSON value. -/
def search (query : Text) (v : Json) : Except QueryError Value :=
  match parse query with
  | .error e => .error (.syntaxError e)
  | .ok e =>
    match eval e (.ofJson v) with
    | .error e => .error (.evaluation e)
    | .ok r => .ok r

end LineAssist.Query
