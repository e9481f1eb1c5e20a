import LineAssist.Query.Token

/-!
# Query expressions

The syntax tree of a query, and the reader that builds it from tokens. Operators bind by power; a
projection applies what follows it to each element, up to the first token of low power. The stack's
limit on how deep a query can nest is left out.
-/

namespace LineAssist.Query

inductive Expr where
  /-- The value that the query is applied to. -/
  | current
  | field (name : Text)
  | literal (v : Json)
  /-- The second expression applied to the value of the first one. -/
  | sub (first second : Expr)
  /-- An index or slice applied to the value of an expression. -/
  | subscript (base index : Expr)
  | index (i : Int)
  | slice (start stop step : Option Int)
  | flatten (base : Expr)
  /-- The second expression applied to each element of an array. -/
  | project (base each : Expr)
  /-- The second expression applied to each value of an object. -/
  | projectValues (base each : Expr)
  /-- The second expression applied to each element that meets the condition. -/
  | filter (base each condition : Expr)
  | compare (op : Comparison) (left right : Expr)
  | or (left right : Expr)
  | and (left right : Expr)
  | not (e : Expr)
  | pipe (first second : Expr)
  | list (items : List Expr)
  | hash (fields : List (Text × Expr))
  | call (name : Text) (arguments : List Expr)
  | reference (e : Expr)
  deriving Inhabited, Repr

namespace Token

/-- How tightly a token binds the expression in front of it. -/
def power : Token → Nat
  | .pipe => 1
  | .or => 2
  | .and => 3
  | .compare _ => 5
  | .flatten => 9
  | .star => 20
  | .openFilter => 21
  | .dot => 40
  | .not => 45
  | .openBrace => 50
  | .openBracket => 55
  | .openParen => 60
  | _ => 0

end Token

/-- The power of the next token; the end binds nothing. -/
def nextPower : List Token → Nat
  | [] => 0
  | t :: _ => t.power

/-- Tokens of a power below this one end a projection. -/
def projectionStop : Nat := 10

/-- An index, or a slice of up to three parts, behind its opening bracket. -/
def slicePartsFrom (position : Nat) (start stop step : Option Int) :
    List Token → Option (Expr × List Token)
  | .closeBracket :: rest => some (.slice start stop step, rest)
  | .colon :: rest => if position < 2 then slicePartsFrom (position + 1) start stop step rest else none
  | .number n :: rest =>
    match position with
    | 0 => slicePartsFrom position (some n) stop step rest
    | 1 => slicePartsFrom position start (some n) step rest
    | _ => slicePartsFrom position start stop (some n) rest
  | _ => none

def indexExpr (ts : List Token) : Option (Expr × List Token) :=
  match ts with
  | .number n :: .closeBracket :: rest => some (.index n, rest)
  | .number _ :: .colon :: _ => slicePartsFrom 0 none none none ts
  | .colon :: _ => slicePartsFrom 0 none none none ts
  | _ => none

def isSlice : Expr → Bool
  | .slice .. => true
  | _ => false

mutual

/-- An expression whose operators bind more tightly than a power. -/
def expression : Nat → Nat → List Token → Option (Expr × List Token)
  | 0, _, _ => none
  | fuel + 1, power, ts => do
    let (left, rest) ← operand fuel ts
    operators fuel power left rest

/-- The operators behind a left operand. -/
def operators : Nat → Nat → Expr → List Token → Option (Expr × List Token)
  | 0, _, _, _ => none
  | fuel + 1, power, left, ts =>
    if power < nextPower ts then do
      let (left, rest) ← operator fuel left ts
      operators fuel power left rest
    else some (left, ts)

/-- The start of an expression. -/
def operand : Nat → List Token → Option (Expr × List Token)
  | 0, _ => none
  | fuel + 1, ts =>
    match ts with
    | .literal v :: rest => some (.literal v, rest)
    | .name n :: rest => some (.field n, rest)
    | .quotedName _ :: .openParen :: _ => none
    | .quotedName n :: rest => some (.field n, rest)
    | .current :: rest => some (.current, rest)
    | .star :: .closeBracket :: rest => some (.projectValues .current .current, .closeBracket :: rest)
    | .star :: rest => do
      let (each, rest) ← projected fuel Token.star.power rest
      some (.projectValues .current each, rest)
    | .openFilter :: rest => filtered fuel .current rest
    | .openBrace :: rest => hashFields fuel [] rest
    | .openParen :: rest => do
      let (e, rest) ← expression fuel 0 rest
      match rest with
      | .closeParen :: rest => some (e, rest)
      | _ => none
    | .flatten :: rest => flattened fuel .current rest
    | .not :: rest => do
      let (e, rest) ← expression fuel Token.not.power rest
      some (.not e, rest)
    | .reference :: rest => do
      let (e, rest) ← expression fuel 0 rest
      some (.reference e, rest)
    | .openBracket :: .star :: .closeBracket :: rest => do
      let (each, rest) ← projected fuel Token.star.power rest
      some (.project .current each, rest)
    | .openBracket :: .number n :: rest => subscripted fuel .current (.number n :: rest)
    | .openBracket :: .colon :: rest => subscripted fuel .current (.colon :: rest)
    | .openBracket :: rest => listItems fuel [] rest
    | _ => none

/-- An operator and what stands to its right. -/
def operator : Nat → Expr → List Token → Option (Expr × List Token)
  | 0, _, _ => none
  | fuel + 1, left, ts =>
    match ts with
    | .dot :: .star :: rest => do
      let (each, rest) ← projected fuel Token.dot.power rest
      some (.projectValues left each, rest)
    | .dot :: rest => do
      let (right, rest) ← dotted fuel Token.dot.power rest
      some (.sub left right, rest)
    | .pipe :: rest => do
      let (right, rest) ← expression fuel Token.pipe.power rest
      some (.pipe left right, rest)
    | .or :: rest => do
      let (right, rest) ← expression fuel Token.or.power rest
      some (.or left right, rest)
    | .and :: rest => do
      let (right, rest) ← expression fuel Token.and.power rest
      some (.and left right, rest)
    | .compare op :: rest => do
      let (right, rest) ← expression fuel (Token.compare op).power rest
      some (.compare op left right, rest)
    | .openParen :: rest =>
      match left with
      | .field name => callArguments fuel name [] rest
      | _ => none
    | .openFilter :: rest => filtered fuel left rest
    | .flatten :: rest => flattened fuel left rest
    | .openBracket :: .star :: .closeBracket :: rest => do
      let (each, rest) ← projected fuel Token.star.power rest
      some (.project left each, rest)
    | .openBracket :: rest =>
      match left with
      | .subscript .. => do
        let (index, rest) ← indexExpr rest
        some (.subscript left index, rest)
      | _ => subscripted fuel left rest
    | _ => none

/-- An index behind its opening bracket; a slice projects what follows it. -/
def subscripted : Nat → Expr → List Token → Option (Expr × List Token)
  | 0, _, _ => none
  | fuel + 1, left, ts => do
    let (index, rest) ← indexExpr ts
    if isSlice index then
      let (each, rest) ← projected fuel Token.star.power rest
      some (.project (.subscript left index) each, rest)
    else some (.subscript left index, rest)

/-- A flattened array projects what follows it. -/
def flattened : Nat → Expr → List Token → Option (Expr × List Token)
  | 0, _, _ => none
  | fuel + 1, left, ts => do
    let (each, rest) ← projected fuel Token.flatten.power ts
    some (.project (.flatten left) each, rest)

/-- A condition behind its opening bracket; the elements that meet it project what follows. -/
def filtered : Nat → Expr → List Token → Option (Expr × List Token)
  | 0, _, _ => none
  | fuel + 1, left, ts => do
    let (condition, rest) ← expression fuel 0 ts
    match rest with
    | .closeBracket :: .flatten :: rest => some (.filter left .current condition, .flatten :: rest)
    | .closeBracket :: rest => do
      let (each, rest) ← projected fuel Token.openFilter.power rest
      some (.filter left each condition, rest)
    | _ => none

/-- What a projection applies to each element. -/
def projected : Nat → Nat → List Token → Option (Expr × List Token)
  | 0, _, _ => none
  | fuel + 1, power, ts =>
    if nextPower ts < projectionStop then some (.current, ts)
    else
      match ts with
      | .openBracket :: _ => expression fuel power ts
      | .openFilter :: _ => expression fuel power ts
      | .dot :: rest => dotted fuel power rest
      | _ => none

/-- What may stand behind a dot. -/
def dotted : Nat → Nat → List Token → Option (Expr × List Token)
  | 0, _, _ => none
  | fuel + 1, power, ts =>
    match ts with
    | .name _ :: _ => expression fuel power ts
    | .quotedName _ :: _ => expression fuel power ts
    | .star :: _ => expression fuel power ts
    | .openBracket :: rest => listItems fuel [] rest
    | .openBrace :: rest => hashFields fuel [] rest
    | _ => none

/-- The expressions of a list up to its closing bracket, a comma between neighbours. -/
def listItems : Nat → List Expr → List Token → Option (Expr × List Token)
  | 0, _, _ => none
  | fuel + 1, items, ts => do
    let (e, rest) ← expression fuel 0 ts
    match rest with
    | .closeBracket :: rest => some (.list (items ++ [e]), rest)
    | .comma :: rest => listItems fuel (items ++ [e]) rest
    | _ => none

/-- The fields of a hash up to its closing brace; the comma between neighbours may be left out. -/
def hashFields : Nat → List (Text × Expr) → List Token → Option (Expr × List Token)
  | 0, _, _ => none
  | fuel + 1, fields, ts => do
    let (key, rest) ← match ts with
      | .name n :: .colon :: rest => some (n, rest)
      | .quotedName n :: .colon :: rest => some (n, rest)
      | _ => none
    let (e, rest) ← expression fuel 0 rest
    match rest with
    | .closeBrace :: rest => some (.hash (fields ++ [(key, e)]), rest)
    | .comma :: rest => hashFields fuel (fields ++ [(key, e)]) rest
    | _ => hashFields fuel (fields ++ [(key, e)]) rest

/-- The arguments of a call up to its closing parenthesis; commas may be left out. -/
def callArguments : Nat → Text → List Expr → List Token → Option (Expr × List Token)
  | 0, _, _, _ => none
  | fuel + 1, name, arguments, ts =>
    match ts with
    | .closeParen :: rest => some (.call name arguments, rest)
    | _ => do
      let (e, rest) ← expression fuel 0 ts
      match rest with
      | .comma :: rest => callArguments fuel name (arguments ++ [e]) rest
      | _ => callArguments fuel name (arguments ++ [e]) rest

end

/-- The expression of a query. -/
def parse (t : Text) : Except SyntaxError Expr := do
  let ts ← tokens t
  match expression (5 * ts.length + 5) 0 ts with
  | some (e, []) => .ok e
  | _ => .error .malformed

end LineAssist.Query
