import LineAssist.Toml.Scalar

/-!
# Reading TOML documents

A document is a sequence of statements, each on a line: a key with its value, the header of a
table, or the header of one more table of an array. Keys are taken in the table of the last header.
Line ends are single line feeds. The stack's limit on how deep arrays and tables can nest is left
out.
-/

namespace LineAssist.Toml

def isKeyChar (c : Char) : Bool :=
  c.isAlphanum || c == '-' || c == '_'

def skipSpaces (t : Text) : Text :=
  t.dropWhile isSpace

/-- Skips a comment up to the end of its line. -/
def skipComment : Text → Option Text
  | '#' :: t =>
    let (comment, rest) := t.span (· != '\n')
    if comment.any (isIllegal false) then none else some rest
  | t => some t

/-- Skips white space, line ends and comments. -/
def skipLines (inComment : Bool) : Text → Option Text
  | [] => some []
  | c :: rest =>
    if inComment then
      if c = '\n' then skipLines false rest
      else if isIllegal false c then none
      else skipLines true rest
    else if isSpace c || c == '\n' then skipLines false rest
    else if c = '#' then skipLines true rest
    else some (c :: rest)

/-- One name of a key. -/
def readName? (t : Text) : Option (Text × Text) :=
  match t with
  | '"' :: rest => readBasic false .none rest
  | '\'' :: rest => readLiteral false rest
  | _ =>
    let (name, rest) := t.span isKeyChar
    if name.isEmpty then none else some (name, rest)

/-- The names of a dotted key, and the text behind the white space that follows. -/
def readKey? : Nat → Text → Option (List Text × Text)
  | 0, _ => none
  | fuel + 1, t => do
    let (name, rest) ← readName? t
    match skipSpaces rest with
    | '.' :: more => do
      let (names, rest) ← readKey? fuel (skipSpaces more)
      some (name :: names, rest)
    | rest => some ([name], rest)

def require {α : Type} : Option α → Except Fault α
  | some a => .ok a
  | none => .error .malformed

/-- Adds a value under a dotted key. -/
def addDotted (number : Nat) (key : List Text) (v : Toml) (nodes : Nodes) : Option Nodes :=
  match key.getLast? with
  | none => none
  | some last => atDotted number key.dropLast (addValue last v) nodes

mutual

def readValue : Nat → Text → Except Fault (Toml × Text)
  | 0, _ => .error .malformed
  | fuel + 1, t =>
    match t with
    | '[' :: rest => do
      match ← require (skipLines false rest) with
      | ']' :: after => .ok (.array [], after)
      | first => do
        let (items, after) ← readItems fuel first
        .ok (.array items, after)
    | '\x7b' :: rest =>
      match skipSpaces rest with
      | '\x7d' :: after => .ok (.table [], after)
      | first => do
        let (nodes, after) ← readPairs fuel [] first
        .ok (.table (finishTable nodes), after)
    | _ => readScalar t

/-- The items of an array up to the closing bracket; a comma may stand behind the last one. -/
def readItems : Nat → Text → Except Fault (List Toml × Text)
  | 0, _ => .error .malformed
  | fuel + 1, t => do
    let (v, rest) ← readValue fuel t
    match ← require (skipLines false rest) with
    | ']' :: after => .ok ([v], after)
    | ',' :: more => do
      match ← require (skipLines false more) with
      | ']' :: after => .ok ([v], after)
      | next => do
        let (items, after) ← readItems fuel next
        .ok (v :: items, after)
    | _ => .error .malformed

/-- The pairs of a table that is written as a value, up to the closing brace. -/
def readPairs : Nat → Nodes → Text → Except Fault (Nodes × Text)
  | 0, _, _ => .error .malformed
  | fuel + 1, nodes, t => do
    let (key, v, rest) ← readPair fuel t
    let nodes ← require (addDotted 0 key v nodes)
    match skipSpaces rest with
    | '\x7d' :: after => .ok (nodes, after)
    | ',' :: more => readPairs fuel nodes (skipSpaces more)
    | _ => .error .malformed

/-- A key, an equals sign and a value. -/
def readPair : Nat → Text → Except Fault (List Text × Toml × Text)
  | 0, _ => .error .malformed
  | fuel + 1, t => do
    let (key, rest) ← require (readKey? (fuel + 1) t)
    match rest with
    | '=' :: more => do
      let (v, rest) ← readValue fuel (skipSpaces more)
      .ok (key, v, rest)
    | _ => .error .malformed

end

/-- A document that is being read: its entries, the last header, and the number of headers. -/
structure Document where
  nodes : Nodes
  header : List Text
  number : Nat

/-- A statement of a document that is not empty. -/
inductive Statement where
  | pair (key : List Text) (v : Toml)
  | table (key : List Text)
  | tables (key : List Text)

/-- What a statement makes of a document. -/
def Document.take (d : Document) : Statement → Option Document
  | .pair key v => do
    some { d with nodes := ← atHeader d.header (addDotted d.number key v) d.nodes }
  | .table key => do
    let number := d.number + 1
    some ⟨← atHeader key.dropLast (declareTable number (← key.getLast?)) d.nodes, key, number⟩
  | .tables key => do
    some ⟨← atHeader key.dropLast (appendTable (← key.getLast?)) d.nodes, key, d.number + 1⟩

/-- The statement at the start of a line, if there is one, and the text behind it. -/
def readStatement (fuel : Nat) (t : Text) : Except Fault (Option Statement × Text) :=
  match t with
  | [] => .ok (none, [])
  | '\n' :: _ => .ok (none, t)
  | '#' :: _ => .ok (none, t)
  | '[' :: '[' :: rest => do
    let (key, rest) ← require (readKey? fuel (skipSpaces rest))
    match rest with
    | ']' :: ']' :: after => .ok (some (.tables key), after)
    | _ => .error .malformed
  | '[' :: rest => do
    let (key, rest) ← require (readKey? fuel (skipSpaces rest))
    match rest with
    | ']' :: after => .ok (some (.table key), after)
    | _ => .error .malformed
  | _ => do
    let (key, v, rest) ← readPair fuel t
    .ok (some (.pair key v), rest)

/-- Reads the lines of a document. -/
def readLines : Nat → Document → Text → Except Fault Document
  | 0, _, _ => .error .malformed
  | fuel + 1, d, t => do
    let (statement, rest) ← readStatement (t.length + 2) (skipSpaces t)
    let d ← match statement with
      | some s => require (d.take s)
      | none => .ok d
    match ← require (skipComment (skipSpaces rest)) with
    | [] => .ok d
    | '\n' :: more => readLines fuel d more
    | _ => .error .malformed

/-- The table of a whole document. -/
def read (t : Text) : Except Fault Table := do
  let d ← readLines (t.length + 1) ⟨[], [], 0⟩ t
  .ok (finishTable d.nodes)

end LineAssist.Toml
