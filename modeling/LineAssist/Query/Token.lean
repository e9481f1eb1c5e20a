import LineAssist.Json.Writing

/-!
# Tokens of a query

A query is cut into tokens from left to right; blanks, tabs and line ends separate them. A number
is an optional minus sign and digits. Text between single quotes is literal, text between double
quotes is a name written as a JSON string, and text between backticks is a JSON value, or, where it
is none, the JSON string with that text inside. Such a value may nest without a limit here.
-/

namespace LineAssist.Query

inductive Comparison where
  | eq
  | ne
  | lt
  | le
  | gt
  | ge
  deriving DecidableEq, Repr

inductive Token where
  | dot
  | star
  | comma
  | colon
  | current
  | openParen
  | closeParen
  | openBrace
  | closeBrace
  | openBracket
  | closeBracket
  | openFilter
  | flatten
  | pipe
  | or
  | and
  | not
  | reference
  | compare (op : Comparison)
  | number (n : Int)
  | name (t : Text)
  | quotedName (t : Text)
  | literal (v : Json)
  deriving Repr

/-- Why a query has no tokens or no expression. -/
inductive SyntaxError where
  /-- The text is not a query. -/
  | malformed
  /-- A number has too many digits. -/
  | longNumber
  deriving DecidableEq, Repr

def isNameStart (c : Char) : Bool :=
  c.isAlpha || c == '_'

def isNameChar (c : Char) : Bool :=
  c.isAlphanum || c == '_'

/-- The text up to a closing delimiter, and the text behind it. A backslash keeps the character
behind it from closing; both stay. -/
def delimited (close : Char) : Text → Option (Text × Text)
  | [] => none
  | '\\' :: c :: rest =>
    (delimited close rest).map fun (body, after) => ('\\' :: c :: body, after)
  | c :: rest =>
    if c = close then some ([], rest)
    else if c = '\\' then none
    else (delimited close rest).map fun (body, after) => (c :: body, after)

/-- Drops the backslash in front of each delimiter. -/
def unescape (delimiter : Char) : Text → Text
  | [] => []
  | [c] => [c]
  | c :: d :: rest =>
    if c = '\\' ∧ d = delimiter then d :: unescape delimiter rest
    else c :: unescape delimiter (d :: rest)

/-- The value between backticks. -/
def literalValue? (body : Text) : Option Json :=
  let t := unescape '`' body
  match Json.read t with
  | .ok v => some v
  | .error _ =>
    match Json.read ('"' :: Text.trimStart t ++ ['"']) with
    | .ok v => some v
    | .error _ => none

/-- The name between double quotes. -/
def quotedValue? (body : Text) : Option Text :=
  match Json.read ('"' :: body ++ ['"']) with
  | .ok (.str t) => some t
  | _ => none

/-- The token that one character makes by itself. -/
def simpleToken? : Char → Option Token
  | '.' => some .dot
  | '*' => some .star
  | ']' => some .closeBracket
  | ',' => some .comma
  | ':' => some .colon
  | '@' => some .current
  | '(' => some .openParen
  | ')' => some .closeParen
  | '{' => some .openBrace
  | '}' => some .closeBrace
  | _ => none

/-- A token that a second character makes longer. -/
def pairToken (second : Char) (long short : Token) (rest : Text) : Token × Text :=
  match rest with
  | c :: after => if c = second then (long, after) else (short, rest)
  | [] => (short, [])

/-- The number whose sign, if any, stands before its digits. -/
def numberToken (negative : Bool) (t : Text) : Except SyntaxError (Token × Text) :=
  let (digits, rest) := Text.spanDigits t
  if digits.isEmpty then .error .malformed
  else if Number.digitLimit < digits.length then .error .longNumber
  else
    let n : Int := (Text.digitsValue digits : Nat)
    .ok (.number (if negative then -n else n), rest)

/-- A token between delimiters. -/
def delimitedToken (close : Char) (make : Text → Option Token) (rest : Text) :
    Except SyntaxError (Token × Text) :=
  match delimited close rest with
  | none => .error .malformed
  | some (body, after) =>
    match make body with
    | some token => .ok (token, after)
    | none => .error .malformed

/-- The token that starts with a character, and the text behind it. -/
def nextToken (c : Char) (rest : Text) : Except SyntaxError (Token × Text) :=
  match simpleToken? c with
  | some token => .ok (token, rest)
  | none =>
    if isNameStart c then
      .ok (.name (c :: rest.takeWhile isNameChar), rest.dropWhile isNameChar)
    else if c = '[' then
      match rest with
      | ']' :: after => .ok (.flatten, after)
      | '?' :: after => .ok (.openFilter, after)
      | _ => .ok (.openBracket, rest)
    else if c = '\'' then
      delimitedToken '\'' (fun body => some (.literal (.str (unescape '\'' body)))) rest
    else if c = '|' then .ok (pairToken '|' .or .pipe rest)
    else if c = '&' then .ok (pairToken '&' .and .reference rest)
    else if c = '`' then delimitedToken '`' (fun body => (literalValue? body).map .literal) rest
    else if c.isDigit then numberToken false (c :: rest)
    else if c = '-' then numberToken true rest
    else if c = '"' then delimitedToken '"' (fun body => (quotedValue? body).map .quotedName) rest
    else if c = '<' then .ok (pairToken '=' (.compare .le) (.compare .lt) rest)
    else if c = '>' then .ok (pairToken '=' (.compare .ge) (.compare .gt) rest)
    else if c = '!' then .ok (pairToken '=' (.compare .ne) .not rest)
    else if c = '=' then
      match rest with
      | '=' :: after => .ok (.compare .eq, after)
      | _ => .error .malformed
    else .error .malformed

/-- The tokens of a text; the fuel is at least its length. -/
def tokensFrom : Nat → Text → Except SyntaxError (List Token)
  | _, [] => .ok []
  | 0, _ :: _ => .error .malformed
  | fuel + 1, c :: rest =>
    if Json.isSpace c then tokensFrom fuel rest
    else do
      let (token, after) ← nextToken c rest
      let more ← tokensFrom fuel after
      .ok (token :: more)

/-- The tokens of a query. -/
def tokens (t : Text) : Except SyntaxError (List Token) :=
  tokensFrom t.length t

end LineAssist.Query
