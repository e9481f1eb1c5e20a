import LineAssist.Text.Basic

/-!
# Tokens of a command line

A line is cut into tokens from left to right. White space separates tokens and belongs to none. A
token is a dash-led run up to white space or a quote, a closed quoted run with its quotes, a run
without quotes, or, where a quote is never closed, the quote with the run behind it.
-/

namespace LineAssist.Line

/-- A part of a line: its text and the offset of its first character. -/
structure Token where
  text : Text
  offset : Nat
  deriving DecidableEq, Repr

namespace Token

def length (t : Token) : Nat :=
  t.text.length

/-- The offset behind the last character. -/
def stop (t : Token) : Nat :=
  t.offset + t.length

def isDash (t : Token) : Bool :=
  t.text.isDashLed

end Token

/-- The text is enclosed by one quote character at both ends. -/
def isQuoted (t : Text) : Bool :=
  match t with
  | q :: c :: rest => Text.isQuote q && (c :: rest).getLast? == some q
  | _ => false

/-- The text without its enclosing quotes, if it has them. -/
def unquote (t : Text) : Text :=
  if isQuoted t then t.tail.dropLast else t

/-- Neither white space nor a quote, so that a run goes on. -/
def isRun (c : Char) : Bool :=
  !Text.isBlank c && !Text.isQuote c

/-- The length of the token that starts with a character, given the text behind that character. -/
def lexemeLength (c : Char) (rest : Text) : Nat :=
  let run := (rest.takeWhile isRun).length + 1
  if Text.isQuote c then
    match Text.cut? c rest with
    | some (body, _) => body.length + 2
    | none => run
  else run

/-- The tokens of a text whose first character stands at an offset; the first `skip` characters
belong to the token before. -/
def tokensFrom (offset skip : Nat) : Text → List Token
  | [] => []
  | c :: rest =>
    match skip with
    | n + 1 => tokensFrom (offset + 1) n rest
    | 0 =>
      if Text.isBlank c then tokensFrom (offset + 1) 0 rest
      else
        let n := lexemeLength c rest
        ⟨(c :: rest).take n, offset⟩ :: tokensFrom (offset + 1) (n - 1) rest

/-- The tokens of a line in order. -/
def tokens (line : Text) : List Token :=
  tokensFrom 0 0 line

end LineAssist.Line
