import LineAssist.Text.Digit

/-!
# A position in a document

The text that is left, with the line and the column that it starts at. Lines end at the line feed,
the carriage return, the next line character and the two Unicode separators; a byte order mark
takes no column.
-/

namespace LineAssist.Yaml

/-- Why a document has no value. -/
inductive Error where
  /-- The text is not one document of known types. -/
  | malformed
  /-- A date, time or number that does not exist, an integer of too many digits, or an escape beyond
  the last code point. -/
  | impossible
  /-- An escape beyond all signed integers of 32 bits, or a weight beyond all fractions. -/
  | outOfRange
  /-- A number without characters. -/
  | emptyNumber
  /-- A truth value that is none of the known words. -/
  | unknownTruth
  /-- A time that is not written as one. -/
  | unknownTime
  /-- A time that is not written as a scalar. -/
  | timeNotScalar
  /-- A text that is looked for in itself. -/
  | endless
  deriving DecidableEq, Repr

structure Cursor where
  rest : Text
  index : Nat
  line : Nat
  column : Nat
  deriving Repr

/-- A line break character. -/
def isBreak (c : Char) : Bool :=
  c == '\n' || c == '\r' || c == '\x85' || c == '\u2028' || c == '\u2029'

/-- The end, or a line break. -/
def endsLine : Option Char → Bool
  | none => true
  | some c => isBreak c

/-- The end, a line break, or a space. -/
def endsWord : Option Char → Bool
  | none => true
  | some c => isBreak c || c == ' '

/-- The end, a line break, a space, or a tab. -/
def endsToken : Option Char → Bool
  | none => true
  | some c => isBreak c || c == ' ' || c == '\t'

namespace Cursor

def ofText (t : Text) : Cursor :=
  ⟨t, 0, 0, 0⟩

/-- The character some places ahead. -/
def peek (c : Cursor) (n : Nat) : Option Char :=
  c.rest[n]?

def head? (c : Cursor) : Option Char :=
  c.rest.head?

def atEnd (c : Cursor) : Bool :=
  c.rest.isEmpty

/-- The next character is the given one. -/
def at_ (c : Cursor) (ch : Char) : Bool :=
  c.rest.head? == some ch

/-- One character on. -/
def next (c : Cursor) : Cursor :=
  match c.rest with
  | [] => c
  | ch :: rest =>
    let breaks := isBreak ch && !(ch == '\r' && rest.head? == some '\n')
    { rest := rest
      index := c.index + 1
      line := if breaks then c.line + 1 else c.line
      column := if breaks then 0 else if ch == '\uFEFF' then c.column else c.column + 1 }

/-- Some characters on. -/
def skip : Nat → Cursor → Cursor
  | 0, c => c
  | n + 1, c => skip n c.next

/-- The characters from here on that meet a condition, and the position behind them. -/
def span (p : Char → Bool) (c : Cursor) : Text × Cursor :=
  let t := c.rest.takeWhile p
  (t, c.skip t.length)

def skipWhile (p : Char → Bool) (c : Cursor) : Cursor :=
  (c.span p).2

def skipSpaces (c : Cursor) : Cursor :=
  c.skipWhile (· == ' ')

/-- Up to the end of the line. -/
def skipLine (c : Cursor) : Cursor :=
  c.skipWhile fun ch => !isBreak ch

/-- Behind a comment, if one starts here. -/
def skipComment (c : Cursor) : Cursor :=
  if c.at_ '#' then c.skipLine else c

/-- A line break here as it is read: the two separators stay, all others are line feeds. -/
def lineBreak? (c : Cursor) : Option (Char × Cursor) :=
  match c.rest with
  | '\r' :: '\n' :: _ => some ('\n', c.skip 2)
  | ch :: _ =>
    if ch == '\u2028' || ch == '\u2029' then some (ch, c.next)
    else if isBreak ch then some ('\n', c.next)
    else none
  | [] => none

/-- Behind a line break, if one is here. -/
def skipBreak (c : Cursor) : Cursor :=
  match c.lineBreak? with
  | some (_, after) => after
  | none => c

/-- Three equal characters with a token end behind them, as `---` and `...` are written. -/
def hasMarker (ch : Char) (c : Cursor) : Bool :=
  c.rest.take 3 == [ch, ch, ch] && endsToken (c.peek 3)

/-- A document marker stands here. -/
def atSeparator (c : Cursor) : Bool :=
  c.hasMarker '-' || c.hasMarker '.'

end Cursor

end LineAssist.Yaml
