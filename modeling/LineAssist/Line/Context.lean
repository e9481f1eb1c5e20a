import LineAssist.Line.Arguments

/-!
# The context of a cursor

What is being typed at the end of a text, read off the pieces of the text between white space,
without building nodes. The last piece is the word being typed; the pieces before it are complete.
-/

namespace LineAssist.Line

structure Context where
  /-- The complete subcommand words without the root word, joined by single spaces. -/
  subcommandPath : Text
  /-- The parameter whose value is being typed. -/
  activeParameter : Option Text
  /-- The word being typed, up to the cursor. -/
  typed : Text
  /-- The dashes that the typed word starts with. -/
  lead : Text
  arguments : Arguments
  /-- The first complete word is the root word. -/
  recognized : Bool
  deriving DecidableEq, Repr

namespace Context

/-- The subcommand words behind the root word. -/
def words (c : Context) : List Text :=
  Text.words c.subcommandPath

end Context

/-- The pieces of a text that white space follows. -/
def completePieces (t : Text) : List Text :=
  (Text.pieces t).dropLast

/-- The run without white space at the end of a text. -/
def typedWord (t : Text) : Text :=
  (Text.pieces t).getLast?.getD []

/-- The complete words at the start of a text, up to the first dash-led one. -/
def subcommandWords (t : Text) : List Text :=
  ((completePieces t).filter fun w => !w.isEmpty).takeWhile fun w => !w.isDashLed

/-- A dash-led word without quotes. -/
def isParameterWord (w : Text) : Bool :=
  w.isDashLed && !w.any Text.isQuote

/-- The parameter whose value is being typed: the last complete word, if it is dash-led, has no
quote and does not start the text, while the typed word has no dash. -/
def activeArgument (t : Text) : Option Text :=
  if (typedWord t).contains '-' then none
  else
    match ((completePieces t).tail.filter fun w => !w.isEmpty).getLast? with
    | some w => if isParameterWord w then some w else none
    | none => none

/-- The context at the end of a text; the arguments are those of the whole line. -/
def resolveContext (text line root : Text) : Context :=
  let words := subcommandWords text
  let recognized := words.head? == some root
  let typed := typedWord text
  { subcommandPath := if recognized then Text.unwords words.tail else []
    activeParameter := activeArgument text
    typed := typed
    lead := typed.takeWhile (· == '-')
    arguments := arguments line
    recognized := recognized }

end LineAssist.Line
