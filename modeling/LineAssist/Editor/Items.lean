import LineAssist.Catalog.Completion

/-!
# Completion items and hovers in an editor

A request is made from the context of the cursor, and the answer is offered as items that insert at
the cursor only what has not been typed yet.
-/

namespace LineAssist.Editor

open Catalog (Entry CompletionRequest HoverRequest)
open Line (Context Command Node)

structure Position where
  line : Int
  character : Int
  deriving DecidableEq, Repr

/-- The greatest line and the greatest column. -/
def Position.limit : Int := 0x7FFFFFFF

/-- An editor knows the position. -/
def Position.isValid (p : Position) : Bool :=
  0 ≤ p.line && p.line ≤ limit && 0 ≤ p.character && p.character ≤ limit

structure Range where
  start : Position
  stop : Position
  deriving DecidableEq, Repr

/-- An editor knows both ends of the range. -/
def Range.isValid (r : Range) : Bool :=
  r.start.isValid && r.stop.isValid

/-- The request of a context; an unrecognized line asks for nothing. -/
def completionRequest (c : Context) : Option CompletionRequest :=
  if c.recognized then some ⟨some c.subcommandPath, c.activeParameter, c.arguments⟩ else none

/-- A text without the typed word that it starts with, or without the dashes of that word. -/
def trimTyped (t : Text) (c : Context) : Text :=
  match Text.stripStart? c.typed t with
  | some rest => if c.typed.isEmpty then t else rest
  | none => (Text.stripStart? c.lead t).getD t

/-- The text to insert at the cursor for an entry: its snippet if it has one, else its name. -/
def insertText (e : Entry) (c : Context) : Text :=
  match e.snippet.bind Catalog.nonEmpty with
  | some s => trimTyped s c
  | none => trimTyped e.name c

/-- The entries whose names extend the typed word. -/
def matching (entries : List Entry) (c : Context) : List Entry :=
  entries.filter fun e => c.typed.isPrefixOf e.name

/-- What an editor shows an item as. -/
inductive Symbol where
  | moduleName
  | functionName
  | variableName
  | enumMember
  | snippet
  deriving DecidableEq, Repr

/-- What the entries of a kind are shown as. -/
def symbolOf : Catalog.EntryKind → Symbol
  | .group => .moduleName
  | .command => .functionName
  | .parameterName => .variableName
  | .parameterValue => .enumMember
  | .snippet => .snippet

/-- The characters by which every item is accepted. -/
def commitCharacters : List Char := [' ']

/-- A completion item. -/
structure Item where
  label : Text
  symbol : Symbol
  /-- The text that decides whether the item still fits what is typed. -/
  filterText : Text
  newText : Text
  range : Range
  commits : List Char
  isSnippet : Bool
  detail : Option Text
  documentation : Option Text
  deriving DecidableEq, Repr

/-- The item of an entry at a position. -/
def itemOf (c : Context) (at_ : Position) (e : Entry) : Item where
  label := e.name
  symbol := symbolOf e.kind
  filterText := e.name
  newText := insertText e c
  range := ⟨at_, at_⟩
  commits := commitCharacters
  isSnippet := (e.snippet.bind Catalog.nonEmpty).isSome
  detail := e.detail.bind Catalog.nonEmpty
  documentation := e.documentation.bind Catalog.nonEmpty

/-- The items of an answer at a position. -/
def items (entries : List Entry) (c : Context) (at_ : Position) : List Item :=
  (matching entries c).map (itemOf c at_)

/-- The request for the node at an offset, with that node. The root word and values ask for
nothing. -/
def hoverRequest (command : Command) (offset : Int) (root : Text) : Option (HoverRequest × Node) :=
  if command.hasRoot root then
    match command.nodeAt offset with
    | none => none
    | some n =>
      let words := command.subcommand.map Node.text
      match n.role with
      | .subcommand =>
        match command.subcommand.idxOf n with
        | 0 => none
        | i + 1 => some (⟨Text.unwords ((words.take (i + 2)).drop 1), none⟩, n)
      | .parameterName => some (⟨Text.unwords words.tail, some n.text⟩, n)
      | .parameterValue => none
  else none

/-- What is shown over a node. -/
structure Hover where
  value : Text
  range : Range
  deriving DecidableEq, Repr

/-- The characters of a node on a line. -/
def nodeRange (n : Node) (line : Int) : Range :=
  ⟨⟨line, n.offset⟩, ⟨line, n.stop⟩⟩

/-- Paragraphs over a node; no paragraphs show nothing. -/
def hoverOf (paragraphs : Option (List Text)) (n : Node) (line : Int) : Option Hover :=
  match paragraphs with
  | none => none
  | some [] => none
  | some ps => some ⟨Text.join ['\n', '\n'] ps, nodeRange n line⟩

end LineAssist.Editor
