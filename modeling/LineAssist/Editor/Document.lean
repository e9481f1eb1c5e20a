import LineAssist.Editor.Items
import LineAssist.Text.Lines

/-!
# Documents in an editor

A document is seen as its lines, each with its line end. A line number outside of the document
names an empty line.
-/

namespace LineAssist.Editor

/-- A line without the line feeds and carriage returns at its end. -/
def stripNewline (line : Text) : Text :=
  (line.reverse.dropWhile fun c => c == '\n' || c == '\r').reverse

/-- The text of a line by its number. -/
def lineText (lines : List Text) (number : Int) : Text :=
  if number < 0 then []
  else
    match lines[number.toNat]? with
    | some line => stripNewline line
    | none => []

/-- The position behind the last character of a document. -/
def documentEnd (lines : List Text) : Position :=
  match lines.getLast? with
  | none => ⟨0, 0⟩
  | some last =>
    if last.getLast? == some '\n' then ⟨lines.length, 0⟩
    else ⟨(lines.length : Int) - 1, last.length⟩

/-- The range of a whole document. -/
def wholeDocument (lines : List Text) : Range :=
  ⟨⟨0, 0⟩, documentEnd lines⟩

end LineAssist.Editor
