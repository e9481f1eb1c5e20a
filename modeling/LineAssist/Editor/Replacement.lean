import LineAssist.Editor.Document

/-!
# Edits as an editor applies them

An editor resolves a position by its own lines: these end at a line feed, at a carriage return, or
at both together, and at no other character. A column past the end of its line means that end, which
is in front of the line end, and a line past the last one means the end of the text.
-/

namespace LineAssist.Editor

def isNewline (c : Char) : Bool :=
  c == '\n' || c == '\r'

/-- The text behind a number of lines; nothing is behind the last one. -/
def behindLines : Nat → Text → Text
  | 0, t => t
  | _ + 1, [] => []
  | n + 1, '\r' :: '\n' :: rest => behindLines n rest
  | n + 1, c :: rest => if isNewline c then behindLines n rest else behindLines (n + 1) rest

/-- A text up to its first line end. -/
def firstLine (t : Text) : Text :=
  t.takeWhile fun c => !isNewline c

/-- The text behind a position. -/
def behind (t : Text) (at_ : Position) : Text :=
  let line := behindLines at_.line.toNat t
  line.drop (min at_.character.toNat (firstLine line).length)

/-- The text in front of a position. -/
def ahead (t : Text) (at_ : Position) : Text :=
  t.take (t.length - (behind t at_).length)

/-- A text with a content in place of a range. -/
def replaceRange (t : Text) (r : Range) (content : Text) : Text :=
  ahead t r.start ++ content ++ behind t r.stop

end LineAssist.Editor
