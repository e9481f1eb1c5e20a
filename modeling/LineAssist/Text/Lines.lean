import LineAssist.Text.Basic

/-!
# Lines

A text is cut into lines behind each line end. A carriage return directly followed by a line feed
is one line end. The lines with their ends give the text back; the last one may have no end.
-/

namespace LineAssist.Text

/-- The code points that end a line. -/
def isLineEnd (c : Char) : Bool :=
  inRanges [(0x0A, 0x0D), (0x1C, 0x1E), (0x85, 0x85), (0x2028, 0x2029)] c.toNat

/-- Puts a character in front of the first line. -/
def consLine (c : Char) : List Text → List Text
  | [] => [[c]]
  | line :: more => (c :: line) :: more

/-- The lines of a text, each with its line end. -/
def linesWithEnds : Text → List Text
  | [] => []
  | '\r' :: '\n' :: rest => ['\r', '\n'] :: linesWithEnds rest
  | c :: rest =>
    if isLineEnd c then [c] :: linesWithEnds rest else consLine c (linesWithEnds rest)

/-- A line without its line end. -/
def withoutLineEnd (line : Text) : Text :=
  line.takeWhile fun c => !isLineEnd c

/-- The lines of a text without their line ends. -/
def lines (t : Text) : List Text :=
  (linesWithEnds t).map withoutLineEnd

/-- Carriage returns, alone or before a line feed, read as line feeds. -/
def normalizeNewlines : Text → Text
  | [] => []
  | '\r' :: '\n' :: rest => '\n' :: normalizeNewlines rest
  | c :: rest => (if c = '\r' then '\n' else c) :: normalizeNewlines rest

end LineAssist.Text
