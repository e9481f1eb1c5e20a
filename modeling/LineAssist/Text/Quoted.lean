import LineAssist.Text.Printable

/-!
# Quoted texts

How a text is shown inside a message: between single quotes, or between double quotes when it
holds a single quote and no double quote. The quote, the backslash and the characters that are not
printable are written as escapes.
-/

namespace LineAssist.Text

/-- The quote that a shown text stands between. -/
def shownQuote (t : Text) : Char :=
  if t.contains '\'' && !t.contains '"' then '"' else '\''

/-- One character of a shown text. -/
def shownChar (quote c : Char) : Text :=
  let n := c.toNat
  if c = quote ∨ c = '\\' then ['\\', c]
  else if c = '\n' then ['\\', 'n']
  else if c = '\r' then ['\\', 'r']
  else if c = '\t' then ['\\', 't']
  else if isPrintable c then [c]
  else if n < 0x100 then ['\\', 'x'] ++ hex 2 n
  else if n < 0x10000 then ['\\', 'u'] ++ hex 4 n
  else ['\\', 'U'] ++ hex 8 n

def shown (t : Text) : Text :=
  let quote := shownQuote t
  quote :: t.flatMap (shownChar quote) ++ [quote]

end LineAssist.Text
