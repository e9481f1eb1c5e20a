import LineAssist.Json.Reading

/-!
# Writing JSON

A value is written on one line, or with one item per line and an indent for each level; an empty
array or object is always closed at once. An integer with more than 4300 digits has no text, and
neither has a value that nests deeper than the stack has room for.
-/

namespace LineAssist.Json

/-- How values are laid out. -/
structure Layout where
  /-- Spaces for each level, or none for one line. -/
  indent : Option Nat
  /-- Between an item and the next on one line. -/
  itemSeparator : Text
  /-- Between a key and its value. -/
  keySeparator : Text
  /-- Characters beyond ASCII are written as escapes. -/
  asciiOnly : Bool

/-- One line with a space behind commas and colons, or the given indent. -/
def Layout.indented (indent : Option Nat) : Layout where
  indent := indent
  itemSeparator := if indent.isSome then [','] else ", ".toList
  keySeparator := ": ".toList
  asciiOnly := false

/-- No white space at all, and ASCII characters only. -/
def Layout.compact : Layout where
  indent := none
  itemSeparator := [',']
  keySeparator := [':']
  asciiOnly := true

/-- An escape of one unit. -/
def unitEscape (n : Nat) : Text :=
  ['\\', 'u'] ++ Text.hex 4 n

/-- A character beyond ASCII as one or two units. -/
def asciiEscape (n : Nat) : Text :=
  if n < 0x10000 then unitEscape n
  else unitEscape (0xD800 + (n - 0x10000) / 0x400) ++ unitEscape (0xDC00 + (n - 0x10000) % 0x400)

/-- One character inside a string. -/
def writeChar (asciiOnly : Bool) (c : Char) : Text :=
  if c = '"' then ['\\', '"']
  else if c = '\\' then ['\\', '\\']
  else if c = '\n' then ['\\', 'n']
  else if c = '\r' then ['\\', 'r']
  else if c = '\t' then ['\\', 't']
  else if c = '\x08' then ['\\', 'b']
  else if c = '\x0c' then ['\\', 'f']
  else if c.toNat < 0x20 then unitEscape c.toNat
  else if asciiOnly && 0x7F ≤ c.toNat then asciiEscape c.toNat
  else [c]

def writeString (asciiOnly : Bool) (t : Text) : Text :=
  '"' :: t.flatMap (writeChar asciiOnly) ++ ['"']

/-- The break in front of an item at a depth. -/
def Layout.lineBreak (layout : Layout) (depth : Nat) : Text :=
  match layout.indent with
  | none => []
  | some n => '\n' :: List.replicate (n * depth) ' '

mutual

/-- A value whose items stand one level below the given depth. -/
def writeAt (layout : Layout) (depth : Nat) : Json → Text
  | .null => "null".toList
  | .bool true => "true".toList
  | .bool false => "false".toList
  | .int i => Text.ofInt i
  | .float x => decimals.text x
  | .str t => writeString layout.asciiOnly t
  | .arr [] => ['[', ']']
  | .arr (v :: rest) =>
    '[' :: (layout.lineBreak (depth + 1) ++ (writeAt layout (depth + 1) v ++
      (writeItems layout (depth + 1) rest ++ (layout.lineBreak depth ++ [']']))))
  | .obj [] => ['{', '}']
  | .obj ((k, v) :: rest) =>
    '{' :: (layout.lineBreak (depth + 1) ++ (writeString layout.asciiOnly k ++
      (layout.keySeparator ++ (writeAt layout (depth + 1) v ++
        (writeFields layout (depth + 1) rest ++ (layout.lineBreak depth ++ ['}']))))))

/-- The further items of an array, each behind a separator. -/
def writeItems (layout : Layout) (depth : Nat) : List Json → Text
  | [] => []
  | v :: rest =>
    layout.itemSeparator ++ (layout.lineBreak depth ++ (writeAt layout depth v ++
      writeItems layout depth rest))

/-- The further fields of an object, each behind a separator. -/
def writeFields (layout : Layout) (depth : Nat) : List (Text × Json) → Text
  | [] => []
  | (k, v) :: rest =>
    layout.itemSeparator ++ (layout.lineBreak depth ++ (writeString layout.asciiOnly k ++
      (layout.keySeparator ++ (writeAt layout depth v ++ writeFields layout depth rest))))

end

mutual

/-- Every integer inside the value is short enough to be written. -/
def isWritable : Json → Bool
  | .int i => Number.isShort i
  | .arr items => itemsWritable items
  | .obj fields => fieldsWritable fields
  | _ => true

def itemsWritable : List Json → Bool
  | [] => true
  | v :: rest => isWritable v && itemsWritable rest

def fieldsWritable : List (Text × Json) → Bool
  | [] => true
  | (_, v) :: rest => isWritable v && fieldsWritable rest

end

/-- The text of a value in a layout, whatever the length of its integers and its levels. -/
def write (layout : Layout) (v : Json) : Text :=
  writeAt layout 0 v

/-- How a program reads and writes its JSON. Its stack has room for the same levels in both: what
they start with differs by a few of them at most. -/
structure Codec where
  /-- Spaces for each level, or none for one line. -/
  indent : Option Nat
  /-- The levels that there is room for; none is room for any number. -/
  levels : Option Nat
  deriving DecidableEq, Repr

namespace Codec

/-- Four spaces for each level, and the room that there usually is. -/
def usual : Codec where
  indent := some 4
  levels := some 980

/-- Reads a whole text as one value. -/
def read (codec : Codec) (t : Text) : Except ReadError Json :=
  readWithin codec.levels t

/-- The text of a value; none when an integer is too long or the value nests too deep. -/
def write? (codec : Codec) (v : Json) : Option Text :=
  if isWritable v && v.fits codec.levels then some (write (.indented codec.indent) v) else none

end Codec

end LineAssist.Json
