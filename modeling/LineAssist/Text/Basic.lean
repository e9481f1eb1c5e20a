/-!
# Texts

A text is a list of code points. Offsets, lengths and columns everywhere in the library count
its elements. White space is one fixed set of code points; a text is cut at it into *pieces*, and
its words are the pieces that are not empty.
-/

namespace LineAssist

/-- A text is the list of its code points. -/
abbrev Text := List Char

namespace Text

/-- A property of every character of a text is decided by going through the text, never through all
the characters there are. -/
instance (p : Char → Prop) [DecidablePred p] (t : Text) : Decidable (∀ c ∈ t, p c) :=
  List.decidableBAll p t

/-- The code point lies in one of the ranges, both ends included. -/
def inRanges (ranges : List (Nat × Nat)) (n : Nat) : Bool :=
  ranges.any fun r => r.1 ≤ n && n ≤ r.2

/-- White space: the ASCII controls and separators, and the Unicode space and line separators. -/
def blankRanges : List (Nat × Nat) :=
  [(0x09, 0x0D), (0x1C, 0x20), (0x85, 0x85), (0xA0, 0xA0), (0x1680, 0x1680), (0x2000, 0x200A),
    (0x2028, 0x2029), (0x202F, 0x202F), (0x205F, 0x205F), (0x3000, 0x3000)]

def isBlank (c : Char) : Bool :=
  inRanges blankRanges c.toNat

/-- Single and double quotes. -/
def isQuote (c : Char) : Bool :=
  c == '"' || c == '\''

/-- The text starts with a dash. -/
def isDashLed (t : Text) : Bool :=
  t.head? == some '-'

/-- The parts between single white space characters, empty ones included, so that the parts with
their separators give the text back. There is always at least one. -/
def pieces : Text → List Text
  | [] => [[]]
  | c :: rest =>
    if isBlank c then [] :: pieces rest
    else
      match pieces rest with
      | [] => [[c]]
      | piece :: more => (c :: piece) :: more

/-- The maximal runs without white space. -/
def words (t : Text) : List Text :=
  (pieces t).filter fun piece => !piece.isEmpty

/-- Without the white space at the start. -/
def trimStart (t : Text) : Text :=
  t.dropWhile isBlank

/-- Without the white space at the end. -/
def trimEnd (t : Text) : Text :=
  (t.reverse.dropWhile isBlank).reverse

/-- Without the white space at both ends. -/
def trim (t : Text) : Text :=
  trimEnd (trimStart t)

/-- The texts in order with a separator between neighbours. -/
def join (separator : Text) : List Text → Text
  | [] => []
  | [t] => t
  | t :: rest => t ++ separator ++ join separator rest

/-- Words joined by single spaces. -/
def unwords (ws : List Text) : Text :=
  join [' '] ws

/-- The decimal digits of a natural number. -/
def ofNat (n : Nat) : Text :=
  Nat.toDigits 10 n

/-- The decimal digits of an integer behind its sign, which is written only when negative. -/
def ofInt : Int → Text
  | .ofNat n => ofNat n
  | .negSucc n => '-' :: ofNat (n + 1)

/-- The digits of a number in lower-case hexadecimal, with zeros in front up to the width. -/
def hex (width n : Nat) : Text :=
  let digits := Nat.toDigits 16 n
  List.replicate (width - digits.length) '0' ++ digits

/-- The characters before a position; a negative position is counted from the end. -/
def upTo (position : Int) (t : Text) : Text :=
  t.take (if position < 0 then position + t.length else position).toNat

/-- The part of the text after a given start, if it starts so. -/
def stripStart? : Text → Text → Option Text
  | [], t => some t
  | _ :: _, [] => none
  | p :: start, c :: t => if p = c then stripStart? start t else none

/-- The text contains the other one somewhere. -/
def containsText (needle : Text) : Text → Bool
  | [] => needle.isEmpty
  | c :: rest => needle.isPrefixOf (c :: rest) || containsText needle rest

/-- The part before the first occurrence of a character, and the part after it. -/
def cut? (q : Char) : Text → Option (Text × Text)
  | [] => none
  | c :: rest =>
    if c = q then some ([], rest) else (cut? q rest).map fun (before, after) => (c :: before, after)

/-- The parts between the occurrences of a character. -/
def splitAtChar (q : Char) : Text → List Text
  | [] => [[]]
  | c :: rest =>
    if c = q then [] :: splitAtChar q rest
    else
      match splitAtChar q rest with
      | [] => [[c]]
      | part :: more => (c :: part) :: more

/-- Lower case of the ASCII letters. -/
def lower (t : Text) : Text :=
  t.map Char.toLower

/-- Order of texts by code points. -/
def before : Text → Text → Bool
  | [], [] => false
  | [], _ :: _ => true
  | _ :: _, [] => false
  | a :: s, b :: t => if a = b then before s t else a.toNat < b.toNat

end Text

end LineAssist
