import LineAssist.Number.Reading
import LineAssist.Text.Utf8
import LineAssist.Yaml.Cursor

/-!
# Tokens of a document

The tokens that a document is cut into, and the reading of those that hold text: anchors, tags,
directives and the five styles of scalars.
-/

namespace LineAssist.Yaml

/-- A tag as written: a handle and a suffix, or a whole tag without a handle. -/
structure TagText where
  handle : Option Text
  suffix : Text
  deriving DecidableEq, Repr

inductive Directive where
  /-- The version of the language, by its first number. -/
  | version (major : Nat)
  | tag (handle prefixText : Text)
  | other
  deriving DecidableEq, Repr

inductive Token where
  | directive (d : Directive)
  | documentStart
  | documentEnd
  | blockSequenceStart
  | blockMappingStart
  | blockEnd
  | flowSequenceStart
  | flowSequenceEnd
  | flowMappingStart
  | flowMappingEnd
  | blockEntry
  | flowEntry
  | key
  | value
  | alias_ (name : Text)
  | anchor (name : Text)
  | tag (t : TagText)
  | scalar (text : Text) (plain : Bool)
  deriving DecidableEq, Repr

/-- Letters, digits, dash and underscore. -/
def isWordChar (c : Char) : Bool :=
  c.isAlphanum || c == '-' || c == '_'

/-- The name behind the indicator of an anchor or an alias. -/
def readName (c : Cursor) : Except Error (Text × Cursor) :=
  let (name, after) := c.next.span isWordChar
  let closed := endsToken after.head? || after.head?.any fun ch => "?:,]\x7d%@`".toList.contains ch
  if name.isEmpty || !closed then .error .malformed else .ok (name, after)

/-- A percent escape of one octet. -/
def percentOctet? : Text → Option (UInt8 × Text)
  | '%' :: a :: b :: rest => do
    let a ← Text.hexValue? a
    let b ← Text.hexValue? b
    some (UInt8.ofNat (a * 16 + b), rest)
  | _ => none

/-- The octets of the percent escapes in a row; none when one of them is broken. -/
def percentOctets : Nat → Text → Option (List UInt8)
  | 0, _ => some []
  | fuel + 1, t =>
    match t with
    | '%' :: _ => do
      let (octet, rest) ← percentOctet? t
      let more ← percentOctets fuel rest
      some (octet :: more)
    | _ => some []

def isUriChar (c : Char) : Bool :=
  c.isAlphanum || "-;/?:@&=+$,_.!~*'()[]%".toList.contains c

/-- The percent escapes of a tag as characters. -/
def unescapeUri : Nat → Text → Option Text
  | 0, _ => some []
  | fuel + 1, t =>
    match t with
    | [] => some []
    | '%' :: _ => do
      let octets ← percentOctets t.length t
      let chars ← Text.decodeUtf8? octets
      let rest ← unescapeUri fuel (t.drop (3 * octets.length))
      some (chars ++ rest)
    | c :: rest => (unescapeUri fuel rest).map (c :: ·)

/-- The text of a tag or of the start of tags. -/
def readUri (c : Cursor) : Except Error (Text × Cursor) :=
  let (raw, after) := c.span isUriChar
  match unescapeUri raw.length raw with
  | some t => if raw.isEmpty then .error .malformed else .ok (t, after)
  | none => .error .malformed

/-- The handle of a tag: one exclamation mark, or two with a word between them. -/
def readHandle (c : Cursor) : Except Error (Text × Cursor) :=
  if !c.at_ '!' then .error .malformed
  else if c.peek 1 == some ' ' then .ok (['!'], c.next)
  else
    let (word, after) := c.next.span isWordChar
    if after.at_ '!' then .ok ('!' :: word ++ ['!'], after.next) else .error .malformed

def readTag (c : Cursor) : Except Error (TagText × Cursor) := do
  let (tag, after) ←
    if c.peek 1 == some '<' then do
      let (suffix, after) ← readUri (c.skip 2)
      if after.at_ '>' then .ok (⟨none, suffix⟩, after.next) else .error .malformed
    else if endsToken (c.peek 1) then .ok (⟨none, ['!']⟩, c.next)
    else
      let word := c.rest.tail.takeWhile fun ch => !endsWord (some ch)
      if word.contains '!' then do
        let (handle, after) ← readHandle c
        let (suffix, after) ← readUri after
        .ok (⟨some handle, suffix⟩, after)
      else do
        let (suffix, after) ← readUri c.next
        .ok (⟨some ['!'], suffix⟩, after)
  if endsWord after.head? then .ok (tag, after) else .error .malformed

/-- Behind the rest of a line that holds nothing but a comment. -/
def readIgnoredLine (c : Cursor) : Except Error Cursor :=
  let after := c.skipSpaces.skipComment
  if endsLine after.head? then .ok after.skipBreak else .error .malformed

/-- A number of a version, which is read as an integer. -/
def versionNumber (digits : Text) : Except Error Nat :=
  if digits.isEmpty then .error .malformed
  else if Number.digitLimit < digits.length then .error .impossible
  else .ok (Text.digitsValue digits)

def readVersion (c : Cursor) : Except Error (Directive × Cursor) := do
  let (digits, after) := c.skipSpaces.span Char.isDigit
  let major ← versionNumber digits
  if !after.at_ '.' then .error .malformed
  else
    let (digits, last) := after.next.span Char.isDigit
    let _ ← versionNumber digits
    if endsWord last.head? then .ok (.version major, last) else .error .malformed

def readTagDirective (c : Cursor) : Except Error (Directive × Cursor) := do
  let (handle, after) ← readHandle c.skipSpaces
  if !after.at_ ' ' then .error .malformed
  else
    let (start, after) ← readUri after.skipSpaces
    if endsWord after.head? then .ok (.tag handle start, after) else .error .malformed

def readDirective (c : Cursor) : Except Error (Directive × Cursor) := do
  let (name, after) := c.next.span isWordChar
  if name.isEmpty || !endsWord after.head? then .error .malformed
  else
    let (directive, after) ←
      if name = "YAML".toList then readVersion after
      else if name = "TAG".toList then readTagDirective after
      else .ok (.other, after.skipLine)
    .ok (directive, ← readIgnoredLine after)

/-- How the line breaks at the end of a block scalar are kept. -/
inductive Chomping where
  | strip
  | clip
  | keep
  deriving DecidableEq, Repr

def chompingSign? : Option Char → Option Chomping
  | some '+' => some .keep
  | some '-' => some .strip
  | _ => none

/-- A digit other than zero that gives the indentation. -/
def increment? (c : Option Char) : Except Error (Option Nat) :=
  match c with
  | some ch =>
    if ch.isDigit then (if ch = '0' then .error .malformed else .ok (some (ch.toNat - 48)))
    else .ok none
  | none => .ok none

/-- The chomping sign and the indentation digit in either order. -/
def readBlockHeader (c : Cursor) : Except Error ((Chomping × Option Nat) × Cursor) := do
  let (chomping, increment, after) ←
    match chompingSign? c.head? with
    | some chomping => do
      let c := c.next
      match ← increment? c.head? with
      | some n => .ok (chomping, some n, c.next)
      | none => .ok (chomping, none, c)
    | none => do
      match ← increment? c.head? with
      | some n =>
        let c := c.next
        match chompingSign? c.head? with
        | some chomping => .ok (chomping, some n, c.next)
        | none => .ok (Chomping.clip, some n, c)
      | none => .ok (Chomping.clip, none, c)
  if endsWord after.head? then .ok ((chomping, increment), after) else .error .malformed

/-- The line breaks in front of the first line of a block scalar, and its greatest column. -/
def blockIndentation : Nat → Nat → Cursor → Text × Nat × Cursor
  | 0, widest, c => ([], widest, c)
  | fuel + 1, widest, c =>
    if c.at_ ' ' then
      let c := c.next
      blockIndentation fuel (max widest c.column) c
    else
      match c.lineBreak? with
      | some (b, after) =>
        let (breaks, widest, last) := blockIndentation fuel widest after
        (b :: breaks, widest, last)
      | none => ([], widest, c)

/-- Spaces up to a column. -/
def skipIndent (indent : Nat) : Nat → Cursor → Cursor
  | 0, c => c
  | fuel + 1, c =>
    if c.column < indent && c.at_ ' ' then skipIndent indent fuel c.next else c

/-- The line breaks between two lines of a block scalar. -/
def blockBreaks (indent : Nat) : Nat → Cursor → Text × Cursor
  | 0, c => ([], c)
  | fuel + 1, c =>
    let c := skipIndent indent indent c
    match c.lineBreak? with
    | some (b, after) =>
      let (breaks, last) := blockBreaks indent fuel after
      (b :: breaks, last)
    | none => ([], c)

def startsBlank (c : Cursor) : Bool :=
  c.at_ ' ' || c.at_ '\t'

/-- The lines of a block scalar: the text, the last line break and the breaks behind it. -/
def blockLines (folded : Bool) (indent : Nat) :
    Nat → Text → Text → Option Char → Cursor → Text × Option Char × Text × Cursor
  | 0, text, breaks, last, c => (text, last, breaks, c)
  | fuel + 1, text, breaks, last, c =>
    if c.column = indent && !c.atEnd then
      let text := text ++ breaks
      let leadingText := !startsBlank c
      let (line, after) := c.span fun ch => !isBreak ch
      let text := text ++ line
      let (lineBreak, after) := match after.lineBreak? with
        | some (b, next) => (some b, next)
        | none => (none, after)
      let (breaks, after) := blockBreaks indent after.rest.length after
      if after.column = indent && !after.atEnd then
        let text :=
          if folded && lineBreak == some '\n' && leadingText && !startsBlank after then
            if breaks.isEmpty then text ++ [' '] else text
          else text ++ lineBreak.toList
        blockLines folded indent fuel text breaks lineBreak after
      else (text, lineBreak, breaks, after)
    else (text, last, breaks, c)

/-- A literal or folded scalar inside a collection with the given indentation. -/
def readBlockScalar (folded : Bool) (outer : Int) (c : Cursor) : Except Error (Text × Cursor) := do
  let ((chomping, increment), after) ← readBlockHeader c.next
  let start ← readIgnoredLine after
  let least := (max 1 (outer + 1)).toNat
  let fuel := start.rest.length + 1
  let (indent, breaks, first) := match increment with
    | some n =>
      let indent := least + n - 1
      let (breaks, first) := blockBreaks indent fuel start
      (indent, breaks, first)
    | none =>
      let (breaks, widest, first) := blockIndentation fuel 0 start
      (max least widest, breaks, first)
  let (text, last, breaks, after) := blockLines folded indent fuel [] breaks none first
  let text := if chomping = .strip then text else text ++ last.toList
  .ok (if chomping = .keep then text ++ breaks else text, after)

/-- What a backslash and a character stand for between double quotes. -/
def escapeValue? : Char → Option Char
  | '0' => some '\x00'
  | 'a' => some '\x07'
  | 'b' => some '\x08'
  | 't' => some '\t'
  | '\t' => some '\t'
  | 'n' => some '\n'
  | 'v' => some '\x0b'
  | 'f' => some '\x0c'
  | 'r' => some '\r'
  | 'e' => some '\x1b'
  | ' ' => some ' '
  | '"' => some '"'
  | '\\' => some '\\'
  | '/' => some '/'
  | 'N' => some '\x85'
  | '_' => some '\xa0'
  | 'L' => some '\u2028'
  | 'P' => some '\u2029'
  | _ => none

/-- The number of hexadecimal digits behind a backslash and a character. -/
def escapeWidth? : Char → Option Nat
  | 'x' => some 2
  | 'u' => some 4
  | 'U' => some 8
  | _ => none

/-- The line breaks inside a quoted scalar; a document marker may not stand at a line start. -/
def quotedBreaks : Nat → Cursor → Except Error (Text × Cursor)
  | 0, c => .ok ([], c)
  | fuel + 1, c =>
    if c.atSeparator then .error .malformed
    else
      let c := c.skipWhile fun ch => ch == ' ' || ch == '\t'
      match c.lineBreak? with
      | some (b, after) => do
        let (breaks, last) ← quotedBreaks fuel after
        .ok (b :: breaks, last)
      | none => .ok ([], c)

/-- The white space inside a quoted scalar: a single line break is read as a space. -/
def quotedSpaces (c : Cursor) : Except Error (Text × Cursor) :=
  let (spaces, after) := c.span fun ch => ch == ' ' || ch == '\t'
  if after.atEnd then .error .malformed
  else
    match after.lineBreak? with
    | some (b, next) => do
      let (breaks, last) ← quotedBreaks next.rest.length next
      let first := if b ≠ '\n' then [b] else if breaks.isEmpty then [' '] else []
      .ok (first ++ breaks, last)
    | none => .ok (spaces, after)

/-- The number that an escape in hexadecimal digits gives, and the text behind it; none for other
escapes. -/
def escapeCode? (c : Cursor) : Option (Except Error (Nat × Cursor)) :=
  (c.rest.head?.bind escapeWidth?).map fun width =>
    let values := (c.rest.tail.take width).filterMap Text.hexValue?
    if values.length < width then .error .malformed
    else .ok (values.foldl (fun n v => n * 16 + v) 0, c.skip (width + 1))

/-- The low half of a character in an escape. -/
def lowHalf? (c : Cursor) : Option (Nat × Cursor) :=
  match c.rest with
  | '\\' :: _ =>
    match escapeCode? c.next with
    | some (.ok (n, after)) => if 0xDC00 ≤ n && n ≤ 0xDFFF then some (n, after) else none
    | _ => none
  | _ => none

/-- The character of a number. Two halves of a character are one, and a half that stands alone is
the replacement character. -/
def escapedChar (n : Nat) (after : Cursor) : Except Error (Char × Cursor) :=
  if 0xD800 ≤ n && n ≤ 0xDFFF then
    match lowHalf? after with
    | some (m, last) =>
      if n ≤ 0xDBFF then .ok (Char.ofNat (0x10000 + (n - 0xD800) * 0x400 + (m - 0xDC00)), last)
      else .ok ('\uFFFD', after)
    | none => .ok ('\uFFFD', after)
  else if n < 0x110000 then .ok (Char.ofNat n, after)
  else .error (if n < 0x80000000 then .impossible else .outOfRange)

/-- An escape behind its backslash. -/
def quotedEscape (c : Cursor) : Except Error (Text × Cursor) :=
  match c.rest.head?.bind escapeValue?, escapeCode? c with
  | some v, _ => .ok ([v], c.next)
  | none, some code => do
    let (n, after) ← code
    let (ch, last) ← escapedChar n after
    .ok ([ch], last)
  | none, none =>
    match c.lineBreak? with
    | some (_, next) => quotedBreaks next.rest.length next
    | none => .error .malformed

/-- The text of a quoted scalar up to its closing quote. -/
def quotedText (double : Bool) : Nat → Cursor → Except Error (Text × Cursor)
  | 0, _ => .error .malformed
  | fuel + 1, c =>
    match c.rest with
    | [] => .error .malformed
    | ch :: more =>
      if endsToken (some ch) then do
        let (spaces, after) ← quotedSpaces c
        let (rest, last) ← quotedText double fuel after
        .ok (spaces ++ rest, last)
      else if double && ch == '\\' then do
        let (part, after) ← quotedEscape c.next
        let (rest, last) ← quotedText double fuel after
        .ok (part ++ rest, last)
      else if !double && ch == '\'' && more.head? == some '\'' then do
        let (rest, last) ← quotedText double fuel (c.skip 2)
        .ok ('\'' :: rest, last)
      else if ch == (if double then '"' else '\'') then .ok ([], c.next)
      else do
        let (rest, last) ← quotedText double fuel c.next
        .ok (ch :: rest, last)

def readQuoted (double : Bool) (c : Cursor) : Except Error (Text × Cursor) :=
  quotedText double (c.rest.length + 1) c.next

/-- The characters that delimit collections in flow style. -/
def isFlowChar (c : Char) : Bool :=
  c == ',' || c == '[' || c == ']' || c == '{' || c == '}'

/-- The run of a plain scalar up to white space or an indicator. -/
def plainRun (flow : Bool) : Text → Text
  | [] => []
  | ch :: rest =>
    if endsToken (some ch) then []
    else if ch == ':' && (endsToken rest.head? || (flow && rest.head?.any isFlowChar)) then []
    else if flow && (ch == '?' || isFlowChar ch) then []
    else ch :: plainRun flow rest

/-- The line breaks behind a line of a plain scalar; none when a document marker follows. -/
def plainBreaks : Nat → Cursor → Option Text × Cursor
  | 0, c => (some [], c)
  | fuel + 1, c =>
    if c.at_ ' ' then plainBreaks fuel c.next
    else
      match c.lineBreak? with
      | some (b, after) =>
        if after.atSeparator then (none, after)
        else
          let (breaks, last) := plainBreaks fuel after
          (breaks.map (b :: ·), last)
      | none => (some [], c)

/-- The white space behind a run of a plain scalar, and whether it holds a line break. -/
def plainSpaces (c : Cursor) : Text × Bool × Cursor :=
  let (spaces, after) := c.span (· == ' ')
  match after.lineBreak? with
  | some (b, next) =>
    if next.atSeparator then ([], true, next)
    else
      match plainBreaks next.rest.length next with
      | (none, last) => ([], true, last)
      | (some breaks, last) =>
        let first := if b ≠ '\n' then [b] else if breaks.isEmpty then [' '] else []
        (first ++ breaks, true, last)
  | none => (spaces, false, after)

/-- A plain scalar, and whether a simple key may follow it, because it ended at a line start. -/
def plainText (flow : Bool) (indent : Int) :
    Nat → Text → Text → Bool → Cursor → Text × Bool × Cursor
  | 0, text, _, allow, c => (text, allow, c)
  | fuel + 1, text, spaces, allow, c =>
    if c.at_ '#' then (text, allow, c)
    else
      let run := plainRun flow c.rest
      if run.isEmpty then (text, allow, c)
      else
        let text := text ++ spaces ++ run
        let (spaces, broke, after) := plainSpaces (c.skip run.length)
        if spaces.isEmpty || after.at_ '#' || (!flow && (after.column : Int) < indent) then
          (text, broke, after)
        else plainText flow indent fuel text spaces broke after

def readPlain (flow : Bool) (outer : Int) (c : Cursor) : Text × Bool × Cursor :=
  plainText flow (outer + 1) (c.rest.length + 1) [] [] false c

end LineAssist.Yaml
