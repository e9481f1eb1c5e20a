import LineAssist.Yaml.Token

/-!
# The token stream of a document

Tokens are found from left to right. Indentation opens and closes block collections, and a token
that turns out to be a key by the colon behind it gets its key token put in front of it. A key must
stand on one line within 1024 characters.
-/

namespace LineAssist.Yaml

/-- A token that may turn out to be a key. -/
structure Candidate where
  /-- The place of the token in the stream. -/
  place : Nat
  /-- A colon has to follow, because the token starts a line of a block mapping. -/
  required : Bool
  index : Nat
  line : Nat
  column : Nat
  deriving Repr

structure Stream where
  cursor : Cursor
  tokens : Array Token
  /-- The number of flow collections that are open. -/
  flow : Nat
  /-- The column of the innermost block collection, and those of the ones around it. -/
  indent : Int
  indents : List Int
  /-- A key without an indicator may start here. -/
  allowKey : Bool
  /-- The candidate of each flow level. -/
  candidates : List (Nat × Candidate)
  deriving Repr

namespace Stream

def start (t : Text) : Stream where
  cursor := .ofText t
  tokens := #[]
  flow := 0
  indent := -1
  indents := []
  allowKey := true
  candidates := []

def push (s : Stream) (t : Token) : Stream :=
  { s with tokens := s.tokens.push t }

def candidate? (s : Stream) : Option Candidate :=
  (s.candidates.find? fun entry => entry.1 == s.flow).map Prod.snd

/-- Behind white space, comments and line breaks. -/
def skipToToken : Nat → Stream → Stream
  | 0, s => s
  | fuel + 1, s =>
    let c := s.cursor.skipSpaces.skipComment
    match c.lineBreak? with
    | some (_, after) =>
      skipToToken fuel { s with cursor := after, allowKey := s.allowKey || s.flow == 0 }
    | none => { s with cursor := c }

/-- Forgets the candidates that are too far away. -/
def dropStale (s : Stream) : Except Error Stream :=
  let stale (k : Candidate) : Bool :=
    k.line != s.cursor.line || 1024 < s.cursor.index - k.index
  if s.candidates.any fun entry => stale entry.2 && entry.2.required then .error .malformed
  else .ok { s with candidates := s.candidates.filter fun entry => !stale entry.2 }

/-- Forgets the candidate of the current flow level. -/
def dropCandidate (s : Stream) : Except Error Stream :=
  match s.candidate? with
  | some k =>
    if k.required then .error .malformed
    else .ok { s with candidates := s.candidates.filter fun entry => entry.1 != s.flow }
  | none => .ok s

/-- The next token may be a key. -/
def saveCandidate (s : Stream) : Except Error Stream :=
  if s.allowKey then do
    let required := s.flow == 0 && s.indent == (s.cursor.column : Int)
    let s ← s.dropCandidate
    let c := s.cursor
    .ok { s with
      candidates := (s.flow, ⟨s.tokens.size, required, c.index, c.line, c.column⟩) :: s.candidates }
  else .ok s

/-- Closes the block collections that start to the right of a column. -/
def unwind (column : Int) : Nat → Stream → Stream
  | 0, s => s
  | fuel + 1, s =>
    if s.flow == 0 && column < s.indent then
      unwind column fuel { s.push .blockEnd with
        indent := s.indents.headD (-1), indents := s.indents.tail }
    else s

def unwindTo (column : Int) (s : Stream) : Stream :=
  unwind column (s.indents.length + 1) s

/-- Opens a block collection at a column, if it is to the right of the current one. -/
def openAt (column : Nat) (place : Nat) (t : Token) (s : Stream) : Stream :=
  if s.indent < (column : Int) then
    { s with
      indents := s.indent :: s.indents
      indent := column
      tokens := s.tokens.insertIdxIfInBounds place t }
  else s

/-- A token of one character. -/
def single (t : Token) (s : Stream) : Stream :=
  { s.push t with cursor := s.cursor.next }

/-- A collection in flow style opens. -/
def openFlow (t : Token) (s : Stream) : Except Error Stream := do
  let s ← s.saveCandidate
  .ok { s.single t with flow := s.flow + 1, allowKey := true }

/-- A collection in flow style closes. -/
def closeFlow (t : Token) (s : Stream) : Except Error Stream := do
  let s ← s.dropCandidate
  if s.flow == 0 then .error .malformed
  else .ok { s.single t with flow := s.flow - 1, allowKey := false }

def flowEntry (s : Stream) : Except Error Stream := do
  let s ← s.dropCandidate
  .ok { s.single .flowEntry with allowKey := true }

/-- An indicator that starts an entry of a block collection. -/
def blockIndicator (opening : Token) (indicator : Token) (allowKey : Bool) (s : Stream) :
    Except Error Stream := do
  let s ←
    if s.flow == 0 then
      if s.allowKey then .ok (s.openAt s.cursor.column s.tokens.size opening)
      else .error .malformed
    else .ok s
  let s ← s.dropCandidate
  .ok { s.single indicator with allowKey := allowKey }

/-- A colon: it makes the candidate a key, or follows a key that was indicated. -/
def valueIndicator (s : Stream) : Except Error Stream :=
  match s.candidate? with
  | some k =>
    let s := { s with
      candidates := s.candidates.filter fun entry => entry.1 != s.flow
      tokens := s.tokens.insertIdxIfInBounds k.place .key }
    let s := if s.flow == 0 then s.openAt k.column k.place .blockMappingStart else s
    .ok { s.single .value with allowKey := false }
  | none => blockIndicator .blockMappingStart .value (s.flow == 0) s

/-- A token that may be a key and holds text. -/
def keyLike {α : Type} (read : Cursor → Except Error (α × Cursor)) (make : α → Token) (s : Stream) :
    Except Error Stream := do
  let s ← s.saveCandidate
  let (v, after) ← read s.cursor
  .ok { s.push (make v) with cursor := after, allowKey := false }

def plain (s : Stream) : Except Error Stream := do
  let s ← s.saveCandidate
  let (text, allow, after) := readPlain (s.flow != 0) s.indent s.cursor
  .ok { s.push (.scalar text true) with cursor := after, allowKey := allow }

def blockScalar (folded : Bool) (s : Stream) : Except Error Stream := do
  let s ← s.dropCandidate
  let (text, after) ← readBlockScalar folded s.indent s.cursor
  .ok { s.push (.scalar text false) with cursor := after, allowKey := true }

/-- A directive or document marker, which closes everything. -/
def atLineStart (read : Cursor → Except Error (Token × Cursor)) (s : Stream) : Except Error Stream := do
  let s ← (s.unwindTo (-1)).dropCandidate
  let (t, after) ← read s.cursor
  .ok { s.push t with cursor := after, allowKey := false }

/-- The character may start a plain scalar. -/
def startsPlain (s : Stream) (ch : Char) : Bool :=
  (!endsToken (some ch) && !"-?:,[]\x7b\x7d#&*!|>'\"%@`".toList.contains ch) ||
    (!endsToken (s.cursor.peek 1) && (ch == '-' || (s.flow == 0 && (ch == '?' || ch == ':'))))

/-- The next token, which starts with a character. -/
def fetch (ch : Char) (s : Stream) : Except Error Stream :=
  let c := s.cursor
  let blank := endsToken (c.peek 1)
  if ch == '%' && c.column == 0 then
    s.atLineStart fun c => do
      let (d, after) ← readDirective c
      .ok (.directive d, after)
  else if c.column == 0 && c.hasMarker '-' then
    s.atLineStart fun c => .ok (.documentStart, c.skip 3)
  else if c.column == 0 && c.hasMarker '.' then
    s.atLineStart fun c => .ok (.documentEnd, c.skip 3)
  else if ch == '[' then s.openFlow .flowSequenceStart
  else if ch == '{' then s.openFlow .flowMappingStart
  else if ch == ']' then s.closeFlow .flowSequenceEnd
  else if ch == '}' then s.closeFlow .flowMappingEnd
  else if ch == ',' then s.flowEntry
  else if ch == '-' && blank then s.blockIndicator .blockSequenceStart .blockEntry true
  else if ch == '?' && (s.flow != 0 || blank) then
    s.blockIndicator .blockMappingStart .key (s.flow == 0)
  else if ch == ':' && (s.flow != 0 || blank) then s.valueIndicator
  else if ch == '*' then s.keyLike readName .alias_
  else if ch == '&' then s.keyLike readName .anchor
  else if ch == '!' then s.keyLike readTag .tag
  else if ch == '|' && s.flow == 0 then s.blockScalar false
  else if ch == '>' && s.flow == 0 then s.blockScalar true
  else if ch == '\'' then s.keyLike (readQuoted false) fun t => .scalar t false
  else if ch == '"' then s.keyLike (readQuoted true) fun t => .scalar t false
  else if s.startsPlain ch then s.plain
  else .error .malformed

/-- The tokens up to the end, or up to the first fault with that fault. -/
def run : Nat → Stream → List Token × Option Error
  | 0, s => (s.tokens.toList, some .malformed)
  | fuel + 1, s =>
    let s := skipToToken (s.cursor.rest.length + 1) s
    let step : Except Error Stream := do
      let s ← s.dropStale
      let s := s.unwindTo s.cursor.column
      match s.cursor.head? with
      | some ch => s.fetch ch
      | none => (s.unwindTo (-1)).dropCandidate
    match step with
    | .error e => (s.tokens.toList, some e)
    | .ok after => if s.cursor.atEnd then (after.tokens.toList, none) else run fuel after

end Stream

/-- The characters that may stand in a document. -/
def isAllowed (c : Char) : Bool :=
  Text.inRanges [(0x09, 0x0A), (0x0D, 0x0D), (0x20, 0x7E), (0x85, 0x85), (0xA0, 0xD7FF),
    (0xE000, 0xFFFD), (0x10000, 0x10FFFF)] c.toNat

/-- The tokens of a text, and the fault that ends them, if there is one. -/
def tokens (t : Text) : List Token × Option Error :=
  if t.all isAllowed then
    let s := Stream.start t
    let s := if t.head? == some '\uFEFF' then { s with cursor := s.cursor.next } else s
    s.run (t.length + 2)
  else ([], some .malformed)

end LineAssist.Yaml
