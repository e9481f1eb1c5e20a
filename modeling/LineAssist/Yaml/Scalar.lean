import LineAssist.Calendar
import LineAssist.Json.Basic
import LineAssist.Number.Reading
import LineAssist.Yaml.Token

/-!
# Scalars

The tags that nodes can have, the tag that a plain scalar takes from its text, and the value of a
scalar with a tag. Numbers may hold underscores; integers are binary, octal, decimal, hexadecimal
or of base sixty.
-/

namespace LineAssist.Yaml

inductive Tag where
  | null
  | bool
  | int
  | float
  | str
  | timestamp
  | binary
  | merge
  | value
  | seq
  | map
  | set
  | omap
  | pairs
  | unknown
  deriving DecidableEq, Repr

namespace Tag

/-- What the full text of a known tag starts with. -/
def base : Text :=
  "tag:yaml.org,2002:".toList

def ofText (t : Text) : Tag :=
  match Text.stripStart? base t with
  | none => .unknown
  | some name =>
    match String.ofList name with
    | "null" => .null
    | "bool" => .bool
    | "int" => .int
    | "float" => .float
    | "str" => .str
    | "timestamp" => .timestamp
    | "binary" => .binary
    | "merge" => .merge
    | "value" => .value
    | "seq" => .seq
    | "map" => .map
    | "set" => .set
    | "omap" => .omap
    | "pairs" => .pairs
    | _ => .unknown

/-- The words that are truth values. -/
def truthWords : List Text :=
  ["yes", "Yes", "YES", "no", "No", "NO", "true", "True", "TRUE", "false", "False", "FALSE", "on",
    "On", "ON", "off", "Off", "OFF"].map String.toList

def nullWords : List Text :=
  ["", "~", "null", "Null", "NULL"].map String.toList

def infinityWords : List Text :=
  [".inf", ".Inf", ".INF"].map String.toList

def nanWords : List Text :=
  [".nan", ".NaN", ".NAN"].map String.toList

/-- Digits of a base, or underscores. -/
def isDigits (p : Char → Bool) (t : Text) : Bool :=
  t.all fun c => p c || c == '_'

/-- A digit, then digits or underscores. -/
def startsWithDigit (first : Char → Bool) (t : Text) : Bool :=
  match t with
  | [] => false
  | c :: rest => first c && isDigits Char.isDigit rest

def isOctalDigit (c : Char) : Bool :=
  '0' ≤ c && c ≤ '7'

def isNonZeroDigit (c : Char) : Bool :=
  '1' ≤ c && c ≤ '9'

/-- A part of a number of base sixty behind a colon. -/
def isSexagesimalPart (t : Text) : Bool :=
  match t with
  | [a] => a.isDigit
  | [a, b] => '0' ≤ a && a ≤ '5' && b.isDigit
  | _ => false

/-- Parts of base sixty with colons between them, at least two. -/
def isSexagesimal (first : Char → Bool) (t : Text) : Bool :=
  match Text.splitAtChar ':' t with
  | head :: part :: more => startsWithDigit first head && (part :: more).all isSexagesimalPart
  | _ => false

def isInt (t : Text) : Bool :=
  let (_, u) := Number.spanSign t
  match u with
  | '0' :: 'b' :: rest => !rest.isEmpty && isDigits (fun c => c == '0' || c == '1') rest
  | '0' :: 'x' :: rest => !rest.isEmpty && isDigits (fun c => (Text.hexValue? c).isSome) rest
  | '0' :: rest => isDigits isOctalDigit rest
  | _ => startsWithDigit isNonZeroDigit u || isSexagesimal isNonZeroDigit u

/-- The exponent of a float: a letter, a sign and digits, or nothing. -/
def isExponent (t : Text) : Bool :=
  match t with
  | [] => true
  | e :: sign :: digits =>
    (e == 'e' || e == 'E') && (sign == '+' || sign == '-') && !digits.isEmpty &&
      digits.all Char.isDigit
  | _ => false

def isFloat (t : Text) : Bool :=
  let (_, u) := Number.spanSign t
  let digitOrUnderscore (c : Char) : Bool := c.isDigit || c == '_'
  let decimal := match Text.cut? '.' u with
    | some (whole, rest) =>
      startsWithDigit Char.isDigit whole && isExponent (rest.dropWhile digitOrUnderscore)
    | none => false
  let bare := match t with
    | '.' :: d :: rest => d.isDigit && isExponent (rest.dropWhile digitOrUnderscore)
    | _ => false
  let sexagesimal := match Text.cut? '.' u with
    | some (whole, rest) => isSexagesimal Char.isDigit whole && rest.all digitOrUnderscore
    | none => false
  decimal || bare || sexagesimal || infinityWords.contains u || nanWords.contains t

end Tag

/-- One or two digits at the start. -/
def oneOrTwo? (t : Text) : Option (Nat × Text) :=
  match t with
  | a :: b :: rest =>
    if a.isDigit && b.isDigit then some (Text.digitsValue [a, b], rest)
    else if a.isDigit then some (Text.digitsValue [a], b :: rest)
    else none
  | [a] => if a.isDigit then some (Text.digitsValue [a], []) else none
  | [] => none

/-- A given number of digits at the start. -/
def digits? (count : Nat) (t : Text) : Option (Nat × Text) :=
  let digits := t.take count
  if digits.length == count && digits.all Char.isDigit then
    some (Text.digitsValue digits, t.drop count)
  else none

/-- A fixed character at the start. -/
def expect? (c : Char) (t : Text) : Option Text :=
  match t with
  | d :: rest => if c = d then some rest else none
  | [] => none

/-- The parts of a time as written. -/
structure TimeParts where
  date : Calendar.Date
  time : Option Calendar.Time
  offset : Option Calendar.Offset
  deriving Repr

def isTab (c : Char) : Bool :=
  c == ' ' || c == '\t'

/-- The zone at the end of a time. -/
def zone? (t : Text) : Option (Option Calendar.Offset) :=
  match t with
  | [] => some none
  | _ =>
    match t.dropWhile isTab with
    | ['Z'] => some (some 0)
    | sign :: rest =>
      if sign == '+' || sign == '-' then do
        let (hours, rest) ← oneOrTwo? rest
        let minutes ← match rest with
          | [] => some 0
          | _ => do
            let (minutes, rest) ← digits? 2 (← expect? ':' rest)
            if rest.isEmpty then some minutes else none
        let o : Int := (hours * 60 + minutes : Nat)
        some (some (if sign == '-' then -o else o))
      else none
    | [] => none

/-- The time behind a date. -/
def timeOfDay? (t : Text) : Option (Calendar.Time × Option Calendar.Offset) := do
  let rest ← match t with
    | c :: rest =>
      if c == 'T' || c == 't' then some rest
      else if isTab c then some (rest.dropWhile isTab)
      else none
    | [] => none
  let (hour, rest) ← oneOrTwo? rest
  let (minute, rest) ← digits? 2 (← expect? ':' rest)
  let (second, rest) ← digits? 2 (← expect? ':' rest)
  let (fraction, rest) := match rest with
    | '.' :: more => Text.spanDigits more
    | _ => ([], rest)
  let micro := (fraction ++ List.replicate 6 '0').take 6
  let offset ← zone? rest
  some (⟨hour, minute, second, Text.digitsValue micro⟩, offset)

/-- A date, alone or with a time. -/
def timeParts? (t : Text) : Option TimeParts := do
  let (year, rest) ← digits? 4 t
  let (month, rest) ← oneOrTwo? (← expect? '-' rest)
  let (day, rest) ← oneOrTwo? (← expect? '-' rest)
  match rest with
  | [] => some ⟨⟨year, month, day⟩, none, none⟩
  | _ =>
    let (time, offset) ← timeOfDay? rest
    some ⟨⟨year, month, day⟩, some time, offset⟩

/-- A date of full width, or a date with a time. -/
def isTimestamp (t : Text) : Bool :=
  match timeParts? t with
  | some p => p.time.isSome || t.length == 10
  | none => false

/-- A text without a line feed at its end. -/
def withoutLastBreak (t : Text) : Text :=
  if t.getLast? == some '\n' then t.dropLast else t

/-- The tag that a scalar of open type takes from its text, where a line feed at the end does not
count; only a text without any character is null. The indicators of tags, anchors and aliases have
a type of their own without values. -/
def Tag.resolve (t : Text) : Tag :=
  let u := withoutLastBreak t
  if truthWords.contains u then .bool
  else if isFloat u then .float
  else if isInt u then .int
  else if u = ['<', '<'] then .merge
  else if nullWords.contains u && u.isEmpty == t.isEmpty then .null
  else if isTimestamp u then .timestamp
  else if u = ['='] then .value
  else if [['!'], ['&'], ['*']].contains u then .unknown
  else .str

/-- The letter behind a zero that may stand in front of the digits of a base. -/
def baseLetter? : Nat → Option Char
  | 2 => some 'b'
  | 8 => some 'o'
  | 16 => some 'x'
  | _ => none

/-- A number in a base that is a power of two, with an optional sign and an optional letter for
the base. -/
def readBase? (base : Nat) (t : Text) : Option Int :=
  let (negative, u) := Number.spanSign (Number.trimSpace (Number.asciiDigits t))
  let digits := match u with
    | '0' :: letter :: rest => if some letter.toLower = baseLetter? base then rest else u
    | _ => u
  let values := digits.filterMap Text.hexValue?
  if digits.isEmpty || values.length < digits.length || values.any fun v => base ≤ v then none
  else
    let n : Int := (values.foldl (fun n v => n * base + v) 0 : Nat)
    some (if negative then -n else n)

/-- The value of an integer scalar. -/
def intValue (t : Text) : Except Error Int :=
  let plain := t.filter (· != '_')
  match plain with
  | [] => .error .emptyNumber
  | _ =>
    let (negative, u) := Number.spanSign plain
    let magnitude : Except Error Int :=
      match u with
      | [] => .error .emptyNumber
      | ['0'] => .ok 0
      | '0' :: 'b' :: rest => given (readBase? 2 rest)
      | '0' :: 'x' :: rest => given (readBase? 16 rest)
      | '0' :: _ => given (readBase? 8 u)
      | _ =>
        if u.contains ':' then
          match (Text.splitAtChar ':' u).mapM Number.readInt? with
          | some parts => .ok (parts.foldl (fun n p => n * 60 + p) 0)
          | none => .error .impossible
        else
          match Number.readInt? u with
          | some n => .ok n
          | none => .error .impossible
    magnitude.map fun n => if negative then -n else n
where
  given (n : Option Int) : Except Error Int :=
    match n with
    | some n => .ok n
    | none => .error .impossible

/-- The parts of a number of base sixty, the last one with the weight one. Each weight has to be
below the infinite. -/
def sexagesimalValue (parts : List Binary64) : Except Error Binary64 := do
  let (sum, _) ← parts.reverse.foldlM
    (fun (sum, weight) part =>
      match Binary64.ofInt weight with
      | .infinity _ => Except.error Error.outOfRange
      | x => .ok (sum.add (part.mul x), weight * 60))
    (Binary64.zero, 1)
  .ok sum

/-- The value of a fraction scalar; none for the word for what is not a number. -/
def floatValue? (t : Text) : Except Error (Option Binary64) :=
  let plain := Text.lower (t.filter (· != '_'))
  match plain with
  | [] => .error .emptyNumber
  | _ =>
    let (negative, u) := Number.spanSign plain
    let signed (x : Binary64) := if negative then x.neg else x
    if u = ".inf".toList then .ok (some (signed (.infinity false)))
    else if u = ".nan".toList then .ok none
    else if u.contains ':' then
      match (Text.splitAtChar ':' u).mapM Number.readBinary64? with
      | some parts => (sexagesimalValue parts).map fun x => some (signed x)
      | none => .error .impossible
    else
      match Number.readBinary64? u with
      | some x => .ok (some (signed x))
      | none => .error .impossible

def boolValue (t : Text) : Except Error Bool :=
  let word := Text.lower t
  if ["yes", "true", "on"].any fun w => w.toList = word then .ok true
  else if ["no", "false", "off"].any fun w => w.toList = word then .ok false
  else .error .unknownTruth

/-- The date or time of a scalar, which has to exist. -/
def timeValue (t : Text) : Except Error Calendar.Moment :=
  match timeParts? (withoutLastBreak t) with
  | none => .error .unknownTime
  | some p =>
    if !p.date.exists_ then .error .impossible
    else
      match p.time with
      | none => .ok (.date p.date)
      | some time =>
        if !time.exists_ then .error .impossible
        else
          match p.offset with
          | none => .ok (.local_ p.date time)
          | some o => if Calendar.offsetExists o then .ok (.offset p.date time o) else .error .impossible

/-- The six bits that a character stands for. -/
def sextet? (c : Char) : Option Nat :=
  if c.isUpper then some (c.toNat - 65)
  else if c.isLower then some (c.toNat - 71)
  else if c.isDigit then some (c.toNat + 4)
  else if c = '+' then some 62
  else if c = '/' then some 63
  else none

/-- A binary scalar while it is read: the octets so far, the last one first, the sextets of the
group that has begun, and the padding behind them. -/
structure BinaryState where
  octets : List UInt8
  group : List Nat
  padding : Nat

/-- Takes a character; one that is neither a sextet nor padding is skipped, and so is padding in
front of the second sextet. A full group, also one filled up by padding, is closed. -/
def BinaryState.take (s : BinaryState) (c : Char) : BinaryState :=
  if c = '=' then if s.group.length < 2 then s else { s with padding := s.padding + 1 }
  else
    match sextet? c with
    | none => s
    | some v =>
      match s.group with
      | [] => ⟨s.octets, [v], 0⟩
      | [a] => ⟨UInt8.ofNat (a * 4 + v / 16) :: s.octets, [a, v], 0⟩
      | [a, b] => ⟨UInt8.ofNat (b % 16 * 16 + v / 4) :: s.octets, [a, b, v], 0⟩
      | _ => ⟨UInt8.ofNat ((s.group.getLast?.getD 0) % 4 * 64 + v) :: s.octets, [], 0⟩

/-- The group that has begun is full with its padding, and nothing behind it is read. -/
def BinaryState.isPadded (s : BinaryState) : Bool :=
  2 ≤ s.group.length && 4 ≤ s.group.length + s.padding

/-- Reads characters up to the end or up to a padded group. -/
def BinaryState.read (s : BinaryState) : Text → Option (List UInt8)
  | [] => if s.group.isEmpty then some s.octets.reverse else none
  | c :: rest =>
    let s := s.take c
    if s.isPadded then some s.octets.reverse else s.read rest

/-- The octets of a binary scalar. -/
def binaryValue (t : Text) : Except Error (List UInt8) :=
  if !t.all fun c => c.toNat < 128 then .error .malformed
  else
    match BinaryState.read ⟨[], [], 0⟩ t with
    | some octets => .ok octets
    | none => .error .malformed

end LineAssist.Yaml
