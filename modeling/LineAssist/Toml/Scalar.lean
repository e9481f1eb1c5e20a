import LineAssist.Number.Reading
import LineAssist.Toml.Basic

/-!
# TOML scalars

Strings, dates and times, and numbers at the start of a text. Each reader gives what it has read
and the text behind it.
-/

namespace LineAssist.Toml

/-- Why a document cannot be read. -/
inductive Fault where
  | malformed
  /-- A decimal integer has more digits than an integer may have. -/
  | longInteger
  deriving DecidableEq, Repr

/-- A control character, which no string and no comment may hold; tabs are allowed, and line feeds
where lines are. -/
def isIllegal (withLines : Bool) (c : Char) : Bool :=
  (c.toNat < 0x20 || c.toNat == 0x7F) && c != '\t' && !(withLines && c == '\n')

def isSpace (c : Char) : Bool :=
  c == ' ' || c == '\t'

/-- The character of an escape by one letter. -/
def escaped? : Char → Option Char
  | 'b' => some '\x08'
  | 't' => some '\t'
  | 'n' => some '\n'
  | 'f' => some '\x0c'
  | 'r' => some '\r'
  | '"' => some '"'
  | '\\' => some '\\'
  | _ => none

/-- The character of an escape by hexadecimal digits. -/
def hexChar? (digits : Text) : Option Char := do
  let values ← digits.mapM Text.hexValue?
  let n := values.foldl (fun n v => 16 * n + v) 0
  if n < 0xD800 ∨ (0xE000 ≤ n ∧ n < 0x110000) then some (Char.ofNat n) else none

/-- What goes on in a string: characters, or white space behind a backslash at a line end. -/
inductive Fold where
  | none
  /-- The line end is still to come. -/
  | awaiting
  | skipping
  deriving DecidableEq

/-- A string behind its opening quotes up to its closing ones. -/
def readBasic (multiline : Bool) : Fold → Text → Option (Text × Text)
  | _, [] => .none
  | .awaiting, c :: rest =>
    if isSpace c then readBasic multiline .awaiting rest
    else if c = '\n' then readBasic multiline .skipping rest
    else .none
  | fold, c :: rest =>
    if fold = .skipping ∧ (isSpace c ∨ c = '\n') then readBasic multiline .skipping rest
    else
      match c, rest with
      | '"', after =>
        if multiline then
          match after with
          | '"' :: '"' :: after => some ([], after)
          | _ => (readBasic multiline .none after).map fun (t, r) => ('"' :: t, r)
        else some ([], after)
      | '\\', 'u' :: h₁ :: h₂ :: h₃ :: h₄ :: after => do
        let d ← hexChar? [h₁, h₂, h₃, h₄]
        let (t, r) ← readBasic multiline .none after
        some (d :: t, r)
      | '\\', 'U' :: h₁ :: h₂ :: h₃ :: h₄ :: h₅ :: h₆ :: h₇ :: h₈ :: after => do
        let d ← hexChar? [h₁, h₂, h₃, h₄, h₅, h₆, h₇, h₈]
        let (t, r) ← readBasic multiline .none after
        some (d :: t, r)
      | '\\', e :: after =>
        if multiline ∧ isSpace e then readBasic multiline .awaiting after
        else if multiline ∧ e = '\n' then readBasic multiline .skipping after
        else do
          let d ← escaped? e
          let (t, r) ← readBasic multiline .none after
          some (d :: t, r)
      | c, after =>
        if c = '\\' ∨ isIllegal multiline c then .none
        else (readBasic multiline .none after).map fun (t, r) => (c :: t, r)

/-- A string of characters that stand for themselves, up to its closing quotes. -/
def readLiteral (multiline : Bool) : Text → Option (Text × Text)
  | [] => none
  | '\'' :: rest =>
    if multiline then
      match rest with
      | '\'' :: '\'' :: after => some ([], after)
      | _ => (readLiteral multiline rest).map fun (t, r) => ('\'' :: t, r)
    else some ([], rest)
  | c :: rest =>
    if isIllegal multiline c then none
    else (readLiteral multiline rest).map fun (t, r) => (c :: t, r)

/-- Up to two more quotes in front of the closing ones belong to the string. -/
def withClosingQuotes (quote : Char) (t rest : Text) : Text × Text :=
  match rest with
  | c :: d :: after =>
    if c = quote then
      if d = quote then (t ++ [quote, quote], after) else (t ++ [quote], d :: after)
    else (t, rest)
  | [c] => if c = quote then (t ++ [quote], []) else (t, rest)
  | [] => (t, rest)

/-- The first line end of a string of several lines is not part of it. -/
def dropFirstNewline : Text → Text
  | '\n' :: t => t
  | t => t

/-- A string of any of the four kinds; none when the text starts no string, and within it none
when the string is malformed. -/
def readString? : Text → Option (Option (Text × Text))
  | '"' :: '"' :: '"' :: t =>
    some ((readBasic true .none (dropFirstNewline t)).map fun (s, r) => withClosingQuotes '"' s r)
  | '"' :: t => some (readBasic false .none t)
  | '\'' :: '\'' :: '\'' :: t =>
    some ((readLiteral true (dropFirstNewline t)).map fun (s, r) => withClosingQuotes '\'' s r)
  | '\'' :: t => some (readLiteral false t)
  | _ => none

/-- A number of exactly so many digits. -/
def readDigits? (width : Nat) (t : Text) : Option (Nat × Text) :=
  let digits := t.take width
  if digits.length = width ∧ digits.all Text.isDigit then
    some (Text.digitsValue digits, t.drop width)
  else none

/-- A given character. -/
def readChar? (c : Char) : Text → Option Text
  | d :: t => if d = c then some t else none
  | [] => none

/-- Hours and minutes. -/
def readClock? (t : Text) : Option (Nat × Nat × Text) := do
  let (hour, t) ← readDigits? 2 t
  let (minute, t) ← readDigits? 2 (← readChar? ':' t)
  if hour < 24 ∧ minute < 60 then some (hour, minute, t) else none

/-- The microseconds of a fraction; digits behind the sixth one do not count. -/
def readMicroseconds (t : Text) : Nat × Text :=
  match t with
  | '.' :: rest =>
    let (digits, after) := Text.spanDigits rest
    if digits.isEmpty then (0, t)
    else (Text.digitsValue ((digits ++ List.replicate 6 '0').take 6), after)
  | _ => (0, t)

def readTime? (t : Text) : Option (Calendar.Time × Text) := do
  let (hour, minute, t) ← readClock? t
  let (second, t) ← readDigits? 2 (← readChar? ':' t)
  if second < 60 then
    let (microsecond, t) := readMicroseconds t
    some (⟨hour, minute, second, microsecond⟩, t)
  else none

/-- A date by its form; whether it exists is not asked. -/
def readDate? (t : Text) : Option (Calendar.Date × Text) := do
  let (year, t) ← readDigits? 4 t
  let (month, t) ← readDigits? 2 (← readChar? '-' t)
  let (day, t) ← readDigits? 2 (← readChar? '-' t)
  if 1 ≤ month ∧ month ≤ 12 ∧ 1 ≤ day ∧ day ≤ 31 then some (⟨year, month, day⟩, t) else none

/-- An offset from universal time. -/
def readOffset? : Text → Option (Calendar.Offset × Text)
  | 'Z' :: t => some (0, t)
  | 'z' :: t => some (0, t)
  | '+' :: t => (readClock? t).map fun (hour, minute, t) => ((hour * 60 + minute : Nat), t)
  | '-' :: t => (readClock? t).map fun (hour, minute, t) => (Int.neg (hour * 60 + minute : Nat), t)
  | _ => none

/-- The time of a day and the offset behind a date. -/
def readDayTime? : Text → Option (Calendar.Time × Option Calendar.Offset × Text)
  | c :: t =>
    if c = 'T' ∨ c = 't' ∨ c = ' ' then
      (readTime? t).map fun (time, t) =>
        match readOffset? t with
        | some (offset, t) => (time, some offset, t)
        | none => (time, none, t)
    else none
  | [] => none

/-- A date, a date with a time, or a time; within it none when the date does not exist. -/
def readMoment? (t : Text) : Option (Option (Calendar.Moment × Text)) :=
  match readDate? t with
  | some (date, t) =>
    let found : Calendar.Moment × Text :=
      match readDayTime? t with
      | some (time, some offset, t) => (.offset date time offset, t)
      | some (time, none, t) => (.local_ date time, t)
      | none => (.date date, t)
    some (if date.exists_ then some found else none)
  | none => (readTime? t).map fun (time, t) => some (.time time, t)

/-- Digits with single underscores between them, without the underscores. -/
def spanRun (isDigit : Char → Bool) : Text → Text × Text
  | [] => ([], [])
  | [c] => if isDigit c then ([c], []) else ([], [c])
  | c :: d :: rest =>
    if isDigit c then
      if d = '_' then
        match rest with
        | e :: _ =>
          if isDigit e then
            let (digits, after) := spanRun isDigit rest
            (c :: digits, after)
          else ([c], d :: rest)
        | [] => ([c], ['_'])
      else
        let (digits, after) := spanRun isDigit (d :: rest)
        (c :: digits, after)
    else ([], c :: d :: rest)

/-- The base of an integer that is not decimal. -/
def baseOf? : Char → Option Nat
  | 'x' => some 16
  | 'o' => some 8
  | 'b' => some 2
  | _ => none

/-- An integer in base two, eight or sixteen. -/
def readBased? : Text → Option (Int × Text)
  | '0' :: letter :: t => do
    let base ← baseOf? letter
    let (digits, rest) := spanRun (fun c => (Text.hexValue? c).any (· < base)) t
    if digits.isEmpty then none
    else
      let values := digits.filterMap Text.hexValue?
      some ((values.foldl (fun n v => base * n + v) 0 : Nat), rest)
  | _ => none

/-- The whole part of a decimal number: a zero, or digits that do not start with one. -/
def readWhole? : Text → Option (Text × Text)
  | '0' :: t => some (['0'], t)
  | t =>
    let (digits, rest) := spanRun Text.isDigit t
    if digits.isEmpty then none else some (digits, rest)

def readFraction? : Text → Option (Text × Text)
  | '.' :: t =>
    let (digits, rest) := spanRun Text.isDigit t
    if digits.isEmpty then none else some (digits, rest)
  | _ => none

def readExponent? : Text → Option (Int × Text)
  | c :: t =>
    if c = 'e' ∨ c = 'E' then
      let (negative, t) := Number.spanSign t
      let (digits, rest) := spanRun Text.isDigit t
      let n : Int := (Text.digitsValue digits : Nat)
      if digits.isEmpty then none else some (if negative then n.neg else n, rest)
    else none
  | [] => none

/-- A decimal number: an integer, or a binary fraction if it has a fraction or an exponent. -/
def readDecimal? (t : Text) : Option (Except Fault (Toml × Text)) := do
  let (negative, t) := Number.spanSign t
  let (whole, t) ← readWhole? t
  let fraction := readFraction? t
  let t := (fraction.map (·.2)).getD t
  let exponent := readExponent? t
  let t := (exponent.map (·.2)).getD t
  match fraction, exponent with
  | none, none =>
    let n : Int := (Text.digitsValue whole : Nat)
    some (if Number.digitLimit < whole.length then .error .longInteger
      else .ok (.int (if negative then n.neg else n), t))
  | _, _ =>
    let places := (fraction.map (·.1)).getD []
    let e := (exponent.map (·.1)).getD 0 - (places.length : Int)
    some (.ok (.float (Binary64.ofDecimal negative (Text.digitsValue (whole ++ places)) e), t))

/-- An infinity or not a number. -/
def readSpecial? (t : Text) : Option (Toml × Text) :=
  let (negative, t) := Number.spanSign t
  match t with
  | 'i' :: 'n' :: 'f' :: rest => some (.float (.infinity negative), rest)
  | 'n' :: 'a' :: 'n' :: rest => some (.float .nan, rest)
  | _ => none

/-- A truth value. -/
def readBool? (t : Text) : Option (Toml × Text) :=
  let named (word : String) (b : Bool) :=
    (Text.stripStart? word.toList t).map fun rest => (Toml.bool b, rest)
  named "true" true <|> named "false" false

/-- A value that holds no other values. -/
def readScalar (t : Text) : Except Fault (Toml × Text) :=
  match readString? t with
  | some (some (s, rest)) => .ok (.text s, rest)
  | some none => .error .malformed
  | none =>
    match readBool? t with
    | some found => .ok found
    | none =>
      match readMoment? t with
      | some (some (m, rest)) => .ok (.moment m, rest)
      | some none => .error .malformed
      | none =>
        match readBased? t with
        | some (i, rest) => .ok (.int i, rest)
        | none =>
          match readDecimal? t with
          | some outcome => outcome
          | none =>
            match readSpecial? t with
            | some found => .ok found
            | none => .error .malformed

end LineAssist.Toml
