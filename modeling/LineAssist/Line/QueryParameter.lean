import LineAssist.Line.Token

/-!
# The query written on a line

The first `--query` with white space on both sides and a value behind it: a closed quoted run, or
a run without white space and quotes. A quoted run with nothing inside counts as no query.
-/

namespace LineAssist.Line

def queryParameter : Text :=
  ['-', '-', 'q', 'u', 'e', 'r', 'y']

/-- The value that the query is written as, at the start of a text. -/
def queryValue? (t : Text) : Option Text :=
  match t with
  | [] => none
  | c :: rest =>
    if Text.isQuote c then (Text.cut? c rest).map Prod.fst
    else if Text.isBlank c then none
    else some (t.takeWhile isRun)

/-- The value behind the parameter name at the start of a text. -/
def queryAt? (t : Text) : Option Text :=
  match Text.stripStart? queryParameter t with
  | some (c :: rest) =>
    if Text.isBlank c then queryValue? (rest.dropWhile Text.isBlank) else none
  | _ => none

/-- The value of the first occurrence that has one. -/
def findQuery : Text → Option Text
  | [] => none
  | c :: rest =>
    match if Text.isBlank c then queryAt? rest else none with
    | some q => some q
    | none => findQuery rest

/-- The query expression written on a line without its quotes. -/
def extractQuery (line : Text) : Option Text :=
  match findQuery line with
  | some (c :: q) => some (c :: q)
  | _ => none

end LineAssist.Line
