import LineAssist.Json.Writing
import LineAssist.Line.QueryParameter
import LineAssist.Query.Eval

/-!
# Rendering a result

The text that the side view shows for a state of the live result: the whole parsed output, or,
while live mode is on and a query is written, the value of the query. A query that fails leaves the
view as it is.
-/

namespace LineAssist.LiveResult

/-- A side view document. -/
abbrev Handle := Text

inductive Phase where
  | idle
  | running
  | rendered
  | failed
  deriving DecidableEq, Repr

structure State where
  sourceLine : Option Text
  rawOutput : Option Text
  parsedResult : Json
  hasResult : Bool
  queryExpression : Option Text
  queryEnabled : Bool
  sideView : Option Handle
  phase : Phase
  deriving Repr

/-- Nothing has been run. -/
def State.initial (queryEnabled : Bool) : State where
  sourceLine := none
  rawOutput := none
  parsedResult := .null
  hasResult := false
  queryExpression := none
  queryEnabled := queryEnabled
  sideView := none
  phase := .idle

/-- A query failure that the view's owner is told of. -/
structure QueryFailure where
  expression : Text
  cause : Query.QueryError
  deriving Repr

/-- What the view is to show. -/
structure Outcome where
  /-- None leaves the view as it is. -/
  content : Option Text
  filtered : Bool
  failure : Option QueryFailure
  deriving Repr

/-- Why a value cannot be shown. -/
inductive DumpFault where
  /-- A part of the value has no JSON text. -/
  | part (e : Query.DumpError)
  /-- The value nests too deep for the stack. -/
  | nesting
  deriving DecidableEq, Repr

/-- Why a result cannot be rendered at all. -/
inductive RenderFault where
  /-- The query fails in a way that the query language does not report. -/
  | query (e : Query.QueryError)
  | dump (e : DumpFault)
  deriving Repr

/-- The text of a value in the view. -/
def dump (codec : Json.Codec) (v : Json) : Except DumpFault Text :=
  match codec.write? v with
  | some t => .ok t
  | none => .error (if v.isWritable then .nesting else .part .longInteger)

/-- The text of the value of a query in the view. -/
def dumpValue (codec : Json.Codec) (v : Query.Value) : Except DumpFault Text :=
  match v.toJson with
  | .ok j => dump codec j
  | .error e => .error (.part e)

/-- The query that applies in a state. -/
def State.activeQuery (s : State) : Option Text :=
  if s.queryEnabled then
    match s.queryExpression with
    | some (c :: q) => some (c :: q)
    | _ => none
  else none

/-- What the view is to show in a state. -/
def render (codec : Json.Codec) (s : State) : Except RenderFault Outcome :=
  if !s.hasResult then .ok ⟨none, false, none⟩
  else
    match s.activeQuery with
    | none =>
      match dump codec s.parsedResult with
      | .ok t => .ok ⟨some t, false, none⟩
      | .error e => .error (.dump e)
    | some q =>
      match Query.search q s.parsedResult with
      | .error e => if e.isReported then .ok ⟨none, false, some ⟨q, e⟩⟩ else .error (.query e)
      | .ok v =>
        match dumpValue codec v with
        | .ok t => .ok ⟨some t, true, none⟩
        | .error e => .error (.dump e)

/-- What a view shows instead of the output of a command that failed. -/
def failureContent (indent : Option Nat) (stdout stderr : Text) : Text :=
  Json.write (.indented indent) (.obj [("stderr".toList, .str stderr), ("stdout".toList, .str stdout)])

/-- What a view shows while a line runs. -/
def placeholder (line : Text) : Text :=
  Json.write (.indented none) (.obj [("Running command".toList, .str line)]) ++ ['\n']

end LineAssist.LiveResult
