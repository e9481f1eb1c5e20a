import LineAssist.Execution
import LineAssist.Line.QueryParameter
import LineAssist.LiveResult.Render

/-!
# Runs and edits of a live result

A run shows a placeholder in the side view, executes its line and shows the output. It makes one
call at a time and is suspended until the call is answered, so a run is a value: the line and the
call that it waits for. All runs share one state, which each answer changes in one step; edits,
toggles and closings change it between the answers. An output that nests too deep to be read ends
its run as a failed call does.
-/

namespace LineAssist.LiveResult

/-- The call that a run waits for. -/
inductive Point where
  | opening
  | placing (view : Handle)
  | executing (view : Handle)
  | showing (view : Handle) (given : Execution)
  deriving DecidableEq, Repr

/-- The answer to a call. -/
def Point.Answer : Point → Type
  | .opening => Handle
  | .placing _ => Unit
  | .executing _ => Execution
  | .showing _ _ => Unit

/-- A run that has not ended. -/
structure Run where
  line : Text
  point : Point
  deriving DecidableEq, Repr

/-- A call to the surroundings of a run. -/
inductive Call where
  | openView
  | write (view : Handle) (content : Text)
  | execute (line : Text)
  deriving DecidableEq, Repr

/-- What a view shows of an execution: the output, or an account of the failure. -/
def contentOf (codec : Json.Codec) (given : Execution) : Text :=
  if given.ok then given.stdout else failureContent codec.indent given.stdout given.stderr

/-- The call that a run makes. -/
def Run.call (codec : Json.Codec) (r : Run) : Call :=
  match r.point with
  | .opening => .openView
  | .placing view => .write view (placeholder r.line)
  | .executing _ => .execute r.line
  | .showing view given => .write view (contentOf codec given)

/-- What an answer makes of a run. -/
inductive Progress where
  | waits (r : Run)
  | done
  | failed (e : Failure)
  deriving Repr

/-- A run that is at its end does not leave the state running. -/
def State.settle (s : State) : State :=
  if s.phase = .running then { s with phase := .failed } else s

/-- The result of a successful execution that printed JSON. Any other output is shown as it is,
unless it nests too deep. -/
def State.take (s : State) (codec : Json.Codec) (given : Execution) : Except Failure State :=
  if given.ok then
    match codec.read (contentOf codec given) with
    | .ok v => .ok { s with parsedResult := v, hasResult := true }
    | .error .tooDeep => .error .nesting
    | .error _ => .ok s
  else .ok s

/-- The end of a run whose output has been shown. -/
def State.conclude (s : State) (codec : Json.Codec) (given : Execution) : State × Progress :=
  match s.take codec given with
  | .ok s => ({ s with phase := .rendered }, .done)
  | .error e => (s.settle, .failed e)

/-- Starts a run: the last result and the query are forgotten. -/
def begin (s : State) (line : Text) : State × Run :=
  let s := { s with
    sourceLine := some line
    rawOutput := none
    parsedResult := .null
    hasResult := false
    queryExpression := none
    phase := .running }
  match s.sideView with
  | some view => (s, ⟨line, .placing view⟩)
  | none => (s, ⟨line, .opening⟩)

/-- Goes on with a run whose call has been answered. -/
def advance (codec : Json.Codec) (s : State) (line : Text) :
    (point : Point) → point.Answer → State × Progress
  | .opening, view => ({ s with sideView := some view }, .waits ⟨line, .placing view⟩)
  | .placing view, () => (s, .waits ⟨line, .executing view⟩)
  | .executing view, given =>
    ({ s with rawOutput := some (contentOf codec given) }, .waits ⟨line, .showing view given⟩)
  | .showing _ given, () => s.conclude codec given

/-- Goes on with a run whose call has been answered or has failed. -/
def resume (codec : Json.Codec) (s : State) (r : Run) :
    Except Failure r.point.Answer → State × Progress
  | .ok answer => advance codec s r.line r.point answer
  | .error e => (s.settle, .failed e)

/-- The number of calls that a run makes at most. -/
def callsOfRun : Nat := 4

/-- A change from outside of the runs. -/
inductive Edit where
  | query (expression : Option Text)
  | line (text : Text)
  | toggle
  | close (view : Handle)
  | render
  deriving DecidableEq, Repr

/-- What an edit asks of the surroundings after its change of the state. -/
structure Effect where
  toggled : Option Bool
  reported : Option Text
  write : Option (Handle × Text)
  rendered : Option (Except RenderFault Outcome)
  deriving Repr

def Effect.none : Effect := ⟨.none, .none, .none, .none⟩

/-- The report about a failed query; a query that cannot be read is still being written and is not
reported. -/
def QueryFailure.report? (f : QueryFailure) : Option Text :=
  if f.cause.isSyntactic then none
  else f.cause.message?.map fun m =>
    "query ".toList ++ Text.shown f.expression ++ " failed: ".toList ++ m

/-- Renders the state into the open view. -/
def State.rendering (s : State) (codec : Json.Codec) : Effect :=
  match render codec s with
  | .error e => { Effect.none with rendered := some (.error e) }
  | .ok outcome =>
    { Effect.none with
      reported := outcome.failure.bind QueryFailure.report?
      write := outcome.content.bind fun content => s.sideView.map fun view => (view, content)
      rendered := some (.ok outcome) }

/-- Takes a query; a query that is not new changes nothing. -/
def State.setQuery (s : State) (codec : Json.Codec) (expression : Option Text) : State × Effect :=
  if expression = s.queryExpression then (s, .none)
  else
    let s := { s with queryExpression := expression }
    (s, if s.queryEnabled && s.hasResult then s.rendering codec else .none)

/-- Applies an edit. -/
def State.edit (s : State) (codec : Json.Codec) : Edit → State × Effect
  | .query expression => s.setQuery codec expression
  | .line text => s.setQuery codec (Line.extractQuery text)
  | .toggle =>
    let s := { s with queryEnabled := !s.queryEnabled }
    let effect := if s.phase = .rendered then s.rendering codec else .none
    (s, { effect with toggled := some s.queryEnabled })
  | .close view => (if s.sideView = some view then { s with sideView := none } else s, .none)
  | .render => (s, s.rendering codec)

end LineAssist.LiveResult
