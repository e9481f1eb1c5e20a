import LineAssist.Catalog.Completion
import LineAssist.Execution
import LineAssist.Text.Lines

/-!
# Backends

A backend answers from a catalog and knows whether the command line tool is there. The tool is
looked up once, by the first check; when it is missing, the notice about it is given by that check
alone, and from then on the backend gives empty answers and executes nothing. A check may be
suspended while its notice is given, and other checks may come meanwhile.
-/

namespace LineAssist

structure Backend where
  catalog : Catalog
  tool : Text
  statusCommand : Option Text
  /-- Somebody is to be told when the tool is missing. -/
  notifies : Bool
  /-- None until the tool has been looked up. -/
  available : Option Bool

namespace Backend

/-- What is told when a tool is missing. -/
def notice (tool : Text) : Text :=
  '\'' :: tool ++ "' not found on PATH, make sure it is installed.".toList

/-- What a check of the tool does. -/
inductive Check where
  /-- The tool has been looked up before. -/
  | recalls (present : Bool)
  | looks (present : Bool)
  /-- The tool was looked up and is missing, and the notice is given. -/
  | notifies
  deriving DecidableEq, Repr

/-- Checks the tool; what a lookup finds now is given. -/
def check (b : Backend) (found : Bool) : Backend × Check :=
  match b.available with
  | some present => (b, .recalls present)
  | none =>
    ({ b with available := some found },
      if !found && b.notifies then .notifies else .looks found)

/-- The tool was looked up by a check. -/
def Check.hasLooked : Check → Bool
  | .recalls _ => false
  | _ => true

/-- The answer of a check, after its notice if it gives one. -/
def Check.present : Check → Bool
  | .recalls present => present
  | .looks present => present
  | .notifies => false

/-- The status of an execution: the first line of what it printed, trimmed. -/
def statusOf (given : Execution) : Text :=
  if given.ok then
    match Text.lines (Text.trim given.stdout) with
    | line :: _ => Text.trim line
    | [] => []
  else []

/-- Where a status query stands. -/
inductive StatusQuery where
  | notifying
  | executing (command : Text)
  | done (message : Text)
  | failed (e : Failure)
  deriving DecidableEq, Repr

/-- The status query for a command goes on when the tool has been checked. -/
def StatusQuery.checked (command : Text) (present : Bool) : StatusQuery :=
  if present then .executing command else .done []

/-- Starts a status query; without a status command the tool is not checked. -/
def askStatus (b : Backend) (found : Bool) : Backend × Option Check × StatusQuery :=
  match b.statusCommand with
  | none => (b, none, .done [])
  | some command =>
    let (b, c) := b.check found
    (b, some c, match c with
      | .notifies => .notifying
      | .recalls present | .looks present => .checked command present)

/-- The notice of a status query has been given or has failed. The query goes on with what the
backend knows by then. -/
def StatusQuery.noticed (b : Backend) : Except Failure Unit → StatusQuery
  | .ok () =>
    match b.statusCommand with
    | none => .done []
    | some command => .checked command (b.available == some true)
  | .error e => .failed e

/-- The command of a status query has been executed or has failed. -/
def StatusQuery.executed : Except Failure Execution → StatusQuery
  | .ok given => .done (statusOf given)
  | .error e => .failed e

/-- The entries for a request; none once the tool is known to be missing. -/
def completions (b : Backend) (r : Catalog.CompletionRequest) :
    Except Catalog.BlankParameter (List Catalog.Entry) :=
  if b.available = some false then .ok [] else b.catalog.completions r

/-- The paragraphs for a request; none once the tool is known to be missing. -/
def hover (b : Backend) (r : Catalog.HoverRequest) : Option (List Text) :=
  if b.available = some false then none else b.catalog.hover r

end Backend

end LineAssist
