import LineAssist.Backend

/-!
# Overlapping calls of a backend

Any number of checks of the tool and of status queries on one backend, in any order. A call is
suspended while its notice is given and while its command is executed, and other calls may start and
end meanwhile; everything else that a call does is one step. Each answer may be a failure, and
whether it comes at all is open. A lookup of the tool is answered at once, and another lookup might
find something else.
-/

namespace LineAssist.Backend

/-- Where a check of the tool stands that was asked for by itself. -/
inductive ToolCheck where
  | notifying
  | done (present : Bool)
  | failed (e : Failure)
  deriving DecidableEq, Repr

/-- A check that has been started. -/
def ToolCheck.begun : Check → ToolCheck
  | .notifies => .notifying
  | c => .done c.present

/-- The notice of a check has been given or has failed. The check answers what the backend knows by
then. -/
def ToolCheck.noticed (b : Backend) : Except Failure Unit → ToolCheck
  | .ok () => .done (b.available == some true)
  | .error e => .failed e

/-- A call of a backend that can be suspended. -/
inductive Call where
  | check (c : ToolCheck)
  | status (q : StatusQuery)
  deriving DecidableEq, Repr

def Call.isNotifying : Call → Bool
  | .check .notifying => true
  | .status .notifying => true
  | _ => false

/-- What a call failed with. -/
def Call.failure? : Call → Option Failure
  | .check (.failed e) => some e
  | .status (.failed e) => some e
  | _ => none

/-- The notice of a call has been given or has failed. -/
def Call.noticed (b : Backend) (outcome : Except Failure Unit) : Call → Call
  | .check _ => .check (.noticed b outcome)
  | .status _ => .status (.noticed b outcome)

/-- What a call asks of the surroundings. -/
inductive Request where
  /-- To look up the tool, with what was found. -/
  | look (found : Bool)
  | notice
  | execute (command : Text)
  deriving DecidableEq, Repr

def Request.isLook : Request → Bool
  | .look _ => true
  | _ => false

def Check.requests : Check → List Request
  | .recalls _ => []
  | .looks found => [.look found]
  | .notifies => [.look false, .notice]

def StatusQuery.requests : StatusQuery → List Request
  | .executing command => [.execute command]
  | _ => []

/-- What a call asks for when it goes on. -/
def Call.requests : Call → List Request
  | .check _ => []
  | .status q => q.requests

/-- A backend with its calls in the order of their start, and what was asked for so far, each
request with the place of its call. A call that has ended keeps its place. -/
structure Scene where
  backend : Backend
  calls : List Call
  asked : List (Nat × Request)

/-- Nothing has been called yet. -/
def Scene.initial (b : Backend) : Scene :=
  ⟨b, [], []⟩

/-- The start of a call, with what a lookup of the tool would find now, or an answer to the call at
a place. -/
inductive Event where
  | check (found : Bool)
  | status (found : Bool)
  | noticed (place : Nat) (outcome : Except Failure Unit)
  | executed (place : Nat) (outcome : Except Failure Execution)
  deriving Repr

/-- The scene with one more call. -/
def Scene.begin (sc : Scene) (b : Backend) (call : Call) (requests : List Request) : Scene where
  backend := b
  calls := sc.calls ++ [call]
  asked := sc.asked ++ requests.map fun r => (sc.calls.length, r)

/-- The scene when the call at a place has gone on to where it stands now. -/
def Scene.goOn (sc : Scene) (place : Nat) (call : Call) : Scene where
  backend := sc.backend
  calls := sc.calls.set place call
  asked := sc.asked ++ call.requests.map fun r => (place, r)

/-- The scene after an event. -/
def Scene.after (sc : Scene) : Event → Scene
  | .check found =>
    let (b, c) := sc.backend.check found
    sc.begin b (.check (.begun c)) c.requests
  | .status found =>
    let (b, c, q) := sc.backend.askStatus found
    sc.begin b (.status q) ((c.map Check.requests).getD [] ++ q.requests)
  | .noticed place outcome =>
    match sc.calls[place]? with
    | none => sc
    | some call => sc.goOn place (call.noticed sc.backend outcome)
  | .executed place outcome => sc.goOn place (.status (.executed outcome))

/-- The event can happen in the scene: only what a call waits for is answered. -/
def Scene.Admits (sc : Scene) : Event → Prop
  | .noticed place _ => ∃ call, sc.calls[place]? = some call ∧ call.isNotifying = true
  | .executed place _ => ∃ command, sc.calls[place]? = some (.status (.executing command))
  | _ => True

/-- Events, the newest first, lead from one scene to another. -/
inductive Scene.Leads (start : Scene) : List Event → Scene → Prop
  | nil : Leads start [] start
  | step {history : List Event} {sc : Scene} (earlier : Leads start history sc) (event : Event)
      (admits : sc.Admits event) : Leads start (event :: history) (sc.after event)

end LineAssist.Backend
