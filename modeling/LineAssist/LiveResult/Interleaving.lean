import LineAssist.LiveResult.Pipeline

/-!
# Overlapping runs

Any number of runs of one live result, with edits between their steps, in any order. A step of a
run goes from the answer to one of its calls to its next call or its end, and nothing comes between:
a run gives way only while it waits for an answer. An edit changes the state in one step too, for
what it asks of its surroundings comes after the change. No order of the steps is left out, and
every answer may be a failure; whether an answer comes at all is open.
-/

namespace LineAssist.LiveResult

/-- A live result and its runs in the order of their start. A run that has ended keeps its place. -/
structure Scene where
  state : State
  runs : List Progress
  deriving Repr

/-- A step of one run, or an edit between two steps. -/
inductive Event where
  | start (line : Text)
  /-- The run at a place goes on with the answer to its call. -/
  | answer (place : Nat) (r : Run) (given : Except Failure r.point.Answer)
  | edit (e : Edit)

/-- A run waits at a place. -/
def Scene.WaitsAt (sc : Scene) (place : Nat) (r : Run) : Prop :=
  sc.runs[place]? = some (.waits r)

/-- Some run has not ended. -/
def Scene.InFlight (sc : Scene) : Prop :=
  ∃ place r, sc.WaitsAt place r

/-- The scene in which a live result begins. -/
def Scene.initial (live : Bool) : Scene :=
  ⟨State.initial live, []⟩

/-- The scene after an event. -/
def Scene.after (codec : Json.Codec) (sc : Scene) : Event → Scene
  | .start line => ⟨(begin sc.state line).1, sc.runs ++ [.waits (begin sc.state line).2]⟩
  | .answer place r given =>
    ⟨(resume codec sc.state r given).1, sc.runs.set place (resume codec sc.state r given).2⟩
  | .edit e => ⟨(sc.state.edit codec e).1, sc.runs⟩

/-- The event can happen in the scene: only a run that waits is answered. -/
def Scene.Admits (sc : Scene) : Event → Prop
  | .answer place r _ => sc.WaitsAt place r
  | _ => True

/-- The events of a live result, the newest first, and the scene that they lead to. -/
inductive Interleaving (codec : Json.Codec) (live : Bool) : List Event → Scene → Prop
  | nil : Interleaving codec live [] (Scene.initial live)
  | step {history : List Event} {sc : Scene} (earlier : Interleaving codec live history sc)
      (event : Event) (admits : sc.Admits event) :
      Interleaving codec live (event :: history) (sc.after codec event)

end LineAssist.LiveResult
