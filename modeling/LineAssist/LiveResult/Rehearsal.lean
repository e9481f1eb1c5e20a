import LineAssist.LiveResult.Pipeline

/-!
# Rehearsals

A live result among scripted surroundings: views are numbered as they are asked for, an execution
is answered from a script or left waiting, and writes fail from a given count on. Several runs may
overlap. A rehearsal records all that the surroundings see.
-/

namespace LineAssist.LiveResult

/-- The name of a run in a rehearsal. -/
abbrev RunName := Text

structure Rehearsal where
  codec : Json.Codec
  /-- Views open only when they are released. -/
  gated : Bool
  state : State
  /-- The runs that have not ended, in the order of their start. -/
  runs : List (RunName × Run)
  /-- The answers of the script to executions. -/
  answers : List (RunName × Except Failure Execution)
  /-- The runs whose views are not yet released, the oldest first. -/
  gate : List (RunName × Handle)
  opened : Nat
  openRefused : Bool
  /-- The number of writes from which on every write fails. -/
  writeLimit : Option Nat
  writes : List (Handle × Text)
  calls : List Text
  reported : List Text
  toggled : List Bool

namespace Rehearsal

/-- A rehearsal before its first step. -/
def initial (codec : Json.Codec) (queryEnabled gated : Bool) : Rehearsal where
  codec := codec
  gated := gated
  state := State.initial queryEnabled
  runs := []
  answers := []
  gate := []
  opened := 0
  openRefused := false
  writeLimit := none
  writes := []
  calls := []
  reported := []
  toggled := []

/-- Writes to a view, unless the writes are refused by now. -/
def write (st : Rehearsal) (view : Handle) (content : Text) : Rehearsal × Except Failure Unit :=
  if st.writeLimit.any (· ≤ st.writes.length) then
    (st, .error (.refused "edit rejected".toList))
  else ({ st with writes := st.writes ++ [(view, content)] }, .ok ())

/-- The view of a given number. -/
def viewName (n : Nat) : Handle :=
  "view-".toList ++ Text.ofNat n

/-- The answer of the surroundings to the call of a run; none leaves the run waiting. -/
def reply (st : Rehearsal) (name : RunName) (line : Text) :
    (point : Point) → Rehearsal × Option (Except Failure point.Answer)
  | .opening =>
    let view := viewName (st.opened + 1)
    let st := { st with opened := st.opened + 1 }
    if st.openRefused then (st, some (.error (.refused "open rejected".toList)))
    else if st.gated then ({ st with gate := st.gate ++ [(name, view)] }, none)
    else (st, some (.ok view))
  | .placing view =>
    let (st, outcome) := st.write view (placeholder line)
    (st, some outcome)
  | .executing _ =>
    ({ st with calls := st.calls ++ [line] }, lookup name st.answers)
  | .showing view given =>
    let (st, outcome) := st.write view (contentOf st.codec given)
    (st, some outcome)

/-- Records where a run stands. -/
def settleRun (st : Rehearsal) (name : RunName) : Progress → Rehearsal
  | .waits r => { st with runs := putEntry name r st.runs }
  | _ => { st with runs := st.runs.filter (·.1 != name) }

/-- Answers the calls of a run, at most a given number of them, until it ends or waits. -/
def proceed (name : RunName) : Nat → Rehearsal → Progress → Rehearsal × Progress
  | n + 1, st, .waits r =>
    match st.reply name r.line r.point with
    | (st, none) => (st.settleRun name (.waits r), .waits r)
    | (st, some answer) =>
      let (state, progress) := resume st.codec st.state r answer
      proceed name n { st with state := state } progress
  | _, st, progress => (st.settleRun name progress, progress)

/-- Starts a run. -/
def begin (st : Rehearsal) (name : RunName) (line : Text) : Rehearsal × Progress :=
  let (state, r) := LiveResult.begin st.state line
  proceed name callsOfRun { st with state := state } (.waits r)

/-- Gives an answer to a run and lets it go on. -/
def resume (st : Rehearsal) (name : RunName) (r : Run) (answer : Except Failure r.point.Answer) :
    Rehearsal × Progress :=
  let (state, progress) := LiveResult.resume st.codec st.state r answer
  proceed name callsOfRun { st with state := state } progress

/-- Puts the answer to an execution into the script; the run goes on if it waits for it. -/
def finish (st : Rehearsal) (name : RunName) (given : Except Failure Execution) :
    Rehearsal × Option Progress :=
  let st := { st with answers := putEntry name given st.answers }
  match (lookup name st.runs : Option Run) with
  | some ⟨line, .executing view⟩ =>
    let (st, progress) := st.resume name ⟨line, .executing view⟩ given
    (st, some progress)
  | some r => (st, some (.waits r))
  | none => (st, none)

/-- A whole run whose execution is answered at once. -/
def run (st : Rehearsal) (name : RunName) (line : Text) (given : Except Failure Execution) :
    Rehearsal × Progress :=
  { st with answers := putEntry name given st.answers }.begin name line

/-- Releases the view that has been waiting longest. -/
def releaseOpen (st : Rehearsal) : Rehearsal :=
  match st.gate with
  | [] => st
  | (name, view) :: rest =>
    let st := { st with gate := rest }
    match (lookup name st.runs : Option Run) with
    | some ⟨line, .opening⟩ => (st.resume name ⟨line, .opening⟩ (.ok view)).1
    | _ => st

/-- Applies an edit and its effect; gives the value of a rendering and the outcome of the write. -/
def edit (st : Rehearsal) (e : Edit) : Rehearsal × Effect × Except Failure Unit :=
  let (state, effect) := st.state.edit st.codec e
  let st := { st with
    state := state
    toggled := st.toggled ++ effect.toggled.toList
    reported := st.reported ++ effect.reported.toList }
  match effect.write with
  | none => (st, effect, .ok ())
  | some (view, content) =>
    let (st, outcome) := st.write view content
    (st, effect, outcome)

end Rehearsal

end LineAssist.LiveResult
