import LineAssist.Text.Basic

/-!
# Polling a status

A loop asks for the status, publishes the answer, rests, and asks again. A query that fails counts
as the empty status. Starting gives the loop that is at work, or a new one. A loop that is stopped
is given up at once, but it learns of it only when it goes on next: then it ends at the point where
it is, and an answer that it holds is dropped. So loops that were stopped and loops that were started
after them may be there together.
-/

namespace LineAssist

/-- The answer to a status query. -/
abbrev Poller.Answer := Except Text Text

/-- The status that an answer stands for. -/
def Poller.statusOf : Poller.Answer → Text
  | .ok message => message
  | .error _ => []

/-- Where a loop stands. -/
inductive Poller.Point where
  /-- It has not asked yet, or rests before it asks again. -/
  | resting
  | asking
  /-- Its query has been answered, but it has not gone on. -/
  | holding (status : Text)
  | ended
  deriving DecidableEq, Repr

structure Poller.Loop where
  point : Poller.Point
  isStopped : Bool
  deriving DecidableEq, Repr

structure Poller where
  last : Text
  /-- All loops in the order of their start. -/
  loops : List Poller.Loop
  /-- The number of the loop that is kept; one that is stopped is not. -/
  current : Option Nat
  deriving DecidableEq, Repr

namespace Poller

def initial : Poller := ⟨[], [], none⟩

/-- A new loop. -/
def Loop.fresh : Loop := ⟨.resting, false⟩

def Loop.hasEnded (l : Loop) : Bool :=
  l.point == .ended

/-- The loop has neither been stopped nor ended. -/
def Loop.isActive (l : Loop) : Bool :=
  !l.isStopped && !l.hasEnded

/-- A loop is kept that has not ended. -/
def isRunning (p : Poller) : Bool :=
  (p.current.bind fun number => p.loops[number]?).any fun l => !l.hasEnded

/-- What happens to a poller. -/
inductive Event where
  | start
  | stop
  /-- A loop that rests asks again. -/
  | ask (number : Nat)
  /-- The query of a loop is answered. -/
  | answer (number : Nat) (a : Answer)
  /-- A loop that holds a status publishes it. -/
  | publish (number : Nat)
  /-- A loop that was stopped goes on, which ends it. -/
  | ends (number : Nat)
  /-- A single query outside of the loops is answered. -/
  | once (a : Answer)

/-- Moves a loop from one point to another, if it stands there and has not been stopped. -/
def move (p : Poller) (number : Nat) (before after : Point) : Poller :=
  if p.loops[number]? = some ⟨before, false⟩ then
    { p with loops := p.loops.set number ⟨after, false⟩ }
  else p

/-- The effect of an event, and the status that is published by it. What cannot happen to a loop
where it stands has no effect. -/
def step (p : Poller) : Event → Poller × Option Text
  | .start =>
    if p.isRunning then (p, none)
    else ({ p with loops := p.loops ++ [.fresh], current := some p.loops.length }, none)
  | .stop =>
    match p.current with
    | some number =>
      ({ p with
        loops := p.loops.modify number fun l => { l with isStopped := true }
        current := none }, none)
    | none => (p, none)
  | .ask number => (p.move number .resting .asking, none)
  | .answer number a => (p.move number .asking (.holding (statusOf a)), none)
  | .publish number =>
    match p.loops[number]? with
    | some ⟨.holding status, false⟩ =>
      ({ p.move number (.holding status) .resting with last := status }, some status)
    | _ => (p, none)
  | .ends number =>
    match p.loops[number]? with
    | some ⟨_, true⟩ => ({ p with loops := p.loops.set number ⟨.ended, true⟩ }, none)
    | _ => (p, none)
  | .once a => ({ p with last := statusOf a }, some (statusOf a))

end Poller

/-- A poller among scripted answers: each query takes the oldest answer at hand or waits for one. -/
structure PollerRehearsal where
  poller : Poller
  answers : List Poller.Answer
  published : List Text
  asked : Nat
  answered : Nat

namespace PollerRehearsal

open Poller (Answer Event)

def initial : PollerRehearsal := ⟨.initial, [], [], 0, 0⟩

/-- Lets an event happen and records what is published. -/
def apply (st : PollerRehearsal) (e : Event) : PollerRehearsal :=
  let (poller, status) := st.poller.step e
  { st with poller := poller, published := st.published ++ status.toList }

/-- The loop that is kept, with its number. -/
def kept? (st : PollerRehearsal) : Option (Nat × Poller.Loop) :=
  st.poller.current.bind fun number => (st.poller.loops[number]?).map fun l => (number, l)

/-- Lets the loop ask if it rests. -/
def askAgain (st : PollerRehearsal) : PollerRehearsal :=
  match st.kept? with
  | some (number, ⟨.resting, _⟩) => { st.apply (.ask number) with asked := st.asked + 1 }
  | _ => st

/-- Gives the answers at hand to the loop that waits, one by one. -/
def feedLoop (number : Nat) : List Answer → PollerRehearsal → PollerRehearsal
  | [], st => { st with answers := [] }
  | a :: rest, st =>
    let st := ((st.apply (.answer number a)).apply (.publish number))
    feedLoop number rest { st with answered := st.answered + 1 }.askAgain

/-- Lets everything happen that can happen without a new answer. -/
def settle (st : PollerRehearsal) : PollerRehearsal :=
  let st := st.askAgain
  match st.kept? with
  | some (number, ⟨.asking, _⟩) => feedLoop number st.answers st
  | _ => st

/-- Adds an answer. -/
def feed (st : PollerRehearsal) (a : Answer) : PollerRehearsal :=
  { st with answers := st.answers ++ [a] }.settle

/-- Starts the loop unless it runs; tells whether there is a new loop. -/
def start (st : PollerRehearsal) : PollerRehearsal × Bool :=
  ((st.apply .start).settle, !st.poller.isRunning)

/-- Stops the loop, which ends before anything else happens. -/
def stop (st : PollerRehearsal) : PollerRehearsal :=
  match st.poller.current with
  | some number => (st.apply .stop).apply (.ends number)
  | none => st.apply .stop

/-- A single query that takes the oldest answer, the given one being the latest. -/
def poll (st : PollerRehearsal) (a : Answer) : PollerRehearsal × Text :=
  let (oldest, rest) := match st.answers with
    | [] => (a, [])
    | first :: more => (first, more ++ [a])
  let st := { st.apply (.once oldest) with
    answers := rest, asked := st.asked + 1, answered := st.answered + 1 }
  (st, Poller.statusOf oldest)

end PollerRehearsal

end LineAssist
