import LineAssist.Poller

/-!
# Overlapping loops of a poller

Any order of starts, stops, single queries and steps of the loops, where each query may fail. A loop
that was stopped may still stand at any point while the next one is at work. Beside the poller it is
kept which answers reached which loop, and what was published by whom.
-/

namespace LineAssist.Poller

/-- A loop has been started that has neither been stopped nor ended. -/
def IsActive (p : Poller) (number : Nat) : Prop :=
  ∃ l, p.loops[number]? = some l ∧ l.isActive = true

/-- What a loop has been answered and has not published yet. -/
def Loop.held (l : Loop) : List Text :=
  match l.point with
  | .holding status => [status]
  | _ => []

/-- The answer that an event brings to a loop; a loop that was stopped gets none. -/
def reached? (p : Poller) : Event → Option (Nat × Answer)
  | .answer number a =>
    if p.loops[number]? = some ⟨.asking, false⟩ then some (number, a) else none
  | _ => none

/-- The loop that publishes by an event; a single query is none of a loop. -/
def Event.publisher? : Event → Option Nat
  | .publish number => some number
  | _ => none

/-- A poller, the answers that have reached its loops, and the statuses that have been published. -/
structure Scene where
  poller : Poller
  answered : List (Nat × Answer)
  published : List (Option Nat × Text)

namespace Scene

def initial : Scene := ⟨.initial, [], []⟩

/-- The scene after an event. -/
def after (sc : Scene) (e : Event) : Scene where
  poller := (sc.poller.step e).1
  answered := sc.answered ++ (sc.poller.reached? e).toList
  published := sc.published ++ ((sc.poller.step e).2.map fun s => (e.publisher?, s)).toList

/-- The scene after events, the earliest first. -/
def run (sc : Scene) (events : List Event) : Scene :=
  events.foldl after sc

/-- The answers that have reached a loop. -/
def answersOf (sc : Scene) (number : Nat) : List Answer :=
  (sc.answered.filter fun r => r.1 == number).map Prod.snd

/-- The statuses that a loop has published. -/
def publishedBy (sc : Scene) (number : Nat) : List Text :=
  (sc.published.filter fun r => r.1 == some number).map Prod.snd

end Scene

end LineAssist.Poller
