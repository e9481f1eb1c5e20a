/-!
# Sorting

A stable sort for a comparison that need not be an order: the run at the start is kept, reversed if
it descends, and every further element goes behind the last place found by halving.
-/

namespace LineAssist.Query

variable {α : Type}

/-- The length of the run behind its last element: the elements that go on as `continues` says. -/
def runLength (continues : α → α → Bool) (last : α) : List α → Nat
  | [] => 0
  | x :: rest => if continues last x then runLength continues x rest + 1 else 0

/-- The place behind the elements that are not greater, between two bounds. -/
def insertionPlace (less : α → α → Bool) (x : α) (sorted : Array α) : Nat → Nat → Nat → Nat
  | 0, low, _ => low
  | fuel + 1, low, high =>
    if low < high then
      let middle := (low + high) / 2
      match sorted[middle]? with
      | some y =>
        if less x y then insertionPlace less x sorted fuel low middle
        else insertionPlace less x sorted fuel (middle + 1) high
      | none => low
    else low

def insertSorted (less : α → α → Bool) (sorted : Array α) (x : α) : Array α :=
  let place := insertionPlace less x sorted (sorted.size + 1) 0 sorted.size
  sorted.insertIdxIfInBounds place x

def sortList (less : α → α → Bool) : List α → List α
  | [] => []
  | [x] => [x]
  | x :: y :: rest =>
    let descending := less y x
    let continues := if descending then (fun a b => less b a) else (fun a b => !less b a)
    let n := runLength continues y rest
    let run := x :: y :: rest.take n
    let start := if descending then run.reverse else run
    ((rest.drop n).foldl (insertSorted less) start.toArray).toList

end LineAssist.Query
