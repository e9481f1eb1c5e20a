import LineAssist.Entries
import LineAssist.Number.Shortest

/-!
# JSON values

Integers are unbounded and kept apart from binary fractions. The fields of an object are kept in
the order in which their keys were first written, each key once.
-/

namespace LineAssist

inductive Json where
  | null
  | bool (b : Bool)
  | int (i : Int)
  | float (x : Binary64)
  | str (t : Text)
  | arr (items : List Json)
  | obj (fields : List (Text × Json))
  deriving Inhabited, Repr

namespace Json

/-- The field of an object. -/
def get? (key : Text) : Json → Option Json
  | .obj fields => lookup key fields
  | _ => none

mutual

/-- The number of levels to which arrays and objects nest. -/
def depth : Json → Nat
  | .arr items => itemsDepth items + 1
  | .obj fields => fieldsDepth fields + 1
  | _ => 0

def itemsDepth : List Json → Nat
  | [] => 0
  | v :: rest => max (depth v) (itemsDepth rest)

def fieldsDepth : List (Text × Json) → Nat
  | [] => 0
  | (_, v) :: rest => max (depth v) (fieldsDepth rest)

end

/-- The value needs no more levels than there is room for; none is room for any number. -/
def fits (room : Option Nat) (v : Json) : Bool :=
  room.all fun levels => v.depth ≤ levels

/-- Decimals in JSON: positional from `1e-4` to below `1e16`, else with an exponent of at least two
digits. -/
def decimals : Binary64.Layout where
  leastPositional := -4
  greatestPositional := 15
  exponentDigits := 2
  nan := "NaN".toList
  infinity := "Infinity".toList

/-- Decimals in messages are laid out as in JSON, with lower-case words. -/
def shownDecimals : Binary64.Layout :=
  { decimals with nan := "nan".toList, infinity := "inf".toList }

end Json

end LineAssist
