import LineAssist.Catalog.Completion
import LineAssist.Query.Value

/-!
# States that should not be reached

The report of a state that should not be reached: a reason, and the values at hand in the order of
their names.
-/

namespace LineAssist

/-- A state that should not be reached, with the report about it. -/
structure Unreachable where
  report : Text
  deriving DecidableEq, Repr

namespace Unreachable

/-- One value at hand. -/
def detail (name : Text) (v : Json) : Text :=
  name ++ '=' :: (Query.Value.ofJson v).shown

/-- The report with its reason and the values at hand. -/
def of (reason : Text) (values : List (Text × Json)) : Unreachable :=
  let head := if reason.isEmpty then "never() marker reached".toList else reason
  let details := Text.join ", ".toList
    ((Catalog.sortedByKey values).map fun (name, v) => detail name v)
  ⟨if details.isEmpty then head else head ++ " (".toList ++ details ++ [')']⟩

end Unreachable

end LineAssist
