import LineAssist.Query.Value

/-!
# Evaluation with marks

An evaluation fails or gives a result, and counts the marks that it has given out. Marks are given
out in order, so no two values that are made in one evaluation have the same mark.
-/

namespace LineAssist.Query

/-- Why an evaluation fails. -/
inductive EvalError where
  /-- A function is called with the wrong number of arguments. -/
  | arity (function : Text)
  | unknownFunction (name : Text)
  /-- A value is of none of the declared types. -/
  | wrongType (function : Text) (value : Value) (expected : List Text) (received : Text)
  /-- Values of different types are put in order. -/
  | incomparable
  /-- A text is searched for something that is no text. -/
  | notText
  /-- Something other than pairs is merged into an object. -/
  | notPairs
  /-- A sequence merged into an object has not two items. -/
  | pairLength
  /-- A reference to an expression is used as a value. -/
  | referenceValue
  | zeroStep
  /-- What is not a number has no integer next to it. -/
  | notANumber
  /-- An infinity, or an integer beyond the range of fractions. -/
  | overflow
  /-- References are applied inside each other too deeply. -/
  | tooDeep
  deriving Repr

/-- A computation that fails or gives a result; the state is the next mark. -/
abbrev Evaluation := StateT Nat (Except EvalError)

/-- A mark that was not given out before. -/
def freshMark : Evaluation Nat :=
  modifyGet fun next => (next, next + 1)

/-- A computed number as a value of its own. -/
def computed : Number → Evaluation Value
  | .int i => pure (.int i)
  | .float .nan => do pure (.indefinite (← freshMark))
  | .float x => pure (.float x)

end LineAssist.Query
