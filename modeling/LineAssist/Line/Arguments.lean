import LineAssist.Json.Basic
import LineAssist.Line.Node

/-!
# Arguments of a command line

Each parameter name of a line with the literal text of the value directly behind it, or nothing.
A name that is written again takes the value of its last occurrence.
-/

namespace LineAssist.Line

/-- Adds the arguments of the tokens to those found so far; `name` is the parameter name directly
in front of the first token. -/
def argumentsFrom (args : Arguments) (name : Option Text) : List Token → Arguments
  | [] => args
  | t :: rest =>
    if t.isDash then argumentsFrom (putEntry t.text none args) (some t.text) rest
    else
      match name with
      | some n => argumentsFrom (putEntry n (some t.text) args) none rest
      | none => argumentsFrom args none rest

/-- The arguments of a line. -/
def arguments (line : Text) : Arguments :=
  argumentsFrom [] none (tokens line)

end LineAssist.Line
