import LineAssist.Line.Token

/-!
# Nodes of a command line

The tokens that a command line is made of, each with its role. The non-dash tokens before the
first dash-led one are subcommands, a dash-led token is a parameter name, and a non-dash token
directly behind a parameter name is its value. Other tokens have no role and make no node.
-/

namespace LineAssist.Line

inductive Role where
  | subcommand
  | parameterName
  | parameterValue
  deriving DecidableEq, Repr

structure Node where
  role : Role
  token : Token
  deriving DecidableEq, Repr

namespace Node

def text (n : Node) : Text := n.token.text

def offset (n : Node) : Nat := n.token.offset

def length (n : Node) : Nat := n.token.length

def stop (n : Node) : Nat := n.token.stop

/-- The offset lies on one of the node's characters. -/
def covers (n : Node) (offset : Int) : Bool :=
  n.offset ≤ offset && offset < n.stop

end Node

/-- Where the assembly of nodes stands: before the first dash-led token, directly behind a
parameter name, or behind a token that takes no value. -/
inductive Expecting where
  | subcommand
  | value
  | parameter
  deriving DecidableEq, Repr

/-- The nodes of the tokens in order. -/
def nodesFrom (expecting : Expecting) : List Token → List Node
  | [] => []
  | t :: rest =>
    if t.isDash then ⟨.parameterName, t⟩ :: nodesFrom .value rest
    else
      match expecting with
      | .subcommand => ⟨.subcommand, t⟩ :: nodesFrom .subcommand rest
      | .value => ⟨.parameterValue, t⟩ :: nodesFrom .parameter rest
      | .parameter => nodesFrom .parameter rest

/-- The subcommands among the tokens, collected in the same pass. -/
def subcommandsFrom (expecting : Expecting) : List Token → List Node
  | [] => []
  | t :: rest =>
    if t.isDash then subcommandsFrom .value rest
    else
      match expecting with
      | .subcommand => ⟨.subcommand, t⟩ :: subcommandsFrom .subcommand rest
      | .value | .parameter => subcommandsFrom .parameter rest

/-- A command line taken apart. -/
structure Command where
  line : Text
  nodes : List Node
  /-- The subcommand nodes, the first word of the line included. -/
  subcommand : List Node
  deriving Repr

/-- The nodes of a line. -/
def parse (line : Text) : Command where
  line := line
  nodes := nodesFrom .subcommand (tokens line)
  subcommand := subcommandsFrom .subcommand (tokens line)

/-- How many of the starts, which are in order, are not behind an offset. What is open between
`low` and `high` is halved until nothing of it is left. -/
def bisect (starts : List Nat) (offset : Int) (low high : Nat) : Nat :=
  if low < high then
    let middle := (low + high) / 2
    if starts[middle]?.any fun (start : Nat) => offset < start then bisect starts offset low middle
    else bisect starts offset (middle + 1) high
  else low
termination_by high - low

namespace Command

/-- The parameter names. -/
def parameters (c : Command) : List Node :=
  c.nodes.filter fun n => n.role == .parameterName

/-- The line starts with the root word. -/
def hasRoot (c : Command) (root : Text) : Bool :=
  c.subcommand.head?.map Node.text == some root

/-- The subcommand words without the root word, joined by single spaces. -/
def subcommandPath (c : Command) (root : Text) : Text :=
  let words := c.subcommand.map Node.text
  Text.unwords (if words.head? == some root then words.tail else words)

/-- The node on one of whose characters the offset lies: the last one that starts at or before the
offset, if it reaches so far. -/
def nodeAt (c : Command) (offset : Int) : Option Node :=
  match bisect (c.nodes.map Node.offset) offset 0 c.nodes.length with
  | 0 => none
  | i + 1 => c.nodes[i]?.filter fun n => n.covers offset

end Command

/-- The parameters of a line with their values, keyed in the order of first occurrence. -/
abbrev Arguments := List (Text × Option Text)

end LineAssist.Line
