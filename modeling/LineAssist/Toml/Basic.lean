import LineAssist.Calendar
import LineAssist.Json.Basic

/-!
# TOML values and tables

A table under construction knows how each of its tables came about. A table that was declared by a
header, or by a dotted key of an earlier section, is closed to further declarations; an array or a
table that was written as a value cannot be changed at all.
-/

namespace LineAssist

inductive Toml where
  | text (t : Text)
  | int (i : Int)
  | float (x : Binary64)
  | bool (b : Bool)
  | moment (m : Calendar.Moment)
  | array (items : List Toml)
  | table (entries : List (Text × Toml))
  deriving Inhabited, Repr

namespace Toml

/-- The entries of a table. -/
abbrev Table := List (Text × Toml)

/-- How a table came about. -/
inductive Opening where
  /-- As a step of a longer header. -/
  | implied
  /-- By a dotted key in the section of a number. -/
  | dotted (number : Nat)
  /-- By its own header. -/
  | declared
  deriving DecidableEq, Repr

/-- An entry of a document that is being read. -/
inductive Node where
  | value (v : Toml)
  | table (opening : Opening) (entries : List (Text × Node))
  /-- Tables that were appended one by one; only the last one is still open. -/
  | tables (earlier : List (List (Text × Node))) (last : List (Text × Node))

/-- The entries of a document that is being read. -/
abbrev Nodes := List (Text × Node)

/-- A table cannot be opened again in the section of a number. -/
def Opening.isClosed (number : Nat) : Opening → Bool
  | .implied => false
  | .dotted n => n < number
  | .declared => true

/-- Changes the table that a header names; tables that are missing on the way are implied, and the
way leads into the last one of appended tables. -/
def atHeader : List Text → (Nodes → Option Nodes) → Nodes → Option Nodes
  | [], change, nodes => change nodes
  | key :: keys, change, nodes =>
    match lookup key nodes with
    | none => do putEntry key (.table .implied (← atHeader keys change [])) nodes
    | some (.table opening inner) => do
      putEntry key (.table opening (← atHeader keys change inner)) nodes
    | some (.tables earlier last) => do
      putEntry key (.tables earlier (← atHeader keys change last)) nodes
    | some (.value _) => none

/-- Changes the table that a dotted key leads to in the section of a number. -/
def atDotted (number : Nat) : List Text → (Nodes → Option Nodes) → Nodes → Option Nodes
  | [], change, nodes => change nodes
  | key :: keys, change, nodes =>
    match lookup key nodes with
    | none => do putEntry key (.table (.dotted number) (← atDotted number keys change [])) nodes
    | some (.table opening inner) =>
      if opening.isClosed number then none
      else do putEntry key (.table (.dotted number) (← atDotted number keys change inner)) nodes
    | some _ => none

/-- Adds a value under a key that is new. -/
def addValue (key : Text) (v : Toml) (nodes : Nodes) : Option Nodes :=
  match lookup key nodes with
  | none => some (putEntry key (.value v) nodes)
  | some _ => none

/-- Declares a table. -/
def declareTable (number : Nat) (key : Text) (nodes : Nodes) : Option Nodes :=
  match lookup key nodes with
  | none => some (putEntry key (.table .declared []) nodes)
  | some (.table opening inner) =>
    if opening.isClosed number then none else some (putEntry key (.table .declared inner) nodes)
  | some _ => none

/-- Appends a table to those of a key. -/
def appendTable (key : Text) (nodes : Nodes) : Option Nodes :=
  match lookup key nodes with
  | none => some (putEntry key (.tables [] []) nodes)
  | some (.tables earlier last) => some (putEntry key (.tables (earlier ++ [last]) []) nodes)
  | some _ => none

mutual

/-- The value of a finished entry. -/
def Node.finish : Node → Toml
  | .value v => v
  | .table _ entries => .table (finishTable entries)
  | .tables earlier last => .array (finishTables earlier ++ [.table (finishTable last)])

def finishTables : List (List (Text × Node)) → List Toml
  | [] => []
  | entries :: rest => .table (finishTable entries) :: finishTables rest

/-- The table of a finished document. -/
def finishTable : List (Text × Node) → Table
  | [] => []
  | (key, node) :: rest => (key, node.finish) :: finishTable rest

end

end Toml

end LineAssist
