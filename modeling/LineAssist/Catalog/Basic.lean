import LineAssist.Text.Basic

/-!
# The command catalog

What is known about a command line tool: groups of commands, and commands with their parameters.
Groups and commands are keyed by their words joined by single spaces; a parameter is keyed by its
aliases with white space between them. Everything is kept in the order of first writing.
-/

namespace LineAssist

/-- A parameter of a command: allowed values are its options. -/
structure Parameter where
  summary : Text
  options : List Text
  required : Bool
  deriving DecidableEq, Repr

structure CommandGroup where
  summary : Text
  description : Text
  deriving DecidableEq, Repr

structure CatalogCommand where
  summary : Text
  description : Text
  parameters : List (Text × Parameter)
  deriving DecidableEq, Repr

structure Catalog where
  groups : List (Text × CommandGroup)
  commands : List (Text × CatalogCommand)
  deriving DecidableEq, Repr

namespace Catalog

def empty : Catalog :=
  ⟨[], []⟩

/-- The names that a parameter answers to. -/
def aliases (key : Text) : List Text :=
  Text.words key

end Catalog

end LineAssist
