import LineAssist.Files

/-!
# Executions of command lines

What the execution of a command line gives, and why an action outside of the library fails.
-/

namespace LineAssist

/-- What the execution of a command line gave. -/
structure Execution where
  ok : Bool
  stdout : Text
  stderr : Text
  returncode : Int
  deriving DecidableEq, Repr

/-- Why an action outside of the library failed. -/
inductive Failure where
  /-- The editor refuses. -/
  | refused (reason : Text)
  /-- A command line cannot be executed. -/
  | execution (reason : Text)
  | file (fault : FileFault)
  /-- What a command printed nests too deep for the stack. -/
  | nesting
  deriving DecidableEq, Repr

/-- The words of a failure; where the stack ends, they do not tell what was being read. -/
def Failure.message : Failure → Text
  | .refused reason => reason
  | .execution reason => reason
  | .file fault => fault.message
  | .nesting => "maximum recursion depth exceeded".toList

end LineAssist
