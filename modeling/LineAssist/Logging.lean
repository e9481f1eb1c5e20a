import LineAssist.Text.Basic

/-!
# Logging

Messages have a level, and a log shows those from a given level on. The level is named in any case.
A log is set up once: the first call that names a known level decides, and later calls change
nothing.
-/

namespace LineAssist

namespace Logging

inductive Level where
  | trace
  | debug
  | info
  | success
  | warning
  | error
  | critical
  deriving DecidableEq, Repr

def levels : List Level :=
  [.trace, .debug, .info, .success, .warning, .error, .critical]

def Level.name : Level → Text
  | .trace => "TRACE".toList
  | .debug => "DEBUG".toList
  | .info => "INFO".toList
  | .success => "SUCCESS".toList
  | .warning => "WARNING".toList
  | .error => "ERROR".toList
  | .critical => "CRITICAL".toList

def Level.severity : Level → Nat
  | .trace => 5
  | .debug => 10
  | .info => 20
  | .success => 25
  | .warning => 30
  | .error => 40
  | .critical => 50

/-- The characters beside the ASCII letters whose upper case is made of ASCII letters. -/
def unusualUpper : List (Char × String) :=
  [('\u00DF', "SS"), ('\u0131', "I"), ('\u017F', "S"), ('\uFB00', "FF"), ('\uFB01', "FI"),
    ('\uFB02', "FL"), ('\uFB03', "FFI"), ('\uFB04', "FFL"), ('\uFB05', "ST"), ('\uFB06', "ST")]

/-- Upper case, as far as it consists of ASCII letters. -/
def upper (t : Text) : Text :=
  t.flatMap fun c =>
    match unusualUpper.find? (·.1 == c) with
    | some (_, letters) => letters.toList
    | none => [c.toUpper]

/-- The level of a name in any case. -/
def Level.ofName? (name : Text) : Option Level :=
  levels.find? fun l => l.name == upper name

/-- The column of a level: its name, filled up with spaces. -/
def Level.column (l : Level) : Text :=
  l.name ++ List.replicate (7 - l.name.length) ' '

/-- The name of the level that applies: the given one, else that of the environment, else `INFO`.
An empty given name counts as none. -/
def levelName (given environment : Option Text) : Text :=
  match given with
  | some (c :: name) => c :: name
  | _ => environment.getD Level.info.name

/-- A log that may have been set up, with the level that it shows. -/
structure Log where
  shownFrom : Option Level
  deriving DecidableEq, Repr

/-- What a call to set up a log does. -/
inductive Setup where
  | kept
  | done
  | unknownLevel
  deriving DecidableEq, Repr

def Log.setUp (log : Log) (given environment : Option Text) : Log × Setup :=
  match log.shownFrom with
  | some _ => (log, .kept)
  | none =>
    match Level.ofName? (levelName given environment) with
    | some l => (⟨some l⟩, .done)
    | none => (log, .unknownLevel)

/-- The log shows messages of a level. -/
def Log.shows (log : Log) (l : Level) : Bool :=
  log.shownFrom.any fun least => least.severity ≤ l.severity

end Logging

end LineAssist
