import LineAssist.Entries
import LineAssist.Execution
import LineAssist.Shell.Arithmetic
import LineAssist.Shell.Syntax
import LineAssist.Shell.Tool

/-!
# Running command lines

The commands of a line run one after another on a state: the files, the variables, the input that
is left and what has been printed. What a command prints goes to a sink: a numbered buffer, a file,
or nowhere. Pipes and expansions print into buffers of their own. Fuel bounds the steps.
-/

namespace LineAssist.Shell

/-- How a shell ends before the end of its commands. -/
inductive Ending where
  | exited
  | killed (signal : Nat)
  deriving DecidableEq, Repr

/-- Where output goes. -/
inductive Sink where
  | buffer (number : Nat)
  | file (place : Place)
  | nowhere
  deriving DecidableEq, Repr

structure State where
  files : Files
  bindings : List (Text × Octets)
  status : Nat
  input : Octets
  buffers : List Octets
  ending : Option Ending

/-- The sinks of the output and of the complaints of a command. -/
structure Sinks where
  out : Sink
  err : Sink

namespace State

/-- Prints to a sink. -/
def print (st : State) (sink : Sink) (t : Octets) : State :=
  match sink with
  | .buffer n => { st with buffers := st.buffers.modify n (· ++ t) }
  | .file place =>
    match st.files.entry? place with
    | some (.file before) => { st with files := st.files.put place (.file (before ++ t)) }
    | _ => st
  | .nowhere => st

/-- A complaint of the shell itself. -/
def complain (st : State) (sinks : Sinks) (status : Nat) (message : Text) : State :=
  { st.print sinks.err (Text.encodeUtf8 ("/bin/sh: 1: ".toList ++ message ++ ['\n'])) with
    status := status }

/-- The value of a variable or of a special parameter. -/
def value (st : State) (name : Text) : Octets :=
  if name = ['?'] then Text.encodeUtf8 (Text.ofNat st.status)
  else if name = ['$'] then octets "1"
  else if name = ['#'] then octets "0"
  else if name = ['0'] then octets "/bin/sh"
  else if name = "PWD".toList then Text.encodeUtf8 st.files.currentPath.text
  else (lookup name st.bindings).getD []

/-- The integer value of a variable. -/
def integer (st : State) (name : Text) : Int :=
  Printing.integerOf (st.value name)

def setVariable (st : State) (name : Text) (v : Octets) : State :=
  { st with bindings := putEntry name v st.bindings }

def isRunning (st : State) : Bool :=
  st.ending.isNone

/-- Ends with a status. -/
def exit (st : State) (status : Nat) : State :=
  { st with status := status % 256, ending := some .exited }

/-- A subshell that ends by itself does not end the shell around it, whose variables and directory
stay. -/
def leaveSubshell (inner outer : State) : State :=
  { inner with
    bindings := outer.bindings
    files := { inner.files with current := outer.files.current }
    ending := match inner.ending with
      | some .exited => none
      | ending => ending }

end State

/-- A piece of an expanded word: one that stands as it is, or one that is split at blanks. -/
inductive Piece where
  | solid (t : Octets)
  | loose (t : Octets)

def isBlank (b : UInt8) : Bool :=
  b == 0x20 || b == 9 || b == 10

/-- Splits the loose octets of a word: the fields that are finished, last first, and the field that
is open. -/
def splitLoose : Octets → List Octets × Option Octets → List Octets × Option Octets
  | [], fields => fields
  | b :: rest, (done, field) =>
    if isBlank b then
      splitLoose rest (match field with
        | some f => (f :: done, none)
        | none => (done, none))
    else splitLoose rest (done, some (field.getD [] ++ [b]))

/-- The fields of the pieces of a word. -/
def fieldsOf (pieces : List Piece) : List Octets :=
  let (done, field) := pieces.foldl (fun (done, field) piece =>
    match piece with
    | .solid t => (done, some (field.getD [] ++ t))
    | .loose t => splitLoose t (done, field)) (([] : List Octets), (none : Option Octets))
  (match field with | some f => f :: done | none => done).reverse

def Piece.of (isQuoted : Bool) (t : Octets) : Piece :=
  if isQuoted then .solid t else .loose t

/-- The octets of pieces that are not split. -/
def unsplit (pieces : List Piece) : Octets :=
  (pieces.map fun
    | .solid t => t
    | .loose t => t).flatten

/-- Output without the line ends behind it. -/
def trimNewlines (t : Octets) : Octets :=
  (t.reverse.dropWhile (· == 10)).reverse

/-- The number of a signal by its name or its digits. -/
def signalOf? (t : Text) : Option Nat :=
  let named : List (String × Nat) :=
    [("HUP", 1), ("INT", 2), ("QUIT", 3), ("ABRT", 6), ("KILL", 9), ("USR1", 10), ("SEGV", 11),
      ("USR2", 12), ("PIPE", 13), ("ALRM", 14), ("TERM", 15)]
  let bare := (Text.stripStart? "SIG".toList t).getD t
  match named.find? fun (name, _) => name.toList == bare with
  | some (_, n) => some n
  | none => if !t.isEmpty && t.all Text.isDigit then some (Text.digitsValue t) else none

/-- The signal that the arguments of `kill` send to the shell. -/
def killSignal? (arguments : List Octets) : Option Nat :=
  match arguments.map Tool.text with
  | [['1']] => some 15
  | [['-', 's'], name, ['1']] => signalOf? name
  | ['-' :: name, ['1']] => signalOf? name
  | _ => none

/-- Ends with the status of an argument, or with the last one. -/
def leave (arguments : List Octets) (sinks : Sinks) (st : State) : State :=
  match arguments.map Tool.text with
  | [] => st.exit st.status
  | t :: _ =>
    if !t.isEmpty && t.all Text.isDigit then st.exit (Text.digitsValue t)
    else (st.complain sinks 2 ("exit: Illegal number: ".toList ++ t)).exit 2

/-- The arguments that are no options. -/
def dropOptions (arguments : List Octets) : List Octets :=
  arguments.filter fun a => !Text.isDashLed (Tool.text a)

/-- Changes the files at each of the arguments, with a complaint about those that cannot be
changed. -/
def changeFiles (st : State) (sinks : Sinks) (complaint : String) (arguments : List Octets)
    (change : Files → Path → Except FileFault Files) : State :=
  arguments.foldl (fun st a =>
    match change st.files (Path.ofText (Tool.text a)) with
    | .ok files => { st with files := files }
    | .error fault =>
      { st.print sinks.err (Text.encodeUtf8 (complaint.toList ++ " '".toList ++ Tool.text a ++
          "': ".toList ++ Tool.causeOf fault ++ ['\n'])) with status := 1 }) { st with status := 0 }

/-- The name of a tool without the directory of the tools of the system. -/
def bareName (name : Text) : Text :=
  ((Text.stripStart? "/bin/".toList name).or (Text.stripStart? "/usr/bin/".toList name)).getD name

/-- The commands that change the state of the shell. -/
def callBuiltin (name : Text) (arguments : List Octets) (sinks : Sinks) (st : State) : Option State :=
  match String.ofList name with
  | "exit" => some (leave arguments sinks st)
  | "return" => some (leave arguments sinks st)
  | "wait" => some { st with status := 0 }
  | "mkdir" =>
    some (changeFiles st sinks "mkdir: cannot create directory" (dropOptions arguments) fun files p =>
      if arguments.contains (octets "-p") then files.ensureDirectories p else files.makeDirectory p)
  | "touch" =>
    some (changeFiles st sinks "touch: cannot touch" (dropOptions arguments) fun files p =>
      match files.read p with
      | .ok _ => .ok files
      | .error (.system .isDirectory _) => .ok files
      | .error _ => files.write p [])
  | "rm" =>
    some (changeFiles st sinks "rm: cannot remove" (dropOptions arguments) fun files p =>
      match files.read p with
      | .ok _ => (files.locate p).map fun place =>
        { files with entries := files.entries.filter (·.1 != place) }
      | .error fault => if arguments.contains (octets "-f") then .ok files else .error fault)
  | "cd" =>
    let target := match arguments with
      | a :: _ => Tool.text a
      | [] => Tool.text (st.value "HOME".toList)
    match st.files.directory (Path.ofText target) with
    | .ok place => some { st with files := { st.files with current := place }, status := 0 }
    | .error _ => some (st.complain sinks 2 ("cd: can't cd to ".toList ++ target))
  | "export" =>
    some (arguments.foldl (fun st a =>
      match Text.cut? '=' (Tool.text a) with
      | some (name, v) => st.setVariable name (Text.encodeUtf8 v)
      | none => st) { st with status := 0 })
  | "unset" =>
    some { st with
      bindings := st.bindings.filter fun (n, _) => !(arguments.map Tool.text).contains n
      status := 0 }
  | "kill" =>
    match killSignal? arguments with
    | some 0 => some { st with status := 0 }
    | some signal => some { st with ending := some (.killed signal) }
    | none => some (st.complain sinks 1 "kill: No such process".toList)
  | "read" =>
    let line := st.input.takeWhile (· != 10)
    let rest := st.input.drop (line.length + 1)
    let name := (arguments.head?.map Tool.text).getD "REPLY".toList
    some { (st.setVariable name (unsplit [.solid line])) with
      input := rest
      status := if line.length < st.input.length then 0 else 1 }
  | _ => none

mutual

/-- The pieces of a word. -/
def expand (sinks : Sinks) : Nat → State → Word → State × List Piece
  | 0, st, _ => (st, [])
  | _, st, [] => (st, [])
  | fuel + 1, st, part :: rest =>
    let (st, piece) : State × Piece := match part with
      | .plain t => (st, .solid (Text.encodeUtf8 t))
      | .quoted t => (st, .solid (Text.encodeUtf8 t))
      | .variable name isQuoted => (st, .of isQuoted (st.value name))
      | .fallback name other isQuoted =>
        let v := st.value name
        (st, .of isQuoted (if v.isEmpty then Text.encodeUtf8 other else v))
      | .arithmetic expression isQuoted =>
        match Arithmetic.eval st.integer expression with
        | .ok n => (st, .of isQuoted (Text.encodeUtf8 (Text.ofInt n)))
        | .error fault =>
          let words := match fault with
            | .divisionByZero => "division by zero: \"".toList
            | .malformed => "expecting primary: \"".toList
          ((st.complain sinks 2
            ("arithmetic expression: ".toList ++ words ++ expression ++ ['"'])).exit 2, .solid [])
      | .output body isQuoted =>
        let number := st.buffers.length
        let inner := run { sinks with out := .buffer number } fuel
          { st with buffers := st.buffers ++ [[]] } body
        let printed := inner.buffers.getD number []
        ({ inner.leaveSubshell st with buffers := inner.buffers.take number },
          .of isQuoted (trimNewlines printed))
    let (st, pieces) := expand sinks fuel st rest
    (st, piece :: pieces)

/-- The fields of words. -/
def expandWords (sinks : Sinks) : Nat → State → List Word → State × List Octets
  | 0, st, _ => (st, [])
  | _, st, [] => (st, [])
  | fuel + 1, st, word :: rest =>
    let (st, pieces) := expand sinks fuel st word
    let (st, fields) := expandWords sinks fuel st rest
    (st, fieldsOf pieces ++ fields)

/-- Opens redirections; none when one of them fails. -/
def redirect : Nat → Sinks → State → List Redirect → State × Option Sinks
  | 0, sinks, st, _ => (st, some sinks)
  | _, sinks, st, [] => (st, some sinks)
  | fuel + 1, sinks, st, .mk descriptor mode target :: rest =>
    let (st, pieces) := expand sinks fuel st target
    let name := Tool.text (unsplit pieces)
    let path := Path.ofText name
    let redirected (sink : Sink) : Sinks :=
      if descriptor = 1 then { sinks with out := sink }
      else if descriptor = 2 then { sinks with err := sink }
      else sinks
    let opened (st : State) (content : Octets) : State × Option Sinks :=
      match st.files.write path content, st.files.locate path with
      | .ok files, .ok place => redirect fuel (redirected (.file place)) { st with files := files } rest
      | .error (.system .isDirectory _), _ =>
        (st.complain sinks 2 ("cannot create ".toList ++ name ++ ": Is a directory".toList), none)
      | _, _ =>
        (st.complain sinks 2
          ("cannot create ".toList ++ name ++ ": Directory nonexistent".toList), none)
    match mode with
    | .duplicate =>
      let sink := if name = ['1'] then sinks.out else if name = ['2'] then sinks.err else .nowhere
      redirect fuel (redirected sink) st rest
    | .read =>
      if name = "/dev/null".toList then redirect fuel sinks { st with input := [] } rest
      else
        match st.files.read path with
        | .ok content => redirect fuel sinks { st with input := content } rest
        | .error _ =>
          (st.complain sinks 2 ("cannot open ".toList ++ name ++ ": No such file".toList), none)
    | .write =>
      if name = "/dev/null".toList then redirect fuel (redirected .nowhere) st rest else opened st []
    | .append =>
      if name = "/dev/null".toList then redirect fuel (redirected .nowhere) st rest
      else
        match st.files.read path with
        | .ok content => opened st content
        | .error _ => opened st []

/-- Sets variables to the values of their words. -/
def assign (sinks : Sinks) : Nat → State → List (Text × Word) → State
  | 0, st, _ => st
  | _, st, [] => st
  | fuel + 1, st, (name, word) :: rest =>
    let (st, pieces) := expand sinks fuel st word
    assign sinks fuel (st.setVariable name (unsplit pieces)) rest

/-- Runs a loop over fields. -/
def runEach (sinks : Sinks) : Nat → State → Text → List Octets → Command → State
  | 0, st, _, _, _ => st
  | _, st, _, [], _ => st
  | fuel + 1, st, name, field :: rest, body =>
    if st.isRunning then
      runEach sinks fuel (run sinks fuel (st.setVariable name field) body) name rest body
    else st

/-- Runs the commands of a text. -/
def runText (sinks : Sinks) : Nat → State → Text → State
  | 0, st, _ => st
  | fuel + 1, st, line =>
    match read line with
    | .ok command => run sinks fuel st command
    | .error fault => (st.complain sinks 2 ("Syntax error: ".toList ++ fault.message)).exit 2

/-- Runs a command. -/
def run (sinks : Sinks) : Nat → State → Command → State
  | 0, st, _ => st
  | fuel + 1, st, command =>
    if !st.isRunning then st
    else
      match command with
      | .empty => { st with status := 0 }
      | .simple assigned words redirects =>
        let (st, fields) := expandWords sinks fuel { st with status := st.status } words
        match redirect fuel sinks st redirects with
        | (st, none) => st
        | (st, some inner) =>
          if !st.isRunning then st
          else
            match fields with
            | [] => assign sinks fuel { st with status := 0 } assigned
            | name :: arguments =>
              let called := assign sinks fuel st assigned
              let back (done : State) : State := { done with bindings := st.bindings }
              match callBuiltin (Tool.text name) arguments inner called with
              | some done => done
              | none =>
                match Tool.call? (bareName (Tool.text name)) ⟨called.files, called.input⟩ arguments with
                | some output =>
                  back { (called.print inner.out output.out).print inner.err output.err with
                    status := output.status }
                | none =>
                  match String.ofList (bareName (Tool.text name)), arguments with
                  | "eval", _ =>
                    runText inner fuel called (Text.unwords (arguments.map Tool.text))
                  | "exec", _ :: _ =>
                    let done := runText inner fuel called (Text.unwords (arguments.map Tool.text))
                    done.exit done.status
                  | "sh", [option, line] =>
                    if option = octets "-c" then
                      (runText inner fuel called (Tool.text line)).leaveSubshell st
                    else back (called.complain inner 127 "sh: not found".toList)
                  | _, _ => back (called.complain inner 127 (Tool.text name ++ ": not found".toList))
      | .pipe first second =>
        let number := st.buffers.length
        let left := run { sinks with out := .buffer number } fuel
          { st with buffers := st.buffers ++ [[]] } first
        let printed := left.buffers.getD number []
        let left := { left.leaveSubshell st with buffers := left.buffers.take number, input := printed }
        { (run sinks fuel left second).leaveSubshell st with input := st.input }
      | .negation body =>
        let st := run sinks fuel st body
        { st with status := if st.status = 0 then 1 else 0 }
      | .both first second =>
        let st := run sinks fuel st first
        if st.status = 0 then run sinks fuel st second else st
      | .either first second =>
        let st := run sinks fuel st first
        if st.status = 0 then st else run sinks fuel st second
      | .sequence first second => run sinks fuel (run sinks fuel st first) second
      | .subshell body redirects =>
        match redirect fuel sinks st redirects with
        | (st, none) => st
        | (inner, some sinks) => { (run sinks fuel inner body).leaveSubshell st with input := st.input }
      | .group body redirects =>
        match redirect fuel sinks st redirects with
        | (st, none) => st
        | (inner, some sinks) => run sinks fuel inner body
      | .choice condition thenBody elseBody =>
        let st := run sinks fuel st condition
        if st.status = 0 then run sinks fuel st thenBody else run sinks fuel st elseBody
      | .loop outcome condition body =>
        let st := run sinks fuel st condition
        if st.isRunning && (st.status == 0) == outcome then
          run sinks fuel (run sinks fuel st body) (.loop outcome condition body)
        else { st with status := 0 }
      | .each name words body =>
        let (st, fields) := expandWords sinks fuel st words
        runEach sinks fuel { st with status := 0 } name fields body

end

/-- The most steps that a line may take one within another. -/
def stepLimit : Nat := 100000

/-- What a line gives when it runs on files with given variables. -/
def runLine (files : Files) (bindings : List (Text × Octets)) (line : Text) : Execution :=
  let start : State := ⟨files, bindings, 0, [], [[], []], none⟩
  let sinks : Sinks := ⟨.buffer 0, .buffer 1⟩
  let st := runText sinks stepLimit start line
  let code : Int := match st.ending with
    | some (.killed signal) => Int.neg signal
    | _ => st.status
  ⟨code == 0, Text.decodeUtf8Lossy (st.buffers.getD 0 []), Text.decodeUtf8Lossy (st.buffers.getD 1 []),
    code⟩

/-- Executes a line in a directory. A directory that cannot be entered makes the execution fail;
a null character cannot be passed on at all. -/
def execute (files : Files) (bindings : List (Text × Octets)) (directory : Option Path)
    (line : Text) : Except Failure Execution :=
  if line.contains '\x00' then .error (.file .nullCharacter)
  else
    match directory with
    | none => .ok (runLine files bindings line)
    | some p =>
      match files.directory p with
      | .ok place => .ok (runLine { files with current := place } bindings line)
      | .error .nullCharacter => .error (.file .nullCharacter)
      | .error fault => .ok ⟨false, [], fault.message, -1⟩

end LineAssist.Shell
