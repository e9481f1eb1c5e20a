import LineAssist.Backend
import LineAssist.Catalog.Loading
import LineAssist.Editor.Items
import LineAssist.Json.Writing
import LineAssist.LiveResult.Drive
import LineAssist.Settings
import LineAssist.Shell.Run

/-!
# The command line

Each command takes a line and answers on the standard output: its nodes, its context, its
completions, or the result of running it. Arguments that cannot be understood end with code 2, a
line that fails when it is run with code 1.
-/

namespace LineAssist.CommandLine

/-- What is asked for. -/
inductive Request where
  | help
  | serve
  | parse (line : Text) (offset : Option Int)
  | context (line : Text) (cursor : Option Int) (source : Settings.Source)
  | complete (line : Text) (cursor : Option Int) (catalog : Option Path) (source : Settings.Source)
  | run (line : Text) (query : Option Text) (isLive : Bool) (source : Settings.Source)

/-- Arguments sorted into options and others; the options in their order, those without a value
with none. -/
structure Arguments where
  options : List (Text × Option Text)
  others : List Text

/-- Sorts arguments. An option is written with its value behind an equals sign or as the next
argument; after two dashes all arguments are others. None when an option is not known, lacks its
value or has one that it does not take. -/
def sortArguments (takesValue : Text → Option Bool) : List Text → Option Arguments
  | [] => some ⟨[], []⟩
  | argument :: rest =>
    if argument = ['-', '-'] then some ⟨[], rest⟩
    else if Text.isDashLed argument && 1 < argument.length then
      let (name, attached) := match Text.cut? '=' argument with
        | some (name, value) => (name, some value)
        | none => (argument, none)
      let withOption (value : Option Text) (sorted : Arguments) : Arguments :=
        { sorted with options := (name, value) :: sorted.options }
      match takesValue name, attached, rest with
      | some false, none, rest => (sortArguments takesValue rest).map (withOption none)
      | some true, some value, rest => (sortArguments takesValue rest).map (withOption (some value))
      | some true, none, value :: rest =>
        (sortArguments takesValue rest).map (withOption (some value))
      | _, _, _ => none
    else
      (sortArguments takesValue rest).map fun sorted =>
        { sorted with others := argument :: sorted.others }

namespace Arguments

/-- The value of the last option of a name. -/
def last (a : Arguments) (name : String) : Option Text :=
  ((a.options.reverse.find? (·.1 == name.toList)).map (·.2)).join

/-- The integer value of an option; none inside when there is no such option, none when its value is
no integer. -/
def integer? (a : Arguments) (name : String) : Option (Option Int) :=
  match a.last name with
  | none => some none
  | some t => (Number.readInt? t).map some

def path? (a : Arguments) (name : String) : Option Path :=
  (a.last name).map Path.ofText

def source (a : Arguments) : Settings.Source :=
  ⟨a.path? "--root", a.path? "--config"⟩

/-- The only argument that is no option. -/
def line? (a : Arguments) : Option Text :=
  match a.others with
  | [line] => some line
  | _ => none

end Arguments

/-- The options of a command that take a value, and those that take none. -/
def optionsOf (command : String) : Option (List String × List String) :=
  match command with
  | "lsp" => some ([], [])
  | "parse" => some (["--offset"], [])
  | "context" => some (["--cursor", "--root", "--config"], [])
  | "complete" => some (["--cursor", "--catalog", "--root", "--config"], [])
  | "run" => some (["--query", "--root", "--config"], ["--live", "--no-live"])
  | _ => none

/-- Which of the options of a command an option is. -/
def takesValue (valued plain : List String) (name : Text) : Option Bool :=
  if valued.any (·.toList == name) then some true
  else if ("--help" :: plain).any (·.toList == name) then some false
  else none

/-- The request of a command with its sorted arguments. -/
def requestOf (command : String) (a : Arguments) : Option Request :=
  if a.options.any (·.1 == "--help".toList) then some .help
  else
    match command with
    | "lsp" => if a.others.isEmpty then some .serve else none
    | "parse" => do some (.parse (← a.line?) (← a.integer? "--offset"))
    | "context" => do some (.context (← a.line?) (← a.integer? "--cursor") a.source)
    | "complete" => do
      some (.complete (← a.line?) (← a.integer? "--cursor") (a.path? "--catalog") a.source)
    | "run" => do
      let switches := a.options.filter fun (name, _) =>
        name == "--live".toList || name == "--no-live".toList
      let isLive := (switches.getLast?.map fun (name, _) => name == "--live".toList).getD true
      some (.run (← a.line?) (a.last "--query") isLive a.source)
    | _ => none

/-- The request of a whole command line; none when it cannot be understood. -/
def read (arguments : List Text) : Option Request :=
  let arguments := match arguments with
    | first :: rest => if first = ['-', '-'] then rest else first :: rest
    | [] => []
  match arguments with
  | [] => none
  | command :: rest =>
    if command = "--help".toList then some .help
    else do
      let name := String.ofList command
      let (valued, plain) ← optionsOf name
      requestOf name (← sortArguments (takesValue valued plain) rest)

/-- Why a command cannot answer. -/
inductive Fault where
  /-- The arguments or the catalog cannot be used. -/
  | usage
  | settings (e : SettingsFault)
  | catalog (e : CatalogFault)
  | blankParameter
  | failure (e : Failure)
  | render (e : LiveResult.RenderFault)

/-- What the commands can use. -/
structure Host where
  files : Files
  homes : Homes
  bindings : List (Text × Shell.Octets)
  /-- The levels of JSON that the stack has room for; none is room for any number. -/
  levels : Option Nat

/-- What a command answers. -/
structure Answer where
  stdout : Text
  code : Nat
  isServing : Bool

def answered (stdout : Text) : Answer := ⟨stdout, 0, false⟩

/-- A JSON value on lines of its own. -/
def printed (v : Json) : Answer :=
  answered (v.write (.indented (some 2)) ++ ['\n'])

def key (name : String) : Text := name.toList

def roleName : Line.Role → Text
  | .subcommand => key "subcommand"
  | .parameterName => key "parameter_name"
  | .parameterValue => key "parameter_value"

def nodeJson (n : Line.Node) : Json :=
  .obj [(key "kind", .str (roleName n.role)), (key "text", .str n.text),
    (key "offset", .int n.offset), (key "length", .int n.length)]

def optional : Option Text → Json
  | some t => .str t
  | none => .null

def contextJson (c : Line.Context) : Json :=
  .obj [(key "subcommand_path", .str c.subcommandPath),
    (key "active_parameter_name", optional c.activeParameter),
    (key "typed_prefix", .str c.typed), (key "lead", .str c.lead),
    (key "arguments", .obj (c.arguments.map fun (name, value) => (name, optional value))),
    (key "recognized", .bool c.recognized)]

def kindName : Catalog.EntryKind → Text
  | .group => key "group"
  | .command => key "command"
  | .parameterName => key "parameter_name"
  | .parameterValue => key "parameter_value"
  | .snippet => key "snippet"

/-- An entry with what it inserts; fields without a value are left out. -/
def entryJson (c : Line.Context) (e : Catalog.Entry) : Json :=
  let present (name : String) (value : Option Text) : List (Text × Json) :=
    (value.map fun t => (key name, Json.str t)).toList
  .obj ([(key "name", .str e.name), (key "kind", .str (kindName e.kind))] ++
    present "detail" e.detail ++ present "documentation" e.documentation ++
    present "snippet" e.snippet ++ [(key "insert_text", .str (Editor.insertText e c))])

/-- The cursor on a line; none when it lies outside. -/
def cursorOn (line : Text) : Option Int → Option Nat
  | none => some line.length
  | some n => if 0 ≤ n ∧ n ≤ line.length then some n.toNat else none

def settingsOf (host : Host) (source : Settings.Source) : Except Fault Settings :=
  (Settings.load host.files host.homes source []).mapError .settings

/-- The context at the cursor of a line. -/
def contextAt (line : Text) (cursor : Option Int) (s : Settings) : Except Fault Line.Context :=
  match cursorOn line cursor with
  | some n => .ok (Line.resolveContext (line.take n) line s.toolName)
  | none => .error .usage

/-- The catalog of a path; an error of the catalog is one of usage. -/
def catalogAt (host : Host) : Option Path → Except Fault Catalog
  | none => .ok .empty
  | some p =>
    match Catalog.load host.files p with
    | .ok c => .ok c
    | .error (.catalog _) => .error .usage
    | .error e => .error (.catalog e)

def complete (host : Host) (line : Text) (cursor : Option Int) (catalog : Option Path)
    (source : Settings.Source) : Except Fault Answer := do
  let s ← settingsOf host source
  let c ← catalogAt host (catalog.or s.catalogPath)
  let context ← contextAt line cursor s
  match Editor.completionRequest context with
  | none => .ok (printed (.arr []))
  | some r =>
    match c.completions r with
    | .error _ => .error .blankParameter
    | .ok entries =>
      .ok (printed (.arr ((Editor.matching entries context).map (entryJson context))))

/-- A view that keeps its last content, and whether the last execution failed. -/
structure Buffer where
  content : Text
  hasFailed : Bool

/-- The surroundings of a run that is shown in a buffer. -/
def buffered (host : Host) (root : Option Path) : LiveResult.Surroundings Buffer where
  openView b := (b, .ok (key "buffer"))
  write b _ content := ({ b with content := content }, .ok ())
  execute b line :=
    match Shell.execute host.files host.bindings root line with
    | .ok given => ({ b with hasFailed := !given.ok }, .ok given)
    | .error e => (b, .error e)

/-- Runs a line, then applies the query to its output. -/
def run (host : Host) (line : Text) (query : Option Text) (isLive : Bool)
    (source : Settings.Source) : Except Fault Answer := do
  let s ← settingsOf host source
  let w := buffered host source.root
  let codec : Json.Codec := ⟨some s.resultIndent, host.levels⟩
  let (buffer, state, progress) := w.run codec ⟨[], false⟩ (.initial isLive) line
  match progress with
  | .failed e => .error (.failure e)
  | _ =>
    let (buffer, _, effect, _) := w.edit codec buffer state (.query query)
    match effect.rendered with
    | some (.error e) => .error (.render e)
    | _ => .ok ⟨buffer.content ++ ['\n'], if buffer.hasFailed then 1 else 0, false⟩

/-- The answer to a request. -/
def answer (host : Host) : Request → Except Fault Answer
  | .help => .ok (answered [])
  | .serve => .ok ⟨[], 0, true⟩
  | .parse line offset =>
    let command := Line.parse line
    match offset with
    | none => .ok (printed (.arr (command.nodes.map nodeJson)))
    | some n => .ok (printed (((command.nodeAt n).map nodeJson).getD .null))
  | .context line cursor source => do
    let s ← settingsOf host source
    .ok (printed (contextJson (← contextAt line cursor s)))
  | .complete line cursor catalog source => complete host line cursor catalog source
  | .run line query isLive source => run host line query isLive source

/-- The answer to a whole command line. -/
def respond (host : Host) (arguments : List Text) : Except Fault Answer :=
  match read arguments with
  | some request => answer host request
  | none => .error .usage

/-- The catalog file that the settings at hand name. -/
def settingsCatalog (host : Host) (source : Settings.Source) : Option Path :=
  match settingsOf host source with
  | .ok s => s.catalogPath
  | .error _ => none

/-- The files that an answer depends on, as far as the files at hand tell: the configuration, and
the catalog once the configuration is there. -/
def neededFiles (host : Host) : Request → List Path
  | .help | .serve | .parse .. => []
  | .context _ _ source | .run _ _ _ source => [source.file host.files]
  | .complete _ _ catalog source =>
    source.file host.files :: (catalog.or (settingsCatalog host source)).toList

/-- The code that a fault ends with. -/
def Fault.code : Fault → Nat
  | .usage => 2
  | _ => 1

end LineAssist.CommandLine
