import LineAssist.Files
import LineAssist.Number.Reading
import LineAssist.Toml.Reading

/-!
# Settings

The settings come from three sections of a configuration file and from given values for the first
of them. A file that is missing or malformed counts as an empty one, and a value that cannot be
used as its default. Relative paths start from the directory of the configuration.
-/

namespace LineAssist

structure Settings where
  toolName : Text
  languageId : Text
  installUrl : Text
  catalogPath : Option Path
  statusCommand : Option Text
  liveQueryEnabled : Bool
  resultPath : Option Path
  resultIndent : Nat
  statusInterval : Binary64
  deriving Repr

/-- Why there are no settings. -/
inductive SettingsFault where
  | notUtf8
  | nullCharacter
  /-- The configuration holds a decimal integer of too many digits. -/
  | longInteger
  /-- A path starts at a home directory that is not known. -/
  | unknownHome
  /-- The interval is beyond all decimals. -/
  | overflow
  deriving DecidableEq, Repr

namespace Settings

def configName : Text := "clisense.toml".toList

def defaults : Settings where
  toolName := "az".toList
  languageId := "azcli".toList
  installUrl := "https://aka.ms/GetTheAzureCLI".toList
  catalogPath := none
  statusCommand := none
  liveQueryEnabled := false
  resultPath := none
  resultIndent := 4
  statusInterval := Binary64.ofInt 5

/-- The file for results below the directory for temporary files. -/
def defaultResultPath (temporary : Path) : Path :=
  temporary.under ⟨.here, ["clisense".toList, "result.json".toList]⟩

/-- The file that results are written to. -/
def effectiveResultPath (s : Settings) (temporary : Path) : Path :=
  match s.resultPath with
  | some p => p
  | none => defaultResultPath temporary

/-- The defaults with the given values over them; a value that is not there does not count. -/
def merge {α : Type} (given : List (Text × Option α)) (base : List (Text × α)) : List (Text × α) :=
  given.foldl (fun merged (key, value?) =>
    match value? with
    | some value => putEntry key value merged
    | none => merged) base

/-- The section of a name; one that is not a table is empty. -/
def section_ (name : String) (config : Toml.Table) : Toml.Table :=
  match lookup name.toList config with
  | some (.table entries) => entries
  | _ => []

/-- A text that is not blank, trimmed. -/
def usableText : Option Toml → Option Text
  | some (.text t) =>
    let trimmed := Text.trim t
    if trimmed.isEmpty then none else some trimmed
  | _ => none

/-- The words for yes. -/
def isYes (t : Text) : Bool :=
  ["1", "true", "yes", "on"].any fun word => word.toList == Text.lower (Text.trim t)

def flag : Option Toml → Bool
  | some (.bool b) => b
  | some (.int i) => i != 0
  | some (.text t) => isYes t
  | _ => false

/-- An integer that is not negative. -/
def usableIndent : Option Toml → Option Nat
  | some (.int i) => if 0 ≤ i then some i.toNat else none
  | _ => none

def isPositive (x : Binary64) : Bool :=
  x.compareInt? 0 == some .gt

/-- A positive number, also one that is written as a text. -/
def usableInterval : Option Toml → Except SettingsFault (Option Binary64)
  | some (.int i) =>
    if 0 < i then
      match Binary64.ofInt i with
      | .infinity _ => .error .overflow
      | x => .ok (some x)
    else .ok none
  | some (.float x) => .ok (if isPositive x then some x else none)
  | some (.text t) => .ok ((Number.readBinary64? t).filter isPositive)
  | _ => .ok none

/-- A path with its home directory, below the base if it is relative. -/
def resolvePath (homes : Homes) (base : Path) (t : Text) : Except SettingsFault Path :=
  match (Path.ofText t).expandHome? homes with
  | some p => .ok (base.under p)
  | none => .error .unknownHome

/-- A path that may be left out. -/
def resolvePath? (homes : Homes) (base : Path) :
    Option Text → Except SettingsFault (Option Path)
  | none => .ok none
  | some t => (resolvePath homes base t).map some

/-- The settings of the three sections. -/
def ofSections (homes : Homes) (base : Path) (tool liveQuery status : Toml.Table) :
    Except SettingsFault Settings := do
  let text (name : String) := usableText (lookup name.toList tool)
  let catalogPath ← resolvePath? homes base (text "catalog")
  let resultPath ←
    resolvePath? homes base (usableText (lookup "result_path".toList liveQuery))
  let interval ← usableInterval (lookup "interval_seconds".toList status)
  .ok {
    toolName := (text "name").getD defaults.toolName
    languageId := (text "language_id").getD defaults.languageId
    installUrl := (text "install_url").getD defaults.installUrl
    catalogPath := catalogPath
    statusCommand := text "status_command"
    liveQueryEnabled := flag (lookup "enabled".toList liveQuery)
    resultPath := resultPath
    resultIndent := (usableIndent (lookup "indent".toList liveQuery)).getD defaults.resultIndent
    statusInterval := interval.getD defaults.statusInterval }

/-- The table of a configuration file; one that cannot be opened or is malformed is empty. -/
def readConfig (files : Files) (p : Path) : Except SettingsFault Toml.Table :=
  match files.readText p with
  | .error .notUtf8 => .error .notUtf8
  | .error (.file .nullCharacter) => .error .nullCharacter
  | .error (.file (.system ..)) => .ok []
  | .ok t =>
    match Toml.read t with
    | .ok table => .ok table
    | .error .malformed => .ok []
    | .error .longInteger => .error .longInteger

/-- Where a configuration is looked for: a file, or a directory that may hold one. -/
structure Source where
  root : Option Path
  config : Option Path

/-- The directory that a search without a given file starts from. -/
def Source.rootOr (source : Source) (files : Files) : Path :=
  source.root.getD files.currentPath

/-- The configuration file. -/
def Source.file (source : Source) (files : Files) : Path :=
  source.config.getD ((source.rootOr files).under ⟨.here, [configName]⟩)

/-- The directory that relative paths of the configuration start from. -/
def Source.base (source : Source) (files : Files) : Path :=
  match source.config with
  | some p => p.parent
  | none => source.rootOr files

/-- The settings of a configuration, with given values over its first section. -/
def load (files : Files) (homes : Homes) (source : Source)
    (given : List (Text × Option Toml)) : Except SettingsFault Settings := do
  let config ← readConfig files (source.file files)
  ofSections homes (source.base files) (merge given (section_ "tool" config))
    (section_ "live_query" config) (section_ "status" config)

end Settings

end LineAssist
