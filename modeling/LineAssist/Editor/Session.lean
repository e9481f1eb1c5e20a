import LineAssist.Backend
import LineAssist.Catalog.Loading
import LineAssist.Editor.RunRequest
import LineAssist.Editor.SideView
import LineAssist.Settings

/-!
# Sessions with an editor

A session answers an editor: it completes and explains lines of documents, runs a line and shows
its output in the side view, applies live queries while a line is being edited, and tells the status
of the tool. New settings start the knowledge, the live result and the poller anew; the watched
documents stay.
-/

namespace LineAssist.Editor

/-- What surrounds a session: the machine that it runs on, and the answers of the editor. -/
structure Host where
  homes : Homes
  /-- The directory for temporary files. -/
  temporary : Path
  /-- The levels of JSON that the stack has room for; none is room for any number. -/
  levels : Option Nat
  hasTool : Text → Bool
  execute : Files → Text → Except Failure Execution
  /-- What is chosen when the tool is missing. -/
  choice : Option Text
  /-- Why the editor refuses edits, if it does. -/
  refusal : Option Text

/-- Why a source of knowledge gives no answer. -/
inductive KnowledgeFault where
  /-- The source says that it cannot answer. -/
  | unavailable (reason : Text)
  | blankParameter
  | outside (e : Failure)
  deriving DecidableEq, Repr

/-- A source of knowledge other than a catalog. -/
structure KnowledgeSource where
  completions : Catalog.CompletionRequest → Except KnowledgeFault (List Catalog.Entry)
  hover : Catalog.HoverRequest → Except KnowledgeFault (Option (List Text))
  status : Except KnowledgeFault Text

/-- Where a session gets its answers from. -/
inductive Knowledge where
  | catalog (b : Backend)
  | other (source : KnowledgeSource)

namespace Knowledge

/-- The entries for a request. -/
def completions (r : Catalog.CompletionRequest) :
    Knowledge → Except KnowledgeFault (List Catalog.Entry)
  | .other source => source.completions r
  | .catalog b =>
    match b.completions r with
    | .ok entries => .ok entries
    | .error _ => .error .blankParameter

/-- The paragraphs for a request. -/
def hover (r : Catalog.HoverRequest) :
    Knowledge → Except KnowledgeFault (Option (List Text))
  | .other source => source.hover r
  | .catalog b => .ok (b.hover r)

end Knowledge

structure Session where
  settings : Settings
  knowledge : Knowledge
  /-- The file of the side view. -/
  resultPath : Path
  indent : Nat
  live : LiveResult.State
  watch : Watch
  desk : Desk

namespace Session

def tell (s : Session) (n : Notice) : Session :=
  { s with desk := s.desk.tell n }

/-- Lets an event happen to the watched documents and tells the editor what comes of it. -/
def watched (s : Session) (e : Watch.Event) : Session :=
  let (watch, notice) := s.watch.step e
  let s := { s with watch := watch }
  match notice with
  | some n => s.tell (.status n)
  | none => s

/-- The catalog of settings; an invalid or missing file counts as an empty catalog. -/
def catalogOf (files : Files) (settings : Settings) : Except CatalogFault Catalog :=
  match settings.catalogPath with
  | none => .ok .empty
  | some path =>
    match Catalog.load files path with
    | .error (.catalog _) => .ok .empty
    | loaded => loaded

/-- The knowledge of a catalog under given settings. -/
def knowledgeOf (catalog : Catalog) (settings : Settings) : Knowledge :=
  .catalog ⟨catalog, settings.toolName, settings.statusCommand, true, none⟩

/-- Starts anew under given settings with given knowledge. -/
def configure (host : Host) (settings : Settings) (knowledge : Knowledge) (s : Session) : Session :=
  { s with
    settings := settings
    knowledge := knowledge
    resultPath := settings.effectiveResultPath host.temporary
    indent := settings.resultIndent
    live := .initial settings.liveQueryEnabled
    watch := { s.watch with poller := .initial } }

/-- A session that has told nothing. -/
def initial (host : Host) (files : Files) (settings : Settings) : Except CatalogFault Session :=
  (catalogOf files settings).map fun catalog =>
    { settings := settings
      knowledge := knowledgeOf catalog settings
      resultPath := settings.effectiveResultPath host.temporary
      indent := settings.resultIndent
      live := .initial settings.liveQueryEnabled
      watch := .initial
      desk := ⟨files, [], []⟩ }

def installChoice : Text := "Install...".toList

def closeChoice : Text := "Close".toList

/-- Tells that the tool is missing; the page about its installation is shown by choice. -/
def adviseInstall (host : Host) (s : Session) (tool : Text) : Session :=
  let s := s.tell (.asks (Backend.notice tool) [installChoice, closeChoice])
  if host.choice = some installChoice then s.tell (.browses s.settings.installUrl) else s

/-- Keeps a backend that has checked its tool, with the notice if the check gives one. -/
def checked (host : Host) (s : Session) (b : Backend) (c : Option Backend.Check) : Session :=
  let s := { s with knowledge := .catalog b }
  if c = some .notifies then s.adviseInstall host b.tool else s

/-- Checks that the tool of a catalog is there. -/
def checkTool (host : Host) (s : Session) : Session :=
  match s.knowledge with
  | .other _ => s
  | .catalog b =>
    let (b, c) := b.check (host.hasTool b.tool)
    s.checked host b (some c)

/-- What a source says about the status. -/
def answerOf : Except KnowledgeFault Text → Poller.Answer
  | .ok message => .ok message
  | .error (.unavailable reason) => .error reason
  | .error .blankParameter => .error []
  | .error (.outside e) => .error e.message

/-- What a status query has answered when nothing of it has to wait. -/
def queried : Backend.StatusQuery → Poller.Answer
  | .done message => .ok message
  | .failed e => .error e.message
  | _ => .ok []

/-- Asks for the status. -/
def askStatus (host : Host) (s : Session) : Session × Poller.Answer :=
  match s.knowledge with
  | .other source => (s, answerOf source.status)
  | .catalog b =>
    let (b, c, query) := b.askStatus (host.hasTool b.tool)
    let s := s.checked host b c
    let query := if query = .notifying then .noticed b (.ok ()) else query
    match query with
    | .executing command =>
      let s := s.tell (.executes command)
      (s, queried (.executed (host.execute s.desk.files command)))
    | ended => (s, queried ended)

/-- Asks for the status once and tells it. -/
def poll (host : Host) (s : Session) : Session × Text :=
  let (s, answer) := s.askStatus host
  (s.watched (.polling (.once answer)), Poller.statusOf answer)

/-- Starts the polling loop and lets it tell its first status. -/
def startPolling (host : Host) (s : Session) : Session :=
  let number := s.watch.poller.loops.length
  let s := (s.watched (.polling .start)).watched (.polling (.ask number))
  let (s, answer) := s.askStatus host
  (s.watched (.polling (.answer number answer))).watched (.polling (.publish number))

/-- Stops the polling loop. -/
def stopPolling (s : Session) : Session :=
  s.watched (.polling .stop)

def shutdown (s : Session) : Session :=
  s.stopPolling

/-- Why a session cannot start. -/
inductive StartFault where
  | settings (e : SettingsFault)
  | catalog (e : CatalogFault)

/-- Starts the session in the directory that the editor works in: with the settings found there,
a check of the tool and the first status. With a catalog that cannot be read as text the new
settings are kept and the rest is not started. -/
def start (host : Host) (root : Path) (s : Session) : Session × Except StartFault Unit :=
  match Settings.load s.desk.files host.homes ⟨some root, none⟩ [] with
  | .error e => (s, .error (.settings e))
  | .ok settings =>
    match catalogOf s.desk.files settings with
    | .error e => ({ s.stopPolling with settings := settings }, .error (.catalog e))
    | .ok catalog =>
      let s := s.stopPolling.configure host settings (knowledgeOf catalog settings)
      ((s.checkTool host).startPolling host, .ok ())

/-- Takes another source of knowledge under the same settings. -/
def useSource (host : Host) (s : Session) (source : KnowledgeSource) : Session :=
  s.stopPolling.configure host s.settings (.other source)

/-- The surroundings of a run. -/
def surroundings (host : Host) (resultPath : Path) : LiveResult.Surroundings Desk where
  openView := Desk.openView resultPath
  write := Desk.writeView host.refusal
  execute d line := (d.tell (.executes line), host.execute d.files line)

/-- Why a request about a document fails. -/
inductive RequestFault where
  | document (e : DocumentFault)
  /-- A position that no editor knows. -/
  | position
  | blankParameter
  | outside (e : Failure)
  | render (e : LiveResult.RenderFault)

/-- The editor shows a document. -/
def shown (s : Session) (uri content : Text) : Session × Except RequestFault Unit :=
  match s.desk.keep uri content with
  | .ok desk => ({ s with desk := desk }, .ok ())
  | .error e => (s, .error (.document e))

/-- The session hears that a document has been opened. -/
def hearOpened (s : Session) (uri language : Text) : Session :=
  s.watched (.opened uri (language == s.settings.languageId))

/-- A document is opened. -/
def opened (s : Session) (uri language content : Text) : Session × Except RequestFault Unit :=
  match s.shown uri content with
  | (s, .ok ()) => (s.hearOpened uri language, .ok ())
  | failed => failed

/-- How the live result reads and writes its JSON. -/
def codec (host : Host) (s : Session) : Json.Codec :=
  ⟨some s.indent, host.levels⟩

/-- Applies an edit to the live result: the editor is told of a toggle and of a failed query before
the side view is written. -/
def edited (host : Host) (s : Session) (e : LiveResult.Edit) : Session × Except RequestFault Unit :=
  let (live, effect) := s.live.edit (s.codec host) e
  let s := { s with live := live }
  let s := match effect.toggled with
    | some isEnabled => s.tell (.liveQuery isEnabled)
    | none => s
  let s := match effect.reported with
    | some message => s.tell (.reports message)
    | none => s
  let (desk, written) := match effect.write with
    | some (view, content) => s.desk.writeView host.refusal view content
    | none => (s.desk, .ok ())
  let s := { s with desk := desk }
  match effect.rendered, written with
  | some (.error fault), _ => (s, .error (.render fault))
  | _, .error fault => (s, .error (.outside fault))
  | _, .ok () => (s, .ok ())

/-- A document is closed. -/
def closed (host : Host) (s : Session) (uri : Text) : Session :=
  let s := { s with desk := s.desk.drop uri }
  (s.edited host (.close uri)).1.watched (.closed uri)

/-- The line that a change is on, if it is the only one and stays on one line. -/
def changedLine? : List (Option Range) → Option Int
  | [some range] => if range.start.line = range.stop.line then some range.start.line else none
  | _ => none

/-- A document gets a new text by changes, each with its range or of the whole document. -/
def changed (host : Host) (s : Session) (uri content : Text) (changes : List (Option Range)) :
    Session × Except RequestFault Unit :=
  match s.shown uri content with
  | (s, .ok ()) =>
    if !changes.all fun c => c.all Range.isValid then (s, .error .position)
    else
      match changedLine? changes with
      | none => (s, .ok ())
      | some number =>
        if s.watch.documents.contains uri then
          s.edited host (.line (lineText (Text.linesWithEnds content) number))
        else (s, .ok ())
  | failed => failed

/-- Turns live queries on or off; gives what they are then. -/
def toggled (host : Host) (s : Session) : Session × Except RequestFault Bool :=
  let (s, outcome) := s.edited host .toggle
  (s, outcome.map fun () => s.live.queryEnabled)

/-- An answer of a source; without one there is nothing to offer. -/
def given {α : Type} (nothing : α) : Except KnowledgeFault α → Except RequestFault α
  | .ok answer => .ok answer
  | .error (.unavailable _) => .ok nothing
  | .error .blankParameter => .error .blankParameter
  | .error (.outside e) => .error (.outside e)

/-- The line of a document. -/
def line (s : Session) (uri : Text) (number : Int) : Except RequestFault Text :=
  match s.desk.lineOf uri number with
  | .ok t => .ok t
  | .error e => .error (.document e)

/-- The line at a position of a document. -/
def lineAt (s : Session) (uri : Text) (at_ : Position) : Except RequestFault Text :=
  if at_.isValid then s.line uri at_.line else .error .position

/-- The completion items at a position of a document. -/
def complete (s : Session) (uri : Text) (at_ : Position) : Except RequestFault (List Item) := do
  let line ← s.lineAt uri at_
  let context := Line.resolveContext (line.upTo at_.character) line s.settings.toolName
  match completionRequest context with
  | none => .ok []
  | some r => do
    let entries ← given [] (s.knowledge.completions r)
    .ok (items entries context at_)

/-- What is shown over a position of a document. -/
def hover (s : Session) (uri : Text) (at_ : Position) : Except RequestFault (Option Hover) := do
  let line ← s.lineAt uri at_
  match hoverRequest (Line.parse line) at_.character s.settings.toolName with
  | none => .ok none
  | some (r, n) => do
    let paragraphs ← given none (s.knowledge.hover r)
    .ok (hoverOf paragraphs n at_.line)

/-- The answer to a request to run a line. -/
inductive RunAnswer where
  | done (line : Text) (isParsed : Bool)
  | failed (reason : Text)
  deriving DecidableEq, Repr

/-- The report about a run that failed. -/
def runReport (line reason : Text) : Text :=
  "running ".toList ++ Text.shown line ++ " failed: ".toList ++ reason

/-- Runs a line of a document and shows its output in the side view. -/
def run (host : Host) (s : Session) (r : RunRequest) : Session × Except RequestFault RunAnswer :=
  match s.line r.uri r.line with
  | .error e => (s, .error e)
  | .ok line =>
    let (desk, live, progress) :=
      (surroundings host s.resultPath).run (s.codec host) s.desk s.live line
    let s := { s with desk := desk, live := live }
    match progress with
    | .failed e => (s.tell (.reports (runReport line e.message)), .ok (.failed e.message))
    | _ => (s, .ok (.done line s.live.hasResult))

/-- The commands that are known, in order. -/
def commands (s : Session) : List Text :=
  match s.knowledge with
  | .catalog b => (Catalog.sortedByKey b.catalog.commands).map (·.1)
  | .other _ => []

end Session

end LineAssist.Editor
