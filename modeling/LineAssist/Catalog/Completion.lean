import LineAssist.Catalog.Basic
import LineAssist.Line.Context

/-!
# Completions from the catalog

What can stand next on a command line: the values of the parameter being typed, the parameters of
a command that are not yet supplied, or the groups and commands one word below a path. A parameter
is offered under its first alias; a parameter without aliases cannot be offered at all.
-/

namespace LineAssist.Catalog

inductive EntryKind where
  | group
  | command
  | parameterName
  | parameterValue
  | snippet
  deriving DecidableEq, Repr

/-- Something that can be inserted at the cursor. -/
structure Entry where
  name : Text
  kind : EntryKind
  detail : Option Text
  documentation : Option Text
  /-- The text to insert, with numbered tab stops. -/
  snippet : Option Text
  deriving DecidableEq, Repr

/-- What is asked for: the words of a path, the parameter whose value is wanted, and the arguments
already on the line. -/
structure CompletionRequest where
  subcommand : Option Text
  argument : Option Text
  arguments : Line.Arguments
  deriving DecidableEq, Repr

/-- A parameter has no alias to be offered under. -/
inductive BlankParameter where
  | blankParameter
  deriving DecidableEq, Repr

/-- A text that is there only when it is not empty. -/
def nonEmpty (t : Text) : Option Text :=
  if t.isEmpty then none else some t

/-- The words of a path joined by single spaces. -/
def normalPath (path : Text) : Text :=
  Text.unwords (Text.words path)

/-- The name that a parameter is offered under. -/
def firstAlias (key : Text) : Except BlankParameter Text :=
  match aliases key with
  | a :: _ => .ok a
  | [] => .error .blankParameter

/-- The first parameter that answers to a name. -/
def findParameter (name : Text) (parameters : List (Text × Parameter)) :
    Option (Text × Parameter) :=
  parameters.find? fun (key, _) => (aliases key).contains name

/-- The name of a parameter with a numbered tab stop for its value. -/
def tabStop (index : Nat) (name : Text) : Text :=
  name ++ " $\x7b".toList ++ Text.ofNat index ++ ':' :: name.dropWhile (· == '-') ++ ['}']

/-- The tab stops of parameters, numbered from an index. -/
def tabStops (index : Nat) : List Text → List Text
  | [] => []
  | name :: rest => tabStop index name :: tabStops (index + 1) rest

/-- The snippet of a command: its name and the required parameters with tab stops for their
values; none when it requires none. -/
def snippet? (word : Text) (command : CatalogCommand) : Except BlankParameter (Option Text) := do
  match command.parameters.filter fun (_, p) => p.required with
  | [] => .ok none
  | required =>
    let names ← required.mapM fun (key, _) => firstAlias key
    .ok (some (Text.unwords (word :: tabStops 1 names)))

/-- The entry of a parameter. -/
def parameterEntry (name : Text) (p : Parameter) : Entry where
  name := name
  kind := .parameterName
  detail := if p.required then some "required".toList else none
  documentation := nonEmpty p.summary
  snippet := none

/-- The parameters none of whose aliases is supplied. -/
def parameterEntries (arguments : Line.Arguments) :
    List (Text × Parameter) → Except BlankParameter (List Entry)
  | [] => .ok []
  | (key, p) :: rest => do
    if (aliases key).any fun a => (lookup a arguments).isSome then parameterEntries arguments rest
    else
      let name ← firstAlias key
      let more ← parameterEntries arguments rest
      .ok (parameterEntry name p :: more)

/-- Entries in the order of their keys. -/
def sortedByKey {α : Type} (entries : List (Text × α)) : List (Text × α) :=
  entries.mergeSort fun a b => !Text.before b.1 a.1

/-- The last word of a key that is one word longer than a path. -/
def childWord? (path key : Text) : Option Text :=
  let start := if path.isEmpty then [] else path ++ [' ']
  let words := Text.words key
  if words.length = (Text.words path).length + 1 && start.isPrefixOf key then words.getLast?
  else none

/-- The entries of a command: its name, and its snippet when it requires parameters. -/
def commandEntries (word : Text) (command : CatalogCommand) :
    Except BlankParameter (List Entry) := do
  let documentation := nonEmpty command.summary
  let name : Entry := ⟨word, .command, none, documentation, none⟩
  match ← snippet? word command with
  | some s =>
    .ok [name, ⟨word, .snippet, some "with required parameters".toList, documentation, some s⟩]
  | none => .ok [name]

/-- The groups one word below a path. -/
def groupChildren (c : Catalog) (path : Text) : List Entry :=
  (sortedByKey c.groups).filterMap fun (key, g) =>
    (childWord? path key).map fun word => ⟨word, .group, none, nonEmpty g.summary, none⟩

/-- The commands one word below a path. -/
def commandChildren (c : Catalog) (path : Text) : Except BlankParameter (List Entry) := do
  let entries ← ((sortedByKey c.commands).filterMap fun (key, command) =>
    (childWord? path key).map fun word => (word, command)).mapM fun (word, command) =>
      commandEntries word command
  .ok entries.flatten

/-- The groups and then the commands one word below a path. -/
def childEntries (c : Catalog) (path : Text) : Except BlankParameter (List Entry) := do
  .ok (groupChildren c path ++ (← commandChildren c path))

/-- The entry of an allowed value. -/
def valueEntry (option : Text) : Entry :=
  ⟨option, .parameterValue, none, none, none⟩

/-- The answer to a request. An empty argument counts as none. -/
def completions (c : Catalog) (r : CompletionRequest) : Except BlankParameter (List Entry) :=
  let path := normalPath (r.subcommand.getD [])
  let command := lookup path c.commands
  match r.argument.bind nonEmpty with
  | some argument =>
    match command.bind fun d => findParameter argument d.parameters with
    | some (_, p) => .ok (p.options.map valueEntry)
    | none => .ok []
  | none =>
    match command with
    | some d => parameterEntries r.arguments d.parameters
    | none => childEntries c path

/-- What is asked about a word: a path, and a parameter of the command there. -/
structure HoverRequest where
  subcommand : Text
  argument : Option Text
  deriving DecidableEq, Repr

/-- What is known about a parameter: its aliases, its summary and its allowed values. -/
def parameterParagraphs (key : Text) (p : Parameter) : List Text :=
  ['`' :: Text.unwords (aliases key) ++ ['`']] ++
    (if p.summary.isEmpty then [] else [p.summary]) ++
    (if p.options.isEmpty then [] else
      ["Allowed values: ".toList ++ Text.join ", ".toList p.options])

/-- The texts that are not empty. -/
def paragraphs? (texts : List Text) : Option (List Text) :=
  match texts.filter fun t => !t.isEmpty with
  | [] => none
  | ps => some ps

/-- What is known about a word, as paragraphs. -/
def hover (c : Catalog) (r : HoverRequest) : Option (List Text) :=
  let path := normalPath r.subcommand
  let command := lookup path c.commands
  match r.argument.bind nonEmpty with
  | some argument => do
    let d ← command
    let (key, p) ← findParameter argument d.parameters
    some (parameterParagraphs key p)
  | none =>
    match command with
    | some d => paragraphs? [d.summary, d.description]
    | none => do
      let g ← lookup path c.groups
      paragraphs? [g.summary, g.description]

end LineAssist.Catalog
