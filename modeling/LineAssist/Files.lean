import LineAssist.Path
import LineAssist.Text.Lines
import LineAssist.Text.Quoted
import LineAssist.Text.Utf8

/-!
# Files

A tree of files and directories, seen from a current directory. A path is followed name by name
from the root or from the current directory; two dots lead to the directory above.
-/

namespace LineAssist

inductive FileFault.Cause where
  | missing
  | present
  | notDirectory
  | isDirectory
  | longName
  deriving DecidableEq, Repr

/-- Why a path cannot be used. -/
inductive FileFault where
  | system (cause : FileFault.Cause) (path : Text)
  /-- The path holds a null character. -/
  | nullCharacter
  deriving DecidableEq, Repr

namespace FileFault

/-- The number and the words of a cause. -/
def Cause.words : Cause → Nat × String
  | .missing => (2, "No such file or directory")
  | .present => (17, "File exists")
  | .notDirectory => (20, "Not a directory")
  | .isDirectory => (21, "Is a directory")
  | .longName => (36, "File name too long")

def message : FileFault → Text
  | .system cause path =>
    let (number, words) := cause.words
    "[Errno ".toList ++ Text.ofNat number ++ "] ".toList ++ words.toList ++ ": ".toList
      ++ Text.shown path
  | .nullCharacter => "embedded null byte".toList

/-- The fault as it is told about a path that is written otherwise. -/
def writtenAs (path : Text) : FileFault → FileFault
  | .system cause _ => .system cause path
  | .nullCharacter => .nullCharacter

end FileFault

/-- The names from the root down. -/
abbrev Place := List Text

inductive FileEntry where
  | file (octets : List UInt8)
  | directory
  deriving DecidableEq, Repr

structure Files where
  entries : List (Place × FileEntry)
  current : Place
  deriving Repr

namespace Files

/-- What is at a place; the root is always a directory. -/
def entry? (files : Files) (place : Place) : Option FileEntry :=
  if place.isEmpty then some .directory else (files.entries.find? (·.1 == place)).map (·.2)

/-- The longest name, in octets. -/
def nameLimit : Nat := 255

/-- Follows names from a place. Every place passed has to be a directory; what is at the last one
is not asked. -/
def follow (files : Files) (place : Place) : List Text → Except FileFault.Cause Place
  | [] => .ok place
  | name :: rest =>
    match files.entry? place with
    | none => .error .missing
    | some (.file _) => .error .notDirectory
    | some .directory =>
      if nameLimit < (Text.encodeUtf8 name).length then .error .longName
      else files.follow (if name = ['.', '.'] then place.dropLast else place ++ [name]) rest

/-- The current directory as a path. -/
def currentPath (files : Files) : Path :=
  ⟨.root, files.current⟩

/-- The place that a path leads to. -/
def locate (files : Files) (p : Path) : Except FileFault Place :=
  if p.text.contains '\x00' then .error .nullCharacter
  else
    match files.follow (if p.isAbsolute then [] else files.current) p.names with
    | .ok place => .ok place
    | .error cause => .error (.system cause p.text)

def isDirectory (files : Files) (p : Path) : Bool :=
  match files.locate p with
  | .ok place => files.entry? place == some .directory
  | .error _ => false

/-- The content of a file. -/
def read (files : Files) (p : Path) : Except FileFault (List UInt8) := do
  let place ← files.locate p
  match files.entry? place with
  | none => .error (.system .missing p.text)
  | some .directory => .error (.system .isDirectory p.text)
  | some (.file octets) => .ok octets

/-- Why a file cannot be read as text. -/
inductive TextFault where
  | file (fault : FileFault)
  | notUtf8
  deriving DecidableEq, Repr

/-- The text of a file, with line feeds as its line ends. -/
def readText (files : Files) (p : Path) : Except TextFault Text :=
  match files.read p with
  | .error fault => .error (.file fault)
  | .ok octets =>
    match Text.decodeUtf8? octets with
    | none => .error .notUtf8
    | some t => .ok (Text.normalizeNewlines t)

/-- Puts an entry at a place, in place of the one that is there. -/
def put (files : Files) (place : Place) (e : FileEntry) : Files :=
  { files with entries := (place, e) :: files.entries.filter (·.1 != place) }

/-- Writes the whole content of a file. -/
def write (files : Files) (p : Path) (octets : List UInt8) : Except FileFault Files := do
  let place ← files.locate p
  match files.entry? place with
  | some .directory => .error (.system .isDirectory p.text)
  | _ => .ok (files.put place (.file octets))

/-- Makes one directory. -/
def makeDirectory (files : Files) (p : Path) : Except FileFault Files := do
  let place ← files.locate p
  match files.entry? place with
  | some _ => .error (.system .present p.text)
  | none => .ok (files.put place .directory)

/-- Makes a directory unless it is there. -/
def ensureDirectory (files : Files) (p : Path) : Except FileFault Files :=
  match files.makeDirectory p with
  | .error (.system cause path) =>
    if cause ≠ .missing ∧ files.isDirectory p then .ok files else .error (.system cause path)
  | outcome => outcome

/-- Makes a directory and those above it, unless they are there. -/
def ensureDirectories (files : Files) (p : Path) : Except FileFault Files :=
  match files.ensureDirectory p with
  | .error (.system .missing path) =>
    if _ : p.names = [] then .error (.system .missing path)
    else
      match files.ensureDirectories p.parent with
      | .ok files => files.ensureDirectory p
      | .error e => .error e
  | outcome => outcome
termination_by p.names.length
decreasing_by
  have := List.length_pos_iff.2 ‹¬p.names = []›
  simp only [Path.parent, List.length_dropLast]
  omega

/-- The directory that a path leads to. -/
def directory (files : Files) (p : Path) : Except FileFault Place := do
  let place ← files.locate p
  match files.entry? place with
  | none => .error (.system .missing p.text)
  | some (.file _) => .error (.system .notDirectory p.text)
  | some .directory => .ok place

end Files

end LineAssist
