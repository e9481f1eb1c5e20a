import LineAssist.Editor.Document
import LineAssist.Editor.Watch
import LineAssist.LiveResult.Drive
import LineAssist.Uri

/-!
# The side view in an editor

The side view is a file that the editor is asked to show. While the editor has it open as a
document, new content is an edit of the whole document; otherwise the file itself is written.
Documents are kept under their URIs with the escapes read, whereas the side view is looked up by
its URI as it is. A document that is not open is read from the file that its URI names.
-/

namespace LineAssist.Editor

/-- What an editor is told, and what is done for it. -/
inductive Notice where
  | status (notice : StatusNotice)
  | liveQuery (isEnabled : Bool)
  /-- A document is shown, with a selection in it or without one. -/
  | shows (uri : Text) (selection : Option Range)
  /-- A page is shown outside of the editor. -/
  | browses (url : Text)
  | edits (uri : Text) (range : Range) (content : Text)
  | asks (question : Text) (choices : List Text)
  | reports (message : Text)
  | executes (line : Text)
  deriving DecidableEq, Repr

/-- The files, the documents that the editor has open, and what it has been told so far. -/
structure Desk where
  files : Files
  documents : List (Text × Text)
  told : List Notice

/-- Why a document has no text. -/
inductive DocumentFault where
  | file (fault : Files.TextFault)
  /-- The URI of the document cannot be read. -/
  | unreadable
  deriving DecidableEq, Repr

namespace Desk

def tell (d : Desk) (n : Notice) : Desk :=
  { d with told := d.told ++ [n] }

/-- Keeps the text of a document, which needs a URI that can be read. -/
def keep (d : Desk) (uri content : Text) : Except DocumentFault Desk :=
  match Uri.filePath? uri with
  | none => .error .unreadable
  | some _ => .ok { d with documents := putEntry (Uri.unescape uri) content d.documents }

/-- Forgets a document. -/
def drop (d : Desk) (uri : Text) : Desk :=
  { d with documents := d.documents.filter (·.1 ≠ Uri.unescape uri) }

/-- The text of the file at a path as it is written. An empty path leads nowhere, and one that ends
at a slash or at a single dot leads to a directory. -/
def readFile (d : Desk) (path : Text) : Except Files.TextFault Text :=
  let p := Path.ofText path
  if path.isEmpty then .error (.file (.system .missing path))
  else if (Text.splitAtChar '/' path).getLast?.any fun name => !Path.isName name then
    match d.files.directory p with
    | .ok _ => .error (.file (.system .isDirectory path))
    | .error fault => .error (.file (fault.writtenAs path))
  else
    match d.files.readText p with
    | .error (.file fault) => .error (.file (fault.writtenAs path))
    | outcome => outcome

/-- The text of a document, from its file if it is not open. -/
def textOf (d : Desk) (uri : Text) : Except DocumentFault Text :=
  match lookup (Uri.unescape uri) d.documents with
  | some content => .ok content
  | none =>
    match Uri.filePath? uri with
    | none => .error .unreadable
    | some path =>
      match d.readFile path with
      | .ok content => .ok content
      | .error fault => .error (.file fault)

/-- The text of one line of a document. -/
def lineOf (d : Desk) (uri : Text) (number : Int) : Except DocumentFault Text :=
  (d.textOf uri).map fun content => lineText (Text.linesWithEnds content) number

/-- Empties the file of the side view and asks for it to be shown. -/
def openView (path : Path) (d : Desk) : Desk × Except Failure LiveResult.Handle :=
  let emptied := do (← d.files.ensureDirectories path.parent).write path []
  match emptied with
  | .error fault => (d, .error (.file fault))
  | .ok files =>
    let uri := Uri.ofPath path
    ({ d with files := files }.tell (.shows uri none), .ok uri)

/-- Writes the file that a URI leads to. -/
def writeFile (d : Desk) (uri content : Text) : Desk × Except Failure Unit :=
  match Uri.path? uri with
  | none => (d, .error (.refused ("cannot read ".toList ++ Text.shown uri)))
  | some path =>
    match d.files.write path (Text.encodeUtf8 content) with
    | .ok files => ({ d with files := files }, .ok ())
    | .error fault => (d, .error (.file fault))

/-- The beginning of a document. -/
def start : Range := ⟨⟨0, 0⟩, ⟨0, 0⟩⟩

/-- Replaces what the side view shows; the editor may refuse edits for a reason. -/
def writeView (refusal : Option Text) (d : Desk) (view : LiveResult.Handle) (content : Text) :
    Desk × Except Failure Unit :=
  match lookup view d.documents with
  | none => d.writeFile view content
  | some shown =>
    match refusal with
    | some reason => (d, .error (.refused reason))
    | none =>
      ((d.tell (.edits view (wholeDocument (Text.linesWithEnds shown)) content)).tell
        (.shows view (some start)), .ok ())

end Desk

/-- The label of an edit of the side view. -/
def editLabel : Text := "clisense result".toList

/-- The method of a notice about the status. -/
def statusMethod : Text := "clisense/status".toList

/-- The method of a notice about live queries. -/
def liveQueryMethod : Text := "clisense/liveQuery".toList

end LineAssist.Editor
