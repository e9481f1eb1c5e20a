import LineAssist.CommandLine
import LineAssist.Logging

/-!
# The program

Reads the files that a command depends on, lets the library answer and prints the answer. Lines are
run by the shell of the library.
-/

namespace LineAssist.Program

open CommandLine (Host Request)

/-- Takes a file of the disk, if it can be read. -/
def takeFile (files : Files) (p : Path) : IO Files := do
  let path := files.currentPath.under p
  let .ok content ← (IO.FS.readBinFile (String.ofList path.text)).toBaseIO | return files
  match do (← files.ensureDirectories path.parent).write path content.toList with
  | .ok files => return files
  | .error _ => return files

/-- Takes the files that a request needs: the configuration first, then what it names. -/
def takeFiles (host : Host) (request : Request) : IO Host := do
  let files ← (CommandLine.neededFiles host request).foldlM takeFile host.files
  let host := { host with files := files }
  let files ← (CommandLine.neededFiles host request).foldlM takeFile host.files
  return { host with files := files }

/-- The directory that the program runs in, without any file. -/
def emptyHost : IO Host := do
  let here := Path.ofText (← IO.currentDir).toString.toList
  let home := ((← IO.getEnv "HOME").getD "/").toList
  let files : Files := ⟨[], here.names⟩
  let files := match files.ensureDirectories here with
    | .ok files => files
    | .error _ => files
  return ⟨files, ⟨home, []⟩, [("HOME".toList, Text.encodeUtf8 home)], Json.Codec.usual.levels⟩

def print (t : Text) : IO Unit := do
  let out ← IO.getStdout
  out.write (ByteArray.mk (Text.encodeUtf8 t).toArray)
  out.flush

/-- Answers a request and gives the code to end with. -/
def answer (request : Request) : IO UInt32 := do
  let host ← takeFiles (← emptyHost) request
  match CommandLine.answer host request with
  | .ok a => do
    print a.stdout
    return UInt32.ofNat a.code
  | .error e => return UInt32.ofNat e.code

end LineAssist.Program

open LineAssist in
def main (arguments : List String) : IO UInt32 := do
  let level := (← IO.getEnv "CLISENSE_LOG_LEVEL").map String.toList
  match CommandLine.read (arguments.map String.toList) with
  | none => return UInt32.ofNat (CommandLine.Fault.usage).code
  | some request =>
    if (Logging.Log.setUp ⟨none⟩ none level).2 = .unknownLevel then return 1
    else Program.answer request
