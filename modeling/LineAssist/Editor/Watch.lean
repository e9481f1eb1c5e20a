import LineAssist.Poller

/-!
# Watched documents and the shown status

The editor is told the last status of the tool: after each query, and whenever a document of the
tool's language is opened or closed. The status is to be seen while it is not empty and such a
document is open.
-/

namespace LineAssist.Editor

/-- What the editor is told about the status. -/
structure StatusNotice where
  message : Text
  isVisible : Bool
  deriving DecidableEq, Repr

/-- The open documents of the tool's language, each once, and the poller of the status. -/
structure Watch where
  documents : List Text
  poller : Poller
  deriving DecidableEq, Repr

namespace Watch

def initial : Watch := ⟨[], .initial⟩

inductive Event where
  /-- A document is opened; only one of the tool's language is watched. -/
  | opened (uri : Text) (isOurs : Bool)
  | closed (uri : Text)
  | polling (e : Poller.Event)

/-- What is told about a status now. -/
def notice (w : Watch) (message : Text) : StatusNotice :=
  ⟨message, !message.isEmpty && !w.documents.isEmpty⟩

/-- The effect of an event, and what the editor is told by it. -/
def step (w : Watch) : Event → Watch × Option StatusNotice
  | .opened uri isOurs =>
    if isOurs then
      let w := { w with documents := w.documents.insert uri }
      (w, some (w.notice w.poller.last))
    else (w, none)
  | .closed uri =>
    if uri ∈ w.documents then
      let w := { w with documents := w.documents.filter (· ≠ uri) }
      (w, some (w.notice w.poller.last))
    else (w, none)
  | .polling e =>
    let (poller, status) := w.poller.step e
    let w := { w with poller := poller }
    (w, status.map w.notice)

end Watch

end LineAssist.Editor
