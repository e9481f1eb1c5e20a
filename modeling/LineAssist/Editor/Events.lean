import LineAssist.Editor.Session

/-!
# Documents and polls of a session

The events that the shown status depends on while the settings stay: documents are opened and
closed, and the status is asked for. Whatever answers the queries may be another source each time,
and may fail.
-/

namespace LineAssist.Editor

/-- The status that a notice tells. -/
def Notice.status? : Notice → Option StatusNotice
  | .status n => some n
  | _ => none

/-- The status that was told last. -/
def lastStatus? (told : List Notice) : Option StatusNotice :=
  (told.filterMap Notice.status?).getLast?

namespace Session

inductive Event where
  | opened (uri language : Text)
  | closed (uri : Text)
  /-- The status is asked for once, of a source that answers as it does then. -/
  | polled (source : Knowledge)

/-- The session after an event. -/
def after (host : Host) (s : Session) : Event → Session
  | .opened uri language => s.hearOpened uri language
  | .closed uri => s.closed host uri
  | .polled source => ({ s with knowledge := source }.poll host).1

/-- The session after events, the earliest first. -/
def afterAll (host : Host) (s : Session) (events : List Event) : Session :=
  events.foldl (after host) s

/-- A document has been opened in a language and has not been closed since. -/
def StaysOpen (language : Text) (events : List Event) (uri : Text) : Prop :=
  ∃ before later, events = before ++ .opened uri language :: later ∧ .closed uri ∉ later

/-- The event is one that the editor is always told the status by. -/
def Event.IsTold (language : Text) : Event → Prop
  | .opened _ l => l = language
  | .closed _ => False
  | .polled _ => True

end Session

end LineAssist.Editor
