import LineAssist.Editor.SideView

/-!
# What an editor has open

An editor opens, changes and closes documents, each under its URI. A desk follows it, but keeps
every document under its URI with the escapes read, under which another document may be kept too.
-/

namespace LineAssist.Editor

/-- What an editor does with a document. -/
inductive DocumentEvent where
  /-- The document is opened, or gets a new text. -/
  | shown (uri content : Text)
  | closed (uri : Text)
  deriving DecidableEq, Repr

/-- A document has been shown and has not been closed since. -/
def HasOpen (events : List DocumentEvent) (uri : Text) : Prop :=
  ∃ before content later, events = before ++ .shown uri content :: later ∧ .closed uri ∉ later

namespace Desk

/-- The desk after an event. A document whose URI cannot be read is not kept. -/
def after (d : Desk) : DocumentEvent → Desk
  | .shown uri content =>
    match d.keep uri content with
    | .ok kept => kept
    | .error _ => d
  | .closed uri => d.drop uri

/-- The desk after events, the earliest first. -/
def afterAll (d : Desk) (events : List DocumentEvent) : Desk :=
  events.foldl after d

/-- The keys of the documents. -/
def kept (d : Desk) : List Text :=
  d.documents.map Prod.fst

end Desk

end LineAssist.Editor
