import LineAssist.Text.Basic

/-!
# Paths

A path is kept in normal form: where it starts from and the names on the way, without empty names
and without names that are a single dot. Two dots are kept as a name, since they are followed only
by the file system.
-/

namespace LineAssist

/-- Where a path starts from. -/
inductive Anchor where
  | here
  | root
  /-- Exactly two slashes, which are kept apart from one. -/
  | doubleRoot
  deriving DecidableEq, Repr

structure Path where
  anchor : Anchor
  names : List Text
  deriving DecidableEq, Repr

/-- The home directories that a path can refer to. -/
structure Homes where
  own : Text
  others : List (Text × Text)

namespace Path

def Anchor.text : Anchor → Text
  | .here => []
  | .root => ['/']
  | .doubleRoot => ['/', '/']

/-- The anchor that a text starts with. -/
def anchorOf : Text → Anchor
  | '/' :: '/' :: '/' :: _ => .root
  | '/' :: '/' :: _ => .doubleRoot
  | '/' :: _ => .root
  | _ => .here

/-- A name that a path keeps. -/
def isName (t : Text) : Bool :=
  !t.isEmpty && t != ['.']

/-- The path that a text stands for. -/
def ofText (t : Text) : Path :=
  ⟨anchorOf t, (Text.splitAtChar '/' t).filter isName⟩

/-- The text of a path; the empty relative path is a single dot. -/
def text (p : Path) : Text :=
  match p.anchor, p.names with
  | .here, [] => ['.']
  | a, ns => Anchor.text a ++ Text.join ['/'] ns

def isAbsolute (p : Path) : Bool :=
  p.anchor != .here

/-- A path seen from a directory; an absolute path does not depend on it. -/
def under (base p : Path) : Path :=
  if p.isAbsolute then p else ⟨base.anchor, base.names ++ p.names⟩

/-- The path without its last name. -/
def parent (p : Path) : Path :=
  ⟨p.anchor, p.names.dropLast⟩

/-- The home directory that a first name stands for: a tilde alone, or one before a user's name.
None when the user is not known. -/
def homeOf? (homes : Homes) (user : Text) : Option Text :=
  let home? := if user.isEmpty then some homes.own else (homes.others.find? (·.1 == user)).map (·.2)
  home?.map fun home =>
    let bare := (home.reverse.dropWhile (· == '/')).reverse
    if bare.isEmpty then ['/'] else bare

/-- The path with a leading tilde replaced by a home directory. None when there is no such home. -/
def expandHome? (homes : Homes) (p : Path) : Option Path :=
  match p.anchor, p.names with
  | .here, ('~' :: user) :: rest =>
    match homeOf? homes user with
    | some ('~' :: _) => none
    | some home => let h := ofText home; some ⟨h.anchor, h.names ++ rest⟩
    | none => none
  | _, _ => some p

end Path

end LineAssist
