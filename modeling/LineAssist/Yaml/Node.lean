import LineAssist.Yaml.Scalar
import LineAssist.Yaml.TokenStream

/-!
# The nodes of a document

A document is a table of scalars, sequences and mappings with resolved tags. The parts of a node are
given by their places in the table, and an alias is the place of the node that it stands for, so
that a node may have several parents and may hold itself. A name is given once and before its
aliases. The stack's limit on how deep nodes can nest is left out.
-/

namespace LineAssist.Yaml

inductive Node where
  | scalar (tag : Tag) (text : Text)
  | seq (tag : Tag) (items : List Nat)
  | map (tag : Tag) (pairs : List (Nat × Nat))
  deriving Repr

/-- The place of the outermost node, and all nodes by their places. -/
structure Document where
  root : Nat
  nodes : Array Node
  deriving Repr

namespace Node

def tag : Node → Tag
  | .scalar tag _ => tag
  | .seq tag _ => tag
  | .map tag _ => tag

def isMap : Node → Bool
  | .map _ _ => true
  | _ => false

/-- A missing node. -/
def missing : Node :=
  .scalar .null []

/-- The reader's position: the tokens left, the places of the names given so far, and the nodes. -/
structure State where
  tokens : List Token
  names : List (Text × Nat)
  nodes : Array Node

/-- What does not change while a document is read: the tag handles, and the fault behind the last
token. -/
structure Setting where
  handles : List (Text × Text)
  fault : Option Error

/-- The error where a token is not the expected one. -/
def Setting.fail {α : Type} (env : Setting) (s : State) : Except Error α :=
  .error (if s.tokens.isEmpty then env.fault.getD .malformed else .malformed)

/-- Without the first token. -/
def State.drop (s : State) : State :=
  { s with tokens := s.tokens.tail }

/-- Takes a place for a node. -/
def State.add (n : Node) (s : State) : Nat × State :=
  (s.nodes.size, { s with nodes := s.nodes.push n })

/-- The tag of a node as written. -/
def expandTag (env : Setting) (t : TagText) : Except Error Text :=
  match t.handle with
  | none => .ok t.suffix
  | some handle =>
    match lookup handle env.handles with
    | some start => .ok (start ++ t.suffix)
    | none => .error .malformed

/-- The anchor and the tag in front of a node, in either order. -/
def properties (env : Setting) (s : State) :
    Except Error (Option Text × Option Text × State) :=
  match s.tokens with
  | .anchor a :: .tag t :: _ => do .ok (some a, some (← expandTag env t), s.drop.drop)
  | .tag t :: .anchor a :: _ => do .ok (some a, some (← expandTag env t), s.drop.drop)
  | .anchor a :: _ => .ok (some a, none, s.drop)
  | .tag t :: _ => do .ok (none, some (← expandTag env t), s.drop)
  | _ => .ok (none, none, s)

/-- The tag that leaves the type to be resolved. -/
def isOpenTag (tag : Option Text) : Bool :=
  tag.all fun t => t == ['!']

def scalarTag (tag : Option Text) (text : Text) (plain : Bool) : Tag :=
  match tag with
  | none => if plain then Tag.resolve text else .str
  | some t => if t = ['!'] then Tag.resolve text else Tag.ofText t

def collectionTag (default : Tag) (tag : Option Text) : Tag :=
  if isOpenTag tag then default else (tag.map Tag.ofText).getD default

/-- Takes a place for a node that begins, and gives it its name. -/
def State.begin (anchor : Option Text) (s : State) : Except Error (Nat × State) :=
  let (place, s) := s.add missing
  match anchor with
  | none => .ok (place, s)
  | some a =>
    if (lookup a s.names).isSome then .error .malformed
    else .ok (place, { s with names := (a, place) :: s.names })

/-- Puts a node at its place when it ends. -/
def State.finish (place : Nat) (n : Node) (s : State) : State :=
  { s with nodes := s.nodes.setIfInBounds place n }

/-- The next token starts no node inside a block collection. -/
def isMissing (stops : List Token) (s : State) : Bool :=
  s.tokens.head?.any fun t => stops.contains t

mutual

/-- A node; block collections and sequences without indentation only where they are allowed. -/
def read (env : Setting) (block indentless : Bool) : Nat → State → Except Error (Nat × State)
  | 0, s => env.fail s
  | fuel + 1, s =>
    match s.tokens with
    | .alias_ name :: _ =>
      match lookup name s.names with
      | some place => .ok (place, s.drop)
      | none => .error .malformed
    | _ => do
      let (anchor, tag, s) ← properties env s
      let (place, s) ← s.begin anchor
      let (n, s) ←
        match s.tokens with
        | .blockEntry :: _ =>
          if indentless then do
            let (items, s) ← readEntries env true fuel s
            .ok (Node.seq (collectionTag .seq tag) items, s)
          else if anchor.isSome || tag.isSome then .ok (Node.scalar (scalarTag tag [] true) [], s)
          else env.fail s
        | .scalar text plain :: _ => .ok (Node.scalar (scalarTag tag text plain) text, s.drop)
        | .flowSequenceStart :: _ => do
          let (items, s) ← readFlowItems env true fuel s.drop
          .ok (Node.seq (collectionTag .seq tag) items, s)
        | .flowMappingStart :: _ => do
          let (pairs, s) ← readFlowPairs env true fuel s.drop
          .ok (Node.map (collectionTag .map tag) pairs, s)
        | .blockSequenceStart :: _ =>
          if block then do
            let (items, s) ← readEntries env false fuel s.drop
            .ok (Node.seq (collectionTag .seq tag) items, s)
          else if anchor.isSome || tag.isSome then .ok (Node.scalar (scalarTag tag [] true) [], s)
          else env.fail s
        | .blockMappingStart :: _ =>
          if block then do
            let (pairs, s) ← readPairs env fuel s.drop
            .ok (Node.map (collectionTag .map tag) pairs, s)
          else if anchor.isSome || tag.isSome then .ok (Node.scalar (scalarTag tag [] true) [], s)
          else env.fail s
        | _ =>
          if anchor.isSome || tag.isSome then .ok (Node.scalar (scalarTag tag [] true) [], s)
          else env.fail s
      .ok (place, s.finish place n)

/-- A node, or a missing one in front of a token that starts none. -/
def readOr (env : Setting) (block indentless : Bool) (stops : List Token) :
    Nat → State → Except Error (Nat × State)
  | 0, s => env.fail s
  | fuel + 1, s => if isMissing stops s then .ok (s.add missing) else read env block indentless fuel s

/-- The entries of a block sequence; one without indentation ends at any other token. -/
def readEntries (env : Setting) (indentless : Bool) :
    Nat → State → Except Error (List Nat × State)
  | 0, s => env.fail s
  | fuel + 1, s =>
    match s.tokens with
    | .blockEntry :: _ => do
      let stops : List Token :=
        if indentless then [.blockEntry, .key, .value, .blockEnd] else [.blockEntry, .blockEnd]
      let (n, s) ← readOr env true false stops fuel s.drop
      let (more, s) ← readEntries env indentless fuel s
      .ok (n :: more, s)
    | .blockEnd :: _ => .ok ([], if indentless then s else s.drop)
    | _ => if indentless then .ok ([], s) else env.fail s

/-- The pairs of a block mapping. -/
def readPairs (env : Setting) : Nat → State → Except Error (List (Nat × Nat) × State)
  | 0, s => env.fail s
  | fuel + 1, s => do
    let stops : List Token := [.key, .value, .blockEnd]
    match s.tokens with
    | .blockEnd :: _ => .ok ([], s.drop)
    | .key :: _ =>
      let (k, s) ← readOr env true true stops fuel s.drop
      let (v, s) ← match s.tokens with
        | .value :: _ => readOr env true true stops fuel s.drop
        | _ => .ok (s.add missing)
      let (more, s) ← readPairs env fuel s
      .ok ((k, v) :: more, s)
    | _ => env.fail s

/-- The items of a sequence in flow style; a key among them makes a mapping of one pair. -/
def readFlowItems (env : Setting) (first : Bool) :
    Nat → State → Except Error (List Nat × State)
  | 0, s => env.fail s
  | fuel + 1, s => do
    if s.tokens.head? == some .flowSequenceEnd then .ok ([], s.drop)
    else
      let s ←
        if first then .ok s
        else if s.tokens.head? == some .flowEntry then .ok s.drop
        else env.fail s
      match s.tokens with
      | .flowSequenceEnd :: _ => .ok ([], s.drop)
      | .key :: _ =>
        let (k, s) ← readOr env false false [.value, .flowEntry, .flowSequenceEnd] fuel s.drop
        let (v, s) ← match s.tokens with
          | .value :: _ => readOr env false false [.flowEntry, .flowSequenceEnd] fuel s.drop
          | _ => .ok (s.add missing)
        let (more, s) ← readFlowItems env false fuel s
        let (pair, s) := s.add (.map .map [(k, v)])
        .ok (pair :: more, s)
      | _ =>
        let (n, s) ← read env false false fuel s
        let (more, s) ← readFlowItems env false fuel s
        .ok (n :: more, s)

/-- The pairs of a mapping in flow style; a node without a key indicator is a key alone. -/
def readFlowPairs (env : Setting) (first : Bool) :
    Nat → State → Except Error (List (Nat × Nat) × State)
  | 0, s => env.fail s
  | fuel + 1, s => do
    if s.tokens.head? == some .flowMappingEnd then .ok ([], s.drop)
    else
      let s ←
        if first then .ok s
        else if s.tokens.head? == some .flowEntry then .ok s.drop
        else env.fail s
      match s.tokens with
      | .flowMappingEnd :: _ => .ok ([], s.drop)
      | .key :: _ =>
        let (k, s) ← readOr env false false [.value, .flowEntry, .flowMappingEnd] fuel s.drop
        let (v, s) ← match s.tokens with
          | .value :: _ => readOr env false false [.flowEntry, .flowMappingEnd] fuel s.drop
          | _ => .ok (s.add missing)
        let (more, s) ← readFlowPairs env false fuel s
        .ok ((k, v) :: more, s)
      | _ =>
        let (k, s) ← read env false false fuel s
        let (v, s) := s.add missing
        let (more, s) ← readFlowPairs env false fuel s
        .ok ((k, v) :: more, s)

end

/-- The handles that are known without a directive. -/
def knownHandles : List (Text × Text) :=
  [(['!'], ['!']), (['!', '!'], Tag.base)]

/-- The handles that the directives of a document declare, and the tokens behind them. A version is
declared once, as the first major one, and a handle is declared once. -/
def readDirectives (versioned : Bool) (handles : List (Text × Text)) :
    List Token → Except Error (List (Text × Text) × List Token)
  | .directive (.version major) :: rest =>
    if versioned || major != 1 then .error .malformed else readDirectives true handles rest
  | .directive (.tag handle start) :: rest =>
    if (lookup handle handles).isSome then .error .malformed
    else readDirectives versioned ((handle, start) :: handles) rest
  | .directive .other :: rest => readDirectives versioned handles rest
  | ts => .ok (handles, ts)

/-- The next token ends an explicit document at once. -/
def isBare (ts : List Token) : Bool :=
  match ts with
  | [] => true
  | .directive _ :: _ => true
  | .documentStart :: _ => true
  | .documentEnd :: _ => true
  | _ => false

/-- The content of a document, which must be the last one. -/
def readDocument (handles : List (Text × Text)) (fault : Option Error) (explicit : Bool)
    (ts : List Token) : Except Error Document := do
  let env : Setting := ⟨handles ++ knownHandles, fault⟩
  let s : State := ⟨ts, [], #[]⟩
  let (root, s) ←
    if explicit && isBare ts then
      (if ts.isEmpty && fault.isSome then env.fail s else .ok (s.add missing))
    else read env true false (4 * ts.length + 8) s
  let s := { s with tokens := s.tokens.dropWhile fun t => t == .documentEnd }
  if s.tokens.isEmpty && fault.isNone then .ok ⟨root, s.nodes⟩ else env.fail s

end Node

/-- The document of a text; an empty text has none. -/
def Document.read (t : Text) : Except Error (Option Document) := do
  let (ts, fault) := tokens t
  match ts, fault with
  | [], none => .ok none
  | [], some e => .error e
  | .directive _ :: _, _ | .documentStart :: _, _ =>
    let (handles, rest) ← Node.readDirectives false [] ts
    match rest with
    | .documentStart :: rest => .ok (some (← Node.readDocument handles fault true rest))
    | [] => .error (fault.getD .malformed)
    | _ => .error .malformed
  | _, _ => .ok (some (← Node.readDocument [] fault false ts))

end LineAssist.Yaml
