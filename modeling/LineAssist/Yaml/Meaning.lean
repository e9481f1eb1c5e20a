import LineAssist.Yaml.Merge
import LineAssist.Yaml.Value

/-!
# The value of a document

Nodes get their values level by level from the outermost one, each node once: a scalar at once, a
collection when its level is reached. So the fault that is reported is the one nearest to the
outermost node, and of those the first. A document may hold itself, therefore its value is taken to
a fixed depth.
-/

namespace LineAssist.Yaml

/-- What a node is made into. The parts of collections are given by their places. -/
inductive Made where
  | plain (v : Value)
  | list (items : List Nat)
  | couples (pairs : List (Nat × Nat))
  | set (keys : List Value)
  | map (pairs : List (Value × Nat))

/-- The work on a document: what its nodes were made into, and the collections to fill on the next
level, the last one first. -/
structure Making where
  document : Document
  made : Array (Option Made)
  next : List Nat

namespace Tag

/-- A tag of values that have no parts. -/
def isPlain : Tag → Bool
  | .null => true
  | .bool => true
  | .int => true
  | .float => true
  | .str => true
  | .timestamp => true
  | .binary => true
  | _ => false

/-- A tag of values that are made of other values. -/
def isCollection : Tag → Bool
  | .seq => true
  | .map => true
  | .set => true
  | .omap => true
  | .pairs => true
  | _ => false

end Tag

/-- The value of a fraction that the node at a place spells. -/
def fractionValue (place : Nat) : Option Binary64 → Value
  | none => .float .nan
  | some .nan => .indefinite place
  | some x => .float x

/-- The value of a text with a tag, for the node at a place. -/
def textValue (place : Nat) (tag : Tag) (t : Text) : Except Error Value :=
  match tag with
  | .null => .ok .null
  | .bool => do .ok (.bool (← boolValue t))
  | .int => do .ok (.int (← intValue t))
  | .float => do .ok (fractionValue place (← floatValue? t))
  | .str => .ok (.str t)
  | .timestamp => do .ok (.moment (← timeValue t))
  | .binary => do .ok (.octets (← binaryValue t))
  | _ => .error .malformed

namespace Document

/-- The text of a scalar, or of the scalar that a mapping holds under the value sign. A way that is
longer than the document does not end. -/
def textFrom (d : Document) : Nat → Nat → Except Error Text
  | 0, _ => .error .endless
  | fuel + 1, place =>
    match d.node place with
    | .scalar _ t => .ok t
    | .seq _ _ => .error .malformed
    | .map _ pairs =>
      match pairs.find? fun (k, _) => (d.node k).tag = .value with
      | some (_, v) => textFrom d fuel v
      | none => .error .malformed

def textAt (d : Document) (place : Nat) : Except Error Text :=
  d.textFrom (d.nodes.size + 1) place

/-- The value of a node without parts. Moments are not taken from under a value sign. -/
def plainAt (d : Document) (place : Nat) : Except Error Value :=
  let n := d.node place
  if n.tag.isPlain then do
    let t ← d.textAt place
    if n.tag = .timestamp && n.isMap then .error .timeNotScalar else textValue place n.tag t
  else .error .malformed

end Document

namespace Making

def become (w : Making) (place : Nat) (m : Made) : Making :=
  { w with made := w.made.setIfInBounds place (some m) }

def madeAt (w : Making) (place : Nat) : Option Made :=
  w.made.getD place none

/-- A node that is met for the first time: a collection waits for its level. -/
def start (w : Making) (place : Nat) : Except Error Making :=
  if (w.madeAt place).isSome then .ok w
  else if (w.document.node place).tag.isCollection then
    .ok { w.become place (.list []) with next := place :: w.next }
  else do .ok (w.become place (.plain (← w.document.plainAt place)))

/-- The key and the value of a pair; collections are no keys. -/
def startPair (w : Making) (pair : Nat × Nat) : Except Error Making := do
  let w ← w.start pair.1
  if (w.document.node pair.1).tag.isCollection then .error .malformed else w.start pair.2

/-- An item of an ordered mapping, which is written as a mapping of one pair. -/
def startSingle (w : Making) (item : Nat) : Except Error Making :=
  match w.document.pairsAt item with
  | [(k, v)] => do (← w.start k).start v
  | _ => .error .malformed

/-- The value of a key. -/
def keyAt (w : Making) (place : Nat) : Value :=
  match w.madeAt place with
  | some (.plain v) => v
  | _ => .null

/-- The pairs of a mapping without its merge keys, each key once. -/
def fillPairs (w : Making) (place : Nat) : Except Error (List (Value × Nat) × Making) := do
  let d ← w.document.resolve place
  let pairs := d.pairsAt place
  let w ← pairs.foldlM startPair { w with document := d }
  .ok (Value.ofPairs (pairs.map fun (k, v) => (w.keyAt k, v)), w)

/-- Gives a collection its parts. -/
def fill (w : Making) (place : Nat) : Except Error Making :=
  match w.document.node place with
  | .seq .seq items => do .ok ((← items.foldlM start w).become place (.list items))
  | .seq .omap items | .seq .pairs items => do
    let couples := items.flatMap w.document.pairsAt
    .ok ((← items.foldlM startSingle w).become place (.couples couples))
  | .map .map _ => do
    let (pairs, w) ← w.fillPairs place
    .ok (w.become place (.map pairs))
  | .map .set _ => do
    let (pairs, w) ← w.fillPairs place
    .ok (w.become place (.set (pairs.map Prod.fst)))
  | _ => .error .malformed

/-- Fills the collections level by level. -/
def finish : Nat → Making → Except Error Making
  | 0, w => .ok w
  | fuel + 1, w =>
    match w.next.reverse with
    | [] => .ok w
    | level => do finish fuel (← level.foldlM fill { w with next := [] })

/-- What a node is made into, with parts as they look from below. -/
def look (below : Array Value) : Option Made → Value
  | none => .null
  | some (.plain v) => v
  | some (.list items) => .list (items.map fun i => below.getD i .null)
  | some (.couples pairs) =>
    .list (pairs.map fun (k, v) => .couple (below.getD k .null) (below.getD v .null))
  | some (.set keys) => .set keys
  | some (.map pairs) => .map (pairs.map fun (k, v) => (k, below.getD v .null))

/-- The values of all nodes to a depth; what lies deeper is null. -/
def values (w : Making) : Nat → Array Value
  | 0 => #[]
  | depth + 1 =>
    let below := w.values depth
    w.made.map (look below)

end Making

namespace Document

/-- How deep the value of a document is taken; catalogs do not look deeper. -/
def depth : Nat := 9

/-- The value that a document holds. -/
def value (d : Document) : Except Error Value := do
  let w : Making := ⟨d, Array.replicate d.nodes.size none, []⟩
  let w ← (← w.start d.root).finish (d.nodes.size + 1)
  .ok ((w.values depth).getD d.root .null)

end Document

/-- The value of a text as one document; an empty text is null. -/
def read (t : Text) : Except Error Value := do
  match ← Document.read t with
  | none => .ok .null
  | some d => d.value

end LineAssist.Yaml
