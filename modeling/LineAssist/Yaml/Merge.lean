import LineAssist.Yaml.Node

/-!
# Merge keys

A mapping takes in the pairs of the mappings under its merge keys. They stand in front of its own
pairs, so that its own ones have the last word. Mappings that take each other in are resolved from
the inside: each of them gives what it has by then.
-/

namespace LineAssist.Yaml.Document

/-- The node at a place. -/
def node (d : Document) (place : Nat) : Node :=
  d.nodes.getD place .missing

/-- Puts another node at a place. -/
def put (d : Document) (place : Nat) (n : Node) : Document :=
  { d with nodes := d.nodes.setIfInBounds place n }

/-- The pairs of a mapping; other nodes have none. -/
def pairsAt (d : Document) (place : Nat) : List (Nat × Nat) :=
  match d.node place with
  | .map _ pairs => pairs
  | _ => []

/-- The number of pairs in all mappings, which no search along merge keys exceeds. -/
def pairCount (d : Document) : Nat :=
  d.nodes.foldl
    (fun n node =>
      match node with
      | .map _ pairs => n + pairs.length
      | _ => n)
    0

/-- What stands under the first merge key of a mapping, and its pairs without that key. -/
def firstMerge? (d : Document) : List (Nat × Nat) → Option (Nat × List (Nat × Nat))
  | [] => none
  | (k, v) :: rest =>
    if (d.node k).tag = .merge then some (v, rest)
    else (firstMerge? d rest).map fun (source, others) => (source, (k, v) :: others)

/-- The mappings that are taken in: one mapping, or those of a sequence. -/
def mergeSources (d : Document) (place : Nat) : Except Error (List Nat) :=
  match d.node place with
  | .map _ _ => .ok [place]
  | .seq _ items => if items.all fun i => (d.node i).isMap then .ok items else .error .malformed
  | .scalar _ _ => .error .malformed

/-- A value sign among the keys is a text, there and under its other parents. -/
def readSigns (d : Document) (pairs : List (Nat × Nat)) : Document :=
  pairs.foldl
    (fun d (k, _) =>
      match d.node k with
      | .scalar .value t => d.put k (.scalar .str t)
      | .seq .value items => d.put k (.seq .str items)
      | .map .value pairs => d.put k (.map .str pairs)
      | _ => d)
    d

/-- Resolves the merge keys of a mapping one after the other, with the pairs taken in so far. Of the
mappings under one key the first one has the last word. -/
def resolveFrom : Nat → List (Nat × Nat) → Nat → Document → Except Error Document
  | 0, _, _, d => .ok d
  | fuel + 1, taken, place, d =>
    match d.node place with
    | .map tag pairs =>
      match d.firstMerge? pairs with
      | none => .ok ((d.put place (.map tag (taken ++ pairs))).readSigns pairs)
      | some (source, others) => do
        let d := d.put place (.map tag others)
        let sources ← d.mergeSources source
        let d ← sources.foldlM (fun d s => resolveFrom fuel [] s d) d
        resolveFrom fuel (taken ++ sources.reverse.flatMap d.pairsAt) place d
    | _ => .ok d

/-- Resolves the merge keys of a mapping. -/
def resolve (d : Document) (place : Nat) : Except Error Document :=
  resolveFrom (d.pairCount + 1) [] place d

end LineAssist.Yaml.Document
