import LineAssist.Text.Basic

/-!
# Entries

Values under texts as keys, each key once, in the order in which the keys were first written.
-/

namespace LineAssist

/-- The value of the first entry with a key. -/
def lookup {α : Type} (key : Text) : List (Text × α) → Option α
  | [] => none
  | (k, v) :: rest => if k = key then some v else lookup key rest

/-- Writes an entry: a known key keeps its place and takes the new value, a new key comes last. -/
def putEntry {α : Type} (key : Text) (value : α) : List (Text × α) → List (Text × α)
  | [] => [(key, value)]
  | (k, v) :: rest => if k = key then (k, value) :: rest else (k, v) :: putEntry key value rest

/-- Entries written one after another. -/
def ofEntries {α : Type} (entries : List (Text × α)) : List (Text × α) :=
  entries.foldl (fun acc (k, v) => putEntry k v acc) []

end LineAssist
