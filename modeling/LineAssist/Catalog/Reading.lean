import LineAssist.Catalog.Basic
import LineAssist.Yaml.Meaning

/-!
# Reading a catalog

A catalog is a mapping with the sections `groups` and `commands`. Missing and empty parts are
filled in, keys become texts, and each entry is then checked field by field: every field that is
not of its type is one fault.
-/

namespace LineAssist

inductive CatalogError where
  | unreadable (path : Text)
  | malformed
  | notMapping
  | sectionNotMapping (name : Text)
  /-- An entry or its parameters have no pairs. -/
  | badEntry
  /-- Fields that are not of their type. -/
  | badFields (count : Nat)
  deriving DecidableEq, Repr

/-- Why a catalog cannot be loaded: an error of the catalog, or a fault that is none. -/
inductive CatalogFault where
  | catalog (e : CatalogError)
  /-- The file is not UTF-8. -/
  | notUtf8
  /-- The path of the file holds a null character. -/
  | nullCharacter
  /-- A scalar has no value, although its text is well formed. -/
  | scalar (e : Yaml.Error)
  deriving DecidableEq, Repr

namespace CatalogError

def message : CatalogError → Text
  | .unreadable path => "cannot read catalog ".toList ++ path
  | .malformed => "invalid catalog YAML".toList
  | .notMapping => "catalog must be a mapping".toList
  | .sectionNotMapping name =>
    "catalog section '".toList ++ name ++ "' must be a mapping".toList
  | .badEntry => "invalid catalog".toList
  | .badFields n =>
    "invalid catalog: ".toList ++ Text.ofNat n ++ " validation error".toList ++
      (if n = 1 then [] else ['s']) ++ " for CatalogDTO".toList

end CatalogError

namespace Catalog

open Yaml (Value)

/-- The two parts of an item that stands for a pair. -/
def pairOf : Value → Option (Value × Value)
  | .list [k, v] => some (k, v)
  | .couple k v => some (k, v)
  | .str [a, b] => some (.str [a], .str [b])
  | .map [(a, _), (b, _)] => some (a, b)
  | .set [a, b] => some (a, b)
  | .octets [a, b] => some (.int a.toNat, .int b.toNat)
  | _ => none

/-- The fields of an entry: those of a mapping, or of a list of pairs. -/
def fieldsOf (v : Value) : Except CatalogError (List (Value × Value)) :=
  if v.isNothing then .ok []
  else
    let items : Option (List Value) := match v with
      | .list items => some items
      | .set items => some items
      | _ => none
    match v, items.bind fun items => items.mapM pairOf with
    | .map pairs, _ => .ok pairs
    | _, some pairs =>
      if pairs.all fun (k, _) => k.isKey then .ok (Value.ofPairs pairs) else .error .badEntry
    | _, none => .error .badEntry

/-- Two checked parts, each with its value or the number of its faults; faults are counted in all. -/
def pairChecked {α β : Type} (a : Except Nat α) (b : Except Nat β) : Except Nat (α × β) :=
  match a, b with
  | .ok x, .ok y => .ok (x, y)
  | .error n, .error m => .error (n + m)
  | .error n, .ok _ => .error n
  | .ok _, .error m => .error m

def allChecked {α : Type} : List (Except Nat α) → Except Nat (List α)
  | [] => .ok []
  | c :: rest => (pairChecked c (allChecked rest)).map fun (x, xs) => x :: xs

/-- A text; octets count if they are UTF-8. -/
def checkText : Value → Except Nat Text
  | .str t => .ok t
  | .octets os =>
    match Text.decodeUtf8? os with
    | some t => .ok t
    | none => .error 1
  | _ => .error 1

/-- A field with a default for the case that it is missing. -/
def checkField {α : Type} (fields : List (Value × Value)) (name : String) (default : α)
    (check : Value → Except Nat α) : Except Nat α :=
  match Value.get? name.toList fields with
  | some v => check v
  | none => .ok default

def checkOptions : Value → Except Nat (List Text)
  | .list items => allChecked (items.map checkText)
  | .set items => allChecked (items.map checkText)
  | _ => .error 1

/-- The words that are accepted as truth values, in any case. -/
def flagWord? (t : Text) : Option Bool :=
  let word := Text.lower t
  if ["1", "true", "t", "yes", "y", "on"].any fun w => w.toList = word then some true
  else if ["0", "false", "f", "no", "n", "off"].any fun w => w.toList = word then some false
  else none

/-- A truth value, one of the numbers zero and one, or a word for one. -/
def checkFlag (v : Value) : Except Nat Bool :=
  let flag : Option Bool := match v with
    | .bool b => some b
    | .str t => flagWord? t
    | .octets os => (Text.decodeUtf8? os).bind flagWord?
    | .list _ => none
    | _ =>
      match v.number? with
      | some x =>
        if x.isZero then some false
        else if x.compare? (.int 1) == some .eq then some true
        else none
      | none => none
  match flag with
  | some b => .ok b
  | none => .error 1

def checkParameter : Value → Except Nat Parameter
  | .map fields =>
    (pairChecked (checkField fields "summary" [] checkText)
      (pairChecked (checkField fields "options" [] checkOptions)
        (checkField fields "required" false checkFlag))).map
      fun (summary, options, required) => ⟨summary, options, required⟩
  | _ => .error 1

/-- The values of entries in their order, each with its key. -/
def checkEntries {α : Type} (entries : List (Text × Except Nat α)) : Except Nat (List (Text × α)) :=
  allChecked (entries.map fun (k, c) => c.map fun v => (k, v))

def checkGroup (fields : List (Value × Value)) : Except Nat CommandGroup :=
  (pairChecked (checkField fields "summary" [] checkText)
    (checkField fields "description" [] checkText)).map fun (s, d) => ⟨s, d⟩

/-- The text of a key. -/
def keyText (key : Value) : Except CatalogError Text :=
  match key.keyText? with
  | some t => .ok t
  | none => .error .badEntry

/-- The parameters of a command: a missing one is an empty mapping. -/
def parametersOf (fields : List (Value × Value)) :
    Except CatalogError (List (Text × Value)) :=
  let raw := (Value.get? "parameters".toList fields).getD .null
  if raw.isNothing then .ok []
  else
    match raw with
    | .map pairs => do
      let entries ← pairs.mapM fun (k, v) => do
        .ok (← keyText k, if v.isNothing then .map [] else v)
      .ok (ofEntries entries)
    | _ => .error .badEntry

def checkCommand (fields : List (Value × Value)) (parameters : List (Text × Value)) :
    Except Nat CatalogCommand :=
  (pairChecked (checkField fields "summary" [] checkText)
    (pairChecked (checkField fields "description" [] checkText)
      (checkEntries (parameters.map fun (k, v) => (k, checkParameter v))))).map
    fun (s, d, ps) => ⟨s, d, ps⟩

/-- The pairs of a section of the catalog. -/
def sectionOf (pairs : List (Value × Value)) (name : String) :
    Except CatalogError (List (Value × Value)) :=
  let raw := (Value.get? name.toList pairs).getD .null
  if raw.isNothing then .ok []
  else
    match raw with
    | .map pairs => .ok pairs
    | _ => .error (.sectionNotMapping name.toList)

/-- The key of a group or a command: its words with single spaces between them. -/
def entryKey (key : Value) : Except CatalogError Text := do
  .ok (Text.unwords (Text.words (← keyText key)))

/-- The entries of a section under their keys, each read from its fields. -/
def entriesOf {α : Type} (section_ : List (Value × Value))
    (entry : List (Value × Value) → Except CatalogError α) :
    Except CatalogError (List (Text × α)) := do
  let entries ← section_.mapM fun (k, v) => do
    let fields ← fieldsOf v
    let e ← entry fields
    .ok (← entryKey k, e)
  .ok (ofEntries entries)

/-- The catalog that a document describes. -/
def ofValue (v : Value) : Except CatalogError Catalog := do
  let v := if v.isNothing then .map [] else v
  match v with
  | .map pairs =>
    let groups ← entriesOf (← sectionOf pairs "groups") fun fields => .ok (checkGroup fields)
    let commands ← entriesOf (← sectionOf pairs "commands") fun fields => do
      .ok (checkCommand fields (← parametersOf fields))
    match pairChecked (checkEntries groups) (checkEntries commands) with
    | .ok (groups, commands) => .ok ⟨groups, commands⟩
    | .error n => .error (.badFields n)
  | _ => .error .notMapping

/-- The catalog that a text describes. -/
def parse (t : Text) : Except CatalogFault Catalog :=
  match Yaml.read t with
  | .error .malformed => .error (.catalog .malformed)
  | .error e => .error (.scalar e)
  | .ok v =>
    match ofValue v with
    | .ok c => .ok c
    | .error e => .error (.catalog e)

end Catalog

end LineAssist
