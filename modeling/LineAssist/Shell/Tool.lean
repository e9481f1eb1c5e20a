import LineAssist.Files
import LineAssist.Shell.Printing

/-!
# Tools of a shell

The tools that a command line can call: each takes its arguments, the octets of its input and the
files, and gives what it prints, its complaints and its status.
-/

namespace LineAssist.Shell

structure Output where
  out : Octets
  err : Octets
  status : Nat

namespace Tool

def printed (out : Octets) : Output := ⟨out, [], 0⟩

def quiet (status : Nat) : Output := ⟨[], [], status⟩

def complaint (status : Nat) (message : Text) : Output :=
  ⟨[], Text.encodeUtf8 (message ++ ['\n']), status⟩

/-- What every tool may use. -/
structure Setting where
  files : Files
  input : Octets

abbrev Argument := Octets

def text (a : Argument) : Text := Text.decodeUtf8Lossy a

/-- The words of a cause as tools complain. -/
def causeOf : FileFault → Text
  | .system cause _ => cause.words.2.toList
  | .nullCharacter => FileFault.Cause.missing.words.2.toList

/-- The content that an argument names; a dash names the input. -/
def contentOf (s : Setting) (a : Argument) : Except FileFault Octets :=
  if a = octets "-" then .ok s.input
  else if a = octets "/dev/null" then .ok []
  else s.files.read (Path.ofText (text a))

/-- Applies a filter to the files of its arguments one after another, or to the input. -/
def filter (name : String) (s : Setting) (arguments : List Argument) (f : Octets → Octets) : Output :=
  if arguments.isEmpty then printed (f s.input)
  else
    arguments.foldl (fun done a =>
      match contentOf s a with
      | .ok content => { done with out := done.out ++ f content }
      | .error fault =>
        { done with
          err := done.err ++ octets name ++ octets ": " ++ a ++ octets ": " ++
            Text.encodeUtf8 (causeOf fault) ++ octets "\n"
          status := 1 }) (printed [])

/-- The lines with their ends. -/
def linesOf : Octets → List Octets
  | [] => []
  | b :: rest =>
    if b = 10 then [b] :: linesOf rest
    else
      match linesOf rest with
      | [] => [[b]]
      | line :: more => (b :: line) :: more

/-- A count as an option: `-3`, `-n3` or `-n 3`; the rest are files. -/
def countOption (default : Nat) : List Argument → Bool × Nat × List Argument
  | [] => (false, default, [])
  | first :: rest =>
    match text first with
    | '-' :: 'n' :: [] => (false, ((rest.head?.map text).map Text.digitsValue).getD default, rest.tail)
    | '-' :: 'c' :: [] => (true, ((rest.head?.map text).map Text.digitsValue).getD default, rest.tail)
    | '-' :: 'n' :: digits => (false, Text.digitsValue digits, rest)
    | '-' :: 'c' :: digits => (true, Text.digitsValue digits, rest)
    | '-' :: digits =>
      if digits.isEmpty then (false, default, first :: rest)
      else (false, Text.digitsValue digits, rest)
    | _ => (false, default, first :: rest)

def head (s : Setting) (arguments : List Argument) : Output :=
  let (isOctets, n, files) := countOption 10 arguments
  filter "head" s files fun t => if isOctets then t.take n else ((linesOf t).take n).flatten

def tail (s : Setting) (arguments : List Argument) : Output :=
  let (isOctets, n, files) := countOption 10 arguments
  filter "tail" s files fun t =>
    if isOctets then t.drop (t.length - n)
    else
      let lines := linesOf t
      (lines.drop (lines.length - n)).flatten

/-- The words of octets, counted. -/
def countWords (t : Octets) : Nat :=
  (t.foldl (fun (n, inside) b =>
    let blank := b = 0x20 || (9 ≤ b && b ≤ 13)
    if blank then (n, false) else if inside then (n, true) else (n + 1, true)) (0, false)).1

def wc (s : Setting) (arguments : List Argument) : Output :=
  let counts (t : Octets) : Option Nat := match arguments.head?.map text with
    | some ['-', 'l'] => some (t.count 10)
    | some ['-', 'c'] => some t.length
    | some ['-', 'm'] => some (Text.decodeUtf8Lossy t).length
    | some ['-', 'w'] => some (countWords t)
    | _ => none
  let files := if (counts []).isSome then arguments.tail else arguments
  let padded (n : Nat) : Text := List.replicate (7 - (Text.ofNat n).length) ' ' ++ Text.ofNat n
  let shown (t : Octets) : Text := match counts t with
    | some n => Text.ofNat n
    | none => padded (t.count 10) ++ ' ' :: padded (countWords t) ++ ' ' :: padded t.length
  match files with
  | [] => printed (Text.encodeUtf8 (shown s.input ++ ['\n']))
  | a :: _ =>
    filter "wc" s files fun t => Text.encodeUtf8 (shown t ++ [' ']) ++ a ++ [10]

/-- The octets of a set of characters: ranges, classes and escapes. -/
def setOf : Nat → Octets → Octets
  | 0, _ => []
  | _, [] => []
  | fuel + 1, t =>
    let between (a b : Nat) : Octets := (List.range (b + 1 - a)).map fun n => UInt8.ofNat (a + n)
    let classes : List (String × Octets) :=
      [("[:upper:]", between 65 90), ("[:lower:]", between 97 122), ("[:digit:]", between 48 57),
        ("[:space:]", between 9 13 ++ [32]), ("[:alpha:]", between 65 90 ++ between 97 122)]
    match classes.find? fun (name, _) => (octets name).isPrefixOf t with
    | some (name, set) => set ++ setOf fuel (t.drop name.length)
    | none =>
      let (first, rest) := match t with
        | b :: rest => if b = Printing.octet '\\' then Printing.escape rest else (b, rest)
        | [] => (0, [])
      match rest with
      | dash :: last :: after =>
        if dash = Printing.octet '-' then between first.toNat last.toNat ++ setOf fuel after
        else first :: setOf fuel rest
      | _ => first :: setOf fuel rest

/-- Replaces, deletes or squeezes the characters of its input. -/
def tr (s : Setting) (arguments : List Argument) : Output :=
  let set (a : Argument) : Octets := setOf (a.length + 1) a
  match arguments with
  | [first, second] =>
    if first = octets "-d" then printed (s.input.filter fun b => !(set second).contains b)
    else if first = octets "-s" then
      let squeezed := s.input.foldl (fun (out : Octets) b =>
        if (set second).contains b && out.head? == some b then out else b :: out) []
      printed squeezed.reverse
    else
      let froms := set first
      let tos := set second
      printed (s.input.map fun b =>
        match froms.idxOf? b with
        | some i => (tos[i]?).getD (tos.getLast?.getD b)
        | none => b)
  | _ => complaint 1 "tr: missing operand".toList

/-- Order of octets. -/
def before : Octets → Octets → Bool
  | [], b => !b.isEmpty
  | _ :: _, [] => false
  | x :: a, y :: b => if x = y then before a b else x < y

def sort (s : Setting) (arguments : List Argument) : Output :=
  let isReverse := arguments.contains (octets "-r")
  let files := arguments.filter (· != octets "-r")
  filter "sort" s files fun t =>
    let lines := (linesOf t).map fun line => line.filter (· != 10)
    let sorted := lines.mergeSort fun a b => !before b a
    ((if isReverse then sorted.reverse else sorted).map (· ++ [10])).flatten

/-- The names in a directory, sorted. -/
def list (s : Setting) (arguments : List Argument) : Output :=
  let names (place : Place) : List Text :=
    s.files.entries.filterMap fun (p, _) =>
      if p.dropLast = place && !p.isEmpty then p.getLast? else none
  let shown (all : List Text) : Octets :=
    let seen := all.filter fun n => n.head? != some '.'
    ((seen.mergeSort fun a b => !Text.before b a).map fun n => Text.encodeUtf8 (n ++ ['\n'])).flatten
  match arguments with
  | [] => printed (shown (names s.files.current))
  | a :: _ =>
    match s.files.locate (Path.ofText (text a)) with
    | .ok place =>
      match s.files.entry? place with
      | some .directory => printed (shown (names place))
      | some (.file _) => printed (a ++ [10])
      | none => complaint 2 ("ls: cannot access '".toList ++ text a ++ "': ".toList ++
          FileFault.Cause.missing.words.2.toList)
    | .error fault =>
      complaint 2 ("ls: cannot access '".toList ++ text a ++ "': ".toList ++ causeOf fault)

/-- The outcome of a condition on arguments; none when it has no such form. -/
def condition (s : Setting) : List Argument → Option Bool
  | [] => some false
  | [a] => some !a.isEmpty
  | [operator, a] =>
    let entry : Option FileEntry := match s.files.locate (Path.ofText (text a)) with
      | .ok place => s.files.entry? place
      | .error _ => none
    match String.ofList (text operator) with
    | "!" => some a.isEmpty
    | "-n" => some !a.isEmpty
    | "-z" => some a.isEmpty
    | "-e" => some entry.isSome
    | "-d" => some (entry == some .directory)
    | "-f" => some (match entry with | some (.file _) => true | _ => false)
    | "-s" => some (match entry with | some (.file (_ :: _)) => true | _ => false)
    | _ => none
  | [a, operator, b] =>
    let order := compare (Printing.integerOf a) (Printing.integerOf b)
    match String.ofList (text operator) with
    | "=" => some (a == b)
    | "!=" => some (a != b)
    | "-eq" => some (order == .eq)
    | "-ne" => some (order != .eq)
    | "-lt" => some (order == .lt)
    | "-le" => some (order != .gt)
    | "-gt" => some (order == .gt)
    | "-ge" => some (order != .lt)
    | _ => if a = octets "!" then (condition s [operator, b]).map (!·) else none
  | [a, b, c, d] => if a = octets "!" then (condition s [b, c, d]).map (!·) else none
  | _ => none

def test (s : Setting) (arguments : List Argument) : Output :=
  match condition s arguments with
  | some true => quiet 0
  | some false => quiet 1
  | none => quiet 2

/-- A run of integers, one on each line. -/
def sequence (arguments : List Argument) : Output :=
  let numbers := arguments.map Printing.integerOf
  let (first, step, last) := match numbers with
    | [last] => (1, 1, last)
    | [first, last] => (first, 1, last)
    | [first, step, last] => (first, step, last)
    | _ => (1, 1, 0)
  let size := if step = 0 then 0 else ((last - first) / step + 1).toNat
  printed (((List.range size).map fun (n : Nat) =>
    Text.encodeUtf8 (Text.ofInt (first + step * (n : Int)) ++ ['\n'])).flatten)

/-- What a tool does, by its name; none when there is no such tool. -/
def call? (name : Text) (s : Setting) (arguments : List Argument) : Option Output :=
  match String.ofList name with
  | ":" => some (quiet 0)
  | "true" => some (quiet 0)
  | "false" => some (quiet 1)
  | "echo" => some (printed (Printing.echo arguments))
  | "printf" =>
    match arguments with
    | form :: rest =>
      match Printing.format (rest.length + 1) form rest with
      | some out => some (printed out)
      | none => some (complaint 2 "/bin/sh: 1: printf: %: invalid directive".toList)
    | [] => some (complaint 2 "/bin/sh: 1: printf: usage: printf format [arg ...]".toList)
  | "cat" => some (filter "cat" s arguments id)
  | "head" => some (head s arguments)
  | "tail" => some (tail s arguments)
  | "wc" => some (wc s arguments)
  | "tr" => some (tr s arguments)
  | "sort" => some (sort s arguments)
  | "ls" => some (list s arguments)
  | "test" => some (test s arguments)
  | "[" =>
    if arguments.getLast? = some (octets "]") then some (test s arguments.dropLast)
    else some (complaint 2 "/bin/sh: 1: [: missing ]".toList)
  | "seq" => some (sequence arguments)
  | "sleep" => some (quiet 0)
  | "pwd" => some (printed (Text.encodeUtf8 (s.files.currentPath.text ++ ['\n'])))
  | _ => none

end Tool

end LineAssist.Shell
