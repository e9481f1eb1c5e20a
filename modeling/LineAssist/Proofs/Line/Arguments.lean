import LineAssist.Line.Arguments
import LineAssist.Proofs.Entries
import LineAssist.Proofs.Line.Roles
import Mathlib.Data.List.DropRight

/-!
# Arguments and nodes

The arguments of a line are read off its tokens in a pass of their own. They say the same as the
nodes: each parameter name once, in the order of first occurrence, with the value node directly
behind its last occurrence.
-/

namespace LineAssist.Line

/-- The node is the parameter name. -/
def Node.isNamed (name : Text) (n : Node) : Bool :=
  n.role == .parameterName && n.text == name

/-- The nodes behind the last one of a parameter name. -/
def nodesBehind (name : Text) (nodes : List Node) : List Node :=
  nodes.rtakeWhile fun n => !n.isNamed name

/-- The text of the value node directly behind the last node of a parameter name. -/
def lastValue (name : Text) (nodes : List Node) : Option Text :=
  ((nodesBehind name nodes).head?.filter fun n => n.role == .parameterValue).map Node.text

/-- The parameter names among the nodes with the value of their last occurrence. -/
def writtenArguments (nodes : List Node) : Arguments :=
  let names := (nodes.filter fun n => n.role == .parameterName).map Node.text
  names.eraseDups.map fun name => (name, lastValue name nodes)

section LastValue

variable {name : Text} {nodes : List Node} {n m : Node}

theorem nodesBehind_concat (name : Text) (nodes : List Node) (n : Node) :
    nodesBehind name (nodes ++ [n]) =
      if n.isNamed name then [] else nodesBehind name nodes ++ [n] := by
  rw [nodesBehind, List.rtakeWhile_concat]
  cases n.isNamed name <;> rfl

theorem lastValue_concat_of_named (h : n.isNamed name = true) :
    lastValue name (nodes ++ [n]) = none := by
  rw [lastValue, nodesBehind_concat, if_pos h]
  rfl

/-- Only a value can be the value of the parameter name in front of it. -/
theorem lastValue_concat_of_not_value (h : n.isNamed name = false)
    (hrole : n.role ≠ .parameterValue) :
    lastValue name (nodes ++ [n]) = lastValue name nodes := by
  rw [lastValue, lastValue, nodesBehind_concat, if_neg (Bool.eq_false_iff.mp h)]
  cases nodesBehind name nodes with
  | nil => simp [hrole]
  | cons first rest => rfl

theorem lastValue_concat_name (hrole : n.role = .parameterName) :
    (fun name => lastValue name (nodes ++ [n])) =
      Function.update (fun name => lastValue name nodes) n.text none := by
  funext name
  by_cases hname : name = n.text
  · rw [hname, Function.update_self]
    exact lastValue_concat_of_named (by simp [Node.isNamed, hrole])
  · rw [Function.update_of_ne hname]
    refine lastValue_concat_of_not_value ?_ (by simp [hrole])
    simp [Node.isNamed, Ne.symm hname]

theorem lastValue_concat_value (hlast : nodes.getLast? = some m) (hm : m.role = .parameterName)
    (hrole : n.role = .parameterValue) :
    (fun name => lastValue name (nodes ++ [n])) =
      Function.update (fun name => lastValue name nodes) m.text (some n.text) := by
  obtain ⟨front, rfl⟩ := List.getLast?_eq_some_iff.mp hlast
  funext name
  have hvalue : n.isNamed name = false := by simp [Node.isNamed, hrole]
  rw [lastValue, nodesBehind_concat, if_neg (Bool.eq_false_iff.mp hvalue)]
  by_cases hname : name = m.text
  · have hnamed : m.isNamed name = true := by simp [Node.isNamed, hm, hname]
    rw [nodesBehind_concat, if_pos hnamed, hname, Function.update_self]
    simp [hrole]
  · have hother : m.isNamed name = false := by simp [Node.isNamed, Ne.symm hname]
    rw [Function.update_of_ne hname, lastValue, nodesBehind_concat,
      if_neg (Bool.eq_false_iff.mp hother)]
    cases nodesBehind name front <;> rfl

end LastValue

section Written

variable {nodes : List Node} {n m : Node}

theorem writtenArguments_concat_name (hrole : n.role = .parameterName) :
    writtenArguments (nodes ++ [n]) = putEntry n.text none (writtenArguments nodes) := by
  rw [writtenArguments, writtenArguments, putEntry_map (nodup_eraseDups _),
    ← lastValue_concat_name hrole, ← eraseDups_concat]
  simp [hrole]

theorem writtenArguments_concat_value (hlast : nodes.getLast? = some m)
    (hm : m.role = .parameterName) (hrole : n.role = .parameterValue) :
    writtenArguments (nodes ++ [n]) = putEntry m.text (some n.text) (writtenArguments nodes) := by
  have hmem : m.text ∈ ((nodes.filter fun n => n.role == .parameterName).map Node.text) :=
    List.mem_map_of_mem (List.mem_filter.mpr ⟨List.mem_of_getLast? hlast, by simp [hm]⟩)
  rw [writtenArguments, writtenArguments, putEntry_map (nodup_eraseDups _),
    ← lastValue_concat_value hlast hm hrole, if_pos (List.mem_eraseDups.mpr hmem)]
  simp [hrole]

theorem writtenArguments_concat_subcommand (hrole : n.role = .subcommand) :
    writtenArguments (nodes ++ [n]) = writtenArguments nodes := by
  have hlast (name : Text) : lastValue name (nodes ++ [n]) = lastValue name nodes :=
    lastValue_concat_of_not_value (by simp [Node.isNamed, hrole]) (by simp [hrole])
  simp [writtenArguments, hlast, hrole]

end Written

/-! ## The pass over the tokens -/

section Pass

variable {args : Arguments} {t : Token} {rest : List Token}

theorem argumentsFrom_dash (name : Option Text) (ht : t.isDash = true) :
    argumentsFrom args name (t :: rest) =
      argumentsFrom (putEntry t.text none args) (some t.text) rest := by
  cases name <;> rw [argumentsFrom, if_pos ht]

theorem argumentsFrom_value (name : Text) (ht : t.isDash = false) :
    argumentsFrom args (some name) (t :: rest) =
      argumentsFrom (putEntry name (some t.text) args) none rest := by
  rw [argumentsFrom, if_neg (Bool.eq_false_iff.mp ht)]

theorem argumentsFrom_apart (ht : t.isDash = false) :
    argumentsFrom args none (t :: rest) = argumentsFrom args none rest := by
  rw [argumentsFrom, if_neg (Bool.eq_false_iff.mp ht)]

end Pass

/-- The parameter name that the tokens end with. -/
def nameInFront (front : List Token) : Option Text :=
  (front.getLast?.filter Token.isDash).map Token.text

/-- The pass has found what the nodes so far say, and remembers the parameter name directly in
front. -/
theorem argumentsFrom_eq (front ts : List Token) :
    argumentsFrom (writtenArguments (nodesFrom .subcommand front)) (nameInFront front) ts =
      writtenArguments (nodesFrom .subcommand (front ++ ts)) := by
  induction ts generalizing front with
  | nil => rw [argumentsFrom, List.append_nil]
  | cons t rest ih =>
    have hnext := ih (front ++ [t])
    rw [List.append_assoc, List.singleton_append, nameInFront, List.getLast?_concat,
      nodesFrom_concat] at hnext
    rw [← hnext]
    generalize hnodes : nodesFrom .subcommand front = nodes
    cases ht : t.isDash with
    | true =>
      have hname : writtenArguments (nodes ++ [⟨.parameterName, t⟩]) =
          putEntry t.text none (writtenArguments nodes) := writtenArguments_concat_name rfl
      rw [argumentsFrom_dash _ ht, roleBehind_name ht, Option.filter_some_pos ht, ← hname]
      rfl
    | false =>
      rw [Option.filter_some_neg ht]
      cases hfront : front.getLast?.filter Token.isDash with
      | some s =>
        obtain ⟨hlast, hs⟩ := Option.filter_eq_some_iff.mp hfront
        have hnode : nodes.getLast? = some ⟨.parameterName, s⟩ := by
          rw [← hnodes]
          exact getLast?_nodesFrom.mpr ⟨hlast, hs⟩
        have hvalue : writtenArguments (nodes ++ [⟨.parameterValue, t⟩]) =
            putEntry s.text (some t.text) (writtenArguments nodes) :=
          writtenArguments_concat_value hnode rfl rfl
        rw [nameInFront, hfront, Option.map_some, argumentsFrom_value _ ht,
          roleBehind_value hlast hs ht, ← hvalue]
        rfl
      | none =>
        have hlast : front.getLast?.any Token.isDash = false := by
          rw [← Option.isSome_filter, hfront]
          rfl
        rw [nameInFront, hfront, Option.map_none, argumentsFrom_apart ht]
        rcases roleBehind_apart hlast ht with hrole | hrole
        · have hsubcommand : writtenArguments (nodes ++ [⟨.subcommand, t⟩]) =
              writtenArguments nodes := writtenArguments_concat_subcommand rfl
          rw [hrole, ← hsubcommand]
          rfl
        · rw [hrole, Option.map_none, Option.toList_none, List.append_nil]

/-- The arguments of a line are under the texts of its dash-led tokens. -/
theorem mem_keys_arguments {line name : Text} :
    name ∈ (arguments line).map Prod.fst ↔
      ∃ t ∈ tokens line, t.isDash = true ∧ t.text = name := by
  have hwritten : arguments line = writtenArguments (nodesFrom .subcommand (tokens line)) :=
    argumentsFrom_eq [] (tokens line)
  rw [hwritten, writtenArguments, List.map_map, Function.comp_def, List.map_id', List.mem_eraseDups,
    List.mem_map]
  constructor
  · rintro ⟨⟨role, t⟩, hmem, rfl⟩
    obtain ⟨hmem, hrole⟩ := List.mem_filter.mp hmem
    obtain rfl : role = .parameterName := by simpa using hrole
    obtain ⟨ht, hdash⟩ := parameterName_mem_nodesFrom.mp hmem
    exact ⟨t, ht, hdash, rfl⟩
  · rintro ⟨t, ht, hdash, rfl⟩
    exact ⟨⟨.parameterName, t⟩,
      List.mem_filter.mpr ⟨parameterName_mem_nodesFrom.mpr ⟨ht, hdash⟩, rfl⟩, rfl⟩

/-- The arguments of a line are its parameter names in the order of first occurrence, each with the
value node directly behind its last occurrence, if there is one. -/
theorem arguments_eq_nodes (line : Text) :
    arguments line = ((parse line).parameters.map Node.text).eraseDups.map
      fun name => (name, lastValue name (parse line).nodes) :=
  argumentsFrom_eq [] (tokens line)

end LineAssist.Line
