import LineAssist.Line.Node

/-!
# Nodes, one token at a time

Each token makes at most one node, and what is expected behind it is known from the token and from
what was expected in front of it.
-/

namespace LineAssist.Line

namespace Expecting

/-- The node that a token makes. -/
def node? (e : Expecting) (t : Token) : Option Node :=
  if t.isDash then some ⟨.parameterName, t⟩
  else
    match e with
    | .subcommand => some ⟨.subcommand, t⟩
    | .value => some ⟨.parameterValue, t⟩
    | .parameter => none

/-- What is expected behind a token. -/
def after (e : Expecting) (t : Token) : Expecting :=
  if t.isDash then .value
  else
    match e with
    | .subcommand => .subcommand
    | .value | .parameter => .parameter

theorem token_of_node? {e : Expecting} {t : Token} {n : Node} (h : e.node? t = some n) :
    n.token = t := by
  unfold node? at h
  split at h
  · cases h
    rfl
  · cases e <;> cases h <;> rfl

theorem node?_eq_parameterName {e : Expecting} {s t : Token} :
    e.node? s = some ⟨.parameterName, t⟩ ↔ s = t ∧ t.isDash = true := by
  unfold node?
  constructor
  · intro h
    split at h
    case isTrue hdash =>
      cases h
      exact ⟨rfl, hdash⟩
    case isFalse => cases e <;> cases h
  · rintro ⟨rfl, hdash⟩
    rw [if_pos hdash]

/-- Behind a parameter name every token has a role. -/
theorem node?_after_ne_none {e : Expecting} {s : Token} (hs : s.isDash = true) (t : Token) :
    (e.after s).node? t ≠ none := by
  have hvalue : e.after s = .value := if_pos hs
  rw [hvalue, node?]
  split <;> exact Option.some_ne_none _

end Expecting

theorem nodesFrom_cons (e : Expecting) (t : Token) (rest : List Token) :
    nodesFrom e (t :: rest) = (e.node? t).toList ++ nodesFrom (e.after t) rest := by
  unfold Expecting.node? Expecting.after
  cases e <;> cases h : t.isDash <;> rw [nodesFrom, h] <;> rfl

theorem subcommandsFrom_cons (e : Expecting) (t : Token) (rest : List Token) :
    subcommandsFrom e (t :: rest) =
      ((e.node? t).filter fun n => n.role == .subcommand).toList ++
        subcommandsFrom (e.after t) rest := by
  unfold Expecting.node? Expecting.after
  cases e <;> cases h : t.isDash <;> rw [subcommandsFrom, h] <;> rfl

/-- The subcommands that are collected beside the nodes are those among the nodes. -/
theorem subcommandsFrom_eq (e : Expecting) (ts : List Token) :
    subcommandsFrom e ts = (nodesFrom e ts).filter fun n => n.role == .subcommand := by
  induction ts generalizing e with
  | nil => cases e <;> rfl
  | cons t rest ih =>
    rw [subcommandsFrom_cons, nodesFrom_cons, List.filter_append, ih, Option.toList_filter]

theorem token_mem_of_mem_nodesFrom {e : Expecting} {ts : List Token} {n : Node}
    (h : n ∈ nodesFrom e ts) : n.token ∈ ts := by
  induction ts generalizing e with
  | nil => cases e <;> cases h
  | cons t rest ih =>
    rw [nodesFrom_cons] at h
    rcases List.mem_append.mp h with h | h
    · rw [Expecting.token_of_node? (Option.mem_toList.mp h)]
      exact List.mem_cons_self
    · exact List.mem_cons_of_mem t (ih h)

/-- Every dash-led token makes a parameter name. -/
theorem parameterName_mem_nodesFrom {e : Expecting} {ts : List Token} {t : Token} :
    ⟨.parameterName, t⟩ ∈ nodesFrom e ts ↔ t ∈ ts ∧ t.isDash = true := by
  induction ts generalizing e with
  | nil => cases e <;> exact ⟨nofun, fun h => nomatch h.1⟩
  | cons s rest ih =>
    rw [nodesFrom_cons, List.mem_append, Option.mem_toList,
      Expecting.node?_eq_parameterName, ih, List.mem_cons, eq_comm, or_and_right]

/-- The last node is a parameter name exactly when the last token is one: a token behind a
parameter name always makes a node. -/
theorem getLast?_nodesFrom {e : Expecting} {ts : List Token} {t : Token} :
    (nodesFrom e ts).getLast? = some ⟨.parameterName, t⟩ ↔
      ts.getLast? = some t ∧ t.isDash = true := by
  induction ts generalizing e with
  | nil => cases e <;> exact ⟨nofun, fun h => nomatch h.1⟩
  | cons s rest ih =>
    have hnode : (e.node? s).toList.getLast? = e.node? s := by cases e.node? s <;> rfl
    rw [nodesFrom_cons, List.getLast?_append, hnode]
    cases rest with
    | nil =>
      have hnil : nodesFrom (e.after s) [] = [] := by cases e.after s <;> rfl
      rw [hnil, List.getLast?_singleton, Option.some_inj]
      exact Expecting.node?_eq_parameterName
    | cons r rest =>
      rw [List.getLast?_cons_cons, ← ih (e := e.after s)]
      cases hlast : (nodesFrom (e.after s) (r :: rest)).getLast? with
      | some n => rw [Option.some_or]
      | none =>
        rw [Option.none_or]
        refine ⟨fun h => ?_, nofun⟩
        obtain ⟨rfl, hs⟩ := Expecting.node?_eq_parameterName.mp h
        rw [List.getLast?_eq_none_iff, nodesFrom_cons, List.append_eq_nil_iff,
          Option.toList_eq_nil_iff] at hlast
        exact absurd hlast.1 (Expecting.node?_after_ne_none hs r)

end LineAssist.Line
