import LineAssist.Proofs.Line.Nodes
import Mathlib.Data.List.Infix

/-!
# Roles of tokens

The pass over the tokens of a line remembers what it expects next. That is told by the tokens in
front: whether there is a parameter name among them, and whether it is the last of them. So the
role of a token does not depend on the pass, and no node is lost or made up.
-/

namespace LineAssist.Line

/-- The role that a token has behind the tokens in front of it. -/
def roleBehind (front : List Token) (t : Token) : Option Role :=
  if t.isDash then some .parameterName
  else if !front.any Token.isDash then some .subcommand
  else if front.getLast?.any Token.isDash then some .parameterValue
  else none

section RoleBehind

variable {front : List Token} {s t : Token}

theorem roleBehind_name (ht : t.isDash = true) : roleBehind front t = some .parameterName :=
  if_pos ht

theorem roleBehind_value (hlast : front.getLast? = some s) (hs : s.isDash = true)
    (ht : t.isDash = false) : roleBehind front t = some .parameterValue := by
  have hany : front.any Token.isDash = true :=
    List.any_eq_true.mpr ⟨s, List.mem_of_getLast? hlast, hs⟩
  simp [roleBehind, ht, hany, hlast, hs]

theorem roleBehind_apart (hlast : front.getLast?.any Token.isDash = false)
    (ht : t.isDash = false) :
    roleBehind front t = some .subcommand ∨ roleBehind front t = none := by
  rw [roleBehind, ht, hlast]
  cases front.any Token.isDash with
  | true => exact .inr rfl
  | false => exact .inl rfl

end RoleBehind

namespace Expecting

/-- What the pass expects behind the tokens in front. -/
def behind (front : List Token) : Expecting :=
  if !front.any Token.isDash then .subcommand
  else if front.getLast?.any Token.isDash then .value
  else .parameter

theorem behind_concat (front : List Token) (t : Token) :
    behind (front ++ [t]) = (behind front).after t := by
  simp only [behind, List.any_append, List.any_cons, List.any_nil, Bool.or_false,
    List.getLast?_concat, Option.any_some, after]
  cases t.isDash with
  | true => simp
  | false => cases front.any Token.isDash <;> cases front.getLast?.any Token.isDash <;> rfl

theorem node?_behind (front : List Token) (t : Token) :
    (behind front).node? t = (roleBehind front t).map fun role => ⟨role, t⟩ := by
  unfold behind roleBehind node?
  cases t.isDash with
  | true => rfl
  | false => cases front.any Token.isDash <;> cases front.getLast?.any Token.isDash <;> rfl

end Expecting

open Expecting (behind)

theorem nodesFrom_behind (front ts : List Token) :
    nodesFrom (behind front) ts =
      (ts.zip (ts.inits.map fun more => front ++ more)).filterMap fun (t, front) =>
        (roleBehind front t).map fun role => ⟨role, t⟩ := by
  induction ts generalizing front with
  | nil => cases behind front <;> rfl
  | cons t rest ih =>
    have hfront : (fun more => (front ++ [t]) ++ more) = fun more => front ++ t :: more :=
      funext fun more => List.append_assoc front [t] more
    rw [nodesFrom_cons, ← Expecting.behind_concat, ih, Expecting.node?_behind, hfront,
      List.inits_cons, List.map_cons, List.map_map, List.append_nil, List.zip_cons_cons,
      List.filterMap_cons, Function.comp_def]
    dsimp only
    cases roleBehind front t <;> rfl

theorem nodesFrom_concat (ts : List Token) (t : Token) :
    nodesFrom .subcommand (ts ++ [t]) =
      nodesFrom .subcommand ts ++ ((roleBehind ts t).map fun role => ⟨role, t⟩).toList := by
  rw [← Expecting.node?_behind]
  have hconcat (front : List Token) : nodesFrom (behind front) (ts ++ [t]) =
      nodesFrom (behind front) ts ++ ((behind (front ++ ts)).node? t).toList := by
    induction ts generalizing front with
    | nil =>
      have hnil (e : Expecting) : nodesFrom e [] = [] := by cases e <;> rfl
      rw [List.nil_append, nodesFrom_cons, hnil, hnil, List.append_nil, List.append_nil,
        List.nil_append]
    | cons s ts ih =>
      rw [List.cons_append, nodesFrom_cons, nodesFrom_cons, ← Expecting.behind_concat, ih,
        List.append_assoc, List.append_assoc, List.singleton_append]
  exact hconcat []

/-- The nodes of a line are its tokens in order that have a role behind the tokens in front of
them, and the subcommands are the nodes with that role. -/
theorem nodes_have_roles (line : Text) :
    (parse line).nodes =
      ((tokens line).zip (tokens line).inits).filterMap (fun (t, front) =>
        (roleBehind front t).map fun role => ⟨role, t⟩) ∧
    (parse line).subcommand = (parse line).nodes.filter fun n => n.role = .subcommand := by
  refine ⟨?_, subcommandsFrom_eq _ _⟩
  have h := nodesFrom_behind [] (tokens line)
  rwa [List.map_id'' List.nil_append] at h

end LineAssist.Line
