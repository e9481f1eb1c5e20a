import LineAssist.Editor.Items
import LineAssist.Proofs.Line.Covering
import LineAssist.Proofs.Line.Subcommands
import Mathlib.Data.List.Basic

/-!
# What a hover asks

A hover asks about the node under its offset. A subcommand asks for the path that ends with it, and
a parameter name for the whole path and itself. No two nodes start at one offset, so a word that is
repeated asks for the path up to its own place.
-/

namespace LineAssist.Editor

open Catalog (HoverRequest)
open Line

/-- The nodes of a role in order. -/
def nodesOf (role : Role) (c : Command) : List Node :=
  c.nodes.filter fun n => n.role == role

/-- What a node asks. The subcommand that starts the line asks nothing, and neither does a value. -/
inductive Asks (c : Command) : HoverRequest → Node → Prop
  | word {first n : Node} {front rest : List Node}
      (place : nodesOf .subcommand c = first :: (front ++ n :: rest)) :
      Asks c ⟨Text.unwords ((front ++ [n]).map Node.text), none⟩ n
  | name {n : Node} (written : n ∈ nodesOf .parameterName c) :
      Asks c ⟨Text.unwords ((nodesOf .subcommand c).tail.map Node.text), some n.text⟩ n

/-! ## Nodes of a line -/

theorem nodeAt_eq_some_iff {line : Text} {offset : Int} {n : Node} :
    (parse line).nodeAt offset = some n ↔
      n ∈ (parse line).nodes ∧ n.offset ≤ offset ∧ offset < n.stop := by
  have hcut := halving_bisect (starts_ascend line)
    (halving_whole ((parse line).nodes.map Node.offset) offset)
  have hordered := nodes_apart line
  rw [List.length_map] at hcut
  rw [Command.nodeAt]
  generalize (parse line).nodes = nodes at hordered hcut ⊢
  generalize bisect (nodes.map Node.offset) offset 0 nodes.length = cut at hcut ⊢
  obtain ⟨-, hlength, hfront, hback⟩ := hcut
  simp only [List.length_map, List.getElem_map] at hlength hfront hback
  have hcovers : n.covers offset = true ↔ n.offset ≤ offset ∧ offset < n.stop := by
    rw [Node.covers, Bool.and_eq_true, decide_eq_true_eq, decide_eq_true_eq]
  constructor
  · intro h
    cases cut with
    | zero => cases h
    | succ last =>
      obtain ⟨hn, hcovered⟩ := Option.filter_eq_some_iff.mp h
      exact ⟨List.mem_of_getElem? hn, hcovers.mp hcovered⟩
  · rintro ⟨hmem, hle, hlt⟩
    obtain ⟨i, hi, rfl⟩ := List.mem_iff_getElem.mp hmem
    have hbefore : i < cut := by
      rw [← Nat.not_le]
      intro hle'
      have := hback i hi hle'
      omega
    obtain ⟨last, rfl⟩ := Nat.exists_eq_succ_of_ne_zero (Nat.ne_zero_of_lt hbefore)
    -- a node in front of the last one that starts in time ends where that one starts
    obtain rfl : i = last := by
      refine Nat.le_antisymm (Nat.le_of_lt_succ hbefore) (Nat.le_of_not_lt fun hlt' => ?_)
      have hstarts := hfront last hlength (Nat.lt_succ_self last)
      have := List.pairwise_iff_getElem.mp hordered i last hi hlength hlt'
      omega
    exact Option.filter_eq_some_iff.mpr ⟨List.getElem?_eq_getElem hi, hcovers.mpr ⟨hle, hlt⟩⟩

theorem nodup_nodes (line : Text) : (parse line).nodes.Nodup := by
  have hoffsets : (parse line).nodes.Pairwise fun m n => m.offset < n.offset :=
    List.pairwise_map.mp (starts_ascend line)
  exact hoffsets.imp fun h hsame => absurd (hsame ▸ h) (Nat.lt_irrefl _)

theorem hasRoot_iff {line root : Text} : (parse line).hasRoot root = true ↔
    ∃ t, (tokens line).head? = some t ∧ t.isDash = false ∧ t.text = root := by
  rw [Command.hasRoot, subcommand_parse, beq_iff_eq]
  cases tokens line with
  | nil => exact ⟨nofun, fun ⟨t, ht, _⟩ => nomatch ht⟩
  | cons t rest =>
    cases ht : t.isDash with
    | true =>
      rw [leadingTokens_dash ht]
      refine ⟨nofun, ?_⟩
      rintro ⟨_, ⟨⟩, hplain, -⟩
      rw [ht] at hplain
      cases hplain
    | false =>
      rw [leadingTokens_plain ht]
      constructor
      · intro h
        exact ⟨t, rfl, ht, Option.some.inj h⟩
      · rintro ⟨_, ⟨⟩, -, rfl⟩
        rfl

/-! ## Requests -/

section Request

variable {line root : Text} {offset : Int} {first n : Node} {front rest : List Node}
variable {r : HoverRequest}

theorem mem_nodesOf {role : Role} {c : Command} :
    n ∈ nodesOf role c ↔ n ∈ c.nodes ∧ n.role = role := by
  rw [nodesOf, List.mem_filter, beq_iff_eq]

theorem idxOf_of_split {nodes : List Node} (hnodes : nodes.Nodup)
    (hsplit : nodes = front ++ n :: rest) : nodes.idxOf n = front.length := by
  subst hsplit
  have hnew : n ∉ front := fun hmem =>
    (List.nodup_append.mp hnodes).2.2 n hmem n List.mem_cons_self rfl
  rw [List.idxOf_append_of_notMem hnew, List.idxOf_cons_self, Nat.add_zero]

/-- The subcommands that a node is looked up in are the nodes of that role. -/
theorem subcommand_eq_nodesOf (line : Text) :
    (parse line).subcommand = nodesOf .subcommand (parse line) :=
  subcommandsFrom_eq _ _

/-- A node of the path is found at its own place, also where its word stands in front of it. -/
theorem idxOf_subcommand (hsplit : nodesOf .subcommand (parse line) = front ++ n :: rest) :
    (parse line).subcommand.idxOf n = front.length := by
  rw [subcommand_eq_nodesOf]
  exact idxOf_of_split ((nodup_nodes line).filter _) hsplit

theorem hoverRequest_first (hroot : (parse line).hasRoot root = true)
    (hnode : (parse line).nodeAt offset = some n)
    (hsplit : nodesOf .subcommand (parse line) = n :: rest) :
    hoverRequest (parse line) offset root = none := by
  have hindex : (parse line).subcommand.idxOf n = ([] : List Node).length :=
    idxOf_subcommand hsplit
  have hrole : n.role = .subcommand := by
    refine (mem_nodesOf (c := parse line).mp ?_).2
    rw [hsplit]
    exact List.mem_cons_self
  simp only [hoverRequest, hroot, if_true, hnode, hrole, hindex, List.length_nil]

theorem hoverRequest_word (hroot : (parse line).hasRoot root = true)
    (hnode : (parse line).nodeAt offset = some n)
    (hsplit : nodesOf .subcommand (parse line) = first :: (front ++ n :: rest)) :
    hoverRequest (parse line) offset root =
      some (⟨Text.unwords ((front ++ [n]).map Node.text), none⟩, n) := by
  have hindex : (parse line).subcommand.idxOf n = (first :: front).length :=
    idxOf_subcommand hsplit
  have hrole : n.role = .subcommand := by
    refine (mem_nodesOf (c := parse line).mp ?_).2
    rw [hsplit]
    exact List.mem_cons_of_mem first (List.mem_append_right front List.mem_cons_self)
  have hpath : (((parse line).subcommand.map Node.text).take (front.length + 2)).drop 1 =
      (front ++ [n]).map Node.text := by
    rw [subcommand_eq_nodesOf, hsplit, List.map_cons, List.take_succ_cons, List.drop_succ_cons,
      List.drop_zero, List.append_cons, List.map_append]
    exact List.take_left' (by simp)
  simp only [hoverRequest, hroot, if_true, hnode, hrole, hindex, List.length_cons, hpath]

theorem hoverRequest_name (hroot : (parse line).hasRoot root = true)
    (hnode : (parse line).nodeAt offset = some n) (hrole : n.role = .parameterName) :
    hoverRequest (parse line) offset root = some
      (⟨Text.unwords ((nodesOf .subcommand (parse line)).tail.map Node.text), some n.text⟩, n) := by
  simp only [hoverRequest, hroot, if_true, hnode, hrole, subcommand_eq_nodesOf, List.map_tail]

end Request

/-- A hover asks exactly when the line starts with the root word and the offset lies on a node that
asks, and then it asks what that node asks. -/
theorem hoverRequest_eq_some_iff (line : Text) (offset : Int) (root : Text) (r : HoverRequest)
    (n : Node) :
    hoverRequest (parse line) offset root = some (r, n) ↔
      (∃ t, (tokens line).head? = some t ∧ t.isDash = false ∧ t.text = root) ∧
      (n.offset ≤ offset ∧ offset < n.stop) ∧ Asks (parse line) r n := by
  rw [← hasRoot_iff]
  constructor
  · intro h
    have hroot : (parse line).hasRoot root = true := by
      rw [hoverRequest] at h
      split at h
      case isTrue hroot => exact hroot
      case isFalse => cases h
    cases hnode : (parse line).nodeAt offset with
    | none => simp [hoverRequest, hnode] at h
    | some m =>
      obtain ⟨hmem, hcovers⟩ := nodeAt_eq_some_iff.mp hnode
      cases hrole : m.role with
      | subcommand =>
        obtain ⟨front, rest, hsplit⟩ := List.append_of_mem (mem_nodesOf.mpr ⟨hmem, hrole⟩)
        cases front with
        | nil =>
          rw [hoverRequest_first hroot hnode hsplit] at h
          cases h
        | cons first front =>
          rw [hoverRequest_word hroot hnode hsplit] at h
          cases h
          exact ⟨hroot, hcovers, .word hsplit⟩
      | parameterName =>
        rw [hoverRequest_name hroot hnode hrole] at h
        cases h
        exact ⟨hroot, hcovers, .name (mem_nodesOf.mpr ⟨hmem, hrole⟩)⟩
      | parameterValue => simp [hoverRequest, hnode, hrole] at h
  · rintro ⟨hroot, hcovers, ⟨hsplit⟩ | ⟨hwritten⟩⟩
    · have hmem : n ∈ nodesOf .subcommand (parse line) := by
        rw [hsplit]
        exact List.mem_cons_of_mem _ (List.mem_append_right _ List.mem_cons_self)
      exact hoverRequest_word hroot
        (nodeAt_eq_some_iff.mpr ⟨(mem_nodesOf.mp hmem).1, hcovers⟩) hsplit
    · obtain ⟨hmem, hrole⟩ := mem_nodesOf.mp hwritten
      exact hoverRequest_name hroot (nodeAt_eq_some_iff.mpr ⟨hmem, hcovers⟩) hrole

/-- The second of two equal words asks for both. -/
example : hoverRequest (parse "az vm vm".toList) 6 "az".toList =
    some (⟨"vm vm".toList, none⟩, ⟨.subcommand, "vm".toList, 6⟩) := by
  cbv

end LineAssist.Editor
