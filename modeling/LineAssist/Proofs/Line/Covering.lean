import LineAssist.Proofs.Line.Nodes
import LineAssist.Proofs.Line.Tokenization

/-!
# The node at an offset

The nodes of a line are parts of it that stand apart from each other and in order. So their starts
can be searched by halving, and what lies at an offset is the node that the search ends behind, or
white space, a token without a role, or nothing of the line at all.
-/

namespace LineAssist.Line

/-! ## Nodes in order -/

theorem map_token_nodesFrom_sublist (e : Expecting) (ts : List Token) :
    ((nodesFrom e ts).map Node.token).Sublist ts := by
  induction ts generalizing e with
  | nil => cases e <;> exact List.nil_sublist _
  | cons t rest ih =>
    rw [nodesFrom_cons]
    cases hnode : e.node? t with
    | none => exact (ih _).cons t
    | some n =>
      have htoken : n.token = t := Expecting.token_of_node? hnode
      simp only [Option.toList_some, List.singleton_append, List.map_cons, htoken]
      exact (ih _).cons_cons t

theorem nodes_apart (line : Text) :
    (parse line).nodes.Pairwise fun m n => m.stop ≤ n.offset := by
  have h : Tokenization line 0 (tokens line) := tokenization_iff.mpr rfl
  exact List.pairwise_map.mp (h.ordered.sublist (map_token_nodesFrom_sublist _ _))

theorem offset_lt_stop_of_mem_nodes {line : Text} {n : Node} (hn : n ∈ (parse line).nodes) :
    n.offset < n.stop := by
  have h : Tokenization line 0 (tokens line) := tokenization_iff.mpr rfl
  exact (h.lexemes n.token (token_mem_of_mem_nodesFrom hn)).offset_lt_stop

theorem starts_ascend (line : Text) :
    ((parse line).nodes.map Node.offset).Pairwise (· < ·) := by
  rw [List.pairwise_map]
  refine (nodes_apart line).imp_of_mem fun {m n} hm _ happart => ?_
  have := offset_lt_stop_of_mem_nodes hm
  omega

/-! ## Halving -/

section Halving

variable {starts : List Nat} {offset : Int} {low high : Nat}

/-- What halving keeps: only between `low` and `high` it is open which side a start lies on. -/
structure Halving (starts : List Nat) (offset : Int) (low high : Nat) : Prop where
  low_le_high : low ≤ high
  high_le_length : high ≤ starts.length
  front : ∀ i (hi : i < starts.length), i < low → starts[i] ≤ offset
  back : ∀ i (hi : i < starts.length), high ≤ i → offset < starts[i]

theorem halving_whole (starts : List Nat) (offset : Int) :
    Halving starts offset 0 starts.length where
  low_le_high := Nat.zero_le _
  high_le_length := Nat.le_refl _
  front := fun _ _ h => absurd h (Nat.not_lt_zero _)
  back := fun _ hi h => absurd hi (Nat.not_lt.mpr h)

theorem getElem_le_of_ascending (hstarts : starts.Pairwise (· < ·)) {i j : Nat} (hij : i ≤ j)
    (hj : j < starts.length) : starts[i] ≤ starts[j] := by
  rcases Nat.eq_or_lt_of_le hij with rfl | hlt
  · exact Nat.le_refl _
  · exact Nat.le_of_lt (List.pairwise_iff_getElem.mp hstarts i j (by omega) hj hlt)

/-- Halving ends with one place that all starts up to the offset stand in front of. -/
theorem halving_bisect (hstarts : starts.Pairwise (· < ·)) (h : Halving starts offset low high) :
    Halving starts offset (bisect starts offset low high) (bisect starts offset low high) := by
  fun_induction bisect starts offset low high with
  | case1 low high hopen middle hbehind ih =>
    -- The starts ascend, so what is behind the middle one is behind the offset as well.
    have hlength := h.high_le_length
    have hmiddle : middle < starts.length := by omega
    rw [List.getElem?_eq_getElem hmiddle, Option.any_some, decide_eq_true_eq] at hbehind
    refine ih ⟨by omega, by omega, h.front, fun i hi hle => ?_⟩
    have := getElem_le_of_ascending hstarts hle hi
    omega
  | case2 low high hopen middle hbehind ih =>
    have hlength := h.high_le_length
    have hmiddle : middle < starts.length := by omega
    rw [List.getElem?_eq_getElem hmiddle, Option.any_some, decide_eq_true_eq] at hbehind
    refine ih ⟨by omega, by omega, fun i hi hlt => ?_, h.back⟩
    have := getElem_le_of_ascending hstarts (Nat.le_of_lt_succ hlt) hmiddle
    omega
  | case3 low high hopen =>
    obtain rfl : high = low := by
      have := h.low_le_high
      omega
    exact h

end Halving

/-! ## Covering -/

/-- The nodes that an offset lies on are at most one, and that one is found; an offset on no node
finds none. -/
theorem filter_covering_eq_nodeAt (line : Text) (offset : Int) :
    ((parse line).nodes.filter fun n => n.offset ≤ offset ∧ offset < n.stop) =
      ((parse line).nodeAt offset).toList := by
  have hordered := nodes_apart line
  have hcut := halving_bisect (starts_ascend line)
    (halving_whole ((parse line).nodes.map Node.offset) offset)
  rw [List.length_map] at hcut
  have hcovers : (fun n : Node => n.covers offset) =
      fun n => decide (n.offset ≤ offset ∧ offset < n.stop) :=
    funext fun n => (Bool.decide_and _ _).symm
  rw [Command.nodeAt]
  generalize (parse line).nodes = nodes at hordered hcut ⊢
  generalize bisect (nodes.map Node.offset) offset 0 nodes.length = cut at hcut ⊢
  obtain ⟨-, hlength, hfront, hback⟩ := hcut
  simp only [List.length_map, List.getElem_map] at hlength hfront hback
  have hbehind : ∀ n ∈ nodes.drop cut, ¬ (n.offset ≤ offset ∧ offset < n.stop) := by
    intro n hn
    obtain ⟨i, hi, rfl⟩ := List.mem_drop_iff_getElem.mp hn
    have := hback (cut + i) (by omega) (Nat.le_add_right cut i)
    omega
  cases cut with
  | zero =>
    rw [List.drop_zero] at hbehind
    simpa using hbehind
  | succ last =>
    -- The nodes in front of the last one that starts in time end where that one starts.
    have hlast := hfront last hlength (Nat.lt_succ_self last)
    have hbefore : ∀ n ∈ nodes.take last, ¬ (n.offset ≤ offset ∧ offset < n.stop) := by
      intro n hn
      obtain ⟨i, hi, rfl⟩ := List.mem_take_iff_getElem.mp hn
      have := List.pairwise_iff_getElem.mp hordered i last (by omega) hlength (by omega)
      omega
    have hsplit : nodes = nodes.take last ++ nodes[last] :: nodes.drop (last + 1) := by
      rw [← List.drop_eq_getElem_cons hlength, List.take_append_drop]
    change _ = (nodes[last]?.filter fun n => n.covers offset).toList
    rw [List.getElem?_eq_getElem hlength, Option.toList_filter, Option.toList_some, hcovers]
    calc nodes.filter _
      _ = (nodes.take last ++ nodes[last] :: nodes.drop (last + 1)).filter _ :=
        congrArg (List.filter _) hsplit
      _ = [nodes[last]].filter _ := by
        rw [List.filter_append, List.filter_cons, List.filter_cons,
          List.filter_eq_nil_iff.mpr (by simpa using hbefore),
          List.filter_eq_nil_iff.mpr (by simpa using hbehind), List.nil_append, List.filter_nil]

end LineAssist.Line
