import LineAssist.Proofs.Line.Nodes
import LineAssist.Proofs.Line.Tokenization

/-!
# Lines that are cut at a cursor

The part of a line in front of a cursor has the nodes that start there, and what reaches behind
the cursor is cut. The one exception is a cursor inside a closed quoted token: without its last
quote that token can fall apart.
-/

namespace LineAssist.Line

open Text (isBlank isQuote)

/-- The part of a token in front of a cursor. -/
def Token.cut (p : Nat) (t : Token) : Token :=
  ⟨t.text.take (p - t.offset), t.offset⟩

def Node.cut (p : Nat) (n : Node) : Node :=
  ⟨n.role, n.token.cut p⟩

/-- The cursor is not strictly inside a closed quoted token. -/
def OutsideQuotes (line : Text) (p : Nat) : Prop :=
  ∀ t ∈ tokens line, isQuoted t.text = true → ¬ (t.offset < p ∧ p < t.stop)

instance (line : Text) (p : Nat) : Decidable (OutsideQuotes line p) :=
  inferInstanceAs (Decidable (∀ t ∈ tokens line, _ → _))

theorem getElem?_of_take {α : Type} {l : List α} {n i : Nat} {a : α}
    (h : (l.take n)[i]? = some a) : i < n ∧ l[i]? = some a := by
  rw [List.getElem?_take] at h
  split at h
  case isTrue hi => exact ⟨hi, h⟩
  case isFalse => cases h

namespace Token

variable {t : Token} {p : Nat} {input : Text}

@[simp] theorem cut_offset (p : Nat) (t : Token) : (t.cut p).offset = t.offset := rfl

theorem length_cut (p : Nat) (t : Token) : (t.cut p).length = min (p - t.offset) t.length :=
  List.length_take

theorem cut_of_stop_le (h : t.stop ≤ p) : t.cut p = t := by
  have hlength : t.text.length ≤ p - t.offset := Nat.le_sub_of_add_le' h
  rw [cut, List.take_of_length_le hlength]

theorem stop_cut_le (p : Nat) (t : Token) : (t.cut p).stop ≤ t.stop := by
  rw [stop, length_cut]
  exact Nat.add_le_add_left (Nat.min_le_right _ _) _

theorem stop_cut (h : t.offset ≤ p) : (t.cut p).stop = min p t.stop := by
  have hlength := length_cut p t
  rw [stop, stop, hlength, cut_offset]
  omega

theorem head?_cut (h : t.offset < p) : (t.cut p).text.head? = t.text.head? := by
  obtain ⟨n, hn⟩ : ∃ n, p - t.offset = n + 1 := ⟨p - t.offset - 1, by omega⟩
  rw [cut, hn]
  cases t.text <;> rfl

theorem isDash_cut (h : t.offset < p) : (t.cut p).isDash = t.isDash := by
  rw [isDash, isDash, Text.isDashLed, Text.isDashLed, head?_cut h]

theorem isOpenRun_cut (p : Nat) (hrun : IsOpenRun t.text) : IsOpenRun (t.cut p).text := by
  refine ⟨fun c hc => hrun.solid c (List.mem_of_mem_take hc), fun c hc => hrun.unquoted c ?_⟩
  exact ((List.take_sublist _ t.text).tail).subset hc

/-- An open token that is cut is open still: fewer characters behind it can only close fewer
quotes. A closed token is left whole. -/
theorem IsLexeme.cut (h : t.IsLexeme input) (hp : t.offset < p)
    (hclosed : IsClosedRun t.text → t.stop ≤ p) : (t.cut p).IsLexeme (input.take p) := by
  have hstop := stop_cut (Nat.le_of_lt hp)
  refine ⟨?_, ?_, ?_, ?_⟩
  · have hhead := head?_cut hp
    intro hnil
    rw [hnil] at hhead
    exact h.nonempty (List.head?_eq_none_iff.mp hhead.symm)
  · have htext := h.text_eq
    rw [length_cut, cut_offset, List.drop_take, List.take_take, Nat.min_right_comm, Nat.min_self,
      ← List.take_take, ← htext]
    rfl
  · intro c hc
    rw [head?_cut hp] at hc
    exact h.starts c hc
  · rcases h.shape with hquoted | ⟨hrun, hends, hunclosed⟩
    · rw [cut_of_stop_le (hclosed hquoted)]
      exact .inl hquoted
    · refine .inr ⟨isOpenRun_cut p hrun, ?_, ?_⟩
      · intro c hc
        rw [hstop] at hc
        obtain ⟨hlt, hnext⟩ := getElem?_of_take hc
        rw [Nat.min_eq_right (by omega)] at hnext
        exact hends c hnext
      · intro q hq hquote hmem
        rw [head?_cut hp] at hq
        rw [cut_offset, List.drop_take] at hmem
        exact hunclosed q hq hquote (List.mem_of_mem_take hmem)

end Token

/-- The tokens in front of a cursor are those that start there, cut at the cursor. -/
theorem tokens_take {line : Text} {p : Nat} (hp : OutsideQuotes line p) :
    tokens (line.take p) = ((tokens line).filter fun t => t.offset < p).map (Token.cut p) := by
  have hline : Tokenization line 0 (tokens line) := tokenization_iff.mpr rfl
  refine (tokenization_iff.mp ?_).symm
  refine ⟨fun t _ => Nat.zero_le _, ?_, ?_, ?_⟩
  · refine List.Pairwise.map _ (fun a b hab => ?_) (hline.ordered.filter _)
    exact Nat.le_trans (Token.stop_cut_le p a) hab
  · intro s hs
    obtain ⟨t, ht, rfl⟩ := List.mem_map.mp hs
    obtain ⟨hmem, hlt⟩ := List.mem_filter.mp ht
    have hlt : t.offset < p := of_decide_eq_true hlt
    refine (hline.lexemes t hmem).cut hlt fun hclosed => ?_
    have hquoted := (isQuoted_iff (.inl hclosed)).mpr hclosed
    exact Nat.le_of_not_lt fun hinside => hp t hmem hquoted ⟨hlt, hinside⟩
  · intro i c _ hc hblank
    obtain ⟨hi, hc⟩ := getElem?_of_take hc
    obtain ⟨t, ht, hti, hit⟩ := hline.covers i c (Nat.zero_le i) hc hblank
    have hlt : t.offset < p := Nat.lt_of_le_of_lt hti hi
    refine ⟨t.cut p, List.mem_map_of_mem (List.mem_filter.mpr ⟨ht, decide_eq_true hlt⟩), hti, ?_⟩
    rw [Token.stop_cut (Nat.le_of_lt hlt)]
    exact Nat.lt_min.mpr ⟨hi, hit⟩

section Roles

variable {t : Token} {p : Nat}

theorem node?_cut (e : Expecting) (h : t.offset < p) :
    e.node? (t.cut p) = (e.node? t).map (Node.cut p) := by
  unfold Expecting.node?
  rw [Token.isDash_cut h]
  split
  · rfl
  · cases e <;> rfl

theorem after_cut (e : Expecting) (h : t.offset < p) : e.after (t.cut p) = e.after t := by
  unfold Expecting.after
  rw [Token.isDash_cut h]

end Roles

/-- The role of a token is told by the tokens in front of it and its first character, so it stays
when those behind a cursor are left out. -/
theorem nodesFrom_take {ts : List Token} (hordered : ts.Pairwise fun a b => a.offset ≤ b.offset)
    (e : Expecting) (p : Nat) :
    nodesFrom e ((ts.filter fun t => t.offset < p).map (Token.cut p)) =
      ((nodesFrom e ts).filter fun n => n.offset < p).map (Node.cut p) := by
  induction ts generalizing e with
  | nil => cases e <;> rfl
  | cons t rest ih =>
    obtain ⟨hfirst, hrest⟩ := List.pairwise_cons.mp hordered
    by_cases ht : t.offset < p
    · have hnode : (e.node? t).toList.filter (fun n => n.offset < p) = (e.node? t).toList := by
        rw [List.filter_eq_self]
        intro n hn
        rw [Node.offset, Expecting.token_of_node? (Option.mem_toList.mp hn)]
        exact decide_eq_true ht
      have hkept : (t :: rest).filter (fun t => t.offset < p) =
          t :: rest.filter (fun t => t.offset < p) := List.filter_cons_of_pos (decide_eq_true ht)
      rw [hkept, List.map_cons, nodesFrom_cons,
        nodesFrom_cons, node?_cut e ht, after_cut e ht, ih hrest, List.filter_append, hnode,
        List.map_append, Option.toList_map]
    · -- The tokens are in order, so no later one starts in front of the cursor either.
      have hbehind : ∀ s ∈ t :: rest, ¬ s.offset < p := by
        refine List.forall_mem_cons.mpr ⟨ht, fun s hs => ?_⟩
        have := hfirst s hs
        omega
      have htokens : (t :: rest).filter (fun t => t.offset < p) = [] := by
        simpa only [List.filter_eq_nil_iff, decide_eq_true_eq] using hbehind
      have hnodes : (nodesFrom e (t :: rest)).filter (fun n => n.offset < p) = [] := by
        simp only [List.filter_eq_nil_iff, decide_eq_true_eq]
        exact fun n hn => hbehind n.token (token_mem_of_mem_nodesFrom hn)
      rw [htokens, hnodes]
      cases e <;> rfl

/-- The part of a line in front of a cursor has the nodes of the line that start in front of it,
with the same roles and offsets, and a node that reaches behind the cursor is cut there. -/
theorem nodes_take (line : Text) (p : Nat) (hp : OutsideQuotes line p) :
    (parse (line.take p)).nodes =
      ((parse line).nodes.filter fun n => n.offset < p).map (Node.cut p) := by
  have hline : Tokenization line 0 (tokens line) := tokenization_iff.mpr rfl
  have hordered : (tokens line).Pairwise fun a b => a.offset ≤ b.offset :=
    hline.ordered.imp fun {a _} h => Nat.le_trans (Nat.le_add_right a.offset a.length) h
  change nodesFrom .subcommand (tokens (line.take p)) = _
  rw [tokens_take hp, nodesFrom_take hordered]
  rfl

/-- A cut through a parameter behind a closed quote, with a quote that is never closed behind it. -/
theorem nodes_take_quoted :
    let line := "az vm 'a b' --name x\"y z".toList
    OutsideQuotes line 14 ∧
    (parse (line.take 14)).nodes = [⟨.subcommand, "az".toList, 0⟩, ⟨.subcommand, "vm".toList, 3⟩,
      ⟨.subcommand, "'a b'".toList, 6⟩, ⟨.parameterName, "--".toList, 12⟩] := by
  intro line
  have hcursor : OutsideQuotes line 14 := by decide
  refine ⟨hcursor, ?_⟩
  rw [nodes_take line 14 hcursor]
  decide

end LineAssist.Line
