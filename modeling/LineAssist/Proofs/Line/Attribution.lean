import LineAssist.Proofs.Line.LastToken
import LineAssist.Proofs.Text.Words

/-!
# Values and the parameters they are given to

A value is given to the parameter name directly in front of it, which is told by the tokens alone.
At the end of a word without quotes the active argument is read off white space and dashes. It
finds the parameter that the word is given to if there is no dash anywhere in the word; a value
with a dash behind its first character is a value to the nodes and none to the cursor.
-/

namespace LineAssist.Line

open Text (isBlank isQuote words)

/-- The node of the value directly follows that of the parameter name. -/
def Attributes (line : Text) (name value : Token) : Prop :=
  [⟨.parameterName, name⟩, ⟨.parameterValue, value⟩] <:+: (parse line).nodes

section Nodes

variable {e : Expecting} {ts : List Token} {n v : Token}

theorem prefix_nodesFrom_value :
    [⟨.parameterValue, v⟩] <+: nodesFrom .value ts ↔ [v] <+: ts ∧ v.isDash = false := by
  cases ts with
  | nil => simp [nodesFrom]
  | cons t ts =>
    cases ht : t.isDash <;>
      simp only [nodesFrom, ht, Bool.false_eq_true, if_false, if_true, List.cons_prefix_cons,
        List.nil_prefix, and_true, Node.mk.injEq, true_and]
    · refine ⟨?_, And.left⟩
      rintro rfl
      exact ⟨rfl, ht⟩
    · constructor
      · rintro ⟨⟨⟩, -⟩
      · rintro ⟨rfl, hv⟩
        rw [ht] at hv
        cases hv

theorem infix_nodesFrom :
    [⟨.parameterName, n⟩, ⟨.parameterValue, v⟩] <:+: nodesFrom e ts ↔
      [n, v] <:+: ts ∧ n.isDash = true ∧ v.isDash = false := by
  induction ts generalizing e with
  | nil => cases e <;> simp [nodesFrom]
  | cons t ts ih =>
    have hname : e.node? t = some ⟨.parameterName, n⟩ ↔ n = t ∧ n.isDash = true := by
      rw [Expecting.node?_eq_parameterName, eq_comm]
    rw [nodesFrom_cons, List.infix_cons_iff, List.cons_prefix_cons]
    cases hnode : e.node? t with
    | none =>
      rw [hnode] at hname
      rw [Option.toList_none, List.nil_append, ih]
      refine ⟨fun h => ⟨.inr h.1, h.2⟩, ?_⟩
      rintro ⟨⟨rfl, -⟩ | h, hn, hv⟩
      · cases hname.mpr ⟨rfl, hn⟩
      · exact ⟨h, hn, hv⟩
    | some m =>
      rw [hnode, Option.some_inj] at hname
      rw [Option.toList_some, List.singleton_append, List.infix_cons_iff, List.cons_prefix_cons, ih,
        eq_comm, hname]
      constructor
      · rintro (⟨⟨rfl, hn⟩, hvalue⟩ | ⟨h, hn, hv⟩)
        · have hafter : e.after n = .value := if_pos hn
          rw [hafter, prefix_nodesFrom_value] at hvalue
          exact ⟨.inl ⟨rfl, hvalue.1⟩, hn, hvalue.2⟩
        · exact ⟨.inr h, hn, hv⟩
      · rintro ⟨⟨rfl, hvalue⟩ | h, hn, hv⟩
        · have hafter : e.after n = .value := if_pos hn
          rw [hafter, prefix_nodesFrom_value]
          exact .inl ⟨⟨rfl, hn⟩, hvalue, hv⟩
        · exact .inr ⟨h, hn, hv⟩

/-- A value is given to a parameter exactly when their tokens are neighbours. -/
theorem attributes_iff {line : Text} :
    Attributes line n v ↔ [n, v] <:+: tokens line ∧ n.isDash = true ∧ v.isDash = false :=
  infix_nodesFrom

end Nodes

/-! ## Lines without quotes -/

section Plain

variable {line : Text} {t : Token}

/-- Without quotes the tokens are the words. -/
theorem map_text_tokensFrom (hplain : ∀ c ∈ line, isQuote c = false) (offset : Nat) :
    (tokensFrom offset 0 line).map Token.text = words line := by
  induction line using Text.word_induction generalizing offset with
  | nil => rfl
  | blank b rest hb ih =>
    obtain ⟨-, hrest⟩ := List.forall_mem_cons.mp hplain
    rw [tokensFrom_blank hb, Text.words_blank hb, ih hrest]
  | word w rest hne hw hblank ih =>
    obtain ⟨hword, hrest⟩ := List.forall_mem_append.mp hplain
    rw [tokensFrom_word hne hw hword hblank, List.map_cons, ih hrest]
    cases rest with
    | nil => rw [List.append_nil, Text.IsWord.words ⟨hne, hw⟩]; rfl
    | cons b rest =>
      have hb := hblank b rfl
      rw [Text.words_append_blank w hb, Text.IsWord.words ⟨hne, hw⟩, Text.words_blank hb,
        List.singleton_append]

/-- Without quotes no token starts where another one ends. -/
theorem isGlued_iff_of_plain (hplain : ∀ c ∈ line, isQuote c = false) (ht : t ∈ tokens line) :
    t.IsGlued line ↔ t.offset = 0 := by
  have h : Tokenization line 0 (tokens line) := tokenization_iff.mpr rfl
  refine ⟨?_, .inl⟩
  rintro (hstart | ⟨s, hs, hstop⟩)
  · exact hstart
  · exfalso
    obtain ⟨c, rest, hdrop, hc, -⟩ := Token.isLexeme_iff.mp (h.lexemes t ht)
    have hnext : (line)[s.stop]? = some c := by rw [hstop, ← List.head?_drop, hdrop, List.head?_cons]
    have hquote : isQuote c = false := hplain c (List.mem_of_getElem? hnext)
    rcases (h.lexemes s hs).shape with ⟨q, body, hq, -, hclosed⟩ | ⟨-, hends, -⟩
    · have hmem : q ∈ s.text := by rw [hclosed]; exact List.mem_cons_self
      rw [(h.lexemes s hs).text_eq] at hmem
      have hplainq := hplain q (List.mem_of_mem_drop (List.mem_of_mem_take hmem))
      rw [hplainq] at hq
      cases hq
    · rcases hends c hnext with hblank | hquoted
      · rw [hc] at hblank
        cases hblank
      · rw [hquote] at hquoted
        cases hquoted

/-- A name that starts the line is its first word. -/
theorem head?_words_of_offset_zero (hplain : ∀ c ∈ line, isQuote c = false)
    (ht : t ∈ tokens line) (hstart : t.offset = 0) : (words line).head? = some t.text := by
  have h : Tokenization line 0 (tokens line) := tokenization_iff.mpr rfl
  rw [← map_text_tokensFrom hplain 0, List.head?_map]
  change (tokens line).head?.map Token.text = _
  obtain ⟨first, more, hcons⟩ := List.exists_cons_of_ne_nil (List.ne_nil_of_mem ht)
  have hordered := h.ordered
  rw [hcons] at ht hordered ⊢
  rcases List.mem_cons.mp ht with rfl | hmem
  · rfl
  · have hle := (List.pairwise_cons.mp hordered).1 t hmem
    have hlt := (h.lexemes first (by rw [hcons]; exact List.mem_cons_self)).offset_lt_stop
    omega

end Plain

/-! ## The word at the end of a line -/

/-- The last character is not white space. -/
def EndsSolid (t : Text) : Prop :=
  ∃ c, t.getLast? = some c ∧ isBlank c = false

theorem EndsSolid.not_blank {s : Text} {b : Char} (h : EndsSolid (s ++ [b])) :
    isBlank b ≠ true := by
  obtain ⟨c, hlast, hc⟩ := h
  rw [List.getLast?_concat] at hlast
  obtain rfl := Option.some.inj hlast
  exact Bool.eq_false_iff.mp hc

/-- A single word is a single token, which has no neighbour. -/
theorem not_attributes_of_solid {line : Text} (hplain : ∀ c ∈ line, isQuote c = false)
    (hsolid : ∀ c ∈ line, isBlank c = false) (n v : Token) : ¬ Attributes line n v := by
  intro h
  have hlength : 2 ≤ (tokens line).length := (attributes_iff.mp h).1.length_le
  have hwords := congrArg List.length (map_text_tokensFrom hplain 0)
  have hle : (words line).length ≤ 1 := by
    rw [words, Text.pieces_of_solid hsolid]
    exact List.length_filter_le _ _
  rw [List.length_map] at hwords
  rw [tokens] at hlength
  omega

section Word

variable {s w : Text} {b : Char} {n v : Token}

/-- A word without dashes leaves the active argument what it was in front of the word. -/
theorem activeArgument_cut (hb : isBlank b = true) (hw : ∀ c ∈ w, isBlank c = false) :
    activeArgument (s ++ b :: w) =
      if w.contains '-' then none else activeArgument (s ++ [b]) := by
  have hnil : ∀ c ∈ ([] : Text), isBlank c = false := List.forall_mem_nil _
  rw [activeArgument, activeArgument, typedWord_cut hb hw, completePieces_cut hb hw,
    typedWord_cut hb hnil, completePieces_cut hb hnil]
  split <;> rfl

/-- Behind white space the active argument is the last token, if that is dash-led and does not
start the line. -/
theorem activeArgument_blank_of_plain (hb : isBlank b = true)
    (hplain : ∀ c ∈ s, isQuote c = false) {name : Text} :
    activeArgument (s ++ [b]) = some name ↔
      ∃ t, (tokens s).getLast? = some t ∧ t.isDash = true ∧ t.text = name ∧ t.offset ≠ 0 := by
  have hend : EndsBlank (s ++ [b]) := ⟨b, List.getLast?_concat, hb⟩
  have hplain : ∀ c ∈ s ++ [b], isQuote c = false :=
    List.forall_mem_append.mpr ⟨hplain, List.forall_mem_singleton.mpr (isQuote_of_isBlank hb)⟩
  have htokens : tokens (s ++ [b]) = tokens s := by
    rw [tokens, tokensFrom_append hb (List.forall_mem_nil _)]
    exact List.append_nil _
  constructor
  · intro h
    obtain ⟨t, hlast, hdash, hname, i, c, hi, -⟩ := isApart_last_of_activeArgument hend h
    rw [htokens] at hlast
    exact ⟨t, hlast, hdash, hname, by omega⟩
  · rintro ⟨t, hlast, hdash, rfl, hstart⟩
    rw [← htokens] at hlast
    have hglued : ¬ t.IsGlued (s ++ [b]) := by
      rw [isGlued_iff_of_plain hplain (List.mem_of_getLast? hlast)]
      exact hstart
    exact activeArgument_of_isApart_last hend hlast hdash (isApart_of_not_isGlued hlast hglued)

/-- The word at the end of a line is a value if it is not dash-led and a parameter name is the last
token in front of it. -/
theorem attributes_last_iff (hb : isBlank b = true) (hne : w ≠ [])
    (hw : ∀ c ∈ w, isBlank c = false) (hplain : ∀ c ∈ w, isQuote c = false) :
    Attributes (s ++ b :: w) n v ∧ v.stop = (s ++ b :: w).length ↔
      v = ⟨w, s.length + 1⟩ ∧ (tokens s).getLast? = some n ∧ n.isDash = true ∧
        v.isDash = false := by
  have htokens : tokens (s ++ b :: w) = tokens s ++ [⟨w, s.length + 1⟩] := by
    have hword := tokensFrom_append_word hb hne hw hplain (List.forall_mem_nil _) s 0
    rwa [List.append_nil, Nat.zero_add] at hword
  have hlength : (s ++ b :: w).length = s.length + 1 + w.length := by
    rw [List.length_append, List.length_cons]
    omega
  rw [attributes_iff, htokens, hlength]
  constructor
  · rintro ⟨⟨hpair, hn, hv⟩, hstop⟩
    have h : Tokenization (s ++ b :: w) 0 (tokens s ++ [⟨w, s.length + 1⟩]) :=
      tokenization_iff.mpr htokens.symm
    have hpos := List.length_pos_iff.mpr hne
    -- A token in front of the last one ends before the line does.
    have hbefore : v ∉ tokens s := by
      intro hmem
      have hle := (List.pairwise_append.mp h.ordered).2.2 v hmem _ (List.mem_singleton_self _)
      change v.stop ≤ s.length + 1 at hle
      omega
    rcases List.infix_concat_iff.mp hpair with ⟨init, hinit⟩ | hpair
    · have hcut : (init ++ [n]) ++ [v] = tokens s ++ [⟨w, s.length + 1⟩] := by
        rw [List.append_assoc, List.singleton_append, hinit]
      obtain ⟨hfront, hback⟩ := List.append_inj' hcut rfl
      rw [← hfront, List.getLast?_concat]
      exact ⟨List.singleton_inj.mp hback, rfl, hn, hv⟩
    · exact absurd (hpair.subset (by simp)) hbefore
  · rintro ⟨rfl, hlast, hn, hv⟩
    obtain ⟨init, hinit⟩ := List.getLast?_eq_some_iff.mp hlast
    refine ⟨⟨⟨init, [], ?_⟩, hn, hv⟩, rfl⟩
    rw [hinit]
    simp

end Word

/-- At the end of a word in a line without quotes, the active argument is the parameter that the
word is given to as a value, unless there is a dash in the word or the parameter starts the line,
which makes it the first word. Where the word is no value there is no active argument. -/
theorem activeArgument_in_word (line : Text) (hplain : ∀ c ∈ line, isQuote c = false)
    (hend : EndsSolid line) :
    (∀ n v, Attributes line n v → v.stop = line.length →
      activeArgument line = if '-' ∈ v.text ∨ n.offset = 0 then none else some n.text) ∧
    ((∀ n v, Attributes line n v → v.stop ≠ line.length) → activeArgument line = none) ∧
    ∀ n v, Attributes line n v → n.offset = 0 → (words line).head? = some n.text := by
  have hfirst (n v : Token) (h : Attributes line n v) (hstart : n.offset = 0) :
      (words line).head? = some n.text := by
    have hmem : n ∈ tokens line := (attributes_iff.mp h).1.subset (by simp)
    exact head?_words_of_offset_zero hplain hmem hstart
  rcases Text.solid_or_cut line with hsolid | ⟨s, b, w, rfl, hb, hw⟩
  · have hactive : activeArgument line = none := by
      rw [activeArgument, completePieces_of_solid hsolid]
      split <;> rfl
    exact ⟨fun n v h => absurd h (not_attributes_of_solid hplain hsolid n v), fun _ => hactive,
      hfirst⟩
  · have hne : w ≠ [] := by
      rintro rfl
      exact hend.not_blank hb
    have hs : ∀ c ∈ s, isQuote c = false := fun c hc => hplain c (List.mem_append_left _ hc)
    have hword : ∀ c ∈ w, isQuote c = false :=
      fun c hc => hplain c (List.mem_append_right _ (List.mem_cons_of_mem b hc))
    have hvalue (n v : Token) := attributes_last_iff (s := s) (n := n) (v := v) hb hne hw hword
    rw [activeArgument_cut hb hw]
    simp only [List.contains_iff_mem]
    refine ⟨fun n v h hstop => ?_, fun hnone => ?_, hfirst⟩
    · obtain ⟨rfl, hlast, hn, hv⟩ := (hvalue n v).mp ⟨h, hstop⟩
      by_cases hdash : '-' ∈ w
      · rw [if_pos hdash, if_pos (.inl hdash)]
      · rw [if_neg hdash]
        by_cases hstart : n.offset = 0
        · rw [if_pos (.inr hstart), Option.eq_none_iff_forall_ne_some]
          intro name hname
          obtain ⟨t, ht, -, -, happart⟩ := (activeArgument_blank_of_plain hb hs).mp hname
          obtain rfl := Option.some.inj (hlast.symm.trans ht)
          exact happart hstart
        · rw [if_neg (not_or.mpr ⟨hdash, hstart⟩)]
          exact (activeArgument_blank_of_plain hb hs).mpr ⟨n, hlast, hn, rfl, hstart⟩
    · by_cases hdash : '-' ∈ w
      · rw [if_pos hdash]
      · rw [if_neg hdash, Option.eq_none_iff_forall_ne_some]
        intro name hname
        obtain ⟨t, hlast, ht, -, -⟩ := (activeArgument_blank_of_plain hb hs).mp hname
        have hv : Token.isDash ⟨w, s.length + 1⟩ = false := by
          rw [Token.isDash, Text.isDashLed, beq_eq_false_iff_ne]
          exact fun hhead => hdash (List.mem_of_head? hhead)
        obtain ⟨hgiven, hstop⟩ := (hvalue t _).mpr ⟨rfl, hlast, ht, hv⟩
        exact hnone t _ hgiven hstop

/-- The value is the last word of the line, and there is a dash in the name of its parameter. -/
theorem activeArgument_in_value :
    let line := "az vm create --vm-name foo".toList
    (∀ c ∈ line, isQuote c = false) ∧ EndsSolid line ∧
    Attributes line ⟨"--vm-name".toList, 13⟩ ⟨"foo".toList, 23⟩ ∧
    activeArgument line = some "--vm-name".toList := by
  intro line
  have hplain : ∀ c ∈ line, isQuote c = false := by
    have hall : line.all (fun c => !isQuote c) = true := by decide
    simpa using hall
  have hend : EndsSolid line := ⟨'o', by decide, by decide⟩
  have hgiven : Attributes line ⟨"--vm-name".toList, 13⟩ ⟨"foo".toList, 23⟩ :=
    ⟨[⟨.subcommand, "az".toList, 0⟩, ⟨.subcommand, "vm".toList, 3⟩,
      ⟨.subcommand, "create".toList, 6⟩], [], by decide⟩
  have hstop : Token.stop ⟨"foo".toList, 23⟩ = line.length := by decide
  have hdash : ¬ ('-' ∈ "foo".toList ∨ 13 = 0) := by decide
  obtain ⟨hactive, -⟩ := activeArgument_in_word line hplain hend
  refine ⟨hplain, hend, hgiven, ?_⟩
  rw [hactive _ _ hgiven hstop]
  exact if_neg hdash

/-- A dash behind the first character of a value hides its parameter from the cursor. -/
theorem activeArgument_misses_dashed_value :
    let line := "az vm create --name foo-bar".toList
    (∀ c ∈ line, isQuote c = false) ∧ (words line).head? = some "az".toList ∧ EndsSolid line ∧
    Attributes line ⟨"--name".toList, 13⟩ ⟨"foo-bar".toList, 20⟩ ∧
    Token.stop ⟨"foo-bar".toList, 20⟩ = line.length ∧
    activeArgument line ≠ some "--name".toList := by
  intro line
  have hplain : ∀ c ∈ line, isQuote c = false := by
    have hall : line.all (fun c => !isQuote c) = true := by decide
    simpa using hall
  refine ⟨hplain, by decide, ⟨'r', by decide, by decide⟩, ?_, by decide, by decide⟩
  exact ⟨[⟨.subcommand, "az".toList, 0⟩, ⟨.subcommand, "vm".toList, 3⟩,
    ⟨.subcommand, "create".toList, 6⟩], [], by decide⟩

end LineAssist.Line
