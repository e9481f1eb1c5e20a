import LineAssist.Proofs.Line.Nodes
import LineAssist.Proofs.Line.Subcommands

/-!
# The last token of a text

Behind white space without a quote after it the scan starts anew: whatever quotes stand in front,
none of them is closed there. So a word at the end of a text is its last token, and the active
argument, which is found by white space alone, agrees with the tokens.
-/

namespace LineAssist.Line

open Text (isBlank isQuote)

theorem isQuote_of_isBlank {b : Char} (hb : isBlank b = true) : isQuote b = false := by
  rw [Bool.eq_false_iff]
  intro hquote
  rw [isQuote, Bool.or_eq_true, beq_iff_eq, beq_iff_eq] at hquote
  rcases hquote with rfl | rfl <;> cases hb

theorem isRun_of_isBlank {b : Char} (hb : isBlank b = true) : isRun b = false := by
  rw [isRun, hb]
  rfl

/-! ## Texts without quotes at the end -/

section Append

variable {b : Char} {u : Text}

theorem takeWhile_append_of_neg {α : Type} {p : α → Bool} {a : α} (ha : p a = false)
    (l rest : List α) : (l ++ a :: rest).takeWhile p = l.takeWhile p := by
  have hstop : (a :: rest).takeWhile p = [] :=
    List.takeWhile_cons_of_neg (Bool.eq_false_iff.mp ha)
  rw [List.takeWhile_append, hstop]
  split
  case isTrue hall =>
    rw [List.append_nil]
    exact ((List.takeWhile_prefix p).eq_of_length hall).symm
  case isFalse => rfl

theorem lexeme_append (hb : isBlank b = true) (hu : ∀ c ∈ u, isQuote c = false) (c : Char)
    (rest : Text) : lexeme c (rest ++ b :: u) = lexeme c rest := by
  rcases lexeme_cases c rest with ⟨body, after, hc, hbody, rfl, hw⟩ | ⟨hopen, hw⟩
  · rw [hw, List.append_assoc, List.cons_append, lexeme_of_closed hc hbody]
  · have hplain : ∀ d ∈ b :: u, isQuote d = false :=
      List.forall_mem_cons.mpr ⟨isQuote_of_isBlank hb, hu⟩
    have hstill : isQuote c = true → c ∉ rest ++ b :: u := by
      intro hc hmem
      rcases List.mem_append.mp hmem with hmem | hmem
      · exact hopen hc hmem
      · rw [hplain c hmem] at hc
        cases hc
    rw [hw, lexeme_of_open hstill, takeWhile_append_of_neg (isRun_of_isBlank hb)]

/-- The tokens of a text that goes on behind white space without quotes are those of its two
parts. -/
theorem tokensFrom_append (hb : isBlank b = true) (hu : ∀ c ∈ u, isQuote c = false) (s : Text)
    (offset : Nat) : tokensFrom offset 0 (s ++ b :: u) =
      tokensFrom offset 0 s ++ tokensFrom (offset + s.length + 1) 0 u := by
  induction hn : s.length using Nat.strongRecOn generalizing s offset with
  | ind n ih =>
    subst hn
    cases s with
    | nil => exact tokensFrom_blank hb offset u
    | cons c rest =>
      rw [List.cons_append]
      cases hc : isBlank c with
      | true =>
        have hoffset : offset + 1 + rest.length + 1 = offset + (c :: rest).length + 1 := by
          rw [List.length_cons]
          omega
        rw [tokensFrom_blank hc, tokensFrom_blank hc, ih _ (Nat.lt_succ_self _) _ _ rfl, hoffset]
      | false =>
        have hle := (prefix_lexeme c rest).length_le
        have hpos : 0 < (lexeme c rest).length := by
          obtain ⟨w, hw⟩ := lexeme_eq_cons c rest
          rw [hw]
          exact Nat.succ_pos w.length
        have hdrop : (c :: (rest ++ b :: u)).drop (lexeme c rest).length =
            (c :: rest).drop (lexeme c rest).length ++ b :: u :=
          List.drop_append_of_le_length hle
        have hshorter : ((c :: rest).drop (lexeme c rest).length).length =
            (c :: rest).length - (lexeme c rest).length := List.length_drop
        have hoffset : offset + (lexeme c rest).length +
            ((c :: rest).drop (lexeme c rest).length).length + 1 =
            offset + (c :: rest).length + 1 := by omega
        rw [tokensFrom_lexeme hc, tokensFrom_lexeme hc, lexeme_append hb hu, hdrop,
          ih _ (by omega) _ _ rfl, hoffset, List.cons_append]

theorem tokensFrom_blanks {gap : Text} (hgap : ∀ c ∈ gap, isBlank c = true) (offset : Nat) :
    tokensFrom offset 0 gap = [] := by
  induction gap generalizing offset with
  | nil => rfl
  | cons b gap ih =>
    obtain ⟨hb, hrest⟩ := List.forall_mem_cons.mp hgap
    rw [tokensFrom_blank hb, ih hrest]

/-- A word without quotes between white space and the end of a text is a token. -/
theorem tokensFrom_append_word (hb : isBlank b = true) {w gap : Text} (hne : w ≠ [])
    (hsolid : ∀ c ∈ w, isBlank c = false) (hplain : ∀ c ∈ w, isQuote c = false)
    (hgap : ∀ c ∈ gap, isBlank c = true) (s : Text) (offset : Nat) :
    tokensFrom offset 0 (s ++ b :: (w ++ gap)) =
      tokensFrom offset 0 s ++ [⟨w, offset + s.length + 1⟩] := by
  have hquotes : ∀ c ∈ w ++ gap, isQuote c = false :=
    List.forall_mem_append.mpr ⟨hplain, fun c hc => isQuote_of_isBlank (hgap c hc)⟩
  have hstop : ∀ c, gap.head? = some c → isBlank c = true :=
    fun c hc => hgap c (List.mem_of_head? hc)
  rw [tokensFrom_append hb hquotes, tokensFrom_word hne hsolid hplain hstop,
    tokensFrom_blanks hgap]

end Append

/-! ## The last token -/

/-- White space stands directly in front of the token. -/
def Token.IsApart (input : Text) (t : Token) : Prop :=
  ∃ i b, t.offset = i + 1 ∧ input[i]? = some b ∧ isBlank b = true

/-- The token starts the line, or another token ends where it starts. -/
def Token.IsGlued (line : Text) (t : Token) : Prop :=
  t.offset = 0 ∨ ∃ s ∈ tokens line, s.stop = t.offset

instance (line : Text) (t : Token) : Decidable (t.IsGlued line) :=
  inferInstanceAs (Decidable (_ ∨ _))

theorem isParameterWord_iff {w : Text} :
    isParameterWord w = true ↔ w.isDashLed = true ∧ ∀ c ∈ w, isQuote c = false := by
  simp [isParameterWord]

section Last

variable {line : Text} {t : Token}

theorem Token.IsLexeme.isParameterWord (h : t.IsLexeme line) (ht : t.isDash = true) :
    isParameterWord t.text = true ∧ ∀ c ∈ t.text, isBlank c = false := by
  have hhead : t.text.head? = some '-' := by simpa [Token.isDash, Text.isDashLed] using ht
  obtain ⟨w, hw⟩ : ∃ w, t.text = '-' :: w := List.head?_eq_some_iff.mp hhead
  rcases h.shape with ⟨q, body, hq, -, hclosed⟩ | ⟨hrun, -, -⟩
  · rw [hclosed, List.head?_cons] at hhead
    obtain rfl := Option.some.inj hhead
    cases hq
  · refine ⟨isParameterWord_iff.mpr ⟨ht, ?_⟩, hrun.solid⟩
    have htail := hrun.unquoted
    rw [hw] at htail ⊢
    exact List.forall_mem_cons.mpr ⟨rfl, htail⟩

/-- The other tokens end in front of the last one. -/
theorem Tokenization.eq_or_stop_le {ts : List Token} (h : Tokenization line 0 ts)
    (hlast : ts.getLast? = some t) {s : Token} (hs : s ∈ ts) : s = t ∨ s.stop ≤ t.offset := by
  obtain ⟨init, rfl⟩ := List.getLast?_eq_some_iff.mp hlast
  rcases List.mem_append.mp hs with hs | hs
  · exact .inr ((List.pairwise_append.mp h.ordered).2.2 s hs t (List.mem_singleton_self t))
  · exact .inl (List.mem_singleton.mp hs)

theorem Tokenization.blank_behind_last {ts : List Token} (h : Tokenization line 0 ts)
    (hlast : ts.getLast? = some t) : ∀ c ∈ line.drop t.stop, isBlank c = true := by
  intro c hc
  obtain ⟨i, hi⟩ := List.mem_iff_getElem?.mp hc
  rw [List.getElem?_drop] at hi
  rw [← Bool.not_eq_false]
  intro hblank
  obtain ⟨s, hs, -, hstop⟩ := h.covers _ c (Nat.zero_le _) hi hblank
  have hle : t.offset ≤ t.stop := Nat.le_add_right _ _
  rcases h.eq_or_stop_le hlast hs with rfl | hbefore <;> omega

theorem isApart_of_not_isGlued (hlast : (tokens line).getLast? = some t)
    (hglued : ¬ t.IsGlued line) : t.IsApart line := by
  have h : Tokenization line 0 (tokens line) := tokenization_iff.mpr rfl
  simp only [Token.IsGlued, not_or, not_exists, not_and] at hglued
  obtain ⟨hstart, hend⟩ := hglued
  obtain ⟨i, hi⟩ := Nat.exists_eq_succ_of_ne_zero hstart
  obtain ⟨c, rest, hdrop, -, -⟩ :=
    Token.isLexeme_iff.mp (h.lexemes t (List.mem_of_getLast? hlast))
  have hlength : i < line.length := by
    have := congrArg List.length hdrop
    rw [List.length_drop, List.length_cons] at this
    omega
  refine ⟨i, _, hi, List.getElem?_eq_getElem hlength, ?_⟩
  rw [← Bool.not_eq_false]
  intro hblank
  obtain ⟨s, hs, hle, hlt⟩ :=
    h.covers i _ (Nat.zero_le i) (List.getElem?_eq_getElem hlength) hblank
  rcases h.eq_or_stop_le hlast hs with rfl | hbefore
  · omega
  · exact hend s hs (by omega)

end Last

/-! ## Texts that end in white space -/

/-- The last character is white space. -/
def EndsBlank (t : Text) : Prop :=
  ∃ b, t.getLast? = some b ∧ isBlank b = true

section EndsBlank

variable {line : Text} {t : Token} {n : Text}

theorem EndsBlank.eq_nil_of_solid {s w : Text} (h : EndsBlank (s ++ w))
    (hw : ∀ c ∈ w, isBlank c = false) : w = [] := by
  obtain ⟨b, hlast, hb⟩ := h
  rcases List.eq_nil_or_concat w with rfl | ⟨v, c, rfl⟩
  · rfl
  · rw [List.concat_eq_append, ← List.append_assoc, List.getLast?_concat] at hlast
    obtain rfl := Option.some.inj hlast
    rw [hw c (by simp)] at hb
    cases hb

theorem isApart_last_of_activeArgument (hend : EndsBlank line)
    (h : activeArgument line = some n) : ∃ t, (tokens line).getLast? = some t ∧
      t.isDash = true ∧ t.text = n ∧ t.IsApart line := by
  obtain ⟨hparameter, hsolid, before, b, gap, typed, rfl, hb, hne, hgap, htyped⟩ :=
    activeArgument_eq_some_iff.mp h
  obtain ⟨hdash, hplain⟩ := isParameterWord_iff.mp hparameter
  have hnonempty : n ≠ [] := by
    rintro rfl
    cases hdash
  have hnil : typed = [] := by
    have hassoc : before ++ b :: (n ++ (gap ++ typed)) = (before ++ b :: (n ++ gap)) ++ typed := by
      simp
    rw [hassoc] at hend
    exact hend.eq_nil_of_solid fun c hc => (htyped c hc).1
  subst hnil
  rw [List.append_nil]
  refine ⟨⟨n, before.length + 1⟩, ?_, hdash, rfl, before.length, b, rfl, ?_, hb⟩
  · rw [tokens, tokensFrom_append_word hb hnonempty hsolid hplain hgap, List.getLast?_concat,
      Nat.zero_add]
  · rw [List.getElem?_append_right (Nat.le_refl _), Nat.sub_self, List.getElem?_cons_zero]

theorem activeArgument_of_isApart_last (hend : EndsBlank line)
    (hlast : (tokens line).getLast? = some t) (hdash : t.isDash = true)
    (hapart : t.IsApart line) : activeArgument line = some t.text := by
  have h : Tokenization line 0 (tokens line) := tokenization_iff.mpr rfl
  have hlexeme := h.lexemes t (List.mem_of_getLast? hlast)
  obtain ⟨hparameter, hsolid⟩ := hlexeme.isParameterWord hdash
  obtain ⟨i, b, hi, hnext, hb⟩ := hapart
  have hcut : line = line.take i ++ b :: (t.text ++ line.drop t.stop) := by
    have htext : line.drop (i + 1) = t.text ++ line.drop t.stop := by
      have hparts := (List.take_append_drop t.length (line.drop t.offset)).symm
      rw [← hlexeme.text_eq, List.drop_drop, hi] at hparts
      rw [Token.stop, hi]
      exact hparts
    obtain ⟨hlt, hget⟩ := List.getElem?_eq_some_iff.mp hnext
    rw [← htext, ← hget, List.getElem_cons_drop, List.take_append_drop]
  have hgap : line.drop t.stop ≠ [] := by
    intro hnil
    rw [hnil, List.append_nil, ← List.singleton_append, ← List.append_assoc] at hcut
    rw [hcut] at hend
    exact hlexeme.nonempty (hend.eq_nil_of_solid hsolid)
  refine activeArgument_eq_some_iff.mpr ⟨hparameter, hsolid, line.take i, b, line.drop t.stop, [],
    ?_, hb, hgap, h.blank_behind_last hlast, List.forall_mem_nil _⟩
  rw [List.append_nil]
  exact hcut

end EndsBlank

/-- The text of the last node of a line if that is a parameter name. -/
def lastParameter (line : Text) : Option Text :=
  match (parse line).nodes.getLast? with
  | some ⟨.parameterName, t⟩ => some t.text
  | _ => none

theorem lastParameter_eq_some_iff {line n : Text} : lastParameter line = some n ↔
    ∃ t, (tokens line).getLast? = some t ∧ t.isDash = true ∧ t.text = n := by
  have hnode (t : Token) : (parse line).nodes.getLast? = some ⟨.parameterName, t⟩ ↔
      (tokens line).getLast? = some t ∧ t.isDash = true := getLast?_nodesFrom
  simp only [← and_assoc, ← hnode]
  rw [lastParameter]
  split
  case h_1 t hlast => simp [hlast]
  case h_2 hlast =>
    refine ⟨nofun, ?_⟩
    rintro ⟨t, ht, -⟩
    exact absurd ht (hlast t)

/-- Behind white space the active argument is the last token, if that is dash-led and white space
stands in front of it; where a dash-led last token is not glued, it is the last parameter name. -/
theorem activeArgument_at_blank (line : Text) (hend : EndsBlank line) :
    (∀ n, activeArgument line = some n ↔
      ∃ t, (tokens line).getLast? = some t ∧ t.isDash = true ∧ t.text = n ∧ t.IsApart line) ∧
    ((∀ t, (tokens line).getLast? = some t → t.isDash = true → ¬ t.IsGlued line) →
      activeArgument line = lastParameter line) := by
  have hactive (n : Text) : activeArgument line = some n ↔
      ∃ t, (tokens line).getLast? = some t ∧ t.isDash = true ∧ t.text = n ∧ t.IsApart line := by
    refine ⟨isApart_last_of_activeArgument hend, ?_⟩
    rintro ⟨t, hlast, hdash, rfl, hapart⟩
    exact activeArgument_of_isApart_last hend hlast hdash hapart
  refine ⟨hactive, fun hglued => Option.ext fun n => ?_⟩
  rw [hactive, lastParameter_eq_some_iff]
  constructor
  · rintro ⟨t, hlast, hdash, hn, -⟩
    exact ⟨t, hlast, hdash, hn⟩
  · rintro ⟨t, hlast, hdash, hn⟩
    exact ⟨t, hlast, hdash, hn, isApart_of_not_isGlued hlast (hglued t hlast hdash)⟩

/-- A quote that is never closed and a closed one stand in front of the parameter. -/
theorem activeArgument_behind_quotes :
    let line := "az 'a \"-x\" -n ".toList
    EndsBlank line ∧
    (∀ t, (tokens line).getLast? = some t → t.isDash = true → ¬ t.IsGlued line) ∧
    activeArgument line = some "-n".toList ∧ lastParameter line = some "-n".toList := by
  intro line
  have hend : EndsBlank line := ⟨' ', by decide, by decide⟩
  have hlast : (tokens line).getLast? = some ⟨"-n".toList, 11⟩ := by decide
  have hglued : ∀ t, (tokens line).getLast? = some t → t.isDash = true → ¬ t.IsGlued line := by
    intro t ht _
    obtain rfl := Option.some.inj (hlast.symm.trans ht)
    decide
  obtain ⟨hactive, hsame⟩ := activeArgument_at_blank line hend
  have hargument : activeArgument line = some "-n".toList := by
    refine (hactive _).mpr ⟨_, hlast, by decide, rfl, 10, ' ', rfl, ?_, ?_⟩ <;> decide
  exact ⟨hend, hglued, hargument, (hsame hglued).symm.trans hargument⟩

end LineAssist.Line
