import LineAssist.Line.QueryParameter
import LineAssist.Proofs.Line.Attribution
import LineAssist.Proofs.Line.Truncation

/-!
# The query and the nodes of its line

The query is found by its parameter name and the white space around it, without regard to what
stands in front. The value that is found is a token of the line, and it is given to the parameter
exactly if the name is not inside a closed quoted token and the value is not dash-led.
-/

namespace LineAssist.Line

open Text (isBlank isQuote)

/-! ## What is found -/

theorem eq_append_of_stripStart? {start t rest : Text} (h : Text.stripStart? start t = some rest) :
    t = start ++ rest := by
  induction start generalizing t with
  | nil => exact Option.some.inj h
  | cons p start ih =>
    cases t with
    | nil => cases h
    | cons c t =>
      rw [Text.stripStart?] at h
      split at h
      case isTrue hc => rw [hc, List.cons_append, ih h]
      case isFalse => cases h

section Found

variable {t q : Text}

theorem unquote_closed {c : Char} {body : Text} (hc : isQuote c = true) :
    unquote (c :: (body ++ [c])) = body := by
  have hquoted : isQuoted (c :: (body ++ [c])) = true := by
    cases body with
    | nil => simp [isQuoted, hc]
    | cons d body =>
      simp only [isQuoted, List.cons_append, hc, Bool.true_and, beq_iff_eq]
      exact List.getLast?_concat (l := d :: body)
  rw [unquote, if_pos hquoted, List.tail_cons, List.dropLast_concat]

theorem unquote_of_head {c : Char} {w : Text} (hc : isQuote c = false) :
    unquote (c :: w) = c :: w := by
  rw [unquote, if_neg]
  cases w <;> simp [isQuoted, hc]

/-- The value of a query is a token without its quotes. -/
theorem queryValue?_eq_some (h : queryValue? t = some q) :
    ∃ c rest, t = c :: rest ∧ isBlank c = false ∧ unquote (lexeme c rest) = q := by
  cases t with
  | nil => cases h
  | cons c rest =>
    refine ⟨c, rest, rfl, ?_⟩
    rw [queryValue?] at h
    split at h
    case isTrue hquote =>
      obtain ⟨⟨body, after⟩, hcut, rfl⟩ := Option.map_eq_some_iff.mp h
      obtain ⟨rfl, hbody⟩ := Text.cut?_eq_some_iff.mp hcut
      refine ⟨?_, ?_⟩
      · rw [← Bool.not_eq_true]
        intro hblank
        rw [isQuote_of_isBlank hblank] at hquote
        cases hquote
      · rw [lexeme_of_closed hquote hbody, unquote_closed hquote]
    case isFalse hquote =>
      split at h
      case isTrue => cases h
      case isFalse hblank =>
        have hblank : isBlank c = false := Bool.eq_false_iff.mpr hblank
        have hquote : isQuote c = false := Bool.eq_false_iff.mpr hquote
        have hopen : isQuote c = true → c ∉ rest := fun hc => absurd (hquote.symm.trans hc) Bool.false_ne_true
        refine ⟨hblank, ?_⟩
        rw [lexeme_of_open hopen, unquote_of_head hquote, ← Option.some.inj h,
          List.takeWhile_cons_of_pos (isRun_iff.mpr ⟨hblank, hquote⟩)]

theorem queryAt?_eq_some (h : queryAt? t = some q) :
    ∃ gap c rest, t = queryParameter ++ (gap ++ c :: rest) ∧ gap ≠ [] ∧
      (∀ b ∈ gap, isBlank b = true) ∧ isBlank c = false ∧ unquote (lexeme c rest) = q := by
  rw [queryAt?] at h
  split at h
  case h_1 b more hstrip =>
    split at h
    case isFalse => cases h
    case isTrue hb =>
      obtain ⟨c, rest, hvalue, hc, hq⟩ := queryValue?_eq_some h
      refine ⟨b :: more.takeWhile isBlank, c, rest, ?_, List.cons_ne_nil _ _, ?_, hc, hq⟩
      · rw [eq_append_of_stripStart? hstrip, ← hvalue, List.cons_append,
          List.takeWhile_append_dropWhile]
      · refine List.forall_mem_cons.mpr ⟨hb, fun d hd => ?_⟩
        exact List.all_eq_true.mp List.all_takeWhile d hd
  case h_2 => cases h

/-- The query that is found is the value behind a parameter name with white space on both sides. -/
theorem findQuery_eq_some (h : findQuery t = some q) :
    ∃ before b gap c rest, t = before ++ b :: (queryParameter ++ (gap ++ c :: rest)) ∧
      isBlank b = true ∧ gap ≠ [] ∧ (∀ b ∈ gap, isBlank b = true) ∧ isBlank c = false ∧
      unquote (lexeme c rest) = q := by
  induction t with
  | nil => cases h
  | cons b t ih =>
    rw [findQuery] at h
    split at h
    case h_1 found hfound =>
      obtain rfl := Option.some.inj h
      split at hfound
      case isFalse => cases hfound
      case isTrue hb =>
        obtain ⟨gap, c, rest, rfl, hvalue⟩ := queryAt?_eq_some hfound
        exact ⟨[], b, gap, c, rest, rfl, hb, hvalue⟩
    case h_2 =>
      obtain ⟨before, b', gap, c, rest, rfl, hvalue⟩ := ih h
      exact ⟨b :: before, b', gap, c, rest, rfl, hvalue⟩

end Found

/-! ## The tokens behind an offset -/

section Tokens

variable {line : Text} {s t : Token}

theorem Tokenization.eq_or_apart {ts : List Token} (h : Tokenization line 0 ts) (hs : s ∈ ts)
    (ht : t ∈ ts) : s = t ∨ s.stop ≤ t.offset ∨ t.stop ≤ s.offset := by
  obtain ⟨init, more, rfl⟩ := List.append_of_mem ht
  obtain ⟨-, hmore, hinit⟩ := List.pairwise_append.mp h.ordered
  rcases List.mem_append.mp hs with hs | hs
  · exact .inr (.inl (hinit s hs t List.mem_cons_self))
  · rcases List.mem_cons.mp hs with rfl | hs
    · exact .inl rfl
    · exact .inr (.inr ((List.pairwise_cons.mp hmore).1 s hs))

/-- From each of its tokens on a line is scanned as if it started there. -/
theorem tokens_of_mem (ht : t ∈ tokens line) :
    ∃ init, tokens line = init ++ tokensFrom t.offset 0 (line.drop t.offset) := by
  have h : Tokenization line 0 (tokens line) := tokenization_iff.mpr rfl
  obtain ⟨init, more, hcut⟩ := List.append_of_mem ht
  rw [hcut] at h
  obtain ⟨-, hmore, hinit⟩ := List.pairwise_append.mp h.ordered
  refine ⟨init, ?_⟩
  have hrest : Tokenization line t.offset (t :: more) := by
    refine ⟨?_, hmore, fun s hs => h.lexemes s (List.mem_append_right init hs), ?_⟩
    · refine List.forall_mem_cons.mpr ⟨Nat.le_refl _, fun s hs => ?_⟩
      exact Nat.le_trans (Nat.le_add_right _ _) ((List.pairwise_cons.mp hmore).1 s hs)
    · intro i c hi hc hblank
      obtain ⟨s, hs, hle, hlt⟩ := h.covers i c (Nat.zero_le i) hc hblank
      rcases List.mem_append.mp hs with hs | hs
      · have hbefore := hinit s hs t List.mem_cons_self
        omega
      · exact ⟨s, hs, hle, hlt⟩
  rw [hcut, tokenization_iff.mp hrest]

theorem tokensFrom_gap {gap : Text} (hgap : ∀ c ∈ gap, isBlank c = true) (offset : Nat)
    (rest : Text) : tokensFrom offset 0 (gap ++ rest) = tokensFrom (offset + gap.length) 0 rest := by
  induction gap generalizing offset with
  | nil => rfl
  | cons b gap ih =>
    obtain ⟨hb, hrest⟩ := List.forall_mem_cons.mp hgap
    rw [List.cons_append, tokensFrom_blank hb, ih hrest, List.length_cons]
    congr 1
    omega

/-- Behind white space a character starts a token unless it is inside a closed quoted one. -/
theorem exists_token_at {before rest : Text} {b c : Char} (hb : isBlank b = true)
    (hc : isBlank c = false) (hline : line = before ++ b :: c :: rest)
    (houtside : OutsideQuotes line (before.length + 1)) :
    ∃ t ∈ tokens line, t.offset = before.length + 1 := by
  have h : Tokenization line 0 (tokens line) := tokenization_iff.mpr rfl
  have hback : (line)[before.length]? = some b := by simp [hline]
  have hhere : (line)[before.length + 1]? = some c := by simp [hline]
  obtain ⟨t, ht, hle, hlt⟩ := h.covers _ c (Nat.zero_le _) hhere hc
  refine ⟨t, ht, Nat.le_antisymm hle (Nat.le_of_not_lt fun hinside => ?_)⟩
  have hlexeme := h.lexemes t ht
  rcases hlexeme.shape with hclosed | ⟨hrun, -, -⟩
  · exact houtside t ht ((isQuoted_iff (.inl hclosed)).mpr hclosed) ⟨hinside, hlt⟩
  · -- An open token has no white space, but this one goes over what stands in front.
    have hmem : b ∈ t.text := by
      rw [hlexeme.text_eq]
      refine List.mem_of_getElem? (i := before.length - t.offset) ?_
      have hlength : before.length - t.offset < t.length := by
        rw [Token.stop] at hlt
        omega
      rw [List.getElem?_take_of_lt hlength, List.getElem?_drop, ← hback]
      congr 1
      omega
    rw [hrun.solid b hmem] at hb
    cases hb

/-- A parameter name between white space, and the token behind it, outside of closed quotes. -/
theorem infix_tokens_iff {before name gap rest : Text} {b c : Char} (hb : isBlank b = true)
    (hname : isParameterWord name = true) (hsolid : ∀ d ∈ name, isBlank d = false) (hne : gap ≠ [])
    (hgap : ∀ d ∈ gap, isBlank d = true) (hc : isBlank c = false)
    (hline : line = before ++ b :: (name ++ (gap ++ c :: rest))) :
    [⟨name, before.length + 1⟩,
      ⟨lexeme c rest, before.length + 1 + name.length + gap.length⟩] <:+: tokens line ↔
      OutsideQuotes line (before.length + 1) := by
  have h : Tokenization line 0 (tokens line) := tokenization_iff.mpr rfl
  obtain ⟨hdash, hplain⟩ := isParameterWord_iff.mp hname
  obtain ⟨d, w, rfl⟩ : ∃ d w, name = d :: w := List.exists_cons_of_ne_nil (by rintro rfl; cases hdash)
  constructor
  · intro hpair t ht hquoted hinside
    have hmem : ⟨d :: w, before.length + 1⟩ ∈ tokens line := hpair.subset (by simp)
    have hpos : before.length + 1 < Token.stop ⟨d :: w, before.length + 1⟩ :=
      (h.lexemes _ hmem).offset_lt_stop
    rcases h.eq_or_apart hmem ht with rfl | hafter | hbefore
    · exact Nat.lt_irrefl _ hinside.1
    · omega
    · exact absurd hinside.2 (Nat.not_lt.mpr hbefore)
  · intro houtside
    obtain ⟨t, ht, hoffset⟩ :=
      exists_token_at hb (hsolid d List.mem_cons_self) hline houtside
    obtain ⟨init, hinit⟩ := tokens_of_mem ht
    have hdrop : line.drop t.offset = (d :: w) ++ (gap ++ c :: rest) := by
      rw [hoffset, hline, List.drop_append, List.drop_of_length_le (by omega), List.nil_append]
      simp
    have hstop : ∀ x, (gap ++ c :: rest).head? = some x → isBlank x = true := by
      intro x hx
      obtain ⟨g, gap, rfl⟩ := List.exists_cons_of_ne_nil hne
      obtain rfl := Option.some.inj hx
      exact hgap _ List.mem_cons_self
    rw [hinit, hdrop, hoffset, tokensFrom_word (List.cons_ne_nil d w) hsolid hplain hstop,
      tokensFrom_gap hgap, tokensFrom_lexeme hc]
    exact ⟨init, _, by rw [List.append_assoc]; rfl⟩

end Tokens

/-- A query that is found on a line is a token without its quotes, behind a parameter name. The name
and the value are neighbouring nodes exactly if the name is not inside a closed quoted token and the
value is not dash-led. -/
theorem extractQuery_attributed (line q : Text) (h : extractQuery line = some q) :
    ∃ before b gap value after,
      line = before ++ b :: (queryParameter ++ (gap ++ (value ++ after))) ∧
      isBlank b = true ∧ gap ≠ [] ∧ (∀ c ∈ gap, isBlank c = true) ∧ unquote value = q ∧
      (Attributes line ⟨queryParameter, before.length + 1⟩
          ⟨value, before.length + 1 + queryParameter.length + gap.length⟩ ↔
        OutsideQuotes line (before.length + 1) ∧ value.isDashLed = false) := by
  have hfound : findQuery line = some q := by
    rw [extractQuery] at h
    split at h
    case h_1 c found hfound => rw [hfound, Option.some.inj h]
    case h_2 => cases h
  obtain ⟨before, b, gap, c, rest, hline, hb, hne, hgap, hc, hq⟩ := findQuery_eq_some hfound
  obtain ⟨after, hafter⟩ := prefix_lexeme c rest
  refine ⟨before, b, gap, lexeme c rest, after, ?_, hb, hne, hgap, hq, ?_⟩
  · rw [hafter]
    exact hline
  · have hname : isParameterWord queryParameter = true := by decide
    have hsolid : ∀ d ∈ queryParameter, isBlank d = false := by
      have hall : queryParameter.all (fun d => !isBlank d) = true := by decide
      simpa using hall
    rw [attributes_iff, infix_tokens_iff hb hname hsolid hne hgap hc hline]
    exact ⟨fun h => ⟨h.1, h.2.2⟩, fun h => ⟨h.1, rfl, h.2⟩⟩

/-- The name stands behind a closed quoted token, and the value is quoted. -/
theorem extractQuery_behind_quotes :
    let line := "az vm 'a b' --query \"[0].id\" -o json".toList
    extractQuery line = some "[0].id".toList ∧
    ∃ before b gap value after,
      line = before ++ b :: (queryParameter ++ (gap ++ (value ++ after))) ∧
      isBlank b = true ∧ gap ≠ [] ∧ (∀ c ∈ gap, isBlank c = true) ∧
      unquote value = "[0].id".toList ∧
      (Attributes line ⟨queryParameter, before.length + 1⟩
          ⟨value, before.length + 1 + queryParameter.length + gap.length⟩ ↔
        OutsideQuotes line (before.length + 1) ∧ value.isDashLed = false) := by
  intro line
  have h : extractQuery line = some "[0].id".toList := by decide
  exact ⟨h, extractQuery_attributed line _ h⟩

/-- A parameter behind the name of the query is taken for its value, and a text inside quotes for a
query. -/
theorem extractQuery_beyond_nodes :
    (extractQuery "az vm list --query -o json".toList = some "-o".toList ∧
      ¬ ∃ n v, Attributes "az vm list --query -o json".toList n v ∧ n.text = queryParameter ∧
        unquote v.text = "-o".toList) ∧
    extractQuery "az vm create --tags \"a --query b\"".toList = some "b".toList ∧
      ¬ ∃ n v, Attributes "az vm create --tags \"a --query b\"".toList n v ∧
        n.text = queryParameter ∧ unquote v.text = "b".toList := by
  refine ⟨⟨by decide, ?_⟩, by decide, ?_⟩
  · have hvalues : ∀ v ∈ tokens "az vm list --query -o json".toList, v.isDash = false →
        unquote v.text ≠ "-o".toList := by decide
    rintro ⟨n, v, hgiven, -, hv⟩
    obtain ⟨hpair, -, hplain⟩ := attributes_iff.mp hgiven
    exact hvalues v (hpair.subset (by simp)) hplain hv
  · have hnames : ∀ n ∈ tokens "az vm create --tags \"a --query b\"".toList,
        n.text ≠ queryParameter := by decide
    rintro ⟨n, v, hgiven, hn, -⟩
    exact hnames n ((attributes_iff.mp hgiven).1.subset (by simp)) hn

end LineAssist.Line
