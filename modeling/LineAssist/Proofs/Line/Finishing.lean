import LineAssist.Proofs.Line.Arguments
import LineAssist.Proofs.Line.Keystroke
import LineAssist.Proofs.Line.LastToken
import LineAssist.Proofs.Text.Words

/-!
# Words that are finished

A typed word is finished by the characters that it still lacks and a space. What is known behind
the space depends on the whole word and on what stood in front of it.
-/

namespace LineAssist.Line

open Text (isBlank isQuote IsWord)

theorem isWord_of_mem_subcommandWords {t w : Text} (h : w ∈ subcommandWords t) : w.IsWord := by
  have hcomplete := (List.takeWhile_sublist _).subset h
  have hpieces : (completePieces t).Sublist (Text.pieces t) := List.dropLast_sublist _
  exact Text.isWord_of_mem_words ((hpieces.filter _).subset hcomplete)

theorem completePieces_ne_nil {t : Text} (h : subcommandWords t ≠ []) : completePieces t ≠ [] := by
  intro hnil
  rw [subcommandWords, hnil] at h
  exact h rfl

/-- Where no word is dash-led, no parameter waits for a value. -/
theorem activeArgument_of_plain {t : Text}
    (h : (completePieces t).any Text.isDashLed = false) : activeArgument t = none := by
  rw [activeArgument]
  split
  case isTrue => rfl
  case isFalse =>
    split
    case h_1 w hlast =>
      have hmem : w ∈ completePieces t :=
        List.mem_of_mem_tail (List.mem_filter.mp (List.mem_of_getLast? hlast)).1
      have hplain : Text.isDashLed w = false :=
        Bool.eq_false_iff.mpr (List.any_eq_false.mp h w hmem)
      rw [isParameterWord, hplain]
      rfl
    case h_2 => rfl

/-- A text with complete words is cut by white space in front of its typed word. -/
theorem exists_cut {t : Text} (h : completePieces t ≠ []) :
    ∃ s b, t = s ++ b :: typedWord t ∧ isBlank b = true := by
  rcases Text.solid_or_cut t with ht | ⟨s, b, w, rfl, hb, hw⟩
  · exact absurd (completePieces_of_solid ht) h
  · exact ⟨s, b, by rw [typedWord_cut hb hw], hb⟩

section Extend

variable (t : Text) {u : Text}

theorem pieces_append_solid (hu : ∀ c ∈ u, isBlank c = false) :
    completePieces (t ++ u) = completePieces t ∧ typedWord (t ++ u) = typedWord t ++ u := by
  induction u generalizing t with
  | nil =>
    rw [List.append_nil, List.append_nil]
    exact ⟨rfl, rfl⟩
  | cons c u ih =>
    obtain ⟨hc, hrest⟩ := List.forall_mem_cons.mp hu
    obtain ⟨hcomplete, htyped⟩ := ih (t ++ [c]) hrest
    rw [List.append_assoc, List.singleton_append] at hcomplete htyped
    rw [hcomplete, htyped, completePieces_concat_solid t hc, typedWord_concat_solid t hc,
      List.append_assoc, List.singleton_append]
    exact ⟨rfl, rfl⟩

end Extend

section Finish

variable {t u : Text}

/-- A finished word is a further subcommand word if no parameter stands in front of it and it is
none itself. -/
theorem subcommandWords_finish (hu : ∀ c ∈ u, isBlank c = false) (hne : typedWord t ++ u ≠ []) :
    subcommandWords (t ++ u ++ [' ']) =
      if (completePieces t).any Text.isDashLed = true ∨ (typedWord t ++ u).isDashLed = true then
        subcommandWords t
      else subcommandWords t ++ [typedWord t ++ u] := by
  obtain ⟨hcomplete, htyped⟩ := pieces_append_solid t hu
  have hwords : subcommandWords (t ++ u) = subcommandWords t := by
    rw [subcommandWords, hcomplete, subcommandWords]
  rw [subcommandWords_concat_blank _ (by rfl), any_isDashLed_words, hcomplete, htyped, hwords]
  by_cases hdash :
      (completePieces t).any Text.isDashLed = true ∨ (typedWord t ++ u).isDashLed = true
  · rw [if_pos hdash, if_neg]
    rintro ⟨-, hplain⟩
    rw [Bool.or_eq_false_iff] at hplain
    rcases hdash with hdash | hdash
    · rw [hplain.1] at hdash
      cases hdash
    · rw [hplain.2] at hdash
      cases hdash
  · rw [if_neg hdash, if_pos]
    refine ⟨hne, ?_⟩
    rw [← Bool.not_eq_true, Bool.or_eq_true]
    exact hdash

/-- A finished word is the active argument if it is a parameter and does not start the text. -/
theorem activeArgument_finish (hu : ∀ c ∈ u, isBlank c = false) (hne : typedWord t ++ u ≠ []) :
    activeArgument (t ++ u ++ [' ']) =
      if isParameterWord (typedWord t ++ u) = true ∧ completePieces t ≠ [] then
        some (typedWord t ++ u)
      else none := by
  obtain ⟨hcomplete, htyped⟩ := pieces_append_solid t hu
  rw [activeArgument_concat_blank_of_word _ (by rfl) (by rwa [htyped]), htyped]
  have hstart : typedWord t ++ u ≠ t ++ u ↔ completePieces t ≠ [] := by
    rw [← htyped, ne_eq, ← completePieces_eq_nil_iff, hcomplete]
  simp only [hstart, isParameterWord, Bool.and_eq_true, Bool.not_eq_true', and_assoc]

end Finish

/-! ## Arguments -/

/-- What stands behind a parameter name is read on from it alone. -/
theorem argumentsFrom_append_dash {n : Token} (hn : n.isDash = true) (ts rest : List Token)
    (args : Arguments) (name : Option Text) : ∃ before,
      argumentsFrom args name (ts ++ n :: rest) =
        argumentsFrom (putEntry n.text none before) (some n.text) rest := by
  induction ts generalizing args name with
  | nil => exact ⟨args, argumentsFrom_dash name hn⟩
  | cons t ts ih =>
    cases name <;> rw [List.cons_append, argumentsFrom] <;> split <;> exact ih _ _

section Arguments

variable {s n : Text} {b : Char}

/-- A parameter name at the end of a text has no value, whatever it had in front. -/
theorem lookup_arguments_name (hb : isBlank b = true) (hn : isParameterWord n = true)
    (hsolid : ∀ c ∈ n, isBlank c = false) :
    lookup n (arguments (s ++ b :: (n ++ [' ']))) = some none := by
  obtain ⟨hdash, hplain⟩ := isParameterWord_iff.mp hn
  have hne : n ≠ [] := by
    rintro rfl
    cases hdash
  have hspace : ∀ c ∈ [' '], isBlank c = true := List.forall_mem_singleton.mpr rfl
  have hdash : Token.isDash ⟨n, 0 + s.length + 1⟩ = true := hdash
  obtain ⟨before, hbefore⟩ := argumentsFrom_append_dash hdash (tokensFrom 0 0 s) [] [] none
  rw [arguments, tokens, tokensFrom_append_word hb hne hsolid hplain hspace, hbefore,
    argumentsFrom, lookup_putEntry_self]

/-- A value at the end of a text is that of the parameter name in front of it. -/
theorem lookup_arguments_value {g v : Text} {b' : Char} (hb : isBlank b = true)
    (hn : isParameterWord n = true) (hsolid : ∀ c ∈ n, isBlank c = false)
    (hg : ∀ c ∈ g, isBlank c = true) (hb' : isBlank b' = true) (hv : v.IsWord)
    (hplain : ∀ c ∈ v, isQuote c = false) (hvalue : v.isDashLed = false) :
    lookup n (arguments ((s ++ b :: (n ++ g)) ++ b' :: (v ++ [' ']))) = some (some v) := by
  obtain ⟨hdash, hquotes⟩ := isParameterWord_iff.mp hn
  have hne : n ≠ [] := by
    rintro rfl
    cases hdash
  have hspace : ∀ c ∈ [' '], isBlank c = true := List.forall_mem_singleton.mpr rfl
  have hname : Token.isDash ⟨n, 0 + s.length + 1⟩ = true := hdash
  have htokens : tokensFrom 0 0 ((s ++ b :: (n ++ g)) ++ b' :: (v ++ [' '])) =
      tokensFrom 0 0 s ++ ⟨n, 0 + s.length + 1⟩ ::
        [⟨v, 0 + (s ++ b :: (n ++ g)).length + 1⟩] := by
    rw [tokensFrom_append_word hb' hv.nonempty hv.solid hplain hspace,
      tokensFrom_append_word hb hne hsolid hquotes hg, List.append_assoc]
    rfl
  obtain ⟨before, hbefore⟩ := argumentsFrom_append_dash hname (tokensFrom 0 0 s)
    [⟨v, 0 + (s ++ b :: (n ++ g)).length + 1⟩] [] none
  have hplainToken : Token.isDash ⟨v, 0 + (s ++ b :: (n ++ g)).length + 1⟩ = false := hvalue
  rw [arguments, tokens, htokens, hbefore, argumentsFrom_value n hplainToken, argumentsFrom,
    lookup_putEntry_self]

end Arguments

section Finish

variable {t u : Text}

theorem arguments_finish_name (hcomplete : completePieces t ≠ [])
    (hsolid : ∀ c ∈ typedWord t ++ u, isBlank c = false)
    (hparameter : isParameterWord (typedWord t ++ u) = true) :
    lookup (typedWord t ++ u) (arguments (t ++ u ++ [' '])) = some none := by
  obtain ⟨s, b, ht, hb⟩ := exists_cut hcomplete
  have htext : t ++ u ++ [' '] = s ++ b :: (typedWord t ++ u ++ [' ']) := by
    conv_lhs => rw [ht]
    simp
  rw [htext]
  exact lookup_arguments_name hb hparameter hsolid

theorem arguments_finish_value {a : Text} (hactive : activeArgument t = some a)
    (hword : IsWord (typedWord t ++ u)) (hplain : ∀ c ∈ typedWord t ++ u, isQuote c = false)
    (hvalue : Text.isDashLed (typedWord t ++ u) = false) :
    lookup a (arguments (t ++ u ++ [' '])) = some (some (typedWord t ++ u)) := by
  obtain ⟨hparameter, hsolid, before, b, gap, typed, rfl, hb, hne, hgap, htyped⟩ :=
    activeArgument_eq_some_iff.mp hactive
  obtain ⟨g, b', rfl⟩ : ∃ g b', gap = g ++ [b'] :=
    ⟨gap.dropLast, gap.getLast hne, (List.dropLast_concat_getLast hne).symm⟩
  obtain ⟨hg, hb'⟩ := List.forall_mem_append.mp hgap
  have hb' := List.forall_mem_singleton.mp hb'
  have hcut : before ++ b :: (a ++ (g ++ [b'] ++ typed)) =
      (before ++ b :: (a ++ g)) ++ b' :: typed := by simp
  rw [hcut, typedWord_cut hb' fun c hc => (htyped c hc).1] at hword hplain hvalue ⊢
  rw [List.append_assoc _ _ u, List.cons_append, List.append_assoc _ _ [' '], List.cons_append]
  exact lookup_arguments_value hb hparameter hsolid hg hb' hword hplain hvalue

end Finish

end LineAssist.Line
