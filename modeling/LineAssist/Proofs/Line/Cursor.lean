import LineAssist.Line.Context
import LineAssist.Proofs.Text.Parts

/-!
# What stands in front of a cursor

The typed word, the subcommand words and the active argument of a text, told by how the text is
made up of words and white space.
-/

namespace LineAssist.Line

open Text (isBlank isQuote pieces words)

theorem completePieces_of_solid {w : Text} (hw : ∀ c ∈ w, isBlank c = false) :
    completePieces w = [] := by
  rw [completePieces, Text.pieces_of_solid hw, List.dropLast_singleton]

theorem typedWord_of_solid {w : Text} (hw : ∀ c ∈ w, isBlank c = false) : typedWord w = w := by
  rw [typedWord, Text.pieces_of_solid hw, List.getLast?_singleton, Option.getD_some]

section Cut

variable {s w : Text} {b : Char}

theorem completePieces_append_blank (s : Text) (hb : isBlank b = true) (rest : Text) :
    completePieces (s ++ b :: rest) = pieces s ++ completePieces rest := by
  rw [completePieces, Text.pieces_append_blank s hb,
    List.dropLast_append_of_ne_nil (Text.pieces_ne_nil rest), completePieces]

theorem completePieces_cut (hb : isBlank b = true) (hw : ∀ c ∈ w, isBlank c = false) :
    completePieces (s ++ b :: w) = pieces s := by
  rw [completePieces_append_blank s hb, completePieces_of_solid hw, List.append_nil]

theorem typedWord_cut (hb : isBlank b = true) (hw : ∀ c ∈ w, isBlank c = false) :
    typedWord (s ++ b :: w) = w := by
  rw [typedWord, Text.pieces_append_blank s hb, Text.pieces_of_solid hw, List.getLast?_concat,
    Option.getD_some]

end Cut

theorem pieces_eq (t : Text) : pieces t = completePieces t ++ [typedWord t] := by
  rcases Text.solid_or_cut t with ht | ⟨s, b, w, rfl, hb, hw⟩
  · rw [completePieces_of_solid ht, typedWord_of_solid ht, Text.pieces_of_solid ht, List.nil_append]
  · rw [completePieces_cut hb hw, typedWord_cut hb hw, Text.pieces_append_blank s hb,
      Text.pieces_of_solid hw]

theorem completePieces_eq_nil_iff {t : Text} : completePieces t = [] ↔ typedWord t = t := by
  rcases Text.solid_or_cut t with ht | ⟨s, b, w, rfl, hb, hw⟩
  · exact ⟨fun _ => typedWord_of_solid ht, fun _ => completePieces_of_solid ht⟩
  · rw [completePieces_cut hb hw, typedWord_cut hb hw]
    refine ⟨fun h => absurd h (Text.pieces_ne_nil s), fun h => ?_⟩
    have hlength := congrArg List.length h
    simp only [List.length_append, List.length_cons] at hlength
    omega

/-! ## Subcommand words -/

section Subcommands

variable {w : Text} {b : Char}

theorem subcommandWords_of_solid (hw : ∀ c ∈ w, isBlank c = false) : subcommandWords w = [] := by
  rw [subcommandWords, completePieces_of_solid hw]
  rfl

theorem subcommandWords_blank (hb : isBlank b = true) (rest : Text) :
    subcommandWords (b :: rest) = subcommandWords rest := by
  have hpieces : completePieces (b :: rest) = [[]] ++ completePieces rest :=
    completePieces_append_blank [] hb rest
  rw [subcommandWords, hpieces, subcommandWords]
  rfl

theorem subcommandWords_word (hne : w ≠ []) (hw : ∀ c ∈ w, isBlank c = false)
    (hb : isBlank b = true) (rest : Text) :
    subcommandWords (w ++ b :: rest) = if w.isDashLed then [] else w :: subcommandWords rest := by
  have hfilter : [w].filter (fun p => !p.isEmpty) = [w] := by simpa using hne
  rw [subcommandWords, completePieces_append_blank w hb, Text.pieces_of_solid hw,
    List.filter_append, hfilter, List.singleton_append]
  split
  case isTrue hdash => rw [List.takeWhile_cons_of_neg (by simpa using hdash)]
  case isFalse hdash => rw [List.takeWhile_cons_of_pos (by simpa using hdash), subcommandWords]

end Subcommands

/-! ## The active argument -/

/-- The last word that does not start the text. -/
theorem getLast?_tail_pieces {t n : Text} :
    ((pieces t).tail.filter fun w => !w.isEmpty).getLast? = some n ↔
      n ≠ [] ∧ (∀ c ∈ n, isBlank c = false) ∧
      ∃ before b gap, t = before ++ b :: (n ++ gap) ∧ isBlank b = true ∧
        ∀ c ∈ gap, isBlank c = true := by
  constructor
  · intro h
    induction hn : t.length using Nat.strongRecOn generalizing t with
    | ind k ih =>
      rcases Text.solid_or_cut t with ht | ⟨s, b, w, rfl, hb, hw⟩
      · rw [Text.pieces_of_solid ht] at h
        cases h
      · rw [Text.pieces_append_blank s hb, Text.pieces_of_solid hw,
          List.tail_append_of_ne_nil (Text.pieces_ne_nil s), List.filter_append] at h
        by_cases hempty : w = []
        · subst hempty
          simp only [List.length_append, List.length_cons] at hn
          obtain ⟨hne, hsolid, before, b', gap, rfl, hb', hgap⟩ :=
            ih s.length (by omega) (by simpa using h) rfl
          refine ⟨hne, hsolid, before, b', gap ++ [b], ?_, hb', ?_⟩
          · simp
          · exact List.forall_mem_append.mpr ⟨hgap, List.forall_mem_singleton.mpr hb⟩
        · have hfilter : [w].filter (fun w => !w.isEmpty) = [w] := by simpa using hempty
          rw [hfilter, List.getLast?_concat] at h
          obtain rfl := Option.some.inj h
          exact ⟨hempty, hw, s, b, [], by rw [List.append_nil], hb, List.forall_mem_nil _⟩
  · rintro ⟨hne, hsolid, before, b, gap, rfl, hb, hgap⟩
    have hwords : (pieces (n ++ gap)).filter (fun w => !w.isEmpty) = [n] :=
      Text.words_append_blanks hne hsolid hgap
    rw [Text.pieces_append_blank before hb, List.tail_append_of_ne_nil (Text.pieces_ne_nil before),
      List.filter_append, hwords, List.getLast?_concat]

/-- The active argument is a dash-led word without quotes, with white space in front of it and
nothing but white space and a word without dashes behind it. -/
theorem activeArgument_eq_some_iff {t n : Text} :
    activeArgument t = some n ↔ isParameterWord n = true ∧ (∀ c ∈ n, isBlank c = false) ∧
      ∃ before b gap typed, t = before ++ b :: (n ++ (gap ++ typed)) ∧ isBlank b = true ∧
        gap ≠ [] ∧ (∀ c ∈ gap, isBlank c = true) ∧ ∀ c ∈ typed, isBlank c = false ∧ c ≠ '-' := by
  constructor
  · intro h
    rcases Text.solid_or_cut t with ht | ⟨s, b', w, rfl, hb', hw⟩
    · rw [activeArgument, completePieces_of_solid ht] at h
      split at h <;> cases h
    · rw [activeArgument, typedWord_cut hb' hw, completePieces_cut hb' hw] at h
      split at h
      · cases h
      · rename_i hdash
        split at h
        case h_2 => cases h
        case h_1 v hlast =>
          split at h
          case isFalse => cases h
          case isTrue hparameter =>
            obtain rfl := Option.some.inj h
            obtain ⟨-, hsolid, before, b, gap, rfl, hb, hgap⟩ := getLast?_tail_pieces.mp hlast
            refine ⟨hparameter, hsolid, before, b, gap ++ [b'], w, by simp, hb, by simp,
              List.forall_mem_append.mpr ⟨hgap, List.forall_mem_singleton.mpr hb'⟩, ?_⟩
            intro c hc
            refine ⟨hw c hc, ?_⟩
            rintro rfl
            exact hdash (List.contains_iff_mem.mpr hc)
  · rintro ⟨hparameter, hsolid, before, b, gap, typed, rfl, hb, hne, hgap, htyped⟩
    obtain ⟨g, b', rfl⟩ : ∃ g b', gap = g ++ [b'] :=
      ⟨gap.dropLast, gap.getLast hne, (List.dropLast_concat_getLast hne).symm⟩
    obtain ⟨hblanks, hlast⟩ := List.forall_mem_append.mp hgap
    have hb' := List.forall_mem_singleton.mp hlast
    have hcut : before ++ b :: (n ++ (g ++ [b'] ++ typed)) =
        (before ++ b :: (n ++ g)) ++ b' :: typed := by simp
    have hnonempty : n ≠ [] := by
      rintro rfl
      cases hparameter
    have hword := getLast?_tail_pieces.mpr ⟨hnonempty, hsolid, before, b, g, rfl, hb, hblanks⟩
    have hplain : typed.contains '-' = false := by
      rw [Bool.eq_false_iff, Ne, List.contains_iff_mem]
      exact fun h => (htyped '-' h).2 rfl
    rw [hcut, activeArgument, typedWord_cut hb' fun c hc => (htyped c hc).1,
      completePieces_cut hb' fun c hc => (htyped c hc).1, hplain, hword]
    simp only [Bool.false_eq_true, if_false, hparameter, if_true]

end LineAssist.Line
