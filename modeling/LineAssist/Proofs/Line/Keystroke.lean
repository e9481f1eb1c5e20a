import LineAssist.Proofs.Line.Cursor

/-!
# The context after one more character

White space completes the word that is being typed, and any other character extends it. What is
known at a cursor depends on the text in front of it only through what was known one character
earlier, so the context can be kept while a line is typed.
-/

namespace LineAssist.Line

open Text (isBlank isQuote pieces words)

/-! ## Pieces -/

section Step

variable (t : Text) {c : Char}

theorem pieces_concat_blank (hc : isBlank c = true) : pieces (t ++ [c]) = pieces t ++ [[]] :=
  Text.pieces_append_blank t hc []

theorem completePieces_concat_blank (hc : isBlank c = true) :
    completePieces (t ++ [c]) = completePieces t ++ [typedWord t] := by
  rw [completePieces, pieces_concat_blank t hc, List.dropLast_concat, pieces_eq t]

theorem typedWord_concat_blank (hc : isBlank c = true) : typedWord (t ++ [c]) = [] := by
  rw [typedWord, pieces_concat_blank t hc, List.getLast?_concat, Option.getD_some]

theorem pieces_concat_solid (hc : isBlank c = false) :
    pieces (t ++ [c]) = completePieces t ++ [typedWord t ++ [c]] := by
  rcases Text.solid_or_cut t with ht | ⟨s, b, w, rfl, hb, hw⟩
  · have hsolid : ∀ d ∈ t ++ [c], isBlank d = false :=
      List.forall_mem_append.mpr ⟨ht, List.forall_mem_singleton.mpr hc⟩
    rw [Text.pieces_of_solid hsolid, completePieces_of_solid ht, typedWord_of_solid ht,
      List.nil_append]
  · have hsolid : ∀ d ∈ w ++ [c], isBlank d = false :=
      List.forall_mem_append.mpr ⟨hw, List.forall_mem_singleton.mpr hc⟩
    rw [List.append_assoc, List.cons_append, Text.pieces_append_blank s hb,
      Text.pieces_of_solid hsolid, completePieces_cut hb hw, typedWord_cut hb hw]

theorem completePieces_concat_solid (hc : isBlank c = false) :
    completePieces (t ++ [c]) = completePieces t := by
  rw [completePieces, pieces_concat_solid t hc, List.dropLast_concat]

theorem typedWord_concat_solid (hc : isBlank c = false) :
    typedWord (t ++ [c]) = typedWord t ++ [c] := by
  rw [typedWord, pieces_concat_solid t hc, List.getLast?_concat, Option.getD_some]

end Step

/-! ## The subcommand words and the active argument -/

theorem takeWhile_concat {α : Type} (p : α → Bool) (l : List α) (a : α) :
    (l ++ [a]).takeWhile p =
      if (l ++ [a]).all p = true then l.takeWhile p ++ [a] else l.takeWhile p := by
  induction l with
  | nil => simp [List.takeWhile_cons]
  | cons x l ih =>
    cases hx : p x with
    | true =>
      rw [List.cons_append, List.takeWhile_cons_of_pos hx, List.takeWhile_cons_of_pos hx, ih,
        List.all_cons, hx, Bool.true_and]
      split <;> rfl
    | false =>
      have hneg : ¬ p x = true := Bool.eq_false_iff.mp hx
      rw [List.cons_append, List.takeWhile_cons_of_neg hneg, List.takeWhile_cons_of_neg hneg,
        List.all_cons, hx, Bool.false_and, if_neg Bool.false_ne_true]

section Step

variable (t : Text) {c : Char}

theorem subcommandWords_concat_solid (hc : isBlank c = false) :
    subcommandWords (t ++ [c]) = subcommandWords t := by
  rw [subcommandWords, completePieces_concat_solid t hc, subcommandWords]

theorem subcommandWords_concat_blank (hc : isBlank c = true) :
    subcommandWords (t ++ [c]) =
      if typedWord t ≠ [] ∧ (words t).any Text.isDashLed = false then
        subcommandWords t ++ [typedWord t]
      else subcommandWords t := by
  rw [subcommandWords, completePieces_concat_blank t hc, List.filter_append]
  by_cases htyped : typedWord t = []
  · rw [htyped, if_neg (fun h => h.1 rfl)]
    exact congrArg _ (List.append_nil _)
  · have hword : [typedWord t].filter (fun w => !w.isEmpty) = [typedWord t] := by
      simpa using htyped
    have hwords : words t = (completePieces t).filter (fun w => !w.isEmpty) ++ [typedWord t] := by
      rw [words, pieces_eq, List.filter_append, hword]
    have hall : ((words t).all fun w => !w.isDashLed) = !(words t).any Text.isDashLed := by
      rw [List.not_any_eq_all_not]
    rw [hword, takeWhile_concat, ← hwords, hall]
    simp only [ne_eq, htyped, not_false_eq_true, true_and, Bool.not_eq_true', subcommandWords]

theorem activeArgument_concat_solid (hc : isBlank c = false) :
    activeArgument (t ++ [c]) = if c = '-' then none else activeArgument t := by
  rw [activeArgument, typedWord_concat_solid t hc, completePieces_concat_solid t hc,
    activeArgument]
  by_cases hdash : c = '-'
  · simp [hdash]
  · simp [hdash, Ne.symm hdash]

/-- White space behind white space leaves the last complete word what it was, also at the start. -/
theorem activeArgument_concat_blank_of_nil (hc : isBlank c = true) (htyped : typedWord t = []) :
    activeArgument (t ++ [c]) = activeArgument t := by
  rw [activeArgument, typedWord_concat_blank t hc, completePieces_concat_blank t hc,
    activeArgument, htyped]
  cases completePieces t with
  | nil => rfl
  | cons first rest => simp

theorem activeArgument_concat_blank_of_word (hc : isBlank c = true) (htyped : typedWord t ≠ []) :
    activeArgument (t ++ [c]) =
      if (typedWord t).isDashLed = true ∧ (typedWord t).any isQuote = false ∧ typedWord t ≠ t then
        some (typedWord t)
      else none := by
  rw [activeArgument, typedWord_concat_blank t hc, completePieces_concat_blank t hc]
  simp only [ne_eq, ← completePieces_eq_nil_iff]
  cases completePieces t with
  | nil => simp
  | cons first rest => simp [htyped, isParameterWord]

end Step

/-- What one more character does to the typed word, the subcommand words and the active argument.
The words of a text with a typed word are that word and those in front of it. -/
theorem cursor_after_keystroke (t : Text) (c : Char) :
    typedWord (t ++ [c]) = (if isBlank c then [] else typedWord t ++ [c]) ∧
    subcommandWords (t ++ [c]) =
      (if isBlank c = true ∧ typedWord t ≠ [] ∧ (words t).any Text.isDashLed = false then
        subcommandWords t ++ [typedWord t]
      else subcommandWords t) ∧
    activeArgument (t ++ [c]) =
      (if isBlank c then
        if typedWord t = [] then activeArgument t
        else if (typedWord t).isDashLed = true ∧ (typedWord t).any isQuote = false ∧
          typedWord t ≠ t then some (typedWord t)
        else none
      else if c = '-' then none else activeArgument t) := by
  cases hc : isBlank c with
  | false =>
    refine ⟨typedWord_concat_solid t hc, ?_, activeArgument_concat_solid t hc⟩
    rw [if_neg fun h => Bool.false_ne_true h.1]
    exact subcommandWords_concat_solid t hc
  | true =>
    refine ⟨typedWord_concat_blank t hc, ?_, ?_⟩
    · simp only [true_and]
      exact subcommandWords_concat_blank t hc
    · rw [if_pos rfl]
      split
      case isTrue htyped => exact activeArgument_concat_blank_of_nil t hc htyped
      case isFalse htyped => exact activeArgument_concat_blank_of_word t hc htyped

/-! ## A line as it is typed -/

/-- What is kept of the text in front of the cursor. -/
structure Scan where
  words : List Text
  typed : Text
  active : Option Text
  /-- A complete word is dash-led. -/
  dashed : Bool
  /-- There is no white space yet. -/
  unbroken : Bool
  deriving DecidableEq, Repr

/-- One more character. -/
def Scan.step (s : Scan) (c : Char) : Scan :=
  if isBlank c then
    if s.typed.isEmpty then { s with unbroken := false }
    else
      { words := if s.dashed || s.typed.isDashLed then s.words else s.words ++ [s.typed]
        typed := []
        active := if isParameterWord s.typed && !s.unbroken then some s.typed else none
        dashed := s.dashed || s.typed.isDashLed
        unbroken := false }
  else { s with typed := s.typed ++ [c], active := if c = '-' then none else s.active }

/-- What is to be kept of a text. -/
def Scan.of (t : Text) : Scan where
  words := subcommandWords t
  typed := typedWord t
  active := activeArgument t
  dashed := (completePieces t).any Text.isDashLed
  unbroken := (completePieces t).isEmpty

/-- An empty piece is not dash-led, so the pieces can be asked in place of the words. -/
theorem any_isDashLed_words (t : Text) :
    (words t).any Text.isDashLed =
      ((completePieces t).any Text.isDashLed || (typedWord t).isDashLed) := by
  have hpieces : (words t).any Text.isDashLed = (pieces t).any Text.isDashLed := by
    rw [words, List.any_filter]
    congr 1
    funext w
    cases w <;> rfl
  rw [hpieces, pieces_eq, List.any_append, List.any_cons, List.any_nil, Bool.or_false]

theorem scan_concat (t : Text) (c : Char) : Scan.of (t ++ [c]) = (Scan.of t).step c := by
  cases hc : isBlank c with
  | false =>
    simp only [Scan.of, Scan.step, hc, subcommandWords_concat_solid t hc,
      typedWord_concat_solid t hc, activeArgument_concat_solid t hc,
      completePieces_concat_solid t hc]
    rfl
  | true =>
    by_cases htyped : typedWord t = []
    · simp [Scan.of, Scan.step, hc, htyped, subcommandWords_concat_blank t hc,
        typedWord_concat_blank t hc, activeArgument_concat_blank_of_nil t hc htyped,
        completePieces_concat_blank t hc, Text.isDashLed]
    · cases hdashed : (words t).any Text.isDashLed <;>
        simp [Scan.of, Scan.step, hc, htyped, subcommandWords_concat_blank t hc,
          typedWord_concat_blank t hc, activeArgument_concat_blank_of_word t hc htyped,
          completePieces_concat_blank t hc, hdashed, ← any_isDashLed_words, isParameterWord,
          and_assoc, ← completePieces_eq_nil_iff]

/-- One pass over the characters that are typed behind a text finds the context behind them. -/
theorem foldl_scan (s t : Text) : t.foldl Scan.step (Scan.of s) = Scan.of (s ++ t) := by
  induction t generalizing s with
  | nil => rw [List.append_nil, List.foldl_nil]
  | cons c t ih => rw [List.foldl_cons, ← scan_concat, ih, List.append_assoc, List.singleton_append]

end LineAssist.Line
