import LineAssist.Proofs.Line.Arguments
import LineAssist.Proofs.Line.Attribution
import LineAssist.Proofs.Line.Keystroke

/-!
# Words behind a text

Words are written behind a text, each behind a space and the last one in front of a space. Only what
stands in front of a parameter counts for the path, a parameter waits for a value only if it is the
last word, and every parameter without quotes is an argument, whatever quotes the text has.
-/

namespace LineAssist.Line

open Text (isBlank isQuote words unwords IsWord)

/-- The text with words behind it. -/
def withWords (t : Text) (ws : List Text) : Text :=
  t ++ ' ' :: (unwords ws ++ [' '])

section WithWords

variable {t : Text} {ws : List Text}

theorem completePieces_withWords (t : Text) (ws : List Text) :
    completePieces (withWords t ws) = Text.pieces t ++ Text.pieces (unwords ws) := by
  rw [withWords, completePieces_append_blank t (by rfl), completePieces_concat_blank _ (by rfl),
    ← pieces_eq]

theorem typedWord_withWords (t : Text) (ws : List Text) : typedWord (withWords t ws) = [] := by
  have hassoc : withWords t ws = (t ++ ' ' :: unwords ws) ++ [' '] := by simp [withWords]
  rw [hassoc, typedWord_concat_blank _ (by rfl)]

/-- The words behind a parameter are none of the path. -/
theorem subcommandWords_withWords (hws : ∀ w ∈ ws, IsWord w) {first : Text}
    (hfirst : ws.head? = some first) (hdash : Text.isDashLed first = true) :
    subcommandWords (withWords t ws) = subcommandWords (t ++ [' ']) := by
  obtain ⟨more, rfl⟩ := List.head?_eq_some_iff.mp hfirst
  have hwords : (Text.pieces (unwords (first :: more))).filter (fun w => !w.isEmpty) =
      first :: more := Text.words_unwords hws
  have hstop : (!Text.isDashLed first) = false := by rw [hdash]; rfl
  rw [subcommandWords, completePieces_withWords, List.filter_append, hwords,
    takeWhile_append_of_neg (p := fun w => !Text.isDashLed w) hstop, subcommandWords,
    completePieces_concat_blank t (by rfl), ← pieces_eq]

/-- No parameter waits behind a word that is none. -/
theorem activeArgument_withWords (hws : ∀ w ∈ ws, IsWord w) {last : Text}
    (hlast : ws.getLast? = some last) (hplain : Text.isDashLed last = false) :
    activeArgument (withWords t ws) = none := by
  have hwords : (Text.pieces (unwords ws)).filter (fun w => !w.isEmpty) = ws :=
    Text.words_unwords hws
  have hend : ((completePieces (withWords t ws)).tail.filter fun w => !w.isEmpty).getLast? =
      some last := by
    rw [completePieces_withWords, List.tail_append_of_ne_nil (Text.pieces_ne_nil t),
      List.filter_append, hwords, List.getLast?_append, hlast, Option.some_or]
  rw [activeArgument, typedWord_withWords, hend]
  simp [isParameterWord, hplain]

/-- A parameter that is written behind a text is an argument: behind white space without a quote
after it the tokens are the words. -/
theorem mem_keys_withWords (hws : ∀ w ∈ ws, IsWord w)
    (hquotes : ∀ w ∈ ws, ∀ c ∈ w, isQuote c = false) {name : Text} (hname : name ∈ ws)
    (hdash : Text.isDashLed name = true) :
    name ∈ (arguments (withWords t ws)).map Prod.fst := by
  have hplain : ∀ c ∈ unwords ws ++ [' '], isQuote c = false := by
    intro c hc
    rcases List.mem_append.mp hc with hc | hc
    · rcases Text.mem_unwords hc with rfl | ⟨w, hw, hc⟩
      · rfl
      · exact hquotes w hw c hc
    · rw [List.mem_singleton.mp hc]
      rfl
  have hwords : words (unwords ws ++ [' ']) = ws := by
    rw [Text.words_append_blank _ (by rfl), Text.words_unwords hws]
    exact List.append_nil ws
  have hmem := hname
  rw [← hwords, ← map_text_tokensFrom hplain (0 + t.length + 1)] at hmem
  obtain ⟨token, htoken, rfl⟩ := List.mem_map.mp hmem
  refine mem_keys_arguments.mpr ⟨token, ?_, hdash, rfl⟩
  rw [withWords, tokens, tokensFrom_append (by rfl) hplain]
  exact List.mem_append_right _ htoken

end WithWords

end LineAssist.Line
