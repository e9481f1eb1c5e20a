import LineAssist.Line.Node
import LineAssist.Proofs.Line.Cursor
import LineAssist.Proofs.Line.Tokenization

/-!
# Subcommand words at a cursor

The words in front of a cursor are read off the white space, the subcommands of a line off its
tokens. Where no quote stands in front of the first parameter the two agree at every cursor: a
subcommand counts as soon as the character behind it is in front of the cursor.
-/

namespace LineAssist.Line

open Text (isBlank isQuote pieces)

/-- The part of a text in front of its first dash at a place where a word can start: behind white
space, and at the start of the text if it is fresh. -/
def leadingFrom (fresh : Bool) : Text → Text
  | [] => []
  | c :: rest => if fresh && c == '-' then [] else c :: leadingFrom (isBlank c) rest

/-- The part of a line in front of its first parameter. -/
def leadingRegion (line : Text) : Text :=
  leadingFrom true line

section Words

variable {w rest : Text} {b : Char}

theorem leadingFrom_word (hw : ∀ c ∈ w, isBlank c = false) (rest : Text) :
    leadingFrom false (w ++ rest) = w ++ leadingFrom false rest := by
  induction w with
  | nil => rfl
  | cons c w ih =>
    obtain ⟨hc, hrest⟩ := List.forall_mem_cons.mp hw
    rw [List.cons_append, leadingFrom, hc, ih hrest]
    rfl

/-- Where white space follows, or nothing, it makes no difference whether a word can start. -/
theorem leadingFrom_fresh (hrest : ∀ b, rest.head? = some b → isBlank b = true) :
    leadingFrom false rest = leadingFrom true rest := by
  cases rest with
  | nil => rfl
  | cons b rest =>
    have hdash : (b == '-') = false := by
      rw [beq_eq_false_iff_ne]
      rintro rfl
      cases hrest '-' rfl
    rw [leadingFrom, leadingFrom, hdash, Bool.and_false, Bool.and_false]

theorem leadingRegion_blank (hb : isBlank b = true) (rest : Text) :
    leadingRegion (b :: rest) = b :: leadingRegion rest := by
  have hrest : ∀ c, (b :: rest).head? = some c → isBlank c = true := by
    rintro c ⟨⟩
    exact hb
  rw [leadingRegion, ← leadingFrom_fresh hrest, leadingFrom, hb]
  rfl

theorem leadingRegion_word (hne : w ≠ []) (hw : ∀ c ∈ w, isBlank c = false)
    (hrest : ∀ b, rest.head? = some b → isBlank b = true) :
    leadingRegion (w ++ rest) = if w.isDashLed then [] else w ++ leadingRegion rest := by
  cases w with
  | nil => exact absurd rfl hne
  | cons c w =>
    obtain ⟨hc, hword⟩ := List.forall_mem_cons.mp hw
    rw [leadingRegion, List.cons_append, leadingFrom, hc, leadingFrom_word hword,
      leadingFrom_fresh hrest]
    by_cases hdash : c = '-'
    · simp [hdash, Text.isDashLed]
    · simp [hdash, Text.isDashLed, leadingRegion]

/-- A word counts once the cursor has passed the character behind it. -/
theorem subcommandWords_take_word (hne : w ≠ []) (hw : ∀ c ∈ w, isBlank c = false)
    (hrest : ∀ b, rest.head? = some b → isBlank b = true) {p : Nat} (hp : p ≤ (w ++ rest).length) :
    subcommandWords ((w ++ rest).take p) =
      if p ≤ w.length ∨ w.isDashLed = true then []
      else w :: subcommandWords (rest.take (p - w.length)) := by
  rw [List.take_append]
  by_cases hinside : p ≤ w.length
  · have hsolid : ∀ c ∈ w.take p, isBlank c = false := fun c hc => hw c (List.mem_of_mem_take hc)
    rw [if_pos (.inl hinside), Nat.sub_eq_zero_of_le hinside, List.take_zero, List.append_nil,
      subcommandWords_of_solid hsolid]
  · cases rest with
    | nil =>
      rw [List.append_nil] at hp
      exact absurd hp hinside
    | cons b rest =>
      have hb := hrest b rfl
      obtain ⟨n, hn⟩ : ∃ n, p - w.length = n + 1 := ⟨p - w.length - 1, by omega⟩
      rw [List.take_of_length_le (by omega : w.length ≤ p), hn, List.take_succ_cons,
        subcommandWords_word hne hw hb, subcommandWords_blank hb]
      simp only [hinside, false_or]

end Words

section Tokens

variable {w rest : Text}

theorem tokensFrom_word (hne : w ≠ []) (hw : ∀ c ∈ w, isBlank c = false)
    (hplain : ∀ c ∈ w, isQuote c = false) (hrest : ∀ b, rest.head? = some b → isBlank b = true)
    (offset : Nat) : tokensFrom offset 0 (w ++ rest) =
      ⟨w, offset⟩ :: tokensFrom (offset + w.length) 0 rest := by
  cases w with
  | nil => exact absurd rfl hne
  | cons c w =>
    have hstop : ∀ b, rest.head? = some b → isRun b = false := by
      intro b hb
      rw [isRun, hrest b hb]
      rfl
    have hinside : ∀ d ∈ w, isRun d = true := by
      intro d hd
      have hmem := List.mem_cons_of_mem c hd
      exact isRun_iff.mpr ⟨hw d hmem, hplain d hmem⟩
    have hlexeme : lexeme c (w ++ rest) = c :: w := by
      rw [lexeme_of_open, takeWhile_append_of_stop hinside hstop]
      intro hc
      rw [hplain c List.mem_cons_self] at hc
      cases hc
    rw [List.cons_append, tokensFrom_lexeme (hw c List.mem_cons_self), hlexeme,
      ← List.cons_append, List.drop_left]

/-- The first token of a dash-led text is a parameter. -/
theorem tokensFrom_isDashLed {t : Text} (ht : t.isDashLed = true) (offset : Nat) :
    ∃ token more, tokensFrom offset 0 t = token :: more ∧ token.isDash = true := by
  cases t with
  | nil => cases ht
  | cons c rest =>
    obtain rfl : c = '-' := by simpa [Text.isDashLed] using ht
    obtain ⟨w, hw⟩ := lexeme_eq_cons '-' rest
    refine ⟨_, _, tokensFrom_lexeme rfl offset rest, ?_⟩
    rw [Token.isDash, hw]
    rfl

theorem le_offset_of_mem_tokensFrom {offset skip : Nat} {t : Text} {token : Token}
    (h : token ∈ tokensFrom offset skip t) : offset ≤ token.offset := by
  induction t generalizing offset skip with
  | nil => cases h
  | cons c rest ih =>
    cases skip with
    | succ n => exact Nat.le_of_succ_le (ih h)
    | zero =>
      rw [tokensFrom] at h
      split at h
      case isTrue hc => exact Nat.le_of_succ_le (ih h)
      case isFalse hc =>
        rcases List.mem_cons.mp h with rfl | h
        · exact Nat.le_refl offset
        · exact Nat.le_of_succ_le (ih h)

/-- The tokens in front of the first parameter. -/
def leadingTokens (tokens : List Token) : List Token :=
  tokens.takeWhile fun t => !t.isDash

theorem leadingTokens_dash {t : Token} (ht : t.isDash = true) (rest : List Token) :
    leadingTokens (t :: rest) = [] :=
  List.takeWhile_cons_of_neg (by simp [ht])

theorem leadingTokens_plain {t : Token} (ht : t.isDash = false) (rest : List Token) :
    leadingTokens (t :: rest) = t :: leadingTokens rest :=
  List.takeWhile_cons_of_pos (by simp [ht])

/-- Behind the first parameter there are no subcommands. -/
theorem subcommandsFrom_eq_nil (expecting : Expecting) (hexpecting : expecting ≠ .subcommand)
    (tokens : List Token) : subcommandsFrom expecting tokens = [] := by
  induction tokens generalizing expecting with
  | nil => cases expecting <;> rfl
  | cons t rest ih =>
    have hvalue := ih .value nofun
    have hparameter := ih .parameter nofun
    cases expecting with
    | subcommand => exact absurd rfl hexpecting
    | value => rw [subcommandsFrom, hvalue, hparameter, ite_self]
    | parameter => rw [subcommandsFrom, hvalue, hparameter, ite_self]

/-- The subcommand nodes are the tokens in front of the first parameter. -/
theorem subcommand_parse (line : Text) :
    (parse line).subcommand =
      (leadingTokens (tokens line)).map fun t => ⟨.subcommand, t⟩ := by
  change subcommandsFrom .subcommand (tokens line) = _
  induction tokens line with
  | nil => rfl
  | cons t rest ih =>
    cases ht : t.isDash with
    | true =>
      rw [subcommandsFrom, if_pos ht, subcommandsFrom_eq_nil .value nofun, leadingTokens_dash ht,
        List.map_nil]
    | false =>
      rw [subcommandsFrom, if_neg (Bool.eq_false_iff.mp ht), ih, leadingTokens_plain ht,
        List.map_cons]

end Tokens

/-- No token ends in front of the text that it is part of. -/
theorem filter_stop_eq_nil {offset bound : Nat} (hbound : bound ≤ offset) (t : Text) :
    ((leadingTokens (tokensFrom offset 0 t)).filter fun t => t.stop < bound) = [] := by
  rw [List.filter_eq_nil_iff]
  intro token htoken
  have hoffset := le_offset_of_mem_tokensFrom ((List.takeWhile_sublist _).subset htoken)
  rw [decide_eq_true_eq, Nat.not_lt]
  exact Nat.le_trans hbound (Nat.le_trans hoffset (Nat.le_add_right _ _))

/-- The subcommand words in front of a cursor are the tokens that end before it, as far as no
parameter comes first. -/
theorem subcommandWords_take {t : Text} (hplain : ∀ c ∈ leadingRegion t, isQuote c = false)
    {p : Nat} (hp : p ≤ t.length) (offset : Nat) :
    subcommandWords (t.take p) =
      ((leadingTokens (tokensFrom offset 0 t)).filter
        fun t => t.stop < offset + p).map Token.text := by
  induction t using Text.word_induction generalizing p offset with
  | nil =>
    rw [List.take_nil]
    rfl
  | blank b rest hb ih =>
    rw [leadingRegion_blank hb, List.forall_mem_cons] at hplain
    rw [tokensFrom_blank hb]
    cases p with
    | zero =>
      rw [Nat.add_zero, filter_stop_eq_nil (Nat.le_succ offset)]
      rfl
    | succ p =>
      rw [List.take_succ_cons, subcommandWords_blank hb,
        ih hplain.2 (Nat.le_of_succ_le_succ hp) (offset + 1), Nat.add_assoc, Nat.add_comm 1]
  | word w rest hne hw hrest ih =>
    rw [leadingRegion_word hne hw hrest] at hplain
    rw [subcommandWords_take_word hne hw hrest hp]
    cases hdash : Text.isDashLed w with
    | true =>
      have hled : Text.isDashLed (w ++ rest) = true := by
        obtain ⟨c, v, rfl⟩ := List.exists_cons_of_ne_nil hne
        exact hdash
      obtain ⟨token, more, htokens, htoken⟩ := tokensFrom_isDashLed hled offset
      rw [if_pos (.inr rfl), htokens, leadingTokens_dash htoken]
      rfl
    | false =>
      rw [hdash, if_neg Bool.false_ne_true, List.forall_mem_append] at hplain
      have htoken : Token.isDash ⟨w, offset⟩ = false := hdash
      have hstop : Token.stop ⟨w, offset⟩ = offset + w.length := rfl
      rw [tokensFrom_word hne hw hplain.1 hrest, leadingTokens_plain htoken, List.filter_cons,
        hstop]
      simp only [decide_eq_true_eq, Nat.add_lt_add_iff_left]
      by_cases hinside : p ≤ w.length
      · rw [if_pos (.inl hinside), if_neg (Nat.not_lt.mpr hinside),
          filter_stop_eq_nil (Nat.add_le_add_left hinside offset)]
        rfl
      · have hbound : offset + p = offset + w.length + (p - w.length) := by omega
        have hlength : p - w.length ≤ rest.length := by
          rw [List.length_append] at hp
          omega
        rw [if_neg (by simp [hinside]), if_pos (Nat.not_le.mp hinside), List.map_cons, hbound,
          ih hplain.2 hlength]

/-- Where the leading region of a line has no quote, the words in front of a cursor are the
subcommands that end before it, and the context is made of them. -/
theorem cursor_words_eq_subcommands (line : Text)
    (hplain : ∀ c ∈ leadingRegion line, isQuote c = false) (p : Nat) (hp : p ≤ line.length) :
    let ended := ((parse line).subcommand.filter fun n => n.stop < p).map Node.text
    subcommandWords (line.take p) = ended ∧
    ∀ root, let context := resolveContext (line.take p) line root
      (context.recognized = true ↔ ended.head? = some root) ∧
      context.subcommandPath =
        if ended.head? = some root then Text.unwords ended.tail else [] := by
  intro ended
  have hwords : subcommandWords (line.take p) = ended := by
    rw [subcommandWords_take hplain hp 0]
    change _ = ((parse line).subcommand.filter fun n => n.stop < p).map Node.text
    rw [subcommand_parse, List.filter_map, List.map_map, Nat.zero_add]
    rfl
  refine ⟨hwords, fun root => ?_⟩
  simp only [resolveContext, hwords, beq_iff_eq, true_and]

/-- A dash inside a word and quotes behind the first parameter do not matter. -/
theorem cursor_words_in_quoted_line :
    let line := "az vm-x --tag 'a -b' c".toList
    (∀ c ∈ leadingRegion line, isQuote c = false) ∧ 17 ≤ line.length ∧
    subcommandWords (line.take 17) = ["az".toList, "vm-x".toList] ∧
    (resolveContext (line.take 17) line "az".toList).recognized = true ∧
    (resolveContext (line.take 17) line "az".toList).subcommandPath = "vm-x".toList := by
  intro line
  have hplain : ∀ c ∈ leadingRegion line, isQuote c = false := by
    have hall : (leadingRegion line).all (fun c => !isQuote c) = true := by decide
    simpa using hall
  have hcursor : 17 ≤ line.length := by decide
  obtain ⟨hwords, hcontext⟩ := cursor_words_eq_subcommands line hplain 17 hcursor
  obtain ⟨hrecognized, hpath⟩ := hcontext "az".toList
  refine ⟨hplain, hcursor, ?_, ?_, ?_⟩
  · rw [hwords]
    decide
  · rw [hrecognized]
    decide
  · rw [hpath]
    decide

end LineAssist.Line
