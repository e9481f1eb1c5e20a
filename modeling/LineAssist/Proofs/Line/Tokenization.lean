import LineAssist.Line.Token
import LineAssist.Proofs.Text.Parts

/-!
# Tokens as parts of their line

What makes a part of a line a token is told by that part and the characters behind it. A line has
one list of such parts that leaves out nothing but white space, and that list is its tokens.
-/

namespace LineAssist.Line

open Text (isBlank isQuote cut?)

/-- A quote character, a text without that character, and the character again. -/
def IsClosedRun (t : Text) : Prop :=
  ∃ q body, isQuote q = true ∧ q ∉ body ∧ t = q :: (body ++ [q])

/-- No white space, and no quote behind the first character. -/
structure IsOpenRun (t : Text) : Prop where
  solid : ∀ c ∈ t, isBlank c = false
  unquoted : ∀ c ∈ t.tail, isQuote c = false

/-- What makes a part of a line a token: it is a closed run, or an open one that cannot go on and
whose quote, if it starts with one, is never closed. -/
structure Token.IsLexeme (input : Text) (t : Token) : Prop where
  nonempty : t.text ≠ []
  text_eq : t.text = (input.drop t.offset).take t.length
  starts : ∀ c, t.text.head? = some c → isBlank c = false
  shape : IsClosedRun t.text ∨
    IsOpenRun t.text ∧ (∀ c, input[t.stop]? = some c → isBlank c = true ∨ isQuote c = true) ∧
      ∀ q, t.text.head? = some q → isQuote q = true → q ∉ input.drop (t.offset + 1)

/-- The parts of a line from an offset on: in order, apart from each other, and with nothing but
white space outside of them. -/
structure Tokenization (input : Text) (start : Nat) (ts : List Token) : Prop where
  behind : ∀ t ∈ ts, start ≤ t.offset
  ordered : ts.Pairwise fun a b => a.stop ≤ b.offset
  lexemes : ∀ t ∈ ts, t.IsLexeme input
  covers : ∀ i c, start ≤ i → input[i]? = some c → isBlank c = false →
    ∃ t ∈ ts, t.offset ≤ i ∧ i < t.stop

theorem isRun_iff {c : Char} : isRun c = true ↔ isBlank c = false ∧ isQuote c = false := by
  simp only [isRun, Bool.and_eq_true, Bool.not_eq_true']

/-! ## The token at the start of a text -/

section Lexeme

variable {c : Char} {rest : Text}

theorem lexemeLength_of_closed {body : Text} (hc : isQuote c = true) (hbody : c ∉ body)
    (after : Text) : lexemeLength c (body ++ c :: after) = body.length + 2 := by
  rw [lexemeLength, if_pos hc, Text.cut?_append hbody]

theorem lexemeLength_of_open (hopen : isQuote c = true → c ∉ rest) :
    lexemeLength c rest = (rest.takeWhile isRun).length + 1 := by
  rw [lexemeLength]
  split
  case isTrue hc => rw [Text.cut?_eq_none_iff.mpr (hopen hc)]
  case isFalse hc => rfl

/-- The token that starts with a character, given the text behind that character. -/
def lexeme (c : Char) (rest : Text) : Text :=
  (c :: rest).take (lexemeLength c rest)

theorem lexeme_of_closed {body : Text} (hc : isQuote c = true) (hbody : c ∉ body) (after : Text) :
    lexeme c (body ++ c :: after) = c :: (body ++ [c]) := by
  rw [lexeme, lexemeLength_of_closed hc hbody, List.take_succ_cons, List.take_length_add_append]
  rfl

theorem lexeme_of_open (hopen : isQuote c = true → c ∉ rest) :
    lexeme c rest = c :: rest.takeWhile isRun := by
  rw [lexeme, lexemeLength_of_open hopen, List.take_succ_cons,
    ← List.prefix_iff_eq_take.mp (List.takeWhile_prefix _)]

/-- The token at the start of a text is closed if it can be, and open otherwise. -/
theorem lexeme_cases (c : Char) (rest : Text) :
    (∃ body after, isQuote c = true ∧ c ∉ body ∧ rest = body ++ c :: after ∧
      lexeme c rest = c :: (body ++ [c])) ∨
    ((isQuote c = true → c ∉ rest) ∧ lexeme c rest = c :: rest.takeWhile isRun) := by
  by_cases hopen : isQuote c = true → c ∉ rest
  · exact .inr ⟨hopen, lexeme_of_open hopen⟩
  · simp only [Classical.not_imp, Classical.not_not] at hopen
    obtain ⟨hc, hmem⟩ := hopen
    cases hcut : cut? c rest with
    | none => exact absurd hmem (Text.cut?_eq_none_iff.mp hcut)
    | some parts =>
      obtain ⟨body, after⟩ := parts
      obtain ⟨rfl, hbody⟩ := Text.cut?_eq_some_iff.mp hcut
      exact .inl ⟨body, after, hc, hbody, rfl, lexeme_of_closed hc hbody after⟩

theorem prefix_lexeme (c : Char) (rest : Text) : lexeme c rest <+: c :: rest :=
  List.take_prefix _ _

theorem lexeme_eq_cons (c : Char) (rest : Text) : ∃ w, lexeme c rest = c :: w := by
  rcases lexeme_cases c rest with ⟨_, _, _, _, _, h⟩ | ⟨_, h⟩ <;> exact ⟨_, h⟩

theorem length_lexeme (c : Char) (rest : Text) : (lexeme c rest).length = lexemeLength c rest := by
  rcases lexeme_cases c rest with ⟨body, after, hc, hbody, rfl, hw⟩ | ⟨hopen, hw⟩
  · rw [hw, lexemeLength_of_closed hc hbody, List.length_cons, List.length_append,
      List.length_singleton]
  · rw [hw, lexemeLength_of_open hopen, List.length_cons]

theorem takeWhile_append_of_stop {α : Type} {p : α → Bool} {l rest : List α}
    (hl : ∀ x ∈ l, p x = true) (hstop : ∀ x, rest.head? = some x → p x = false) :
    (l ++ rest).takeWhile p = l := by
  rw [List.takeWhile_append_of_pos hl]
  cases rest with
  | nil => exact List.append_nil l
  | cons x rest =>
    rw [List.takeWhile_cons_of_neg (Bool.eq_false_iff.mp (hstop x rfl)), List.append_nil]

end Lexeme

theorem isOpenRun_lexeme {c : Char} {rest : Text} (hc : isBlank c = false) :
    IsOpenRun (c :: rest.takeWhile isRun) := by
  have hrun : ∀ d ∈ rest.takeWhile isRun, isBlank d = false ∧ isQuote d = false := by
    intro d hd
    exact isRun_iff.mp (List.all_eq_true.mp List.all_takeWhile d hd)
  exact ⟨List.forall_mem_cons.mpr ⟨hc, fun d hd => (hrun d hd).1⟩, fun d hd => (hrun d hd).2⟩

section At

variable {input rest : Text} {c : Char} {start : Nat}

theorem getElem?_of_drop {w more : Text} (h : input.drop start = w ++ more) :
    input[start + w.length]? = more.head? := by
  rw [← List.head?_drop, ← List.drop_drop, h, List.drop_left]

theorem drop_of_drop_cons (h : input.drop start = c :: rest) : input.drop (start + 1) = rest := by
  rw [← List.drop_drop, h, List.drop_one, List.tail_cons]

theorem eq_lexeme_of_isLexeme (hinput : input.drop start = c :: rest) {w : Text}
    (h : Token.IsLexeme input ⟨w, start⟩) : w = lexeme c rest := by
  obtain ⟨more, hmore⟩ : w <+: c :: rest := by
    rw [List.prefix_iff_eq_take, ← hinput]
    exact h.text_eq
  cases w with
  | nil => exact absurd rfl h.nonempty
  | cons d v =>
    obtain ⟨rfl, rfl⟩ : d = c ∧ v ++ more = rest := by
      injection hmore with hd hv
      exact ⟨hd, hv⟩
    rcases h.shape with ⟨q, body, hq, hbody, heq⟩ | ⟨hrun, hends, hunclosed⟩
    · obtain ⟨rfl, rfl⟩ : d = q ∧ v = body ++ [q] := by
        injection heq with hd hv
        exact ⟨hd, hv⟩
      rw [List.append_assoc, List.singleton_append, lexeme_of_closed hq hbody]
    · have hopen : isQuote d = true → d ∉ v ++ more := by
        intro hd
        rw [← drop_of_drop_cons hinput]
        exact hunclosed d rfl hd
      have hinside : ∀ x ∈ v, isRun x = true := by
        intro x hx
        exact isRun_iff.mpr ⟨hrun.solid x (List.mem_cons_of_mem d hx), hrun.unquoted x hx⟩
      have hstop : ∀ x, more.head? = some x → isRun x = false := by
        intro x hx
        have hnext : input[start + (d :: v).length]? = some x := by
          rw [getElem?_of_drop (w := d :: v) hinput, hx]
        rw [Bool.eq_false_iff, Ne, isRun_iff]
        rintro ⟨hblank, hquote⟩
        rcases hends x hnext with hx | hx
        · exact Bool.false_ne_true (hblank.symm.trans hx)
        · exact Bool.false_ne_true (hquote.symm.trans hx)
      rw [lexeme_of_open hopen, takeWhile_append_of_stop hinside hstop]

theorem isLexeme_lexeme (hinput : input.drop start = c :: rest) (hc : isBlank c = false) :
    Token.IsLexeme input ⟨lexeme c rest, start⟩ := by
  obtain ⟨w, hw⟩ := lexeme_eq_cons c rest
  have hhead : ∀ d, (lexeme c rest).head? = some d → d = c := by
    rintro d hd
    rw [hw] at hd
    exact (Option.some.inj hd).symm
  refine ⟨?_, ?_, ?_, ?_⟩
  · rw [hw]
    exact List.cons_ne_nil c w
  · change lexeme c rest = (input.drop start).take (lexeme c rest).length
    rw [hinput]
    exact List.prefix_iff_eq_take.mp (prefix_lexeme c rest)
  · intro d hd
    rw [hhead d hd, hc]
  · rcases lexeme_cases c rest with ⟨body, after, hquote, hbody, -, hclosed⟩ | ⟨hopen, hrun⟩
    · exact .inl ⟨c, body, hquote, hbody, hclosed⟩
    · refine .inr ⟨?_, ?_, ?_⟩
      · change IsOpenRun (lexeme c rest)
        rw [hrun]
        exact isOpenRun_lexeme hc
      · intro d hd
        have hdrop : input.drop start = lexeme c rest ++ rest.dropWhile isRun := by
          rw [hinput, hrun, List.cons_append, List.takeWhile_append_dropWhile]
        have hnext : (rest.dropWhile isRun).head? = some d := (getElem?_of_drop hdrop).symm.trans hd
        have hstop := List.head?_dropWhile_not isRun rest
        rw [hnext] at hstop
        simpa [isRun, Classical.or_iff_not_imp_left] using hstop
      · intro q hq hquote
        obtain rfl := hhead q hq
        change q ∉ input.drop (start + 1)
        rw [drop_of_drop_cons hinput]
        exact hopen hquote

/-- A token is what the scan finds at its first character. -/
theorem Token.isLexeme_iff {t : Token} : t.IsLexeme input ↔
    ∃ c rest, input.drop t.offset = c :: rest ∧ isBlank c = false ∧ t.text = lexeme c rest := by
  constructor
  · intro h
    have htext := h.text_eq
    cases hinput : input.drop t.offset with
    | nil =>
      rw [hinput, List.take_nil] at htext
      exact absurd htext h.nonempty
    | cons c rest =>
      have hw := eq_lexeme_of_isLexeme hinput h
      obtain ⟨w, hcons⟩ := lexeme_eq_cons c rest
      exact ⟨c, rest, rfl, h.starts c (by rw [hw, hcons, List.head?_cons]), hw⟩
  · rintro ⟨c, rest, hinput, hc, hw⟩
    have h := isLexeme_lexeme hinput hc
    rw [← hw] at h
    exact h

theorem Token.IsLexeme.offset_lt_stop {t : Token} (h : t.IsLexeme input) : t.offset < t.stop :=
  Nat.lt_add_of_pos_right (List.length_pos_iff.mpr h.nonempty)

end At

/-! ## The whole line -/

section Line

variable {input rest : Text} {c : Char} {start : Nat} {ts : List Token}

theorem tokenization_end (hinput : input.drop start = []) :
    Tokenization input start ts ↔ ts = [] := by
  have hlength : input.length ≤ start := List.drop_eq_nil_iff.mp hinput
  constructor
  · intro h
    cases ts with
    | nil => rfl
    | cons t ts =>
      obtain ⟨c, rest, ht, -⟩ := Token.isLexeme_iff.mp (h.lexemes t List.mem_cons_self)
      have hbehind := h.behind t List.mem_cons_self
      rw [List.drop_eq_nil_of_le (Nat.le_trans hlength hbehind)] at ht
      cases ht
  · rintro rfl
    refine ⟨List.forall_mem_nil _, .nil, List.forall_mem_nil _, ?_⟩
    intro i d hi hd
    rw [List.getElem?_eq_none (Nat.le_trans hlength hi)] at hd
    cases hd

theorem tokenization_blank (hinput : input.drop start = c :: rest) (hc : isBlank c = true) :
    Tokenization input start ts ↔ Tokenization input (start + 1) ts := by
  constructor
  · intro h
    refine ⟨?_, h.ordered, h.lexemes, fun i d hi => h.covers i d (Nat.le_of_succ_le hi)⟩
    intro t ht
    refine Nat.lt_of_le_of_ne (h.behind t ht) ?_
    rintro rfl
    obtain ⟨d, more, hd, hblank, -⟩ := Token.isLexeme_iff.mp (h.lexemes t ht)
    obtain ⟨rfl, -⟩ := List.cons.inj (hinput.symm.trans hd)
    rw [hc] at hblank
    cases hblank
  · intro h
    refine ⟨fun t ht => Nat.le_of_succ_le (h.behind t ht), h.ordered, h.lexemes, ?_⟩
    intro i d hi hd hblank
    rcases Nat.eq_or_lt_of_le hi with rfl | hi
    · rw [← List.head?_drop, hinput, List.head?_cons] at hd
      obtain rfl := Option.some.inj hd
      rw [hc] at hblank
      cases hblank
    · exact h.covers i d hi hd hblank

/-- A character that is not white space starts a token, unless a token in front of it goes on. -/
theorem tokenization_lexeme (hinput : input.drop start = c :: rest) (hc : isBlank c = false) :
    Tokenization input start ts ↔ ∃ more, ts = ⟨lexeme c rest, start⟩ :: more ∧
      Tokenization input (start + (lexeme c rest).length) more := by
  constructor
  · intro h
    have hstart : input[start]? = some c := by rw [← List.head?_drop, hinput, List.head?_cons]
    obtain ⟨t, ht, hle, hlt⟩ := h.covers start c (Nat.le_refl start) hstart hc
    have hoffset : t.offset = start := Nat.le_antisymm hle (h.behind t ht)
    cases ts with
    | nil => cases ht
    | cons first more =>
      obtain ⟨hafter, hordered⟩ := List.pairwise_cons.mp h.ordered
      have hfirst := h.lexemes first List.mem_cons_self
      have hsame : t = first := by
        rcases List.mem_cons.mp ht with rfl | ht
        · rfl
        · have := hafter t ht
          have := h.behind first List.mem_cons_self
          have := hfirst.offset_lt_stop
          omega
      subst hsame
      obtain ⟨text, offset⟩ := t
      obtain rfl : offset = start := hoffset
      obtain rfl := eq_lexeme_of_isLexeme hinput hfirst
      refine ⟨more, rfl, hafter, hordered, fun t ht => h.lexemes t (List.mem_cons_of_mem _ ht), ?_⟩
      intro i d hi hd hblank
      obtain ⟨t, ht, hti, hit⟩ := h.covers i d (Nat.le_trans (Nat.le_add_right _ _) hi) hd hblank
      rcases List.mem_cons.mp ht with rfl | ht
      · exact absurd hit (Nat.not_lt.mpr hi)
      · exact ⟨t, ht, hti, hit⟩
  · rintro ⟨more, rfl, h⟩
    refine ⟨?_, ?_, ?_, ?_⟩
    · refine List.forall_mem_cons.mpr ⟨Nat.le_refl start, fun t ht => ?_⟩
      exact Nat.le_trans (Nat.le_add_right _ _) (h.behind t ht)
    · exact List.pairwise_cons.mpr ⟨h.behind, h.ordered⟩
    · exact List.forall_mem_cons.mpr ⟨isLexeme_lexeme hinput hc, h.lexemes⟩
    · intro i d hi hd hblank
      by_cases hstop : i < start + (lexeme c rest).length
      · exact ⟨_, List.mem_cons_self, hi, hstop⟩
      · obtain ⟨t, ht, hcovers⟩ := h.covers i d (Nat.not_lt.mp hstop) hd hblank
        exact ⟨t, List.mem_cons_of_mem _ ht, hcovers⟩

end Line

/-! ## The scan -/

theorem tokensFrom_skip (offset n : Nat) (t : Text) :
    tokensFrom offset n t = tokensFrom (offset + n) 0 (t.drop n) := by
  induction n generalizing offset t with
  | zero => rfl
  | succ n ih =>
    cases t with
    | nil => rfl
    | cons c t => rw [tokensFrom, ih, List.drop_succ_cons, Nat.succ_add_eq_add_succ]

theorem tokensFrom_blank {c : Char} (hc : isBlank c = true) (offset : Nat) (rest : Text) :
    tokensFrom offset 0 (c :: rest) = tokensFrom (offset + 1) 0 rest := by
  rw [tokensFrom, if_pos hc]

theorem tokensFrom_lexeme {c : Char} (hc : isBlank c = false) (offset : Nat) (rest : Text) :
    tokensFrom offset 0 (c :: rest) = ⟨lexeme c rest, offset⟩ ::
      tokensFrom (offset + (lexeme c rest).length) 0 ((c :: rest).drop (lexeme c rest).length) := by
  obtain ⟨w, hw⟩ := lexeme_eq_cons c rest
  have hskip := tokensFrom_skip (offset + 1) (lexemeLength c rest - 1) rest
  have hlength : (lexeme c rest).length = lexemeLength c rest - 1 + 1 := by
    rw [← length_lexeme, hw, List.length_cons, Nat.add_sub_cancel]
  rw [Nat.add_assoc, Nat.add_comm 1, ← hlength] at hskip
  rw [tokensFrom, if_neg (Bool.eq_false_iff.mp hc), hlength, List.drop_succ_cons, ← hlength,
    ← hskip]
  rfl

theorem tokenization_iff {input : Text} {start : Nat} {ts : List Token} :
    Tokenization input start ts ↔ ts = tokensFrom start 0 (input.drop start) := by
  induction hn : input.length - start using Nat.strongRecOn generalizing start ts with
  | ind n ih =>
    cases hinput : input.drop start with
    | nil => exact tokenization_end hinput
    | cons c rest =>
      have hlt : start < input.length := by
        rw [← Nat.not_le, ← List.drop_eq_nil_iff, hinput]
        exact List.cons_ne_nil c rest
      cases hc : isBlank c with
      | true =>
        rw [tokenization_blank hinput hc, tokensFrom_blank hc, ih _ (by omega) rfl,
          drop_of_drop_cons hinput]
      | false =>
        have hpos : 0 < (lexeme c rest).length := by
          obtain ⟨w, hw⟩ := lexeme_eq_cons c rest
          rw [hw]
          exact Nat.succ_pos w.length
        rw [tokenization_lexeme hinput hc, tokensFrom_lexeme hc, ← hinput, List.drop_drop]
        simp only [ih _ (show input.length - (start + (lexeme c rest).length) < n by omega) rfl]
        exact ⟨fun ⟨more, hts, hmore⟩ => hmore ▸ hts, fun h => ⟨_, h, rfl⟩⟩

theorem isQuoted_iff {t : Text} (h : IsClosedRun t ∨ IsOpenRun t) :
    isQuoted t = true ↔ IsClosedRun t := by
  constructor
  · intro hq
    rcases h with hclosed | hopen
    · exact hclosed
    · match t, hq with
      | q :: c :: rest, hq =>
        simp only [isQuoted, Bool.and_eq_true, beq_iff_eq] at hq
        have hinside := hopen.unquoted q (List.mem_of_getLast? hq.2)
        rw [hq.1] at hinside
        cases hinside
  · rintro ⟨q, body, hq, -, rfl⟩
    cases body with
    | nil => simp [isQuoted, hq]
    | cons c body =>
      simp only [isQuoted, List.cons_append, hq, Bool.true_and, beq_iff_eq]
      exact List.getLast?_concat (l := c :: body)

/-- The tokens of a line are the one way to part it, and the closed runs are the quoted ones. -/
theorem tokens_unique (input : Text) :
    (∀ ts, Tokenization input 0 ts ↔ ts = tokens input) ∧
    ∀ t ∈ tokens input, isQuoted t.text = true ↔ IsClosedRun t.text := by
  have htokens (ts : List Token) : Tokenization input 0 ts ↔ ts = tokens input := tokenization_iff
  refine ⟨htokens, fun t ht => isQuoted_iff ?_⟩
  exact (((htokens _).mpr rfl).lexemes t ht).shape.imp_right And.left

/-- A closed quote right behind a parameter, and one that is not closed. -/
theorem tokens_of_mixed_quotes :
    let input := "-n'x y' \"z".toList
    Tokenization input 0
      [⟨"-n".toList, 0⟩, ⟨"'x y'".toList, 2⟩, ⟨"\"z".toList, 8⟩] ∧
    (⟨"'x y'".toList, 2⟩ : Token) ∈ tokens input ∧ IsClosedRun "'x y'".toList := by
  intro input
  have hmem : (⟨"'x y'".toList, 2⟩ : Token) ∈ tokens input := by decide
  refine ⟨((tokens_unique input).1 _).mpr ?_, hmem, ((tokens_unique input).2 _ hmem).mp ?_⟩
  · decide
  · decide

end LineAssist.Line
