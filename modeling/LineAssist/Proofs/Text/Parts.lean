import LineAssist.Text.Basic

/-!
# Parts of texts

White space separates the pieces in front of it from those behind it, and a text without white
space is one piece. A text is cut at the first occurrence of a character.
-/

namespace LineAssist.Text

theorem pieces_ne_nil (t : Text) : pieces t ≠ [] := by
  cases t with
  | nil => exact List.cons_ne_nil _ _
  | cons c t =>
    rw [pieces]
    split
    · exact List.cons_ne_nil _ _
    · split <;> exact List.cons_ne_nil _ _

theorem pieces_blank {b : Char} (hb : isBlank b = true) (t : Text) :
    pieces (b :: t) = [] :: pieces t := by
  rw [pieces, if_pos hb]

theorem pieces_append_blank (s : Text) {b : Char} (hb : isBlank b = true) (t : Text) :
    pieces (s ++ b :: t) = pieces s ++ pieces t := by
  induction s with
  | nil => exact pieces_blank hb t
  | cons c s ih =>
    rw [List.cons_append, pieces, pieces, ih]
    split
    · rfl
    · cases h : pieces s with
      | nil => exact absurd h (pieces_ne_nil s)
      | cons piece more => rfl

theorem pieces_of_solid {w : Text} (hw : ∀ c ∈ w, isBlank c = false) : pieces w = [w] := by
  induction w with
  | nil => rfl
  | cons c w ih =>
    obtain ⟨hc, hrest⟩ := List.forall_mem_cons.mp hw
    rw [pieces, hc, ih hrest]
    rfl

theorem words_of_blanks {gap : Text} (hgap : ∀ c ∈ gap, isBlank c = true) : words gap = [] := by
  induction gap with
  | nil => rfl
  | cons b gap ih =>
    obtain ⟨hb, hrest⟩ := List.forall_mem_cons.mp hgap
    rw [words, pieces_blank hb]
    exact ih hrest

theorem words_append_blanks {w gap : Text} (hne : w ≠ []) (hw : ∀ c ∈ w, isBlank c = false)
    (hgap : ∀ c ∈ gap, isBlank c = true) : words (w ++ gap) = [w] := by
  have hword : [w].filter (fun piece => !piece.isEmpty) = [w] := by simpa using hne
  cases gap with
  | nil => rw [List.append_nil, words, pieces_of_solid hw, hword]
  | cons b gap =>
    obtain ⟨hb, hrest⟩ := List.forall_mem_cons.mp hgap
    have hnil : (pieces gap).filter (fun piece => !piece.isEmpty) = [] := words_of_blanks hrest
    rw [words, pieces_append_blank w hb, pieces_of_solid hw, List.filter_append, hword, hnil,
      List.append_nil]

/-- A text is solid, or its last white space stands in front of a solid end. -/
theorem solid_or_cut (t : Text) :
    (∀ c ∈ t, isBlank c = false) ∨
    ∃ s b w, t = s ++ b :: w ∧ isBlank b = true ∧ ∀ c ∈ w, isBlank c = false := by
  induction t with
  | nil => exact .inl (List.forall_mem_nil _)
  | cons c t ih =>
    rcases ih with hsolid | ⟨s, b, w, rfl, hb, hw⟩
    · cases hc : isBlank c with
      | true => exact .inr ⟨[], c, t, rfl, hc, hsolid⟩
      | false => exact .inl (List.forall_mem_cons.mpr ⟨hc, hsolid⟩)
    · exact .inr ⟨c :: s, b, w, rfl, hb, hw⟩

/-- Induction over the white space characters and the words of a text. -/
theorem word_induction {motive : Text → Prop} (nil : motive [])
    (blank : ∀ b rest, isBlank b = true → motive rest → motive (b :: rest))
    (word : ∀ w rest, w ≠ [] → (∀ c ∈ w, isBlank c = false) →
      (∀ b, rest.head? = some b → isBlank b = true) → motive rest → motive (w ++ rest))
    (t : Text) : motive t := by
  induction hn : t.length using Nat.strongRecOn generalizing t with
  | ind n ih =>
    cases t with
    | nil => exact nil
    | cons c rest =>
      simp only [List.length_cons] at hn
      cases hc : isBlank c with
      | true => exact blank c rest hc (ih rest.length (by omega) rest rfl)
      | false =>
        have hsplit : c :: rest =
            (c :: rest.takeWhile (!isBlank ·)) ++ rest.dropWhile (!isBlank ·) := by
          rw [List.cons_append, List.takeWhile_append_dropWhile]
        have hshorter := (List.dropWhile_suffix (l := rest) (!isBlank ·)).length_le
        rw [hsplit]
        refine word _ _ (List.cons_ne_nil _ _) ?_ ?_ (ih _ (by omega) _ rfl)
        · refine List.forall_mem_cons.mpr ⟨hc, fun d hd => ?_⟩
          simpa using List.all_eq_true.mp List.all_takeWhile d hd
        · intro b hb
          have hstop := List.head?_dropWhile_not (!isBlank ·) rest
          rw [hb] at hstop
          simpa using hstop

theorem stripStart?_append (start rest : Text) : stripStart? start (start ++ rest) = some rest := by
  induction start with
  | nil => rfl
  | cons c start ih => rw [List.cons_append, stripStart?, if_pos rfl, ih]

theorem cut?_append {q : Char} {body : Text} (hbody : q ∉ body) (after : Text) :
    cut? q (body ++ q :: after) = some (body, after) := by
  induction body with
  | nil => rw [List.nil_append, cut?, if_pos rfl]
  | cons c body ih =>
    simp only [List.mem_cons, not_or] at hbody
    obtain ⟨hc, hrest⟩ := hbody
    rw [List.cons_append, cut?, if_neg (Ne.symm hc), ih hrest, Option.map_some]

theorem cut?_eq_some_iff {q : Char} {t body after : Text} :
    cut? q t = some (body, after) ↔ t = body ++ q :: after ∧ q ∉ body := by
  refine ⟨fun h => ?_, fun ⟨ht, hbody⟩ => ht ▸ cut?_append hbody after⟩
  induction t generalizing body with
  | nil => cases h
  | cons c t ih =>
    rw [cut?] at h
    split at h
    case isTrue hc =>
      cases h
      exact ⟨by rw [hc, List.nil_append], List.not_mem_nil⟩
    case isFalse hc =>
      obtain ⟨⟨before, after'⟩, hcut, hsame⟩ := Option.map_eq_some_iff.mp h
      cases hsame
      obtain ⟨rfl, hbefore⟩ := ih hcut
      refine ⟨rfl, ?_⟩
      simp only [List.mem_cons, not_or]
      exact ⟨Ne.symm hc, hbefore⟩

theorem cut?_eq_none_iff {q : Char} {t : Text} : cut? q t = none ↔ q ∉ t := by
  induction t with
  | nil => exact ⟨fun _ => List.not_mem_nil, fun _ => rfl⟩
  | cons c t ih =>
    simp only [cut?, List.mem_cons, not_or]
    split
    case isTrue hc => exact ⟨nofun, fun h => absurd hc.symm h.1⟩
    case isFalse hc =>
      rw [Option.map_eq_none_iff, ih]
      exact ⟨fun h => ⟨Ne.symm hc, h⟩, And.right⟩

theorem splitAtChar_ne_nil (q : Char) (t : Text) : splitAtChar q t ≠ [] := by
  cases t with
  | nil => exact List.cons_ne_nil _ _
  | cons c t =>
    rw [splitAtChar]
    split
    · exact List.cons_ne_nil _ _
    · split <;> exact List.cons_ne_nil _ _

theorem splitAtChar_self (q : Char) (t : Text) :
    splitAtChar q (q :: t) = [] :: splitAtChar q t := by
  rw [splitAtChar, if_pos rfl]

theorem splitAtChar_append (q : Char) (s t : Text) :
    splitAtChar q (s ++ q :: t) = splitAtChar q s ++ splitAtChar q t := by
  induction s with
  | nil => exact splitAtChar_self q t
  | cons c s ih =>
    rw [List.cons_append, splitAtChar, splitAtChar, ih]
    split
    · rfl
    · cases h : splitAtChar q s with
      | nil => exact absurd h (splitAtChar_ne_nil q s)
      | cons part more => rfl

theorem splitAtChar_of_not_mem {q : Char} {t : Text} (h : q ∉ t) : splitAtChar q t = [t] := by
  induction t with
  | nil => rfl
  | cons c t ih =>
    rw [List.mem_cons, not_or] at h
    rw [splitAtChar, if_neg (Ne.symm h.1), ih h.2]

theorem not_mem_of_mem_splitAtChar {q : Char} {t part : Text} (h : part ∈ splitAtChar q t) :
    q ∉ part := by
  induction t generalizing part with
  | nil =>
    rw [List.mem_singleton.mp h]
    exact List.not_mem_nil
  | cons c t ih =>
    rw [splitAtChar] at h
    split at h
    case isTrue =>
      rcases List.mem_cons.mp h with rfl | h
      · exact List.not_mem_nil
      · exact ih h
    case isFalse hc =>
      cases hparts : splitAtChar q t with
      | nil => exact absurd hparts (splitAtChar_ne_nil q t)
      | cons first more =>
        rw [hparts] at h ih
        rcases List.mem_cons.mp h with rfl | h
        · rw [List.mem_cons, not_or]
          exact ⟨Ne.symm hc, ih List.mem_cons_self⟩
        · exact ih (List.mem_cons_of_mem _ h)

/-- Parts that are joined with the character that none of them holds are told apart again. -/
theorem splitAtChar_join {q : Char} {parts : List Text} (hne : parts ≠ [])
    (hparts : ∀ part ∈ parts, q ∉ part) : splitAtChar q (join [q] parts) = parts := by
  induction parts with
  | nil => exact absurd rfl hne
  | cons part rest ih =>
    obtain ⟨hpart, hrest⟩ := List.forall_mem_cons.mp hparts
    cases rest with
    | nil => rw [join, splitAtChar_of_not_mem hpart]
    | cons next more =>
      rw [join, List.append_assoc, List.singleton_append, splitAtChar_append,
        splitAtChar_of_not_mem hpart, ih (List.cons_ne_nil _ _) hrest, List.singleton_append]
      exact List.cons_ne_nil _ _

end LineAssist.Text
