import LineAssist.Editor.Replacement
import LineAssist.Proofs.Text.Lines
import Mathlib.Data.List.TakeWhile

/-!
# Replacing a whole document

A session ends lines at more characters than an editor does, and takes the end of its last line for
the end of the document unless a line feed stands there. If it counts a line that the editor does
not, the position is behind the last line of the editor, which means the end of the text too. But if
both count the same lines and the last one ends with a carriage return, the position is in front of
that line end for the editor, and an edit of the whole document leaves the carriage return.
-/

namespace LineAssist.Editor

open Text (isLineEnd linesWithEnds EndsLine)

variable {w e rest : Text} {n : Nat}

/-! ## The lines of an editor -/

theorem isLineEnd_of_isNewline {c : Char} (h : isNewline c = true) : isLineEnd c = true := by
  rw [isNewline, Bool.or_eq_true, beq_iff_eq, beq_iff_eq] at h
  rcases h with rfl | rfl <;> rfl

theorem isNewline_of_solid {c : Char} (h : isLineEnd c = false) : isNewline c = false :=
  Bool.eq_false_iff.mpr fun hnewline => Bool.eq_false_iff.mp h (isLineEnd_of_isNewline hnewline)

theorem behindLines_cons {c : Char} (hc : isNewline c = false) (n : Nat) (t : Text) :
    behindLines (n + 1) (c :: t) = behindLines (n + 1) t := by
  rw [behindLines, hc]
  · rfl
  · rintro rest rfl -
    cases hc

theorem behindLines_append (hw : ∀ c ∈ w, isLineEnd c = false) (n : Nat) (t : Text) :
    behindLines (n + 1) (w ++ t) = behindLines (n + 1) t := by
  induction w with
  | nil => rfl
  | cons c w ih =>
    obtain ⟨hc, hrest⟩ := List.forall_mem_cons.mp hw
    rw [List.cons_append, behindLines_cons (isNewline_of_solid hc), ih hrest]

theorem behindLines_of_solid (hw : ∀ c ∈ w, isLineEnd c = false) (n : Nat) :
    behindLines (n + 1) w = [] := by
  have h := behindLines_append hw n []
  rwa [List.append_nil] at h

/-- What ends a line for a session ends it for an editor too, or it is nothing to the editor. -/
theorem behindLines_ended (he : EndsLine e rest) :
    (∀ c ∈ e, isNewline c = true) ∧ (∀ n, behindLines (n + 1) (e ++ rest) = behindLines n rest) ∨
    (∃ c, e = [c] ∧ isLineEnd c = true ∧ isNewline c = false) := by
  cases he with
  | both => exact .inl ⟨by simp [isNewline], fun n => rfl⟩
  | @single c _ ends alone =>
    cases hc : isNewline c with
    | false => exact .inr ⟨c, rfl, ends, hc⟩
    | true =>
      refine .inl ⟨List.forall_mem_singleton.mpr hc, fun n => ?_⟩
      rw [List.singleton_append, behindLines, if_pos hc]
      rintro more hreturn rfl
      exact alone hreturn rfl

/-- An editor has no more lines than a session counts. -/
theorem behindLines_eq_nil {t : Text} (h : (linesWithEnds t).length ≤ n) : behindLines n t = [] := by
  induction t using Text.line_induction generalizing n with
  | nil => cases n <;> rfl
  | last w hne hw =>
    rw [Text.linesWithEnds_of_solid hw hne, List.length_singleton] at h
    obtain ⟨n, rfl⟩ := Nat.exists_eq_add_of_le' h
    exact behindLines_of_solid hw n
  | line w e rest hw he ih =>
    rw [Text.linesWithEnds_append hw he, List.length_cons] at h
    obtain ⟨n, rfl⟩ := Nat.exists_eq_add_of_le' (Nat.le_of_add_left_le h)
    rw [behindLines_append hw]
    rcases behindLines_ended he with ⟨-, hbehind⟩ | ⟨c, rfl, -, hc⟩
    · rw [hbehind]
      exact ih (Nat.le_of_succ_le_succ h)
    · rw [List.singleton_append, behindLines_cons hc]
      exact ih (Nat.le_of_succ_le h)

theorem behind_zero (t : Text) (m : Nat) :
    behind t ⟨0, m⟩ = t.drop (min m (firstLine t).length) := by
  rw [behind, Int.toNat_zero, behindLines, Int.toNat_natCast]

theorem behind_of_nil {t : Text} {n : Nat} (h : behindLines n t = []) (m : Int) :
    behind t ⟨n, m⟩ = [] := by
  rw [behind, Int.toNat_natCast, h]
  exact List.drop_nil

/-! ## The end of a document -/

theorem documentEnd_singleton (line : Text) : documentEnd [line] =
    if line.getLast? = some '\n' then ⟨1, 0⟩ else ⟨0, line.length⟩ := by
  by_cases h : line.getLast? = some '\n' <;> simp [documentEnd, h]

theorem documentEnd_cons (line : Text) {lines : List Text} (hne : lines ≠ []) :
    documentEnd (line :: lines) =
      ⟨(documentEnd lines).line + 1, (documentEnd lines).character⟩ := by
  obtain ⟨last, hlast⟩ := Option.isSome_iff_exists.mp (List.getLast?_isSome.mpr hne)
  have hcons : (line :: lines).getLast? = some last := by
    rw [List.getLast?_cons, hlast]
    rfl
  rw [documentEnd, documentEnd, hcons, hlast]
  dsimp only
  split
  · simp
  · simp

theorem line_documentEnd {lines : List Text} (hne : lines ≠ []) :
    ∃ n : Nat, (documentEnd lines).line = n ∧ lines.length ≤ n + 1 := by
  induction lines with
  | nil => exact absurd rfl hne
  | cons line lines ih =>
    by_cases hlines : lines = []
    · subst hlines
      rw [documentEnd_singleton]
      split
      · exact ⟨1, rfl, Nat.le_succ 1⟩
      · exact ⟨0, rfl, Nat.le_refl 1⟩
    · obtain ⟨n, hn, hlength⟩ := ih hlines
      refine ⟨n + 1, ?_, Nat.succ_le_succ hlength⟩
      rw [documentEnd_cons line hlines, hn]
      rfl

/-- What an edit of the whole document leaves. -/
def leftover (t : Text) : Text :=
  if t.getLast? = some '\r' ∧ ∀ c ∈ t, isLineEnd c = true → isNewline c = true then ['\r'] else []

theorem getLast?_ne_of_solid (hw : ∀ c ∈ w, isLineEnd c = false) {c : Char}
    (hc : isLineEnd c = true) : w.getLast? ≠ some c := fun h =>
  Bool.eq_false_iff.mp (hw c (List.mem_of_getLast? h)) hc

theorem firstLine_of_solid (hw : ∀ c ∈ w, isLineEnd c = false) : firstLine w = w :=
  List.takeWhile_eq_self_iff.mpr fun c hc => by rw [isNewline_of_solid (hw c hc)]; rfl

theorem firstLine_append (hw : ∀ c ∈ w, isLineEnd c = false) (t : Text) :
    firstLine (w ++ t) = w ++ firstLine t :=
  List.takeWhile_append_of_pos fun c hc => by rw [isNewline_of_solid (hw c hc)]; rfl

theorem leftover_of_getLast? {t : Text} (h : t.getLast? ≠ some '\r') : leftover t = [] :=
  if_neg fun hleft => h hleft.1

theorem behind_ended (hw : ∀ c ∈ w, isLineEnd c = false) {e : Text}
    (he : behindLines 1 e = []) : behind (w ++ e) ⟨1, 0⟩ = [] := by
  refine behind_of_nil (n := 1) ?_ 0
  rw [behindLines_append hw, he]

theorem behind_documentEnd_singleton (hw : ∀ c ∈ w, isLineEnd c = false) (he : EndsLine e []) :
    behind (w ++ e) (documentEnd [w ++ e]) = leftover (w ++ e) := by
  rw [documentEnd_singleton]
  cases he with
  | both =>
    rw [leftover_of_getLast? (by simp), if_pos (by simp), behind_ended hw rfl]
  | @single c _ ends =>
    by_cases hfeed : c = '\n'
    · subst hfeed
      rw [leftover_of_getLast? (by simp), if_pos (by simp), behind_ended hw rfl]
    · rw [if_neg (by simpa using hfeed), behind_zero, firstLine_append hw]
      by_cases hreturn : c = '\r'
      · have hall : ∀ d ∈ w ++ [c], isLineEnd d = true → isNewline d = true := by
          intro d hd hends
          rcases List.mem_append.mp hd with hd | hd
          · cases (hw d hd).symm.trans hends
          · rw [List.mem_singleton.mp hd, hreturn]
            rfl
        rw [leftover, if_pos ⟨by simp [hreturn], hall⟩]
        simp [firstLine, isNewline, hreturn]
      · rw [leftover_of_getLast? (by simpa using hreturn)]
        simp [firstLine, isNewline, hfeed, hreturn]

theorem leftover_append (hw : ∀ c ∈ w, isLineEnd c = false) (he : ∀ c ∈ e, isNewline c = true)
    (hne : rest ≠ []) : leftover (w ++ (e ++ rest)) = leftover rest := by
  have hlast : (w ++ (e ++ rest)).getLast? = rest.getLast? := by
    obtain ⟨c, hc⟩ := Option.isSome_iff_exists.mp (List.getLast?_isSome.mpr hne)
    rw [List.getLast?_append, List.getLast?_append, hc]
    rfl
  have hall : (∀ c ∈ w ++ (e ++ rest), isLineEnd c = true → isNewline c = true) ↔
      ∀ c ∈ rest, isLineEnd c = true → isNewline c = true := by
    rw [List.forall_mem_append, List.forall_mem_append]
    refine ⟨fun h => h.2.2, fun h => ⟨fun c hc hends => ?_, fun c hc _ => he c hc, h⟩⟩
    cases (hw c hc).symm.trans hends
  rw [leftover, leftover, hlast]
  simp only [hall]

theorem behind_documentEnd (t : Text) : behind t (documentEnd (linesWithEnds t)) = leftover t := by
  induction t using Text.line_induction with
  | nil => rfl
  | last w hne hw =>
    rw [Text.linesWithEnds_of_solid hw hne, documentEnd_singleton,
      if_neg (getLast?_ne_of_solid hw rfl), leftover_of_getLast? (getLast?_ne_of_solid hw rfl)]
    rw [behind_zero, firstLine_of_solid hw, Nat.min_self, List.drop_length]
  | line w e rest hw he ih =>
    rw [Text.linesWithEnds_append hw he]
    by_cases hrest : rest = []
    · subst hrest
      rw [List.append_nil]
      exact behind_documentEnd_singleton hw he
    · have hlines := Text.linesWithEnds_ne_nil hrest
      obtain ⟨n, hn, hlength⟩ := line_documentEnd hlines
      rw [documentEnd_cons _ hlines]
      rcases behindLines_ended he with ⟨hnewline, hbehind⟩ | ⟨c, rfl, ends, hc⟩
      · rw [leftover_append hw hnewline hrest, ← ih, behind, behind, hn]
        have hline : behindLines ((n : Int) + 1).toNat (w ++ (e ++ rest)) =
            behindLines (n : Int).toNat rest := by
          rw [Int.toNat_natCast_add_one, Int.toNat_natCast, behindLines_append hw, hbehind]
        rw [hline]
      · -- the editor has a line less than the session counts, so that the end is past its last one
        have hnil : behindLines (n + 1) (w ++ ([c] ++ rest)) = [] := by
          rw [behindLines_append hw, List.singleton_append, behindLines_cons hc]
          exact behindLines_eq_nil hlength
        have hother : leftover (w ++ ([c] ++ rest)) = [] := if_neg fun hleft =>
          Bool.eq_false_iff.mp hc (hleft.2 c (by simp) ends)
        rw [hother, hn]
        exact behind_of_nil (n := n + 1) hnil _

/-- An edit of the whole document gives the new content, unless the document ends with a carriage
return and no line of it ends at a character at which an editor ends none: then that carriage return
stays behind the content. -/
theorem replaceRange_wholeDocument (t content : Text) :
    replaceRange t (wholeDocument (linesWithEnds t)) content = content ++
      if t.getLast? = some '\r' ∧ ∀ c ∈ t, isLineEnd c = true → isNewline c = true then ['\r']
      else [] := by
  have hstart : behind t ⟨0, 0⟩ = t := by
    have hzero := behind_zero t 0
    rwa [Nat.zero_min, List.drop_zero] at hzero
  have hahead : ahead t ⟨0, 0⟩ = [] := by rw [ahead, hstart, Nat.sub_self, List.take_zero]
  rw [replaceRange, wholeDocument, hahead, List.nil_append, behind_documentEnd, leftover]

/-- Lines that end at all kinds of characters. -/
example : let t := "[\n  \"x\x0by\"\r\n]\u2028\r".toList
    replaceRange t (wholeDocument (linesWithEnds t)) "1".toList = "1".toList := by
  decide

/-- The carriage return at the end of a line is left when the whole document is replaced. -/
theorem replaceRange_leaves_carriageReturn :
    replaceRange "a\r".toList (wholeDocument (linesWithEnds "a\r".toList)) "b".toList ≠
      "b".toList := by
  decide

end LineAssist.Editor
