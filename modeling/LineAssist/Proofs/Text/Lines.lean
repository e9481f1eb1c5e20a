import LineAssist.Text.Lines

/-!
# The lines of a text

A text is one line without a line end, or its first line with the line end stands in front of the
lines of the rest.
-/

namespace LineAssist.Text

/-- What ends a line in front of a rest: a carriage return ends a line alone only if no line feed
follows. -/
inductive EndsLine : Text → Text → Prop
  | both (rest : Text) : EndsLine ['\r', '\n'] rest
  | single {c : Char} {rest : Text} (ends : isLineEnd c = true)
      (alone : c = '\r' → rest.head? ≠ some '\n') : EndsLine [c] rest

/-- Induction over the lines of a text. -/
theorem line_induction {motive : Text → Prop} (nil : motive [])
    (last : ∀ w, w ≠ [] → (∀ c ∈ w, isLineEnd c = false) → motive w)
    (line : ∀ w e rest, (∀ c ∈ w, isLineEnd c = false) → EndsLine e rest → motive rest →
      motive (w ++ (e ++ rest)))
    (t : Text) : motive t := by
  -- the characters of the line that has begun are carried along
  suffices h : ∀ (t w : Text), (∀ c ∈ w, isLineEnd c = false) → motive (w ++ t) from
    h t [] (List.forall_mem_nil _)
  intro t
  induction t using linesWithEnds.induct with
  | case1 =>
    intro w hw
    rw [List.append_nil]
    by_cases hnil : w = []
    · rwa [hnil]
    · exact last w hnil hw
  | case2 rest ih => exact fun w hw => line w _ rest hw (.both rest) (ih [] (List.forall_mem_nil _))
  | case3 c rest hother hends ih =>
    intro w hw
    refine line w [c] rest hw (.single hends fun hc hhead => ?_) (ih [] (List.forall_mem_nil _))
    obtain ⟨more, rfl⟩ := List.head?_eq_some_iff.mp hhead
    exact hother more hc rfl
  | case4 c rest hother hsolid ih =>
    intro w hw
    rw [List.append_cons]
    refine ih (w ++ [c]) fun d hd => ?_
    rcases List.mem_append.mp hd with hd | hd
    · exact hw d hd
    · rw [List.mem_singleton.mp hd]
      exact Bool.eq_false_iff.mpr hsolid

theorem ne_carriageReturn {c : Char} (hc : isLineEnd c = false) : c ≠ '\r' := by
  rintro rfl
  cases hc

theorem linesWithEnds_cons_solid {c : Char} (hc : isLineEnd c = false) (t : Text) :
    linesWithEnds (c :: t) = consLine c (linesWithEnds t) := by
  rw [linesWithEnds, hc]
  · rfl
  · exact fun rest h _ => ne_carriageReturn hc h

theorem linesWithEnds_of_solid {w : Text} (hw : ∀ c ∈ w, isLineEnd c = false) (hne : w ≠ []) :
    linesWithEnds w = [w] := by
  induction w with
  | nil => exact absurd rfl hne
  | cons c w ih =>
    obtain ⟨hc, hrest⟩ := List.forall_mem_cons.mp hw
    rw [linesWithEnds_cons_solid hc]
    cases w with
    | nil => rfl
    | cons d w => rw [ih hrest (List.cons_ne_nil d w), consLine]

theorem linesWithEnds_append {w e rest : Text} (hw : ∀ c ∈ w, isLineEnd c = false)
    (he : EndsLine e rest) : linesWithEnds (w ++ (e ++ rest)) = (w ++ e) :: linesWithEnds rest := by
  induction w with
  | nil =>
    cases he with
    | both => rfl
    | @single c _ ends alone =>
      rw [List.nil_append, List.singleton_append, linesWithEnds, if_pos ends]
      · rfl
      · rintro more hc rfl
        exact alone hc rfl
  | cons c w ih =>
    obtain ⟨hc, hrest⟩ := List.forall_mem_cons.mp hw
    rw [List.cons_append, linesWithEnds_cons_solid hc, ih hrest, consLine, List.cons_append]

theorem linesWithEnds_ne_nil {t : Text} (h : t ≠ []) : linesWithEnds t ≠ [] := by
  induction t using line_induction with
  | nil => exact absurd rfl h
  | last w hne hw =>
    rw [linesWithEnds_of_solid hw hne]
    exact List.cons_ne_nil _ _
  | line w e rest hw he =>
    rw [linesWithEnds_append hw he]
    exact List.cons_ne_nil _ _

end LineAssist.Text
