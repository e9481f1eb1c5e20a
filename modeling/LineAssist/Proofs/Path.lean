import LineAssist.Path
import LineAssist.Proofs.Text.Parts

/-!
# Paths and their texts

A path that has been read from a text is in normal form, and a path in normal form is what its text
stands for. So the text of a path can be passed on in its place.
-/

namespace LineAssist.Path

variable {p : Path} {t : Text}

/-- All names are names that a path keeps, and none of them holds a slash. -/
def IsNormal (p : Path) : Prop :=
  ∀ name ∈ p.names, isName name = true ∧ '/' ∉ name

theorem isNormal_ofText (t : Text) : (ofText t).IsNormal := by
  intro name hname
  obtain ⟨hpart, hname⟩ := List.mem_filter.mp hname
  exact ⟨hname, Text.not_mem_of_mem_splitAtChar hpart⟩

/-! ## Anchors -/

theorem anchorOf_append (a : Anchor) (h : t.head? ≠ some '/') :
    anchorOf (Anchor.text a ++ t) = a := by
  cases t with
  | nil => cases a <;> rfl
  | cons c t =>
    have hc : c ≠ '/' := fun hc => h (congrArg some hc)
    cases a <;> simp [anchorOf, Anchor.text, hc]

/-! ## Names -/

theorem head?_join {names : List Text} (h : ∀ name ∈ names, isName name = true ∧ '/' ∉ name) :
    (Text.join ['/'] names).head? ≠ some '/' := by
  cases names with
  | nil => exact nofun
  | cons name rest =>
    obtain ⟨hname, hslash⟩ := h name List.mem_cons_self
    cases name with
    | nil => cases hname
    | cons c name =>
      have hc : c ≠ '/' := fun hc => hslash (hc ▸ List.mem_cons_self)
      cases rest <;> simpa [Text.join] using hc

theorem names_join {names : List Text} (h : ∀ name ∈ names, isName name = true ∧ '/' ∉ name) :
    (Text.splitAtChar '/' (Text.join ['/'] names)).filter isName = names := by
  by_cases hne : names = []
  · rw [hne]
    rfl
  · rw [Text.splitAtChar_join hne fun name hname => (h name hname).2]
    exact List.filter_eq_self.mpr fun name hname => (h name hname).1

theorem names_slash (t : Text) :
    (Text.splitAtChar '/' ('/' :: t)).filter isName = (Text.splitAtChar '/' t).filter isName := by
  rw [Text.splitAtChar_self]
  rfl

theorem names_append (a : Anchor) (t : Text) :
    (Text.splitAtChar '/' (Anchor.text a ++ t)).filter isName =
      (Text.splitAtChar '/' t).filter isName := by
  cases a with
  | here => rfl
  | root => exact names_slash t
  | doubleRoot => exact (names_slash ('/' :: t)).trans (names_slash t)

/-! ## Texts -/

theorem text_eq (h : p ≠ ⟨.here, []⟩) : p.text = Anchor.text p.anchor ++ Text.join ['/'] p.names := by
  rw [text]
  split
  case h_1 hanchor hnames => exact absurd (congr (congrArg Path.mk hanchor) hnames) h
  case h_2 => rfl

theorem ofText_text (h : p.IsNormal) : ofText p.text = p := by
  by_cases hdot : p = ⟨.here, []⟩
  · rw [hdot]
    rfl
  · rw [text_eq hdot, ofText, anchorOf_append _ (head?_join h), names_append, names_join h]

theorem head?_text (h : p.isAbsolute = true) : p.text.head? = some '/' := by
  obtain ⟨anchor, names⟩ := p
  cases anchor with
  | here => cases h
  | root => rfl
  | doubleRoot => rfl

end LineAssist.Path
