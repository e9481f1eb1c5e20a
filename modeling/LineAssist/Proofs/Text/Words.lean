import LineAssist.Proofs.Text.Parts
import Mathlib.Data.List.Induction

/-!
# Words and the texts made of them

Words with single spaces between them are the words of the text that they make, so a text is told
by its words once its white space has been made even.
-/

namespace LineAssist.Text

/-- A text without white space that is not empty. -/
structure IsWord (w : Text) : Prop where
  nonempty : w ≠ []
  solid : ∀ c ∈ w, isBlank c = false

instance (w : Text) : Decidable w.IsWord :=
  decidable_of_iff (w ≠ [] ∧ w.all (fun c => !isBlank c) = true)
    ⟨fun h => ⟨h.1, by simpa using h.2⟩, fun h => ⟨h.nonempty, by simpa using h.solid⟩⟩

theorem IsWord.words {w : Text} (h : w.IsWord) : words w = [w] := by
  have hgap : Text.words (w ++ []) = [w] :=
    words_append_blanks h.nonempty h.solid (List.forall_mem_nil _)
  rwa [List.append_nil] at hgap

theorem words_append_blank (s : Text) {b : Char} (hb : isBlank b = true) (t : Text) :
    words (s ++ b :: t) = words s ++ words t := by
  rw [words, pieces_append_blank s hb, List.filter_append, words, words]

theorem words_blank {b : Char} (hb : isBlank b = true) (t : Text) : words (b :: t) = words t :=
  words_append_blank [] hb t

theorem isWord_of_mem_words {t w : Text} (h : w ∈ words t) : w.IsWord := by
  induction t using word_induction with
  | nil => cases h
  | blank b rest hb ih =>
    rw [words_blank hb] at h
    exact ih h
  | word v rest hne hv hrest ih =>
    cases rest with
    | nil =>
      rw [List.append_nil, IsWord.words ⟨hne, hv⟩, List.mem_singleton] at h
      rw [h]
      exact ⟨hne, hv⟩
    | cons b rest =>
      rw [words_append_blank v (hrest b rfl), IsWord.words ⟨hne, hv⟩] at h
      rcases List.mem_append.mp h with h | h
      · rw [List.mem_singleton.mp h]
        exact ⟨hne, hv⟩
      · rw [words_blank (hrest b rfl)] at ih
        exact ih h

theorem blank_of_words_eq_nil {t : Text} (h : words t = []) : ∀ c ∈ t, isBlank c = true := by
  induction t using word_induction with
  | nil => exact List.forall_mem_nil _
  | blank b rest hb ih =>
    rw [words_blank hb] at h
    exact List.forall_mem_cons.mpr ⟨hb, ih h⟩
  | word w rest hne hw hrest _ =>
    cases rest with
    | nil =>
      rw [List.append_nil, IsWord.words ⟨hne, hw⟩] at h
      cases h
    | cons b rest =>
      rw [words_append_blank w (hrest b rfl), IsWord.words ⟨hne, hw⟩] at h
      cases h

theorem unwords_concat {ws : List Text} (hne : ws ≠ []) (w : Text) :
    unwords (ws ++ [w]) = unwords ws ++ ' ' :: w := by
  induction ws with
  | nil => exact absurd rfl hne
  | cons v ws ih =>
    cases ws with
    | nil => simp [unwords, join]
    | cons u ws =>
      have hrest := ih (List.cons_ne_nil u ws)
      simp only [unwords, List.cons_append, join] at hrest ⊢
      rw [hrest]
      simp

theorem unwords_cons (w : Text) (ws : List Text) :
    unwords (w :: ws) = w ++ ws.flatMap fun v => ' ' :: v := by
  induction ws generalizing w with
  | nil => exact (List.append_nil w).symm
  | cons v ws ih =>
    have hrest := ih v
    simp only [unwords, join] at hrest ⊢
    rw [hrest, List.flatMap_cons, List.append_assoc]
    rfl

theorem flatMap_space {ws : List Text} (h : ws ≠ []) :
    ws.flatMap (fun w => ' ' :: w) = ' ' :: unwords ws := by
  obtain ⟨w, more, rfl⟩ := List.exists_cons_of_ne_nil h
  rw [unwords_cons, List.flatMap_cons, List.cons_append]

theorem mem_unwords {ws : List Text} {c : Char} (h : c ∈ unwords ws) :
    c = ' ' ∨ ∃ w ∈ ws, c ∈ w := by
  cases ws with
  | nil => cases h
  | cons w ws =>
    rw [unwords_cons, List.mem_append, List.mem_flatMap] at h
    rcases h with h | ⟨v, hv, h⟩
    · exact .inr ⟨w, List.mem_cons_self, h⟩
    · rcases List.mem_cons.mp h with rfl | h
      · exact .inl rfl
      · exact .inr ⟨v, List.mem_cons_of_mem w hv, h⟩

theorem words_unwords {ws : List Text} (h : ∀ w ∈ ws, w.IsWord) : words (unwords ws) = ws := by
  induction ws using List.reverseRecOn with
  | nil => rfl
  | append_singleton ws w ih =>
    obtain ⟨hws, hw⟩ := List.forall_mem_append.mp h
    have hw := List.forall_mem_singleton.mp hw
    by_cases hne : ws = []
    · subst hne
      exact hw.words
    · rw [unwords_concat hne, words_append_blank _ (by rfl), ih hws, hw.words]

theorem unwords_eq_nil_iff {ws : List Text} (h : ∀ w ∈ ws, w.IsWord) :
    unwords ws = [] ↔ ws = [] := by
  constructor
  · intro hnil
    rw [← words_unwords h, hnil]
    rfl
  · rintro rfl
    rfl

/-- The text is its words with single spaces between them. -/
def IsEven (t : Text) : Prop :=
  unwords (words t) = t

theorem isEven_unwords_words (t : Text) : (unwords (words t)).IsEven := by
  rw [IsEven, words_unwords fun w => isWord_of_mem_words]

end LineAssist.Text
