import LineAssist.Json.Writing
import LineAssist.Proofs.Computation
import LineAssist.Proofs.Entries
import LineAssist.Proofs.Json.Depth
import LineAssist.Proofs.Text.Digits

/-!
# What is read can be written

An integer has a text up to the same number of digits that it may have when it is read, and a value
may nest as deep when it is written as when it is read. So every value that was read from a text has
a text in every layout. The text need not be the one it was read from.
-/

namespace LineAssist.Json

variable {room inside : Option Nat}

/-- The value has a text where there is some room. -/
def IsWritableIn (room : Option Nat) (v : Json) : Prop :=
  isWritable v = true ∧ v.fits room = true

theorem isDigit_of_readWhole {t whole rest : Text} (h : readWhole t = some (whole, rest)) :
    ∀ c ∈ whole, Text.isDigit c = true := by
  unfold readWhole at h
  split at h
  · obtain ⟨rfl, rfl⟩ := Prod.mk.inj (Option.some.inj h)
    simp [Text.isDigit]
  · dsimp only at h
    split at h
    · cases h
    · obtain ⟨rfl, rfl⟩ := Prod.mk.inj (Option.some.inj h)
      exact fun c hc => Text.isDigit_of_mem_spanDigits hc

theorem isShort_of_digits {whole : Text} (negative : Bool)
    (hdigits : ∀ c ∈ whole, Text.isDigit c = true) (hlength : whole.length ≤ Number.digitLimit) :
    Number.isShort (if negative then -((Text.digitsValue whole : Nat) : Int)
      else ((Text.digitsValue whole : Nat) : Int)) = true := by
  have habs : Int.natAbs (if negative then -((Text.digitsValue whole : Nat) : Int)
      else ((Text.digitsValue whole : Nat) : Int)) = Text.digitsValue whole := by
    cases negative <;> simp
  have hlt := Text.digitsValue_lt hdigits
  generalize hlimit : Number.digitLimit = limit at hlength
  rw [Number.isShort, habs, decide_eq_true_eq, hlimit]
  exact lt_of_lt_of_le hlt (Nat.pow_le_pow_right (by decide) hlength)

theorem isWritableIn_of_readMagnitude {negative : Bool} {t rest : Text} {v : Json}
    (h : readMagnitude negative t = .ok (v, rest)) : IsWritableIn room v := by
  unfold readMagnitude at h
  cases hwhole : readWhole t with
  | none => simp [hwhole] at h
  | some found =>
    obtain ⟨whole, after⟩ := found
    simp only [hwhole] at h
    split at h
    · split at h
      · cases h
      · rename_i hlength
        obtain ⟨rfl, rfl⟩ := Prod.mk.inj (Except.ok.inj h)
        have hshort := isShort_of_digits negative (isDigit_of_readWhole hwhole)
          (Nat.le_of_not_lt hlength)
        exact ⟨hshort, fits_of_depth rfl⟩
    · obtain ⟨rfl, rfl⟩ := Prod.mk.inj (Except.ok.inj h)
      exact ⟨rfl, fits_of_depth rfl⟩

theorem isWritableIn_of_readWord {t rest : Text} {v : Json} (h : readWord t = some (v, rest)) :
    IsWritableIn room v := by
  simp only [readWord, Option.orElse_eq_orElse, Option.orElse_eq_or, Option.or_eq_some_iff,
    Option.map_eq_some_iff, Prod.mk.injEq] at h
  rcases h with h | ⟨-, h | ⟨-, h | ⟨-, h | ⟨-, h | ⟨-, h⟩⟩⟩⟩⟩ <;>
    obtain ⟨_, -, rfl, -⟩ := h <;> exact ⟨rfl, fits_of_depth rfl⟩

theorem itemsWritable_iff {items : List Json} :
    itemsWritable items = true ↔ ∀ v ∈ items, isWritable v = true := by
  induction items with
  | nil => simp [itemsWritable]
  | cons v items ih => rw [itemsWritable, Bool.and_eq_true, ih, List.forall_mem_cons]

theorem fieldsWritable_iff {fields : List (Text × Json)} :
    fieldsWritable fields = true ↔ ∀ field ∈ fields, isWritable field.2 = true := by
  induction fields with
  | nil => simp [fieldsWritable]
  | cons field fields ih => rw [fieldsWritable, Bool.and_eq_true, ih, List.forall_mem_cons]

theorem isWritableIn_arr {items : List Json} (henter : enter room = .ok inside)
    (h : ∀ v ∈ items, IsWritableIn inside v) : IsWritableIn room (.arr items) :=
  ⟨itemsWritable_iff.mpr fun v hv => (h v hv).1,
    (fits_arr henter).trans (List.all_eq_true.mpr fun v hv => (h v hv).2)⟩

/-- A key that is written twice does not make a value of its own. -/
theorem isWritableIn_obj {fields : List (Text × Json)} (henter : enter room = .ok inside)
    (h : ∀ field ∈ fields, IsWritableIn inside field.2) :
    IsWritableIn room (.obj (ofEntries fields)) :=
  ⟨fieldsWritable_iff.mpr fun field hfield => (h field (mem_ofEntries hfield)).1,
    (fits_obj henter).trans
      (List.all_eq_true.mpr fun field hfield => (h field (mem_ofEntries hfield)).2)⟩

/-- What reading with some fuel gives is writable in the same room, for values, items and fields
together. -/
structure ReadsWritable (fuel : Nat) : Prop where
  value : ∀ {room t v rest}, readValue room fuel t = .ok (v, rest) → IsWritableIn room v
  items : ∀ {room t items rest}, readItems room fuel t = .ok (items, rest) →
    ∀ v ∈ items, IsWritableIn room v
  fields : ∀ {room t fields rest}, readFields room fuel t = .ok (fields, rest) →
    ∀ field ∈ fields, IsWritableIn room field.2

theorem readsWritable_value {fuel : Nat} (ih : ReadsWritable fuel) {t rest : Text} {v : Json}
    (h : readValue room (fuel + 1) t = .ok (v, rest)) : IsWritableIn room v := by
  unfold readValue at h
  split at h
  · split at h
    · obtain ⟨rfl, -⟩ := Prod.mk.inj (Except.ok.inj h)
      exact ⟨rfl, fits_of_depth rfl⟩
    · cases h
  · obtain ⟨inside, henter, h⟩ := ok_of_bind h
    split at h
    · obtain ⟨rfl, -⟩ := Prod.mk.inj (Except.ok.inj h)
      exact isWritableIn_arr henter nofun
    · obtain ⟨⟨items, after⟩, hitems, h⟩ := ok_of_bind h
      obtain ⟨rfl, -⟩ := Prod.mk.inj (Except.ok.inj h)
      exact isWritableIn_arr henter (ih.items hitems)
  · obtain ⟨inside, henter, h⟩ := ok_of_bind h
    split at h
    · obtain ⟨rfl, -⟩ := Prod.mk.inj (Except.ok.inj h)
      have hempty : ∀ field ∈ ([] : List (Text × Json)), IsWritableIn inside field.2 := nofun
      exact isWritableIn_obj henter hempty
    · obtain ⟨⟨fields, after⟩, hfields, h⟩ := ok_of_bind h
      obtain ⟨rfl, -⟩ := Prod.mk.inj (Except.ok.inj h)
      exact isWritableIn_obj henter (ih.fields hfields)
  · split at h
    · rename_i hword
      obtain rfl := Except.ok.inj h
      exact isWritableIn_of_readWord hword
    · split at h
      · exact isWritableIn_of_readMagnitude h
      · exact isWritableIn_of_readMagnitude h

theorem readsWritable_items {fuel : Nat} (ih : ReadsWritable fuel) {t rest : Text}
    {items : List Json} (h : readItems room (fuel + 1) t = .ok (items, rest)) :
    ∀ v ∈ items, IsWritableIn room v := by
  unfold readItems at h
  obtain ⟨⟨v, after⟩, hv, h⟩ := ok_of_bind h
  have hfirst := ih.value hv
  dsimp only at h
  split at h
  · obtain ⟨rfl, -⟩ := Prod.mk.inj (Except.ok.inj h)
    exact List.forall_mem_singleton.mpr hfirst
  · obtain ⟨⟨more, after⟩, hmore, h⟩ := ok_of_bind h
    obtain ⟨rfl, -⟩ := Prod.mk.inj (Except.ok.inj h)
    exact List.forall_mem_cons.mpr ⟨hfirst, ih.items hmore⟩
  · cases h

theorem readsWritable_fields {fuel : Nat} (ih : ReadsWritable fuel) {t rest : Text}
    {fields : List (Text × Json)} (h : readFields room (fuel + 1) t = .ok (fields, rest)) :
    ∀ field ∈ fields, IsWritableIn room field.2 := by
  unfold readFields at h
  split at h
  · split at h
    · cases h
    · dsimp only at h
      split at h
      · obtain ⟨⟨v, after⟩, hv, h⟩ := ok_of_bind h
        have hfirst := ih.value hv
        dsimp only at h
        split at h
        · obtain ⟨rfl, -⟩ := Prod.mk.inj (Except.ok.inj h)
          exact List.forall_mem_singleton.mpr hfirst
        · obtain ⟨⟨more, after⟩, hmore, h⟩ := ok_of_bind h
          obtain ⟨rfl, -⟩ := Prod.mk.inj (Except.ok.inj h)
          exact List.forall_mem_cons.mpr ⟨hfirst, ih.fields hmore⟩
        · cases h
      · cases h
  · cases h

theorem readsWritable (fuel : Nat) : ReadsWritable fuel := by
  induction fuel with
  | zero =>
    constructor <;>
    · intro room t v rest h
      cases h
  | succ fuel ih => exact ⟨readsWritable_value ih, readsWritable_items ih, readsWritable_fields ih⟩

theorem isWritableIn_of_readWithin {t : Text} {v : Json} (h : readWithin room t = .ok v) :
    IsWritableIn room v := by
  unfold readWithin at h
  obtain ⟨⟨w, rest⟩, hw, h⟩ := ok_of_bind h
  dsimp only at h
  split at h
  · obtain rfl := Except.ok.inj h
    exact (readsWritable _).value hw
  · cases h

/-- A value that was read has a text, whatever the indent. -/
theorem Codec.write?_of_read {codec : Codec} {t : Text} {v : Json} (h : codec.read t = .ok v) :
    codec.write? v = some (write (.indented codec.indent) v) := by
  obtain ⟨hshort, hfits⟩ := isWritableIn_of_readWithin h
  rw [Codec.write?, hshort, hfits]
  rfl

end LineAssist.Json
