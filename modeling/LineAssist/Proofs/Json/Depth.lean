import LineAssist.Json.Reading

/-!
# Levels of JSON

An array or object fits into some room exactly when there is room for one level and all that is in
it fits into the rest.
-/

namespace LineAssist.Json

variable {room inside : Option Nat} {items : List Json} {fields : List (Text × Json)}

theorem fits_none (v : Json) : v.fits none = true :=
  rfl

theorem fits_some {levels : Nat} {v : Json} : v.fits (some levels) = true ↔ v.depth ≤ levels :=
  decide_eq_true_iff

/-- What takes no level fits everywhere. -/
theorem fits_of_depth {v : Json} (h : v.depth = 0) : v.fits room = true := by
  cases room with
  | none => exact fits_none v
  | some levels => exact fits_some.mpr (h ▸ Nat.zero_le levels)

theorem itemsDepth_le {levels : Nat} :
    itemsDepth items ≤ levels ↔ ∀ v ∈ items, v.depth ≤ levels := by
  induction items with
  | nil => simp [itemsDepth]
  | cons v items ih => rw [itemsDepth, Nat.max_le, ih, List.forall_mem_cons]

theorem fieldsDepth_le {levels : Nat} :
    fieldsDepth fields ≤ levels ↔ ∀ field ∈ fields, field.2.depth ≤ levels := by
  induction fields with
  | nil => simp [fieldsDepth]
  | cons field fields ih => rw [fieldsDepth, Nat.max_le, ih, List.forall_mem_cons]

theorem enter_eq_ok (h : enter room = .ok inside) :
    (room = none ∧ inside = none) ∨ ∃ levels, room = some (levels + 1) ∧ inside = some levels := by
  match room with
  | none => exact .inl ⟨rfl, (Except.ok.inj h).symm⟩
  | some 0 => cases h
  | some (levels + 1) => exact .inr ⟨levels, rfl, (Except.ok.inj h).symm⟩

theorem enter_eq_error {e : ReadError} (h : enter room = .error e) :
    room = some 0 ∧ e = .tooDeep := by
  match room with
  | none => cases h
  | some 0 => exact ⟨rfl, (Except.error.inj h).symm⟩
  | some (levels + 1) => cases h

theorem fits_arr (h : enter room = .ok inside) :
    (Json.arr items).fits room = items.all (fits inside) := by
  rw [Bool.eq_iff_iff, List.all_eq_true]
  rcases enter_eq_ok h with ⟨rfl, rfl⟩ | ⟨levels, rfl, rfl⟩
  · simp only [fits_none, implies_true]
  · simp only [fits_some, depth, Nat.add_le_add_iff_right, itemsDepth_le]

theorem fits_obj (h : enter room = .ok inside) :
    (Json.obj fields).fits room = fields.all fun field => field.2.fits inside := by
  rw [Bool.eq_iff_iff, List.all_eq_true]
  rcases enter_eq_ok h with ⟨rfl, rfl⟩ | ⟨levels, rfl, rfl⟩
  · simp only [fits_none, implies_true]
  · simp only [fits_some, depth, Nat.add_le_add_iff_right, fieldsDepth_le]

end LineAssist.Json
