import LineAssist.Entries
import Mathlib.Data.List.Induction
import Mathlib.Data.List.Nodup
import Mathlib.Logic.Function.Basic

/-!
# Entries under their keys

What is found under a key was written under it, and what was written last under a key is found.
However often a key is written, it is there once.
-/

namespace LineAssist

variable {α : Type} {key : Text}

theorem mem_of_lookup {entries : List (Text × α)} {value : α}
    (h : lookup key entries = some value) : (key, value) ∈ entries := by
  induction entries with
  | nil => cases h
  | cons entry rest ih =>
    obtain ⟨k, v⟩ := entry
    rw [lookup] at h
    split at h
    case isTrue hk =>
      cases h
      rw [hk]
      exact List.mem_cons_self
    case isFalse => exact List.mem_cons_of_mem _ (ih h)

theorem lookup_eq_none {entries : List (Text × α)} (h : key ∉ entries.map Prod.fst) :
    lookup key entries = none := by
  cases hfound : lookup key entries with
  | none => rfl
  | some value => exact absurd (List.mem_map_of_mem (mem_of_lookup hfound)) h

theorem isSome_lookup_iff {entries : List (Text × α)} :
    (lookup key entries).isSome = true ↔ key ∈ entries.map Prod.fst := by
  constructor
  · intro h
    obtain ⟨value, hvalue⟩ := Option.isSome_iff_exists.mp h
    exact List.mem_map_of_mem (mem_of_lookup hvalue)
  · intro h
    induction entries with
    | nil => cases h
    | cons entry rest ih =>
      obtain ⟨k, v⟩ := entry
      rw [lookup]
      split
      case isTrue => rfl
      case isFalse hk => exact ih ((List.mem_cons.mp h).resolve_left (Ne.symm hk))

theorem lookup_of_mem {entries : List (Text × α)} {value : α} (h : (entries.map Prod.fst).Nodup)
    (hmem : (key, value) ∈ entries) : lookup key entries = some value := by
  induction entries with
  | nil => cases hmem
  | cons entry rest ih =>
    obtain ⟨k, v⟩ := entry
    obtain ⟨hk, hrest⟩ := List.nodup_cons.mp h
    rw [lookup]
    rcases List.mem_cons.mp hmem with hmem | hmem
    · cases hmem
      exact if_pos rfl
    · have hkey : key ∈ rest.map Prod.fst := List.mem_map_of_mem hmem
      rw [if_neg (ne_of_mem_of_not_mem hkey hk).symm, ih hrest hmem]

theorem lookup_putEntry_self (key : Text) (value : α) (entries : List (Text × α)) :
    lookup key (putEntry key value entries) = some value := by
  induction entries with
  | nil => rw [putEntry, lookup, if_pos rfl]
  | cons entry rest ih =>
    obtain ⟨k, v⟩ := entry
    rw [putEntry]
    split
    case isTrue hk => rw [lookup, if_pos hk]
    case isFalse hk => rw [lookup, if_neg hk, ih]

theorem mem_putEntry {entry : Text × α} {value : α} {entries : List (Text × α)}
    (h : entry ∈ putEntry key value entries) : entry = (key, value) ∨ entry ∈ entries := by
  induction entries with
  | nil => exact .inl (List.mem_singleton.mp h)
  | cons first rest ih =>
    obtain ⟨k, v⟩ := first
    rw [putEntry] at h
    split at h
    case isTrue hk =>
      rw [hk] at h
      exact (List.mem_cons.mp h).imp_right (List.mem_cons_of_mem _)
    case isFalse =>
      rcases List.mem_cons.mp h with rfl | h
      · exact .inr List.mem_cons_self
      · exact (ih h).imp_right (List.mem_cons_of_mem _)

theorem mem_ofEntries {entry : Text × α} {entries : List (Text × α)}
    (h : entry ∈ ofEntries entries) : entry ∈ entries := by
  have hfold (written : List (Text × α)) :
      entry ∈ entries.foldl (fun acc e => putEntry e.1 e.2 acc) written →
        entry ∈ written ∨ entry ∈ entries := by
    clear h
    induction entries generalizing written with
    | nil => exact .inl
    | cons first rest ih =>
      intro h
      rcases ih _ h with h | h
      · rcases mem_putEntry h with rfl | h
        · exact .inr List.mem_cons_self
        · exact .inl h
      · exact .inr (List.mem_cons_of_mem _ h)
  exact (hfold [] h).resolve_left List.not_mem_nil

/-- Writing an entry keeps the keys that there are, and adds its own if it is new. -/
theorem keys_putEntry (key : Text) (value : α) (entries : List (Text × α)) :
    (putEntry key value entries).map Prod.fst =
      if key ∈ entries.map Prod.fst then entries.map Prod.fst
      else entries.map Prod.fst ++ [key] := by
  induction entries with
  | nil => rfl
  | cons entry rest ih =>
    obtain ⟨k, v⟩ := entry
    rw [putEntry]
    by_cases hk : k = key
    · rw [if_pos hk, List.map_cons, List.map_cons, hk, if_pos List.mem_cons_self]
    · have hmem : key ∈ ((k, v) :: rest).map Prod.fst ↔ key ∈ rest.map Prod.fst := by
        simp [Ne.symm hk]
      rw [if_neg hk, List.map_cons, ih]
      simp only [hmem]
      split <;> rfl

theorem mem_keys_putEntry {k : Text} {value : α} {entries : List (Text × α)} :
    k ∈ (putEntry key value entries).map Prod.fst ↔ k = key ∨ k ∈ entries.map Prod.fst := by
  rw [keys_putEntry]
  split
  case isTrue hkey =>
    refine (or_iff_right_of_imp ?_).symm
    rintro rfl
    exact hkey
  case isFalse => rw [List.mem_append, List.mem_singleton, or_comm]

theorem mem_keys_ofEntries {entries : List (Text × α)} :
    key ∈ (ofEntries entries).map Prod.fst ↔ key ∈ entries.map Prod.fst := by
  have hfold (written : List (Text × α)) :
      key ∈ (entries.foldl (fun acc e => putEntry e.1 e.2 acc) written).map Prod.fst ↔
        key ∈ written.map Prod.fst ∨ key ∈ entries.map Prod.fst := by
    induction entries generalizing written with
    | nil => simp
    | cons entry rest ih =>
      rw [List.foldl_cons, ih, mem_keys_putEntry, List.map_cons, List.mem_cons]
      tauto
  exact (hfold []).trans (or_iff_right List.not_mem_nil)

theorem putEntry_of_new {value : α} {entries : List (Text × α)}
    (h : key ∉ entries.map Prod.fst) : putEntry key value entries = entries ++ [(key, value)] := by
  induction entries with
  | nil => rfl
  | cons entry rest ih =>
    obtain ⟨k, v⟩ := entry
    rw [List.map_cons, List.mem_cons, not_or] at h
    obtain ⟨hk, hrest⟩ := h
    rw [putEntry, if_neg (Ne.symm hk), ih hrest, List.cons_append]

/-- Entries that have each key once are written as they are. -/
theorem ofEntries_of_nodup {entries : List (Text × α)} (h : (entries.map Prod.fst).Nodup) :
    ofEntries entries = entries := by
  have hfold (written : List (Text × α)) (hkeys : ((written ++ entries).map Prod.fst).Nodup) :
      entries.foldl (fun acc e => putEntry e.1 e.2 acc) written = written ++ entries := by
    clear h
    induction entries generalizing written with
    | nil => exact (List.append_nil written).symm
    | cons entry rest ih =>
      obtain ⟨k, v⟩ := entry
      have hnew : k ∉ written.map Prod.fst := by
        intro hk
        rw [List.map_append, List.nodup_append] at hkeys
        exact hkeys.2.2 k hk k List.mem_cons_self rfl
      rw [List.append_cons] at hkeys ⊢
      rw [List.foldl_cons, putEntry_of_new hnew, ih _ hkeys]
  exact hfold [] h

/-- Entries that take their values from a function of the key: writing one changes the function. -/
theorem putEntry_map {keys : List Text} (hkeys : keys.Nodup) (f : Text → α) (key : Text)
    (value : α) :
    putEntry key value (keys.map fun k => (k, f k)) =
      (if key ∈ keys then keys else keys ++ [key]).map
        fun k => (k, Function.update f key value k) := by
  induction keys with
  | nil => simp [putEntry]
  | cons first rest ih =>
    obtain ⟨hfirst, hrest⟩ := List.nodup_cons.mp hkeys
    rw [List.map_cons, putEntry]
    by_cases hkey : first = key
    · subst hkey
      have hsame : ∀ k ∈ rest, (k, f k) = (k, Function.update f first value k) := fun k hk => by
        rw [Function.update_of_ne (ne_of_mem_of_not_mem hk hfirst)]
      rw [if_pos rfl, if_pos List.mem_cons_self, List.map_cons, Function.update_self,
        List.map_congr_left hsame]
    · have hmem : key ∈ first :: rest ↔ key ∈ rest := by simp [Ne.symm hkey]
      rw [if_neg hkey, ih hrest]
      simp only [hmem]
      split <;> simp [Function.update_of_ne hkey]

/-- A text that is written again keeps its first place. -/
theorem eraseDups_concat (keys : List Text) (key : Text) :
    (keys ++ [key]).eraseDups =
      if key ∈ keys.eraseDups then keys.eraseDups else keys.eraseDups ++ [key] := by
  rw [List.eraseDups_append, List.removeAll, List.filter_singleton]
  by_cases h : key ∈ keys <;> simp [h, List.eraseDups_cons]

theorem nodup_eraseDups (keys : List Text) : keys.eraseDups.Nodup := by
  induction keys using List.reverseRecOn with
  | nil => exact List.nodup_nil
  | append_singleton keys key ih =>
    rw [eraseDups_concat]
    split
    case isTrue => exact ih
    case isFalse hnew =>
      rw [← List.concat_eq_append]
      exact ih.concat hnew

theorem nodup_keys_putEntry {value : α} {entries : List (Text × α)}
    (h : (entries.map Prod.fst).Nodup) : ((putEntry key value entries).map Prod.fst).Nodup := by
  rw [keys_putEntry]
  split
  case isTrue => exact h
  case isFalse hnew =>
    rw [← List.concat_eq_append]
    exact h.concat hnew

theorem nodup_keys_ofEntries (entries : List (Text × α)) :
    ((ofEntries entries).map Prod.fst).Nodup := by
  have hfold (written : List (Text × α)) (hwritten : (written.map Prod.fst).Nodup) :
      ((entries.foldl (fun acc e => putEntry e.1 e.2 acc) written).map Prod.fst).Nodup := by
    induction entries generalizing written with
    | nil => exact hwritten
    | cons entry rest ih => exact ih _ (nodup_keys_putEntry hwritten)
  exact hfold [] List.nodup_nil

end LineAssist
