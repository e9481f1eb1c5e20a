import LineAssist.Catalog.Reading
import LineAssist.Proofs.Computation
import LineAssist.Proofs.Entries
import LineAssist.Proofs.Text.Words

/-!
# The keys of a catalog

A catalog that was read has its groups and commands under words with single spaces between them,
however their keys were written, and each key is there once.
-/

namespace LineAssist.Catalog

open Yaml (Value)

theorem pairChecked_ok {α β : Type} {a : Except Nat α} {b : Except Nat β} {x : α × β}
    (h : pairChecked a b = .ok x) : a = .ok x.1 ∧ b = .ok x.2 := by
  cases a <;> cases b <;> cases h
  exact ⟨rfl, rfl⟩

/-- The parts that are checked are those of which the values are given, in their order. -/
theorem eq_map_of_allChecked {α : Type} {parts : List (Except Nat α)} {xs : List α}
    (h : allChecked parts = .ok xs) : parts = xs.map .ok := by
  induction parts generalizing xs with
  | nil =>
    cases h
    rfl
  | cons part rest ih =>
    rw [allChecked] at h
    cases hpair : pairChecked part (allChecked rest) with
    | error n =>
      rw [hpair] at h
      cases h
    | ok pair =>
      obtain ⟨hpart, hrest⟩ := pairChecked_ok hpair
      rw [hpair] at h
      cases h
      rw [List.map_cons, ← ih hrest, hpart]

/-- Checked entries are under the keys that they were read under. -/
theorem keys_of_checkEntries {α : Type} {entries : List (Text × Except Nat α)}
    {checked : List (Text × α)} (h : checkEntries entries = .ok checked) :
    checked.map Prod.fst = entries.map Prod.fst := by
  have hparts := eq_map_of_allChecked h
  clear h
  induction entries generalizing checked with
  | nil =>
    rw [List.map_eq_nil_iff.mp hparts.symm]
    rfl
  | cons entry rest ih =>
    obtain ⟨key, part⟩ := entry
    cases checked with
    | nil => cases hparts
    | cons first more =>
      obtain ⟨hfirst, hmore⟩ := List.cons.inj hparts
      cases part with
      | error n => cases hfirst
      | ok v =>
        cases hfirst
        rw [List.map_cons, List.map_cons, ih hmore]

theorem isEven_of_entryKey {key : Value} {t : Text} (h : entryKey key = .ok t) : t.IsEven := by
  obtain ⟨written, -, ht⟩ := ok_of_bind h
  cases ht
  exact Text.isEven_unwords_words written

theorem mem_of_entriesOf {α : Type} {section_ : List (Value × Value)}
    {entry : List (Value × Value) → Except CatalogError α} {entries : List (Text × α)}
    (h : entriesOf section_ entry = .ok entries) {key : Text} {e : α} (he : (key, e) ∈ entries) :
    ∃ written fields, entryKey written = .ok key ∧ entry fields = .ok e := by
  obtain ⟨written, hwritten, h⟩ := ok_of_bind h
  cases h
  obtain ⟨⟨k, v⟩, -, hstep⟩ := mem_of_mapM hwritten (mem_ofEntries he)
  obtain ⟨fields, -, hstep⟩ := ok_of_bind hstep
  obtain ⟨read, hread, hstep⟩ := ok_of_bind hstep
  obtain ⟨name, hname, hstep⟩ := ok_of_bind hstep
  cases hstep
  exact ⟨k, fields, hname, hread⟩

/-- Each key of a section is written evenly, and is there once. -/
theorem keys_of_entriesOf {α : Type} {section_ : List (Value × Value)}
    {entry : List (Value × Value) → Except CatalogError α} {entries : List (Text × α)}
    (h : entriesOf section_ entry = .ok entries) :
    (∀ key ∈ entries.map Prod.fst, Text.IsEven key) ∧ (entries.map Prod.fst).Nodup := by
  constructor
  · intro key hkey
    obtain ⟨⟨_, e⟩, hentry, rfl⟩ := List.mem_map.mp hkey
    obtain ⟨_, _, hname, -⟩ := mem_of_entriesOf h hentry
    exact isEven_of_entryKey hname
  · obtain ⟨written, -, h⟩ := ok_of_bind h
    cases h
    exact nodup_keys_ofEntries written

/-- The keys of a checked section are those of the section. -/
theorem keys_of_section {α : Type} {section_ : List (Value × Value)}
    {entry : List (Value × Value) → Except CatalogError (Except Nat α)}
    {entries : List (Text × Except Nat α)} {checked : List (Text × α)}
    (hread : entriesOf section_ entry = .ok entries)
    (hchecked : checkEntries entries = .ok checked) :
    (∀ e ∈ checked, Text.IsEven e.1) ∧ (checked.map Prod.fst).Nodup := by
  obtain ⟨heven, hnodup⟩ := keys_of_entriesOf hread
  rw [← keys_of_checkEntries hchecked] at heven hnodup
  exact ⟨fun e he => heven e.1 (List.mem_map_of_mem he), hnodup⟩

/-- The keys of the groups and of the commands are words with single spaces between them. -/
structure HasEvenKeys (c : Catalog) : Prop where
  groups : ∀ entry ∈ c.groups, Text.IsEven entry.1
  commands : ∀ entry ∈ c.commands, Text.IsEven entry.1

/-- No two groups and no two commands have the same key. -/
structure HasDistinctKeys (c : Catalog) : Prop where
  groups : (c.groups.map Prod.fst).Nodup
  commands : (c.commands.map Prod.fst).Nodup

theorem ofValue_of_parse {t : Text} {c : Catalog} (h : parse t = .ok c) :
    ∃ v, ofValue v = .ok c := by
  unfold parse at h
  split at h
  · cases h
  · cases h
  · split at h
    · cases h
      exact ⟨_, ‹_›⟩
    · cases h

/-- A catalog that was read has the checked entries of two sections. -/
theorem sections_of_parse {t : Text} {c : Catalog} (h : parse t = .ok c) :
    ∃ groupSection groups commandSection commands,
      entriesOf groupSection (fun fields => .ok (checkGroup fields)) = .ok groups ∧
      entriesOf commandSection (fun fields => do
        .ok (checkCommand fields (← parametersOf fields))) = .ok commands ∧
      checkEntries groups = .ok c.groups ∧ checkEntries commands = .ok c.commands := by
  obtain ⟨v, h⟩ := ofValue_of_parse h
  unfold ofValue at h
  dsimp only at h
  split at h
  case h_1 =>
    obtain ⟨groupSection, -, h⟩ := ok_of_bind h
    obtain ⟨groups, hgroups, h⟩ := ok_of_bind h
    obtain ⟨commandSection, -, h⟩ := ok_of_bind h
    obtain ⟨commands, hcommands, h⟩ := ok_of_bind h
    split at h
    case h_1 hpair =>
      cases h
      exact ⟨_, groups, _, commands, hgroups, hcommands, pairChecked_ok hpair⟩
    case h_2 => cases h
  case h_2 => cases h

theorem keys_of_parse {t : Text} {c : Catalog} (h : parse t = .ok c) :
    c.HasEvenKeys ∧ c.HasDistinctKeys := by
  obtain ⟨_, _, _, _, hgroups, hcommands, hcheckedGroups, hcheckedCommands⟩ := sections_of_parse h
  obtain ⟨hevenGroups, hnodupGroups⟩ := keys_of_section hgroups hcheckedGroups
  obtain ⟨hevenCommands, hnodupCommands⟩ := keys_of_section hcommands hcheckedCommands
  exact ⟨⟨hevenGroups, hevenCommands⟩, ⟨hnodupGroups, hnodupCommands⟩⟩

theorem hasEvenKeys_of_parse {t : Text} {c : Catalog} (h : parse t = .ok c) : c.HasEvenKeys :=
  (keys_of_parse h).1

/-! ## The parameters of a command -/

theorem mem_of_checkEntries {α : Type} {entries : List (Text × Except Nat α)}
    {checked : List (Text × α)} (h : checkEntries entries = .ok checked) {key : Text} {v : α}
    (hv : (key, v) ∈ checked) : (key, .ok v) ∈ entries := by
  have hmem : .ok (key, v) ∈ entries.map fun e => e.2.map fun w => (e.1, w) := by
    rw [eq_map_of_allChecked h]
    exact List.mem_map_of_mem hv
  obtain ⟨⟨k, part⟩, hpart, hsame⟩ := List.mem_map.mp hmem
  cases part with
  | error n => cases hsame
  | ok w =>
    cases hsame
    exact hpart

theorem nodup_keys_parametersOf {fields : List (Value × Value)} {parameters : List (Text × Value)}
    (h : parametersOf fields = .ok parameters) : (parameters.map Prod.fst).Nodup := by
  unfold parametersOf at h
  dsimp only at h
  split at h
  case isTrue =>
    cases h
    exact List.nodup_nil
  case isFalse =>
    split at h
    case h_1 =>
      obtain ⟨entries, -, h⟩ := ok_of_bind h
      cases h
      exact nodup_keys_ofEntries entries
    case h_2 => cases h

/-- A command keeps its parameters under the keys that they were read under. -/
theorem keys_of_checkCommand {fields : List (Value × Value)} {parameters : List (Text × Value)}
    {d : CatalogCommand} (h : checkCommand fields parameters = .ok d) :
    d.parameters.map Prod.fst = parameters.map Prod.fst := by
  obtain ⟨parts, hparts, rfl⟩ := ok_of_map h
  rw [keys_of_checkEntries (pairChecked_ok (pairChecked_ok hparts).2).2, List.map_map]
  rfl

/-- No two parameters of a command have the same key. -/
theorem nodup_parameters_of_parse {t : Text} {c : Catalog} (h : parse t = .ok c) :
    ∀ command ∈ c.commands, (command.2.parameters.map Prod.fst).Nodup := by
  rintro ⟨key, d⟩ hd
  obtain ⟨_, _, _, commands, -, hcommands, -, hchecked⟩ := sections_of_parse h
  obtain ⟨_, fields, -, hread⟩ := mem_of_entriesOf hcommands (mem_of_checkEntries hchecked hd)
  obtain ⟨parameters, hparameters, hread⟩ := ok_of_bind hread
  rw [keys_of_checkCommand (Except.ok.inj hread)]
  exact nodup_keys_parametersOf hparameters

end LineAssist.Catalog
