import LineAssist.Files
import LineAssist.Proofs.Computation

/-!
# Files that are written

Writing the file at a path changes what is at the place that the path leads to, and nothing else.
That place is no directory, so the way to it stays as it is, and the file can be written again.
-/

namespace LineAssist

namespace Files

variable {files written : Files} {p : Path} {place other : Place} {e : FileEntry}
  {octets : List UInt8}

theorem entry?_put_self (h : place ≠ []) : entry? (files.put place e) place = some e := by
  rw [ entry?, if_neg (mt List.isEmpty_iff.mp h), put]
  dsimp only
  rw [List.find?_cons_of_pos (by simp), Option.map_some]

theorem entry?_put_of_ne (h : other ≠ place) :
    entry? (files.put place e) other = files.entry? other := by
  have hkept : (fun entry : Place × FileEntry => decide ((entry.1 != place) = true ∧
      (entry.1 == other) = true)) = fun entry => entry.1 == other := by
    funext entry
    by_cases hentry : entry.1 = other
    · simp [hentry, h]
    · simp [hentry]
  rw [ entry?, entry?, put]
  dsimp only
  rw [List.find?_cons_of_neg (by simpa using Ne.symm h), List.find?_filter, hkept]

theorem follow_put {start : Place} {names : List Text} (h : files.follow start names = .ok place)
    (hfree : files.entry? place ≠ some .directory) :
    (files.put place e).follow start names = .ok place := by
  induction names generalizing start with
  | nil => exact h
  | cons name rest ih =>
    rw [follow] at h
    split at h
    case h_1 => cases h
    case h_2 => cases h
    case h_3 hdirectory =>
      have hstart : start ≠ place := fun hsame => hfree (hsame ▸ hdirectory)
      rw [follow, entry?_put_of_ne hstart, hdirectory]
      dsimp only
      split at h
      case isTrue => cases h
      case isFalse hshort =>
        rw [if_neg hshort]
        exact ih h

theorem locate_eq_ok_iff : files.locate p = .ok place ↔ '\x00' ∉ p.text ∧
    files.follow (if p.isAbsolute then [] else files.current) p.names = .ok place := by
  rw [← List.contains_iff_mem, locate]
  split
  case isTrue hnull => exact ⟨nofun, fun h => absurd hnull h.1⟩
  case isFalse hplain =>
    rw [and_iff_right hplain]
    cases files.follow (if p.isAbsolute then [] else files.current) p.names with
    | ok found => simp
    | error cause => simp

theorem locate_put (h : files.locate p = .ok place) (hfree : files.entry? place ≠ some .directory) :
    (files.put place e).locate p = .ok place := by
  rw [locate_eq_ok_iff] at h ⊢
  exact ⟨h.1, follow_put h.2 hfree⟩

theorem write_eq_ok_iff : files.write p octets = .ok written ↔ ∃ place,
    files.locate p = .ok place ∧ files.entry? place ≠ some .directory ∧
      files.put place (.file octets) = written := by
  constructor
  · intro h
    obtain ⟨place, hplace, h⟩ := ok_of_bind h
    refine ⟨place, hplace, ?_⟩
    split at h
    case h_1 => cases h
    case h_2 hfree => exact ⟨hfree, Except.ok.inj h⟩
  · rintro ⟨place, hplace, hfree, rfl⟩
    refine ok_bind hplace ?_
    split
    case h_1 hdirectory => exact absurd hdirectory hfree
    case h_2 => rfl

theorem read_eq_ok_iff : files.read p = .ok octets ↔ ∃ place,
    files.locate p = .ok place ∧ files.entry? place = some (.file octets) := by
  constructor
  · intro h
    obtain ⟨place, hplace, h⟩ := ok_of_bind h
    refine ⟨place, hplace, ?_⟩
    split at h
    case h_1 => cases h
    case h_2 => cases h
    case h_3 hfile => rw [hfile, Except.ok.inj h]
  · rintro ⟨place, hplace, hfile⟩
    exact ok_bind hplace (by rw [hfile])

/-- The file at a path has the octets as its content, and everything else is as it was. -/
structure Rewritten (files : Files) (p : Path) (octets : List UInt8) (written : Files) : Prop where
  content : written.read p = .ok octets
  others : ∀ place, files.locate p ≠ .ok place → written.entry? place = files.entry? place
  current : written.current = files.current

theorem rewritten_of_write (h : files.write p octets = .ok written) :
    files.Rewritten p octets written := by
  obtain ⟨place, hplace, hfree, rfl⟩ := write_eq_ok_iff.mp h
  have hroot : place ≠ [] := by
    rintro rfl
    exact hfree rfl
  refine ⟨read_eq_ok_iff.mpr ⟨place, locate_put hplace hfree, entry?_put_self hroot⟩, ?_, rfl⟩
  intro other hother
  refine entry?_put_of_ne fun hsame => hother ?_
  rw [hplace, hsame]

/-- A file that is there can be written. -/
theorem exists_write_of_read {old : List UInt8} (h : files.read p = .ok old)
    (octets : List UInt8) : ∃ written, files.write p octets = .ok written := by
  obtain ⟨place, hplace, hfile⟩ := read_eq_ok_iff.mp h
  refine ⟨_, write_eq_ok_iff.mpr ⟨place, hplace, ?_, rfl⟩⟩
  rw [hfile]
  exact nofun

theorem ensureDirectories_of_ensureDirectory {made : Files}
    (h : files.ensureDirectory p = .ok made) : files.ensureDirectories p = .ok made := by
  rw [ensureDirectories, h]

end Files

end LineAssist
