import LineAssist.Files

/-!
# Files that cannot be read

A file is not read if its path holds a null character, or if its octets are no text; all other
faults are those of the file system.
-/

namespace LineAssist

namespace Files

variable {files : Files} {p : Path}

theorem locate_eq_nullCharacter_iff :
    files.locate p = .error .nullCharacter ↔ '\x00' ∈ p.text := by
  rw [← List.contains_iff_mem, locate]
  split
  case isTrue hnull => exact iff_of_true rfl hnull
  case isFalse hplain =>
    refine iff_of_false ?_ hplain
    split <;> nofun

theorem read_eq_nullCharacter_iff : files.read p = .error .nullCharacter ↔ '\x00' ∈ p.text := by
  rw [← @locate_eq_nullCharacter_iff files, read]
  cases files.locate p with
  | error fault =>
    constructor <;>
    · rintro ⟨⟩
      rfl
  | ok place =>
    refine iff_of_false (fun h => ?_) nofun
    dsimp only [bind, Except.bind] at h
    split at h <;> cases h

theorem readText_eq_nullCharacter_iff :
    files.readText p = .error (.file .nullCharacter) ↔ '\x00' ∈ p.text := by
  rw [← @read_eq_nullCharacter_iff files, readText]
  cases files.read p with
  | error fault => simp
  | ok octets => cases hdecoded : Text.decodeUtf8? octets <;> simp [hdecoded]

theorem readText_eq_notUtf8_iff : files.readText p = .error .notUtf8 ↔
    ∃ octets, files.read p = .ok octets ∧ Text.decodeUtf8? octets = none := by
  rw [readText]
  cases files.read p with
  | error fault => simp
  | ok octets => cases hdecoded : Text.decodeUtf8? octets <;> simp [hdecoded]

end Files

end LineAssist
