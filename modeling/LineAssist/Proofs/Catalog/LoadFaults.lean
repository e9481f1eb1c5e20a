import LineAssist.Catalog.Loading
import LineAssist.Proofs.Files
import LineAssist.Proofs.Yaml.Values

/-!
# Catalogs from any file

A file gives a catalog or an error of the catalog, apart from three kinds of faults that are not
caught: a null character in its path, octets that are no UTF-8, and a number, truth value or time in
its text that has no value.
-/

namespace LineAssist.Catalog

/-- A fault of the file of a catalog that is no error of the catalog. -/
inductive Escapes (files : Files) (p : Path) : CatalogFault → Prop where
  | nullCharacter (path : '\x00' ∈ p.text) : Escapes files p .nullCharacter
  | notUtf8 {octets : List UInt8} (file : files.read p = .ok octets)
      (undecodable : Text.decodeUtf8? octets = none) : Escapes files p .notUtf8
  | scalar {t : Text} {e : Yaml.Error} (file : files.readText p = .ok t)
      (fault : Yaml.read t = .error e) (cause : Yaml.Unvalued t e) (sound : e ≠ .malformed) :
    Escapes files p (.scalar e)

variable {files : Files} {p : Path} {fault : CatalogFault}

/-- The text of a catalog gives a fault that is no error of the catalog only if it has no value. -/
theorem parse_fault {t : Text} (h : parse t = .error fault) :
    (∃ e, fault = .catalog e) ∨
      ∃ e, fault = .scalar e ∧ Yaml.read t = .error e ∧ e ≠ .malformed := by
  unfold parse at h
  split at h
  · cases h
    exact .inl ⟨_, rfl⟩
  · next e hother hread =>
    cases h
    exact .inr ⟨e, rfl, hread, hother⟩
  · split at h
    · cases h
    · cases h
      exact .inl ⟨_, rfl⟩

theorem parse_of_read {t : Text} {e : Yaml.Error} (h : Yaml.read t = .error e)
    (hother : e ≠ .malformed) : parse t = .error (.scalar e) := by
  unfold parse
  rw [h]
  cases e with
  | malformed => exact absurd rfl hother
  | _ => rfl

/-- A date that does not exist is not told from other faults of a program. -/
example : (match parse "since: 2020-13-45".toList with
    | .error fault => some fault
    | .ok _ => none) = some (.scalar .impossible) := by
  decide +kernel

theorem load_fault (h : load files p = .error fault) :
    (∃ e, fault = .catalog e) ∨ Escapes files p fault := by
  unfold load at h
  split at h
  · next t hfile =>
    refine (parse_fault h).imp_right ?_
    rintro ⟨e, rfl, hread, hother⟩
    have hcause := Yaml.yields_read t
    rw [hread] at hcause
    exact .scalar hfile hread (hcause.resolve_left hother) hother
  · next hfile =>
    cases h
    obtain ⟨octets, hread, hdecoded⟩ := Files.readText_eq_notUtf8_iff.mp hfile
    exact .inr (.notUtf8 hread hdecoded)
  · next hfile =>
    cases h
    exact .inr (.nullCharacter (Files.readText_eq_nullCharacter_iff.mp hfile))
  · cases h
    exact .inl ⟨_, rfl⟩

theorem load_of_escapes (h : Escapes files p fault) : load files p = .error fault := by
  unfold load
  cases h with
  | nullCharacter path => rw [Files.readText_eq_nullCharacter_iff.mpr path]
  | notUtf8 file undecodable =>
    rw [Files.readText_eq_notUtf8_iff.mpr ⟨_, file, undecodable⟩]
  | scalar file fault _ sound =>
    rw [file]
    exact parse_of_read fault sound

/-- Whatever is at a path, there is a catalog or an error of the catalog, unless a fault is there
that is not caught. -/
theorem load_ends (files : Files) (p : Path) :
    ((∃ c, load files p = .ok c) ∨ (∃ e, load files p = .error (.catalog e)) ↔
      ∀ fault, ¬Escapes files p fault) ∧
    ∀ fault, Escapes files p fault → load files p = .error fault := by
  refine ⟨⟨?_, fun hnone => ?_⟩, fun fault => load_of_escapes⟩
  · intro h fault hfault
    have hload := load_of_escapes hfault
    obtain ⟨c, hc⟩ | ⟨e, he⟩ := h
    · cases hc.symm.trans hload
    · cases he.symm.trans hload
      cases hfault
  · cases hload : load files p with
    | ok c => exact .inl ⟨c, rfl⟩
    | error fault =>
      obtain ⟨e, rfl⟩ | hfault := load_fault hload
      · exact .inr ⟨e, rfl⟩
      · exact absurd hfault (hnone fault)

/-- A directory with a catalog of the given octets in it. -/
def filesWith (octets : List UInt8) : Files where
  entries := [(["work".toList], .directory), (["work".toList, "catalog.yaml".toList], .file octets)]
  current := ["work".toList]

/-- An octet that no UTF-8 text holds is no error of the catalog. -/
theorem undecodable_octet_escapes :
    load (filesWith [0xFF]) ⟨.here, ["catalog.yaml".toList]⟩ = .error .notUtf8 :=
  rfl

end LineAssist.Catalog
