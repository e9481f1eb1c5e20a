import LineAssist.Proofs.Editor.ParameterItems
import Mathlib.Data.List.Lattice
import Mathlib.Data.List.Pairwise

/-!
# Aliases of one parameter

A parameter answers to each of its aliases. Where no alias is that of two parameters of a command,
the first parameter that answers to a name is the only one, so that its aliases stand for each
other: as the name whose values are asked for, as the name that is explained, and as the name under
which a value has been supplied.
-/

namespace LineAssist

/-- Entries in which a key is written as another one. If that is a key too, the value that comes
last is kept. -/
def renameKey {α : Type} (key key' : Text) (entries : List (Text × α)) : List (Text × α) :=
  ofEntries (entries.map fun (k, v) => (if k = key then key' else k, v))

theorem isSome_lookup_renameKey {α : Type} {key key' k : Text} {entries : List (Text × α)} :
    (lookup k (renameKey key key' entries)).isSome = true ↔
      ∃ j, (lookup j entries).isSome = true ∧ (if j = key then key' else j) = k := by
  simp only [isSome_lookup_iff, renameKey, mem_keys_ofEntries, List.map_map]
  constructor
  · intro h
    obtain ⟨⟨j, v⟩, hmem, rfl⟩ := List.mem_map.mp h
    exact ⟨j, List.mem_map_of_mem hmem, rfl⟩
  · rintro ⟨j, hj, rfl⟩
    obtain ⟨⟨_, v⟩, hmem, rfl⟩ := List.mem_map.mp hj
    exact List.mem_map_of_mem (f := Prod.fst ∘ fun e : Text × α =>
      (if e.1 = key then key' else e.1, e.2)) hmem

namespace Catalog

/-- Every parameter has an alias, and no alias is that of two parameters. -/
structure HasDistinctAliases (parameters : List (Text × Parameter)) : Prop where
  named : ∀ p ∈ parameters, aliases p.1 ≠ []
  disjoint : parameters.Pairwise fun p q => (aliases p.1).Disjoint (aliases q.1)

instance (s t : List Text) : Decidable (s.Disjoint t) :=
  inferInstanceAs (Decidable (∀ ⦃a⦄, a ∈ s → a ∈ t → False))

section Owner

variable {parameters : List (Text × Parameter)} {p q : Text × Parameter} {a a' : Text}

theorem HasDistinctAliases.eq_of_alias (h : HasDistinctAliases parameters) (hp : p ∈ parameters)
    (hq : q ∈ parameters) (hap : a ∈ aliases p.1) (haq : a ∈ aliases q.1) : p = q := by
  have hsymm : Std.Symm fun p q : Text × Parameter => (aliases p.1).Disjoint (aliases q.1) :=
    ⟨fun _ _ => List.Disjoint.symm⟩
  by_contra hne
  exact h.disjoint.forall hp hq hne hap haq

/-- The first parameter that answers to an alias is the one whose alias it is. -/
theorem findParameter_of_alias (h : HasDistinctAliases parameters) (hp : p ∈ parameters)
    (ha : a ∈ aliases p.1) : findParameter a parameters = some p := by
  have hanswers : (findParameter a parameters).isSome = true :=
    List.find?_isSome.mpr ⟨p, hp, List.contains_iff_mem.mpr ha⟩
  obtain ⟨q, hq⟩ := Option.isSome_iff_exists.mp hanswers
  have hfound : (aliases q.1).contains a = true :=
    List.find?_some (p := fun e : Text × Parameter => (aliases e.1).contains a) hq
  rw [hq, h.eq_of_alias (List.mem_of_find?_eq_some hq) hp (List.contains_iff_mem.mp hfound) ha]

/-- A parameter is supplied under an alias of its own or of another parameter's exactly if it is
when that alias is written as another one of the same parameter. -/
theorem supplied_renameKey (h : HasDistinctAliases parameters) (hp : p ∈ parameters)
    (ha : a ∈ aliases p.1) (ha' : a' ∈ aliases p.1) (hq : q ∈ parameters)
    (arguments : Line.Arguments) :
    ((aliases q.1).any fun c => (lookup c (renameKey a a' arguments)).isSome) =
      (aliases q.1).any fun c => (lookup c arguments).isSome := by
  rw [Bool.eq_iff_iff, List.any_eq_true, List.any_eq_true]
  simp only [isSome_lookup_renameKey]
  constructor
  · rintro ⟨c, hc, j, hj, rfl⟩
    split at hc
    case isTrue hja =>
      obtain rfl := h.eq_of_alias hp hq ha' hc
      exact ⟨j, hja ▸ ha, hj⟩
    case isFalse => exact ⟨j, hc, hj⟩
  · rintro ⟨c, hc, hsupplied⟩
    by_cases hca : c = a
    · subst hca
      obtain rfl := h.eq_of_alias hp hq ha hc
      exact ⟨a', ha', c, hsupplied, if_pos rfl⟩
    · exact ⟨c, hc, c, hsupplied, if_neg hca⟩

theorem parameterEntries_renameKey (h : HasDistinctAliases parameters) (hp : p ∈ parameters)
    (ha : a ∈ aliases p.1) (ha' : a' ∈ aliases p.1) (arguments : Line.Arguments) :
    parameterEntries (renameKey a a' arguments) parameters =
      parameterEntries arguments parameters := by
  rw [parameterEntries_eq h.named, parameterEntries_eq h.named]
  refine congrArg (fun free => Except.ok (List.map _ free)) (List.filter_congr fun q hq => ?_)
  rw [supplied_renameKey h hp ha ha' hq]

end Owner

section Answers

variable {c : Catalog} {b : Backend} {path a a' : Text} {d : CatalogCommand} {p : Text × Parameter}

theorem bind_nonEmpty_of_alias {key : Text} (ha : a ∈ aliases key) :
    (some a).bind nonEmpty = some a := by
  have hne : a ≠ [] := (Text.isWord_of_mem_words ha).nonempty
  rw [Option.bind_some, nonEmpty, if_neg (mt List.isEmpty_iff.mp hne)]

theorem completions_of_alias (hcommand : lookup path c.commands = some d)
    (h : HasDistinctAliases d.parameters) (hp : p ∈ d.parameters) (ha : a ∈ aliases p.1)
    {r : CompletionRequest} (hpath : normalPath (r.subcommand.getD []) = path) :
    completions c { r with argument := some a } = .ok (p.2.options.map valueEntry) := by
  rw [completions]
  dsimp only
  rw [bind_nonEmpty_of_alias ha, hpath, hcommand]
  dsimp only
  rw [Option.bind_some, findParameter_of_alias h hp ha]

theorem hover_of_alias (hcommand : lookup path c.commands = some d)
    (h : HasDistinctAliases d.parameters) (hp : p ∈ d.parameters) (ha : a ∈ aliases p.1)
    {r : HoverRequest} (hpath : normalPath r.subcommand = path) :
    hover c { r with argument := some a } = some (parameterParagraphs p.1 p.2) := by
  rw [hover]
  dsimp only
  rw [bind_nonEmpty_of_alias ha, hpath, hcommand]
  dsimp only
  rw [Option.bind_eq_bind, Option.bind_some, findParameter_of_alias h hp ha]
  rfl

theorem completions_renameKey (hcommand : lookup path c.commands = some d)
    (h : HasDistinctAliases d.parameters) (hp : p ∈ d.parameters) (ha : a ∈ aliases p.1)
    (ha' : a' ∈ aliases p.1) {r : CompletionRequest}
    (hpath : normalPath (r.subcommand.getD []) = path) :
    completions c { r with arguments := renameKey a a' r.arguments } = completions c r := by
  rw [completions, completions]
  dsimp only
  rw [hpath, hcommand]
  dsimp only
  rw [parameterEntries_renameKey h hp ha ha']

theorem not_fails_completions (hcommand : lookup path c.commands = some d)
    (h : HasDistinctAliases d.parameters) {r : CompletionRequest}
    (hpath : normalPath (r.subcommand.getD []) = path) : ¬Fails (completions c r) := by
  rw [completions, hpath, hcommand]
  dsimp only
  split
  case h_1 => split <;> exact not_fails_ok _
  case h_2 =>
    rw [parameterEntries_eq h.named]
    exact not_fails_ok _

/-- At the path of a command whose parameters have distinct aliases every request for completions is
answered, and the aliases of a parameter are interchangeable: asked for by any of them, its values
are listed and it is explained in the same way, and whichever of them it has been supplied under, the
same parameters are offered. -/
theorem aliases_interchangeable (hcommand : lookup path b.catalog.commands = some d)
    (h : HasDistinctAliases d.parameters) (hp : p ∈ d.parameters) (ha : a ∈ aliases p.1)
    (ha' : a' ∈ aliases p.1) :
    (∀ r : CompletionRequest, normalPath (r.subcommand.getD []) = path →
      ¬Fails (b.completions r) ∧
      b.completions { r with argument := some a } =
        .ok (if b.available = some false then [] else p.2.options.map valueEntry) ∧
      b.completions { r with argument := some a' } = b.completions { r with argument := some a } ∧
      b.completions { r with arguments := renameKey a a' r.arguments } = b.completions r) ∧
    ∀ r : HoverRequest, normalPath r.subcommand = path →
      b.hover { r with argument := some a } =
        (if b.available = some false then none else some (parameterParagraphs p.1 p.2)) ∧
      b.hover { r with argument := some a' } = b.hover { r with argument := some a } := by
  simp only [Backend.completions, Backend.hover]
  split
  case isTrue => exact ⟨fun r _ => ⟨not_fails_ok [], rfl, rfl, rfl⟩, fun r _ => ⟨rfl, rfl⟩⟩
  case isFalse =>
    refine ⟨fun r hpath => ⟨not_fails_completions hcommand h hpath, ?_, ?_, ?_⟩,
      fun r hpath => ⟨?_, ?_⟩⟩
    · exact completions_of_alias hcommand h hp ha hpath
    · rw [completions_of_alias hcommand h hp ha hpath, completions_of_alias hcommand h hp ha' hpath]
    · exact completions_renameKey hcommand h hp ha ha' hpath
    · exact hover_of_alias hcommand h hp ha hpath
    · rw [hover_of_alias hcommand h hp ha hpath, hover_of_alias hcommand h hp ha' hpath]

/-- A command with two parameters of two aliases each. -/
def showCommand : CatalogCommand where
  summary := []
  description := []
  parameters :=
    [("--name -n".toList, ⟨[], [], true⟩),
      ("--output\t-o".toList, ⟨"Format.".toList, ["json".toList, "tsv".toList], false⟩)]

/-- The second parameter is asked for under both of its aliases, and has been supplied under both. -/
theorem aliases_of_showCommand :
    let b : Backend :=
      ⟨⟨[], [("vm show".toList, showCommand)]⟩, "az".toList, none, false, none⟩
    let r : CompletionRequest :=
      ⟨some " vm  show".toList, none,
        [("-o".toList, some "json".toList), ("--output".toList, none)]⟩
    let q : HoverRequest := ⟨"vm show".toList, none⟩
    lookup "vm show".toList b.catalog.commands = some showCommand ∧
    HasDistinctAliases showCommand.parameters ∧
    "--output".toList ∈ aliases "--output\t-o".toList ∧ "-o".toList ∈ aliases "--output\t-o".toList ∧
    normalPath (r.subcommand.getD []) = "vm show".toList ∧
    normalPath q.subcommand = "vm show".toList ∧
    b.completions { r with argument := some "--output".toList } =
      .ok [valueEntry "json".toList, valueEntry "tsv".toList] ∧
    b.completions { r with argument := some "-o".toList } =
      .ok [valueEntry "json".toList, valueEntry "tsv".toList] ∧
    b.completions { r with arguments := [("-o".toList, none)] } = b.completions r ∧
    b.hover { q with argument := some "-o".toList } =
      some ["`--output -o`".toList, "Format.".toList, "Allowed values: json, tsv".toList] := by
  intro b r q
  have hcommand : lookup "vm show".toList b.catalog.commands = some showCommand := rfl
  have hdistinct : HasDistinctAliases showCommand.parameters := ⟨by decide, by decide⟩
  have hlong : "--output".toList ∈ aliases "--output\t-o".toList := by decide
  have hshort : "-o".toList ∈ aliases "--output\t-o".toList := by decide
  have hpath : normalPath (r.subcommand.getD []) = "vm show".toList := by decide
  have hpath' : normalPath q.subcommand = "vm show".toList := by decide
  have hp : ("--output\t-o".toList,
      (⟨"Format.".toList, ["json".toList, "tsv".toList], false⟩ : Parameter)) ∈
        showCommand.parameters := List.mem_of_mem_tail List.mem_cons_self
  obtain ⟨hcompletions, hhover⟩ :=
    aliases_interchangeable (b := b) hcommand hdistinct hp hlong hshort
  obtain ⟨-, hvalues, hsame, hrenamed⟩ := hcompletions r hpath
  obtain ⟨hparagraphs, hsame'⟩ := hhover q hpath'
  refine ⟨hcommand, hdistinct, hlong, hshort, hpath, hpath', hvalues, hsame.trans hvalues, ?_, ?_⟩
  · rw [← hrenamed]
    rfl
  · rw [hsame', hparagraphs]
    decide

end Answers

end Catalog

end LineAssist
