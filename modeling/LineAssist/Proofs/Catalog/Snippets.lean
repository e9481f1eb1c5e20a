import LineAssist.Proofs.Catalog.Listing

/-!
# Snippets in an answer

A snippet writes a command with the parameters that it requires, each under its first alias with a
numbered tab stop behind it. It starts with the name of its entry, so whatever extends to the name
extends to the snippet.
-/

namespace LineAssist.Catalog

/-- The parameters that a command requires, in the order of the catalog. -/
def requiredParameters (d : CatalogCommand) : List (Text × Parameter) :=
  d.parameters.filter fun (_, p) => p.required

/-- The entry is the snippet of a command below a path, and writes the required parameters under
the names. -/
structure IsSnippetOf (c : Catalog) (path key : Text) (d : CatalogCommand) (names : List Text)
    (e : Entry) : Prop where
  known : (key, d) ∈ c.commands
  below : childWord? path key = some e.name
  named : List.Forall₂ (fun p name => firstAlias p.1 = .ok name) (requiredParameters d) names
  requires : names ≠ []
  kind : e.kind = .snippet
  snippet : e.snippet = some (Text.unwords (e.name :: tabStops 1 names))

section Snippet

variable {c : Catalog} {word : Text} {d : CatalogCommand} {e : Entry} {entries : List Entry}

theorem of_snippet?_eq_some {s : Text} (h : snippet? word d = .ok (some s)) :
    ∃ names, List.Forall₂ (fun p name => firstAlias p.1 = .ok name) (requiredParameters d) names ∧
      names ≠ [] ∧ s = Text.unwords (word :: tabStops 1 names) := by
  unfold snippet? at h
  split at h
  case h_1 => cases h
  case h_2 hrequires =>
    obtain ⟨names, hnames, h⟩ := ok_of_bind h
    cases h
    have hnamed := forall₂_of_mapM hnames
    refine ⟨names, hnamed, ?_, rfl⟩
    rintro rfl
    exact hrequires (List.forall₂_nil_right_iff.mp hnamed)

theorem snippet_mem_commandEntries (h : commandEntries word d = .ok entries) (he : e ∈ entries)
    (hkind : e.kind = .snippet) :
    e.name = word ∧ ∃ s, e.snippet = some s ∧ snippet? word d = .ok (some s) := by
  obtain ⟨snippet, hsnippet, h⟩ := ok_of_bind h
  cases snippet with
  | none =>
    cases h
    rw [List.mem_singleton.mp he] at hkind
    cases hkind
  | some s =>
    cases h
    rcases List.mem_cons.mp he with rfl | he
    · cases hkind
    · rw [List.mem_singleton.mp he]
      exact ⟨rfl, s, rfl, hsnippet⟩

theorem snippet_mem_commandChildren {path : Text} (h : commandChildren c path = .ok entries)
    (he : e ∈ entries) (hkind : e.kind = .snippet) :
    ∃ key d names, IsSnippetOf c path key d names e := by
  rw [commandChildren_eq] at h
  obtain ⟨lists, hlists, h⟩ := ok_of_bind h
  cases h
  obtain ⟨list, hlist, he⟩ := List.mem_flatten.mp he
  obtain ⟨child, hchild, hentries⟩ := mem_of_mapM hlists hlist
  obtain ⟨hknown, hbelow⟩ := mem_childrenOf.mp hchild
  obtain ⟨hname, s, hs, hsnippet⟩ := snippet_mem_commandEntries hentries he hkind
  obtain ⟨names, hnamed, hrequires, rfl⟩ := of_snippet?_eq_some hsnippet
  rw [← hname] at hbelow hs
  exact ⟨child.key, child.value, names, hknown, hbelow, hnamed, hrequires, hkind, hs⟩

/-- A snippet in an answer is that of a command one word below the path. -/
theorem exists_isSnippetOf {r : CompletionRequest} (h : completions c r = .ok entries)
    (he : e ∈ entries) (hkind : e.kind = .snippet) :
    ∃ key d names, IsSnippetOf c (normalPath (r.subcommand.getD [])) key d names e := by
  unfold completions at h
  dsimp only at h
  split at h
  case h_1 =>
    split at h
    case h_1 =>
      cases h
      obtain ⟨option, -, rfl⟩ := List.mem_map.mp he
      cases hkind
    case h_2 =>
      cases h
      cases he
  case h_2 =>
    split at h
    case h_1 =>
      obtain ⟨_, p, name, -, -, -, rfl⟩ := mem_parameterEntries h he
      cases hkind
    case h_2 =>
      obtain ⟨commands, hcommands, h⟩ := ok_of_bind h
      cases h
      rcases List.mem_append.mp he with he | he
      · obtain ⟨_, hgroup, -⟩ := mem_groupChildren.mp he
        rw [hkind] at hgroup
        cases hgroup
      · exact snippet_mem_commandChildren hcommands he hkind

/-- Only snippets have a snippet. -/
theorem Origin.snippet_eq_none {r : CompletionRequest} (h : Origin c r e)
    (hkind : e.kind ≠ .snippet) : e.snippet = none := by
  cases h with
  | value | parameter => rfl
  | child hlisted => exact hlisted.snippet
  | snippet hsnippet => exact absurd hsnippet hkind

end Snippet

/-- What an entry stands for: its snippet, or else its name. -/
def Entry.whole (e : Entry) : Text :=
  e.snippet.getD e.name

section Whole

variable {c : Catalog} {path key : Text} {d : CatalogCommand} {names : List Text} {e : Entry}

theorem IsSnippetOf.whole_eq (h : IsSnippetOf c path key d names e) :
    e.whole = e.name ++ (tabStops 1 names).flatMap fun stop => ' ' :: stop := by
  rw [Entry.whole, h.snippet, Option.getD_some, Text.unwords_cons]

theorem IsSnippetOf.snippet_ne_nil (h : IsSnippetOf c path key d names e) :
    e.snippet ≠ some [] := by
  intro hnil
  obtain ⟨first, more, hnames⟩ := List.exists_cons_of_ne_nil h.requires
  have hwhole := h.whole_eq
  rw [Entry.whole, hnil, hnames] at hwhole
  simp [tabStops] at hwhole

theorem name_prefix_whole {r : CompletionRequest} {entries : List Entry}
    (h : completions c r = .ok entries) (he : e ∈ entries) :
    e.name <+: e.whole ∧ e.snippet ≠ some [] := by
  by_cases hkind : e.kind = .snippet
  · obtain ⟨key, d, names, hsnippet⟩ := exists_isSnippetOf h he hkind
    exact ⟨⟨_, hsnippet.whole_eq.symm⟩, hsnippet.snippet_ne_nil⟩
  · have hnone := (origin_of_completions h he).snippet_eq_none hkind
    rw [Entry.whole, hnone]
    exact ⟨List.prefix_rfl, nofun⟩

end Whole

/-! ## A command that requires parameters -/

def machineSource : Text :=
  ("groups:\n vm disk:\ncommands:\n vm create:\n  parameters:\n" ++
    "   --name -n: \x7brequired: true\x7d\n   --size:\n" ++
    "   --image: \x7brequired: true\x7d").toList

def machine : Catalog where
  groups := [("vm disk".toList, ⟨[], []⟩)]
  commands :=
    [("vm create".toList, ⟨[], [], [("--name -n".toList, ⟨[], [], true⟩),
      ("--size".toList, ⟨[], [], false⟩), ("--image".toList, ⟨[], [], true⟩)]⟩)]

theorem parse_machineSource : Catalog.parse machineSource = .ok machine :=
  ok_of_toOption (by decide +kernel)

/-- The answer below the path: a group, and the command with its snippet. -/
def machineEntries : List Entry :=
  [⟨"disk".toList, .group, none, none, none⟩, ⟨"create".toList, .command, none, none, none⟩,
    ⟨"create".toList, .snippet, some "with required parameters".toList, none,
      some "create --name $\x7b1:name\x7d --image $\x7b2:image\x7d".toList⟩]

theorem completions_machine :
    completions machine ⟨some "vm".toList, none, []⟩ = .ok machineEntries :=
  ok_of_toOption (by decide +kernel)

end LineAssist.Catalog
