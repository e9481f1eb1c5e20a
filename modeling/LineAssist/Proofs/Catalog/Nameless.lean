import LineAssist.Proofs.Catalog.Listing

/-!
# Parameters without a name

A parameter is offered under its first alias, and nothing keeps a catalog from having a parameter
without one. A request for completions fails exactly when its answer would have to name such a
parameter. A request for a hover is always answered.
-/

namespace LineAssist.Catalog

/-- The answer at a path has to name a parameter without aliases. That is any parameter of the
command there, or, where there is no command, a required one of a command below. -/
inductive NeedsName (c : Catalog) (path : List Text) : Prop
  | own {d : CatalogCommand} {p : Text × Parameter}
      (known : lookup (Text.unwords path) c.commands = some d)
      (listed : p ∈ d.parameters) (nameless : aliases p.1 = []) : NeedsName c path
  | below {key word : Text} {d : CatalogCommand} {p : Text × Parameter}
      (free : lookup (Text.unwords path) c.commands = none)
      (known : (key, d) ∈ c.commands) (child : Text.words key = path ++ [word])
      (listed : p ∈ d.parameters) (required : p.2.required = true)
      (nameless : aliases p.1 = []) : NeedsName c path

theorem fails_parameterEntries_iff {arguments : Line.Arguments}
    {parameters : List (Text × Parameter)} :
    Fails (parameterEntries arguments parameters) ↔ ∃ p ∈ parameters, aliases p.1 = [] := by
  induction parameters with
  | nil =>
    refine ⟨fun h => absurd h (not_fails_ok []), ?_⟩
    rintro ⟨p, hp, -⟩
    cases hp
  | cons parameter rest ih =>
    obtain ⟨key, p⟩ := parameter
    rw [parameterEntries, List.exists_mem_cons_iff, ← ih]
    split
    case isTrue hsupplied =>
      -- a parameter that is supplied has the alias that it is supplied under
      have hnamed : aliases key ≠ [] := by
        obtain ⟨a, ha, -⟩ := List.any_eq_true.mp hsupplied
        exact List.ne_nil_of_mem ha
      rw [or_iff_right hnamed]
    case isFalse =>
      rw [fails_bind_iff, fails_firstAlias_iff]
      by_cases hnamed : aliases key = []
      · exact ⟨fun _ => .inl hnamed, fun _ => .inl hnamed⟩
      · rw [or_iff_right hnamed, or_iff_right hnamed]
        obtain ⟨a, more, haliases⟩ := List.exists_cons_of_ne_nil hnamed
        constructor
        · rintro ⟨_, -, h⟩
          exact fails_bind_ok_iff.mp h
        · intro h
          exact ⟨a, by rw [firstAlias, haliases], fails_bind_ok_iff.mpr h⟩

theorem fails_childEntries_iff {c : Catalog} {path : Text} :
    Fails (childEntries c path) ↔ ∃ child ∈ childrenOf path c.commands,
      ∃ p ∈ child.value.parameters, p.2.required = true ∧ aliases p.1 = [] := by
  rw [childEntries, fails_bind_ok_iff, commandChildren_eq, fails_bind_ok_iff, fails_mapM_iff]
  simp only [fails_commandEntries_iff]

theorem fails_completions_iff {c : Catalog} (hc : c.HasEvenKeys) {r : CompletionRequest} :
    Fails (completions c r) ↔
      r.argument.getD [] = [] ∧ NeedsName c (Text.words (r.subcommand.getD [])) := by
  have hwords : ∀ v ∈ Text.words (r.subcommand.getD []), v.IsWord :=
    fun v => Text.isWord_of_mem_words
  rw [← bind_nonEmpty_eq_none]
  unfold completions
  dsimp only
  split
  case h_1 argument hargument =>
    rw [hargument]
    refine ⟨?_, fun h => absurd h.1 nofun⟩
    split
    · exact fun h => absurd h (not_fails_ok _)
    · exact fun h => absurd h (not_fails_ok _)
  case h_2 hargument =>
    rw [hargument]
    cases hpath : lookup (normalPath (r.subcommand.getD [])) c.commands with
    | some d =>
      dsimp only
      rw [fails_parameterEntries_iff]
      constructor
      · rintro ⟨p, hp, hnameless⟩
        exact ⟨rfl, .own hpath hp hnameless⟩
      · rintro ⟨-, ⟨hknown, hp, hnameless⟩ | ⟨hfree, -, -, -, -, -⟩⟩
        · cases hpath.symm.trans hknown
          exact ⟨_, hp, hnameless⟩
        · cases hpath.symm.trans hfree
    | none =>
      dsimp only
      rw [fails_childEntries_iff]
      constructor
      · rintro ⟨child, hchild, p, hp, hrequired, hnameless⟩
        obtain ⟨hknown, hbelow⟩ := mem_childrenOf.mp hchild
        have hkey := (childWord?_eq_some_iff_words hwords (hc.commands _ hknown)).mp hbelow
        exact ⟨rfl, .below hpath hknown hkey hp hrequired hnameless⟩
      · rintro ⟨-, ⟨hknown, -, -⟩ | ⟨-, hknown, hkey, hp, hrequired, hnameless⟩⟩
        · cases hpath.symm.trans hknown
        · have hbelow := (childWord?_eq_some_iff_words hwords (hc.commands _ hknown)).mpr hkey
          exact ⟨⟨_, _, _⟩, mem_childrenOf.mpr ⟨hknown, hbelow⟩, _, hp, hrequired, hnameless⟩

/-! ## Hovers -/

theorem paragraphs?_ne_nil (texts : List Text) : paragraphs? texts ≠ some [] := by
  unfold paragraphs?
  split
  case h_1 => exact nofun
  case h_2 hsome => exact fun h => hsome (Option.some.inj h)

theorem hover_ne_nil (c : Catalog) (r : HoverRequest) : hover c r ≠ some [] := by
  unfold hover
  dsimp only
  split
  case h_1 argument hargument =>
    intro h
    obtain ⟨d, -, h⟩ := Option.bind_eq_some_iff.mp h
    obtain ⟨⟨key, p⟩, -, h⟩ := Option.bind_eq_some_iff.mp h
    cases h
  case h_2 =>
    split
    case h_1 d hknown => exact paragraphs?_ne_nil _
    case h_2 =>
      intro h
      obtain ⟨g, -, h⟩ := Option.bind_eq_some_iff.mp h
      exact paragraphs?_ne_nil _ h

/-! ## Requests -/

/-- A request for completions fails exactly when nothing but its path is asked for and a parameter
without aliases has to be named there. A hover is none or has a paragraph. -/
theorem completions_fail_iff {source : Text} {b : Backend}
    (hread : Catalog.parse source = .ok b.catalog) :
    (∀ r : CompletionRequest, Fails (b.completions r) ↔
      b.available ≠ some false ∧ r.argument.getD [] = [] ∧
        NeedsName b.catalog (Text.words (r.subcommand.getD []))) ∧
    ∀ r : HoverRequest, b.hover r ≠ some [] := by
  refine ⟨fun r => ?_, fun r => ?_⟩
  · rw [← fails_completions_iff (hasEvenKeys_of_parse hread), Backend.completions]
    by_cases hmissing : b.available = some false
    · rw [if_pos hmissing]
      exact ⟨fun h => absurd h (not_fails_ok []), fun h => absurd hmissing h.1⟩
    · rw [if_neg hmissing]
      exact ⟨fun h => ⟨hmissing, h⟩, And.right⟩
  · rw [Backend.hover]
    split
    · exact (Option.some_ne_none []).symm
    · exact hover_ne_nil b.catalog r

def namelessSource : Text :=
  "commands: \x7bx: \x7bparameters: \x7b'': \x7brequired: true\x7d\x7d\x7d\x7d".toList

def nameless : Backend where
  catalog := ⟨[], [("x".toList, ⟨[], [], [([], ⟨[], [], true⟩)]⟩)]⟩
  tool := "az".toList
  statusCommand := none
  notifies := false
  available := none

theorem parse_namelessSource : Catalog.parse namelessSource = .ok nameless.catalog :=
  ok_of_toOption (by decide +kernel)

/-- The snippet of the command cannot be written. -/
theorem root_of_nameless :
    Catalog.parse namelessSource = .ok nameless.catalog ∧
    Fails (nameless.completions ⟨none, none, []⟩) ∧
    nameless.hover ⟨"x".toList, none⟩ ≠ some [] := by
  have hknown : ("x".toList, (⟨[], [], [([], ⟨[], [], true⟩)]⟩ : CatalogCommand)) ∈
      nameless.catalog.commands := List.mem_singleton_self _
  have hneeds : NeedsName nameless.catalog [] :=
    .below rfl hknown rfl (List.mem_singleton_self _) rfl rfl
  obtain ⟨hcompletions, hhover⟩ := completions_fail_iff parse_namelessSource
  exact ⟨parse_namelessSource, (hcompletions _).mpr ⟨nofun, rfl, hneeds⟩, hhover _⟩

/-- The parameter of the command cannot be offered. -/
theorem command_of_nameless_fails :
    Catalog.parse namelessSource = .ok nameless.catalog ∧
    Fails (nameless.completions ⟨some "x".toList, none, []⟩) :=
  ⟨parse_namelessSource, .blankParameter, by decide⟩

end LineAssist.Catalog
