import LineAssist.Catalog.Completion
import LineAssist.Proofs.Catalog.Keys
import Mathlib.Data.List.Infix

/-!
# What an answer is made of

Every entry of an answer comes from one place in the catalog: an allowed value of the parameter that
was asked for, a parameter of the command that was asked for, or a group or a command one word
below the path. A group or a command is listed below a path exactly when its key is the path and
one more word.
-/

namespace LineAssist.Catalog

open Text (IsWord IsEven)

/-! ## Children -/

/-- What the keys of the children of a path start with. -/
def childStart (path : Text) : Text :=
  if path.isEmpty then [] else path ++ [' ']

section Child

variable {ws : List Text} {key w : Text}

theorem childStart_unwords_of_ne_nil (hws : ∀ v ∈ ws, v.IsWord) (hne : ws ≠ []) :
    childStart (Text.unwords ws) = Text.unwords ws ++ [' '] := by
  have hpath : Text.unwords ws ≠ [] := (Text.unwords_eq_nil_iff hws).not.mpr hne
  rw [childStart, if_neg (by simpa using hpath)]

theorem words_childStart_append (hws : ∀ v ∈ ws, v.IsWord) (rest : Text) :
    Text.words (childStart (Text.unwords ws) ++ rest) = ws ++ Text.words rest := by
  by_cases hne : ws = []
  · subst hne
    rfl
  · rw [childStart_unwords_of_ne_nil hws hne, List.append_assoc, List.singleton_append,
      Text.words_append_blank _ (by rfl), Text.words_unwords hws]

theorem unwords_concat_eq_childStart (hws : ∀ v ∈ ws, v.IsWord) (w : Text) :
    Text.unwords (ws ++ [w]) = childStart (Text.unwords ws) ++ w := by
  by_cases hne : ws = []
  · subst hne
    rfl
  · rw [childStart_unwords_of_ne_nil hws hne, Text.unwords_concat hne, List.append_assoc,
      List.singleton_append]

theorem childWord?_eq_some {path : Text} : childWord? path key = some w ↔
    (Text.words key).length = (Text.words path).length + 1 ∧ childStart path <+: key ∧
      (Text.words key).getLast? = some w := by
  simp only [childWord?, childStart, Bool.and_eq_true, decide_eq_true_eq,
    List.isPrefixOf_iff_prefix, Option.ite_none_right_eq_some, and_assoc]

/-- A key is that of a child exactly when it is the path and one more word. -/
theorem childWord?_eq_some_iff (hws : ∀ v ∈ ws, v.IsWord) (hkey : key.IsEven) :
    childWord? (Text.unwords ws) key = some w ↔ w.IsWord ∧ key = Text.unwords (ws ++ [w]) := by
  rw [childWord?_eq_some, Text.words_unwords hws]
  constructor
  · rintro ⟨hlength, ⟨rest, rfl⟩, hlast⟩
    rw [words_childStart_append hws, List.length_append, Nat.add_left_cancel_iff] at hlength
    obtain ⟨v, hv⟩ := List.length_eq_one_iff.mp hlength
    have hwords : Text.words (childStart (Text.unwords ws) ++ rest) = ws ++ [v] := by
      rw [words_childStart_append hws, hv]
    rw [hwords, List.getLast?_concat] at hlast
    obtain rfl := Option.some.inj hlast
    have hmem : v ∈ Text.words rest := by
      rw [hv]
      exact List.mem_singleton_self v
    refine ⟨Text.isWord_of_mem_words hmem, ?_⟩
    rw [← hwords]
    exact hkey.symm
  · rintro ⟨hw, rfl⟩
    have hwords : Text.words (Text.unwords (ws ++ [w])) = ws ++ [w] :=
      Text.words_unwords (List.forall_mem_append.mpr ⟨hws, List.forall_mem_singleton.mpr hw⟩)
    rw [hwords, List.length_append, List.getLast?_concat, unwords_concat_eq_childStart hws]
    exact ⟨rfl, List.prefix_append _ _, rfl⟩

end Child

theorem mem_sortedByKey {α : Type} {entries : List (Text × α)} {entry : Text × α} :
    entry ∈ sortedByKey entries ↔ entry ∈ entries :=
  List.mem_mergeSort

/-- The entry is that of the group or of the command with a key, below a path. -/
inductive StandsFor (c : Catalog) (path key : Text) : Entry → Prop
  | group {word : Text} {g : CommandGroup} (known : (key, g) ∈ c.groups)
      (below : childWord? path key = some word) :
      StandsFor c path key ⟨word, .group, none, nonEmpty g.summary, none⟩
  | command {word : Text} {d : CatalogCommand} (known : (key, d) ∈ c.commands)
      (below : childWord? path key = some word) :
      StandsFor c path key ⟨word, .command, none, nonEmpty d.summary, none⟩

section StandsFor

variable {c : Catalog} {path key : Text} {e : Entry}

theorem StandsFor.below (h : c.StandsFor path key e) : childWord? path key = some e.name := by
  cases h with
  | group _ hbelow => exact hbelow
  | command _ hbelow => exact hbelow

theorem StandsFor.kind (h : c.StandsFor path key e) : e.kind = .group ∨ e.kind = .command := by
  cases h with
  | group => exact .inl rfl
  | command => exact .inr rfl

theorem StandsFor.snippet (h : c.StandsFor path key e) : e.snippet = none := by
  cases h <;> rfl

theorem StandsFor.isEven (h : c.StandsFor path key e) (hc : c.HasEvenKeys) : key.IsEven := by
  cases h with
  | group hknown _ => exact hc.groups _ hknown
  | command hknown _ => exact hc.commands _ hknown

theorem mem_groupChildren : e ∈ groupChildren c path ↔
    ∃ key, e.kind = .group ∧ c.StandsFor path key e := by
  simp only [groupChildren, List.mem_filterMap, mem_sortedByKey, Option.map_eq_some_iff]
  constructor
  · rintro ⟨⟨key, g⟩, hknown, word, hbelow, rfl⟩
    exact ⟨key, rfl, .group hknown hbelow⟩
  · rintro ⟨key, hkind, h⟩
    cases h with
    | group hknown hbelow => exact ⟨_, hknown, _, hbelow, rfl⟩
    | command => cases hkind

/-- The entries of a command are its own and a snippet. -/
theorem mem_commandEntries {word : Text} {d : CatalogCommand} {entries : List Entry}
    (h : commandEntries word d = .ok entries) (he : e ∈ entries) :
    e = ⟨word, .command, none, nonEmpty d.summary, none⟩ ∨ e.kind = .snippet := by
  obtain ⟨snippet, -, h⟩ := ok_of_bind h
  cases snippet with
  | none =>
    cases h
    exact .inl (List.mem_singleton.mp he)
  | some s =>
    cases h
    rcases List.mem_cons.mp he with rfl | he
    · exact .inl rfl
    · rw [List.mem_singleton.mp he]
      exact .inr rfl

theorem own_mem_commandEntries {word : Text} {d : CatalogCommand} {entries : List Entry}
    (h : commandEntries word d = .ok entries) :
    ⟨word, .command, none, nonEmpty d.summary, none⟩ ∈ entries := by
  obtain ⟨snippet, -, h⟩ := ok_of_bind h
  cases snippet <;> cases h <;> exact List.mem_cons_self

theorem mem_commandChildren {entries : List Entry} (h : commandChildren c path = .ok entries)
    (he : e ∈ entries) : (∃ key, c.StandsFor path key e) ∨ e.kind = .snippet := by
  obtain ⟨lists, hlists, h⟩ := ok_of_bind h
  cases h
  obtain ⟨list, hlist, he⟩ := List.mem_flatten.mp he
  obtain ⟨⟨word, d⟩, hchild, hentries⟩ := mem_of_mapM hlists hlist
  obtain ⟨⟨key, _⟩, hknown, hword⟩ := List.mem_filterMap.mp hchild
  obtain ⟨_, hbelow, hsame⟩ := Option.map_eq_some_iff.mp hword
  cases hsame
  rw [mem_sortedByKey] at hknown
  rcases mem_commandEntries hentries he with rfl | hsnippet
  · exact .inl ⟨key, .command hknown hbelow⟩
  · exact .inr hsnippet

end StandsFor

/-! ## Answers -/

theorem isWord_of_firstAlias {key name : Text} (h : firstAlias key = .ok name) : name.IsWord := by
  unfold firstAlias at h
  split at h
  case h_1 rest haliases =>
    cases h
    have hmem : name ∈ aliases key := by
      rw [haliases]
      exact List.mem_cons_self
    exact Text.isWord_of_mem_words hmem
  case h_2 => cases h

theorem mem_parameterEntries {arguments : Line.Arguments} {parameters : List (Text × Parameter)}
    {entries : List Entry} (h : parameterEntries arguments parameters = .ok entries) {e : Entry}
    (he : e ∈ entries) : ∃ key p name, (key, p) ∈ parameters ∧
      (∀ a ∈ aliases key, lookup a arguments = none) ∧ firstAlias key = .ok name ∧
      e = parameterEntry name p := by
  induction parameters generalizing entries with
  | nil =>
    cases h
    cases he
  | cons parameter rest ih =>
    obtain ⟨key, p⟩ := parameter
    have hrest {more : List Entry} (hmore : parameterEntries arguments rest = .ok more)
        (he : e ∈ more) : ∃ k q name, (k, q) ∈ (key, p) :: rest ∧
          (∀ a ∈ aliases k, lookup a arguments = none) ∧ firstAlias k = .ok name ∧
          e = parameterEntry name q := by
      obtain ⟨k, q, name, hmem, hentry⟩ := ih hmore he
      exact ⟨k, q, name, List.mem_cons_of_mem _ hmem, hentry⟩
    rw [parameterEntries] at h
    split at h
    case isTrue => exact hrest h he
    case isFalse hfree =>
      obtain ⟨name, hname, h⟩ := ok_of_bind h
      obtain ⟨more, hmore, h⟩ := ok_of_bind h
      cases h
      rcases List.mem_cons.mp he with rfl | he
      · refine ⟨key, p, name, List.mem_cons_self, ?_, hname, rfl⟩
        simpa using hfree
      · exact hrest hmore he

/-- Where an entry of an answer comes from. -/
inductive Origin (c : Catalog) (r : CompletionRequest) : Entry → Prop
  | value {argument key option : Text} {d : CatalogCommand} {p : Parameter}
      (asked : r.argument = some argument)
      (known : lookup (normalPath (r.subcommand.getD [])) c.commands = some d)
      (found : findParameter argument d.parameters = some (key, p))
      (allowed : option ∈ p.options) : Origin c r (valueEntry option)
  | parameter {key name : Text} {d : CatalogCommand} {p : Parameter}
      (known : lookup (normalPath (r.subcommand.getD [])) c.commands = some d)
      (taken : (key, p) ∈ d.parameters)
      (free : ∀ a ∈ aliases key, lookup a r.arguments = none)
      (named : firstAlias key = .ok name) : Origin c r (parameterEntry name p)
  | child {key : Text} {e : Entry}
      (listed : c.StandsFor (normalPath (r.subcommand.getD [])) key e) : Origin c r e
  | snippet {e : Entry} (kind : e.kind = .snippet) : Origin c r e

section Origin

variable {c : Catalog} {r : CompletionRequest} {e : Entry}

theorem Origin.exists_listed (h : Origin c r e) (hkind : e.kind = .group ∨ e.kind = .command) :
    ∃ key, c.StandsFor (normalPath (r.subcommand.getD [])) key e := by
  cases h with
  | value | parameter => rcases hkind with hkind | hkind <;> cases hkind
  | child hlisted => exact ⟨_, hlisted⟩
  | snippet hsnippet =>
    rw [hsnippet] at hkind
    rcases hkind with hkind | hkind <;> cases hkind

theorem Origin.isWord_of_parameter (h : Origin c r e) (hkind : e.kind = .parameterName) :
    e.name.IsWord ∧ e.snippet = none := by
  cases h with
  | value => cases hkind
  | parameter _ _ _ hnamed => exact ⟨isWord_of_firstAlias hnamed, rfl⟩
  | child hlisted => cases hlisted <;> cases hkind
  | snippet hsnippet =>
    rw [hsnippet] at hkind
    cases hkind

theorem Origin.exists_argument (h : Origin c r e) (hkind : e.kind = .parameterValue) :
    (∃ argument, r.argument = some argument) ∧ e.snippet = none := by
  cases h with
  | value hasked => exact ⟨⟨_, hasked⟩, rfl⟩
  | parameter => cases hkind
  | child hlisted => cases hlisted <;> cases hkind
  | snippet hsnippet =>
    rw [hsnippet] at hkind
    cases hkind

end Origin

theorem origin_of_completions {c : Catalog} {r : CompletionRequest} {entries : List Entry}
    (h : completions c r = .ok entries) {e : Entry} (he : e ∈ entries) : Origin c r e := by
  unfold completions at h
  dsimp only at h
  split at h
  case h_1 argument hargument =>
    have hasked : r.argument = some argument := by
      obtain ⟨a, ha, hnonempty⟩ := Option.bind_eq_some_iff.mp hargument
      unfold nonEmpty at hnonempty
      split at hnonempty <;> cases hnonempty
      exact ha
    split at h
    case h_1 key p hfound =>
      cases h
      obtain ⟨d, hknown, hfound⟩ := Option.bind_eq_some_iff.mp hfound
      obtain ⟨option, hallowed, rfl⟩ := List.mem_map.mp he
      exact .value hasked hknown hfound hallowed
    case h_2 =>
      cases h
      cases he
  case h_2 =>
    split at h
    case h_1 d hknown =>
      obtain ⟨key, p, name, htaken, hfree, hname, rfl⟩ := mem_parameterEntries h he
      exact .parameter hknown htaken hfree hname
    case h_2 =>
      obtain ⟨commands, hcommands, h⟩ := ok_of_bind h
      cases h
      rcases List.mem_append.mp he with he | he
      · obtain ⟨key, -, hlisted⟩ := mem_groupChildren.mp he
        exact .child hlisted
      · rcases mem_commandChildren hcommands he with ⟨key, hlisted⟩ | hsnippet
        · exact .child hlisted
        · exact .snippet hsnippet

/-! ## Answers that are there -/

/-- Every parameter has a name: none of their keys is blank. -/
def HasNamedParameters (c : Catalog) : Prop :=
  ∀ entry ∈ c.commands, ∀ parameter ∈ entry.2.parameters,
    ∃ ch ∈ parameter.1, Text.isBlank ch = false

instance (c : Catalog) : Decidable c.HasNamedParameters :=
  decidable_of_iff
    (c.commands.all (fun entry => entry.2.parameters.all fun parameter =>
      parameter.1.any fun ch => !Text.isBlank ch) = true)
    (by simp [HasNamedParameters])

theorem fails_firstAlias_iff {key : Text} : Fails (firstAlias key) ↔ aliases key = [] := by
  unfold firstAlias
  cases aliases key with
  | nil => exact ⟨fun _ => rfl, fun _ => fails_error _⟩
  | cons a rest => exact ⟨fun h => absurd h (not_fails_ok a), nofun⟩

theorem fails_snippet?_iff (word : Text) {d : CatalogCommand} :
    Fails (snippet? word d) ↔
      ∃ p ∈ d.parameters, p.2.required = true ∧ aliases p.1 = [] := by
  unfold snippet?
  split
  case h_1 hnone =>
    refine ⟨fun h => absurd h (not_fails_ok none), ?_⟩
    rintro ⟨p, hp, hrequired, -⟩
    exact absurd hrequired (List.filter_eq_nil_iff.mp hnone p hp)
  case h_2 =>
    rw [fails_bind_ok_iff, fails_mapM_iff]
    simp only [fails_firstAlias_iff, List.mem_filter, and_assoc]

theorem fails_commandEntries_iff {word : Text} {d : CatalogCommand} :
    Fails (commandEntries word d) ↔
      ∃ p ∈ d.parameters, p.2.required = true ∧ aliases p.1 = [] := by
  rw [← fails_snippet?_iff word, commandEntries, fails_bind_iff, or_iff_left]
  rintro ⟨snippet, -, h⟩
  cases snippet <;> exact not_fails_ok _ h

theorem aliases_ne_nil {key : Text} (h : ∃ ch ∈ key, Text.isBlank ch = false) :
    aliases key ≠ [] := by
  obtain ⟨ch, hmem, hsolid⟩ := h
  intro hnone
  have hblank := Text.blank_of_words_eq_nil hnone ch hmem
  rw [hsolid] at hblank
  cases hblank

theorem exists_commandEntries {d : CatalogCommand}
    (h : ∀ parameter ∈ d.parameters, ∃ ch ∈ parameter.1, Text.isBlank ch = false) (word : Text) :
    ∃ entries, commandEntries word d = .ok entries := by
  refine exists_ok_of_not_fails fun hfails => ?_
  obtain ⟨p, hp, -, hnameless⟩ := fails_commandEntries_iff.mp hfails
  exact aliases_ne_nil (h p hp) hnameless

/-- Where all parameters have names, the commands below a path can be listed, and all of them
are. -/
theorem exists_commandChildren {c : Catalog} (hc : c.HasNamedParameters) (path : Text) :
    ∃ entries, commandChildren c path = .ok entries ∧
      ∀ key e, e.kind = .command → c.StandsFor path key e → e ∈ entries := by
  obtain ⟨lists, hlists, hall⟩ := exists_mapM (f := fun child => commandEntries child.1 child.2)
    (l := (sortedByKey c.commands).filterMap fun entry =>
      (childWord? path entry.1).map fun word => (word, entry.2)) fun child hchild => by
        obtain ⟨entry, hknown, hword⟩ := List.mem_filterMap.mp hchild
        obtain ⟨word, _, rfl⟩ := Option.map_eq_some_iff.mp hword
        exact exists_commandEntries (hc entry (mem_sortedByKey.mp hknown)) word
  have hchildren : commandChildren c path = .ok lists.flatten :=
    ok_bind hlists rfl
  refine ⟨lists.flatten, hchildren, fun key e hkind h => ?_⟩
  cases h with
  | group => cases hkind
  | command hknown hbelow =>
    obtain ⟨list, hlist, hentries⟩ := hall _ (List.mem_filterMap.mpr
      ⟨_, mem_sortedByKey.mpr hknown, Option.map_eq_some_iff.mpr ⟨_, hbelow, rfl⟩⟩)
    exact List.mem_flatten.mpr ⟨list, hlist, own_mem_commandEntries hentries⟩

/-- Where no command has the path, everything one word below it is in the answer. -/
theorem exists_completions {c : Catalog} (hc : c.HasNamedParameters) {r : CompletionRequest}
    (hargument : r.argument = none)
    (hpath : lookup (normalPath (r.subcommand.getD [])) c.commands = none) :
    ∃ entries, completions c r = .ok entries ∧
      ∀ key e, c.StandsFor (normalPath (r.subcommand.getD [])) key e → e ∈ entries := by
  obtain ⟨commands, hcommands, hall⟩ :=
    exists_commandChildren hc (normalPath (r.subcommand.getD []))
  refine ⟨groupChildren c (normalPath (r.subcommand.getD [])) ++ commands, ?_, fun key e h => ?_⟩
  · rw [completions, hargument, hpath, Option.bind_none]
    dsimp only
    rw [childEntries, hcommands]
    rfl
  · rcases h.kind with hkind | hkind
    · exact List.mem_append_left _ (mem_groupChildren.mpr ⟨key, hkind, h⟩)
    · exact List.mem_append_right _ (hall key e hkind h)

/-! ## The way to a command -/

/-- Groups lead to a command, and no other command stands on the way. -/
structure HasWay (c : Catalog) (key : Text) : Prop where
  command : key ∈ c.commands.map Prod.fst
  groups : ∀ front, front <+: Text.words key → front ≠ [] → front ≠ Text.words key →
    Text.unwords front ∈ c.groups.map Prod.fst
  free : ∀ front, front <+: Text.words key → front ≠ Text.words key →
    Text.unwords front ∉ c.commands.map Prod.fst

section Way

variable {c : Catalog} {key w : Text} {ws rest : List Text}

/-- There is a way if every first part of the words is what it should be. -/
theorem hasWay_iff : c.HasWay key ↔ key ∈ c.commands.map Prod.fst ∧
    ∀ front ∈ (Text.words key).inits, front ≠ Text.words key →
      (front ≠ [] → Text.unwords front ∈ c.groups.map Prod.fst) ∧
        Text.unwords front ∉ c.commands.map Prod.fst := by
  simp only [List.mem_inits]
  constructor
  · intro h
    exact ⟨h.command, fun front hfront hproper =>
      ⟨fun hne => h.groups front hfront hne hproper, h.free front hfront hproper⟩⟩
  · rintro ⟨hcommand, hfronts⟩
    exact ⟨hcommand, fun front hfront hne hproper => (hfronts front hfront hproper).1 hne,
      fun front hfront hproper => (hfronts front hfront hproper).2⟩

theorem HasWay.isEven (h : c.HasWay key) (hc : c.HasEvenKeys) : Text.IsEven key := by
  obtain ⟨entry, hknown, rfl⟩ := List.mem_map.mp h.command
  exact hc.commands entry hknown

/-- The next word on the way is that of a group or, at the end, of the command. -/
theorem HasWay.exists_next (h : c.HasWay key) (hc : c.HasEvenKeys)
    (hcut : ws ++ w :: rest = Text.words key) :
    ∃ e, c.StandsFor (Text.unwords ws) (Text.unwords (ws ++ [w])) e ∧ e.name = w ∧
      e.kind = if rest = [] then .command else .group := by
  have hwords : ∀ v ∈ ws ++ w :: rest, IsWord v := by
    rw [hcut]
    exact fun v => Text.isWord_of_mem_words
  obtain ⟨hws, hw⟩ := List.forall_mem_append.mp hwords
  obtain ⟨hw, -⟩ := List.forall_mem_cons.mp hw
  have hbelow : childWord? (Text.unwords ws) (Text.unwords (ws ++ [w])) = some w := by
    refine (childWord?_eq_some_iff hws ?_).mpr ⟨hw, rfl⟩
    rw [Text.IsEven, Text.words_unwords
      (List.forall_mem_append.mpr ⟨hws, List.forall_mem_singleton.mpr hw⟩)]
  by_cases hrest : rest = []
  · subst hrest
    have hcommand := h.command
    rw [← h.isEven hc, ← hcut] at hcommand
    obtain ⟨⟨_, d⟩, hknown, rfl⟩ := List.mem_map.mp hcommand
    rw [if_pos rfl]
    exact ⟨_, .command hknown hbelow, rfl, rfl⟩
  · have hfront : ws ++ [w] <+: Text.words key := ⟨rest, by rw [← hcut]; simp⟩
    have hproper : ws ++ [w] ≠ Text.words key := by
      rw [← hcut]
      simpa using Ne.symm hrest
    obtain ⟨⟨_, g⟩, hknown, rfl⟩ := List.mem_map.mp (h.groups _ hfront (by simp) hproper)
    rw [if_neg hrest]
    exact ⟨_, .group hknown hbelow, rfl, rfl⟩

end Way

end LineAssist.Catalog
