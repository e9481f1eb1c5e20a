import LineAssist.Proofs.Editor.Insertion
import LineAssist.Proofs.Editor.ParameterItems
import LineAssist.Proofs.Editor.SnippetSyntax
import LineAssist.Proofs.Line.WrittenWords

/-!
# Snippets that are filled

A snippet is inserted behind a text, values take the places of its tab stops, and a space follows.
What stands there then is the command with the names of its required parameters, each with a value:
the path is that of the command, and no required parameter is left to be offered.

The word of the command is written into the snippet as it is. A word with characters that the syntax
of snippets uses may be read as a tab stop itself, and what is filled then leads elsewhere.
-/

namespace LineAssist.Catalog

namespace IsSnippetOf

variable {c : Catalog} {path key : Text} {d : CatalogCommand} {names : List Text} {e : Entry}

theorem names_eq (h : IsSnippetOf c path key d names e) :
    names = (requiredParameters d).map fun p => shownName p.1 := by
  have hnamed := h.named.imp fun _ _ hname => (firstAlias_eq_ok_iff.mp hname).2
  rw [← List.forall₂_map_left_iff, List.forall₂_eq_eq_eq] at hnamed
  exact hnamed.symm

theorem forall_mem_names (h : IsSnippetOf c path key d names e) {good : Text → Prop}
    (hgood : ∀ p ∈ requiredParameters d, good (shownName p.1)) : ∀ name ∈ names, good name := by
  rw [h.names_eq]
  exact List.forall_mem_map.mpr hgood

end IsSnippetOf

end LineAssist.Catalog

namespace LineAssist.Editor

open Catalog (Entry CompletionRequest IsSnippetOf aliases shownName requiredParameters tabStops)
open Line
open Snippet (IsLiteral IsLiteralName bareName stops filledWords)
open Text (isQuote IsWord)

/-- A word that is no parameter and has no quote. -/
structure IsPlainValue (value : Text) : Prop where
  word : IsWord value
  unquoted : ∀ c ∈ value, isQuote c = false
  undashed : Text.isDashLed value = false

instance (value : Text) : Decidable (IsPlainValue value) :=
  decidable_of_iff
    (IsWord value ∧ value.all (fun c => !isQuote c) = true ∧ Text.isDashLed value = false)
    ⟨fun h => ⟨h.1, by simpa using h.2.1, h.2.2⟩,
      fun h => ⟨h.word, by simpa using h.unquoted, h.undashed⟩⟩

/-- A parameter name without quotes that a snippet shows as it is. -/
structure IsPlainName (name : Text) : Prop where
  dashed : Text.isDashLed name = true
  unquoted : ∀ c ∈ name, isQuote c = false
  literal : IsLiteralName name

instance (name : Text) : Decidable (IsPlainName name) :=
  decidable_of_iff
    (Text.isDashLed name = true ∧ name.all (fun c => !isQuote c) = true ∧ IsLiteralName name)
    ⟨fun h => ⟨h.1, by simpa using h.2.1, h.2.2⟩,
      fun h => ⟨h.dashed, by simpa using h.unquoted, h.literal⟩⟩

/-- The text behind a snippet with values in its tab stops and a space behind it. -/
def acceptFilled (values : Nat → Text) (text : Text) (i : Item) : Text :=
  text ++ Snippet.fill values i.newText ++ [' ']

section Inserted

variable {c : Catalog} {path key text u : Text} {d : CatalogCommand} {names : List Text} {e : Entry}

/-- The snippet is inserted from where the typed word ends. -/
theorem exists_insertText_snippet (h : IsSnippetOf c path key d names e)
    (hextends : typedWord text <+: e.name) (line root : Text) :
    ∃ u, typedWord text ++ u = e.name ∧ insertText e (resolveContext text line root) =
      u ++ (tabStops 1 names).flatMap fun stop => ' ' :: stop := by
  obtain ⟨u, hu⟩ := hextends
  have hwhole : e.whole = typedWord text ++
      (u ++ (tabStops 1 names).flatMap fun stop => ' ' :: stop) := by
    rw [h.whole_eq, ← hu, List.append_assoc]
  have hinsert := typedWord_append_insertText line root h.snippet_ne_nil ⟨_, hwhole.symm⟩
  rw [hwhole] at hinsert
  exact ⟨u, hu, List.append_cancel_left hinsert⟩

/-- What is filled in are words behind the text. -/
theorem acceptFilled_eq_withWords (hu : IsLiteral u) (hnames : ∀ name ∈ names, IsLiteralName name)
    (hrequires : names ≠ []) {i : Item}
    (hnew : i.newText = u ++ (tabStops 1 names).flatMap fun stop => ' ' :: stop)
    (values : Nat → Text) :
    acceptFilled values text i = withWords (text ++ u) (filledWords values 1 names) := by
  have hfilled : filledWords values 1 names ≠ [] := by
    obtain ⟨name, hname⟩ := List.exists_mem_of_ne_nil names hrequires
    exact List.ne_nil_of_mem (Snippet.mem_filledWords_of_mem hname 1)
  rw [acceptFilled, hnew, Snippet.fill_written values hu hnames, Text.flatMap_space hfilled,
    withWords]
  simp

end Inserted

/-! ## The context behind a filled snippet -/

section Context

variable {root text u : Text} {ws names : List Text} {values : Nat → Text}

/-- The word is the last one of the path, no parameter waits for a value, and all names are
arguments. -/
theorem context_withWords (hws : subcommandWords text = root :: ws)
    (hplain : ∀ w ∈ Text.words text, Text.isDashLed w = false)
    (hword : IsWord (typedWord text ++ u)) (hname : Text.isDashLed (typedWord text ++ u) = false)
    (hrequires : names ≠ []) (hwords : ∀ name ∈ names, IsWord name)
    (hnames : ∀ name ∈ names, IsPlainName name) (hvalues : ∀ n, IsPlainValue (values n)) :
    let next := withWords (text ++ u) (filledWords values 1 names)
    subcommandWords next = root :: (ws ++ [typedWord text ++ u]) ∧ activeArgument next = none ∧
      ∀ name ∈ names, name ∈ (arguments next).map Prod.fst := by
  intro next
  have hfilled : ∀ w ∈ filledWords values 1 names, IsWord w ∧ ∀ c ∈ w, isQuote c = false := by
    intro w hw
    rcases Snippet.mem_filledWords hw with hw | ⟨k, rfl⟩
    · exact ⟨hwords w hw, (hnames w hw).unquoted⟩
    · exact ⟨(hvalues k).word, (hvalues k).unquoted⟩
  have hfilledWords := fun w hw => (hfilled w hw).1
  obtain ⟨first, more, rfl⟩ := List.exists_cons_of_ne_nil hrequires
  obtain ⟨k, hlast⟩ := Snippet.exists_getLast?_filledWords values hrequires 1
  refine ⟨?_, activeArgument_withWords hfilledWords hlast (hvalues k).undashed, ?_⟩
  · have hfirst : (filledWords values 1 (first :: more)).head? = some first := by
      rw [Snippet.filledWords_cons]
      rfl
    rw [subcommandWords_withWords hfilledWords hfirst (hnames first List.mem_cons_self).dashed]
    exact finish_name hws hplain hword hname
  · intro name hmem
    exact mem_keys_withWords hfilledWords (fun w hw => (hfilled w hw).2)
      (Snippet.mem_filledWords_of_mem hmem 1) (hnames name hmem).dashed

end Context

/-- A parameter that is required is not offered once its shown name is an argument. -/
theorem detail_ne_required {d : CatalogCommand} {line : Text}
    (haliases : ∀ p ∈ requiredParameters d, aliases p.1 ≠ [])
    (hsupplied : ∀ p ∈ requiredParameters d, shownName p.1 ∈ (arguments line).map Prod.fst) :
    ∀ e ∈ (d.parameters.filter fun p => IsFree line p.1).map
      (fun p => Catalog.parameterEntry (shownName p.1) p.2), e.detail ≠ some "required".toList := by
  intro e he
  obtain ⟨p, hp, rfl⟩ := List.mem_map.mp he
  obtain ⟨hknown, hfree⟩ := List.mem_filter.mp hp
  cases hrequired : p.2.required with
  | false => simp [Catalog.parameterEntry, hrequired]
  | true =>
    have hp : p ∈ requiredParameters d := List.mem_filter.mpr ⟨hknown, hrequired⟩
    obtain ⟨t, ht, hdash, htext⟩ := mem_keys_arguments.mp (hsupplied p hp)
    have hshown := Catalog.shownName_mem_aliases (haliases p hp)
    exact absurd htext (of_decide_eq_true hfree _ hshown t ht hdash)

/-- Behind the path of a command with the names of its required parameters, no parameter is offered
as required. -/
theorem answer_of_supplied {b : Backend} {d : CatalogCommand} {root next : Text} {ws : List Text}
    (hpresent : b.available ≠ some false)
    (hcommand : lookup (Text.unwords ws) b.catalog.commands = some d)
    (haliases : ∀ p ∈ d.parameters, aliases p.1 ≠ [])
    (hws : subcommandWords next = root :: ws) (hactive : activeArgument next = none)
    (hsupplied : ∀ p ∈ requiredParameters d, shownName p.1 ∈ (arguments next).map Prod.fst) :
    (resolveContext next next root).subcommandPath = Text.unwords ws ∧
      ∃ r entries, completionRequest (resolveContext next next root) = some r ∧
        b.completions r = .ok entries ∧ ∀ e ∈ entries, e.detail ≠ some "required".toList := by
  rw [resolveContext_of_words hws, hactive]
  refine ⟨rfl, _, _, rfl,
    completions_at_command hpresent (isWord_of_path hws) hcommand haliases next, ?_⟩
  exact detail_ne_required (fun p hp => haliases p (List.mem_of_mem_filter hp)) hsupplied

section Offered

variable {source root line text : Text} {b : Backend} {r : CompletionRequest}
  {entries : List Entry} {at_ : Position} {i : Item}

/-- A snippet that is offered is that of a command one word below the path. -/
theorem exists_isSnippetOf_of_item {ws : List Text} (hread : Catalog.parse source = .ok b.catalog)
    (hws : subcommandWords text = root :: ws)
    (hanswer : b.completions ⟨some (Text.unwords ws), activeArgument text, arguments line⟩ =
      .ok entries)
    (hi : i ∈ items entries (resolveContext text line root) at_) (hkind : i.kind = .snippet) :
    ∃ e key d names, i = itemOf (resolveContext text line root) at_ e ∧
      typedWord text <+: e.name ∧ IsSnippetOf b.catalog (Text.unwords ws) key d names e ∧
      lookup key b.catalog.commands = some d ∧ IsWord e.name ∧
      key = Text.unwords (ws ++ [e.name]) ∧ b.available ≠ some false := by
  obtain ⟨e, he, rfl⟩ := List.mem_map.mp hi
  rw [kind_itemOf] at hkind
  obtain ⟨he, hextends⟩ := List.mem_filter.mp he
  obtain ⟨hpresent, hcatalog⟩ := catalog_answer_of_mem hanswer he
  obtain ⟨key, d, names, hsnippet⟩ := Catalog.exists_isSnippetOf hcatalog he hkind
  have hpath := isWord_of_path hws
  rw [Option.getD_some, Catalog.normalPath, Text.words_unwords hpath] at hsnippet
  obtain ⟨heven, hdistinct⟩ := Catalog.keys_of_parse hread
  obtain ⟨hword, hkey⟩ := (Catalog.childWord?_eq_some_iff hpath
    (heven.commands _ hsnippet.known)).mp hsnippet.below
  exact ⟨e, key, d, names, rfl, List.isPrefixOf_iff_prefix.mp hextends, hsnippet,
    lookup_of_mem hdistinct.commands hsnippet.known, hword, hkey, hpresent⟩

/-- A filled snippet leads to its command, and behind it no parameter is offered as required. The
tab stops are those of the required parameters, numbered in their order. The part of the word that
is inserted must stand for itself. -/
theorem filled_snippet_leads_to_command (hread : Catalog.parse source = .ok b.catalog)
    (hnamed : b.catalog.HasNamedParameters)
    (hplain : ∀ w ∈ Text.words text, Text.isDashLed w = false)
    (hrequest : completionRequest (resolveContext text line root) = some r)
    (hanswer : b.completions r = .ok entries)
    (hi : i ∈ items entries (resolveContext text line root) at_) (hkind : i.kind = .snippet) :
    ∃ key d, lookup key b.catalog.commands = some d ∧
      Text.words key = (resolveContext text line root).words ++ [i.label] ∧
      ((∀ w ∈ Text.words key, Text.isDashLed w = false) →
        IsLiteral (i.label.drop (typedWord text).length) →
        (∀ p ∈ requiredParameters d, IsPlainName (shownName p.1)) →
          stops i.newText =
            ((requiredParameters d).zipIdx 1).map (fun (p, n) => (n, bareName (shownName p.1))) ∧
          ∀ values : Nat → Text, (∀ n, IsPlainValue (values n)) →
            let next := acceptFilled values text i
            (resolveContext next next root).subcommandPath = key ∧
              ∃ r' entries', completionRequest (resolveContext next next root) = some r' ∧
                b.completions r' = .ok entries' ∧
                ∀ e ∈ entries', e.detail ≠ some "required".toList) := by
  obtain ⟨ws, hws, rfl⟩ := completionRequest_eq_some hrequest
  obtain ⟨e, key, d, names, rfl, hextends, hsnippet, hlookup, hword, rfl, hpresent⟩ :=
    exists_isSnippetOf_of_item hread hws hanswer hi hkind
  have hpath := isWord_of_path hws
  have hkeyWords : ∀ w ∈ ws ++ [e.name], IsWord w :=
    List.forall_mem_append.mpr ⟨hpath, List.forall_mem_singleton.mpr hword⟩
  have hwords : Text.words (Text.unwords (ws ++ [e.name])) =
      (resolveContext text line root).words ++ [e.name] := by
    rw [Text.words_unwords hkeyWords, resolveContext_of_words hws, Context.words,
      Text.words_unwords hpath]
  refine ⟨_, d, hlookup, hwords, fun hundashed hliteral hrequired => ?_⟩
  rw [Text.words_unwords hkeyWords] at hundashed
  have hdash := hundashed e.name List.mem_concat_self
  obtain ⟨u, hu, hnew⟩ := exists_insertText_snippet hsnippet hextends line root
  -- the typed part of the word is not inserted, so a snippet is read only from the rest of it on
  have hrest : e.name.drop (typedWord text).length = u := by rw [← hu, List.drop_left]
  have hliteralRest : IsLiteral u := hrest ▸ hliteral
  have hnames := hsnippet.forall_mem_names hrequired
  have hliteralNames := fun name hname => (hnames name hname).literal
  have haliases : ∀ p ∈ d.parameters, aliases p.1 ≠ [] :=
    fun p hp => Catalog.aliases_ne_nil (hnamed _ hsnippet.known p hp)
  have hnameWords : ∀ name ∈ names, IsWord name := hsnippet.forall_mem_names fun p hp =>
    Text.isWord_of_mem_words
      (Catalog.shownName_mem_aliases (haliases p (List.mem_of_mem_filter hp)))
  refine ⟨?_, fun values hvalues => ?_⟩
  · have hstops := Snippet.stops_written hliteralRest hliteralNames
    rw [← hnew, hsnippet.names_eq, List.zipIdx_map, List.map_map] at hstops
    exact hstops
  · intro next
    have hnext : next = withWords (text ++ u) (filledWords values 1 names) :=
      acceptFilled_eq_withWords hliteralRest hliteralNames hsnippet.requires hnew values
    obtain ⟨hsub, hactive, harguments⟩ := context_withWords hws hplain (hu ▸ hword) (hu ▸ hdash)
      hsnippet.requires hnameWords hnames hvalues
    rw [← hnext] at hsub hactive harguments
    rw [hu] at hsub
    refine answer_of_supplied hpresent hlookup haliases hsub hactive fun p hp => harguments _ ?_
    rw [hsnippet.names_eq]
    exact List.mem_map_of_mem hp

end Offered

/-- A command behind a part of its word, with values for the two parameters that it requires. -/
theorem filled_snippet_of_machine :
    let b : Backend := ⟨Catalog.machine, "az".toList, none, false, none⟩
    let root := "az".toList
    let text := "az vm cr".toList
    let create : Item :=
      ⟨"create".toList, .snippet, "create".toList,
        "eate --name $\x7b1:name\x7d --image $\x7b2:image\x7d".toList, ⟨⟨0, 8⟩, ⟨0, 8⟩⟩, [' '],
        true, some "with required parameters".toList, none⟩
    let values : Nat → Text := fun n => if n = 1 then "web".toList else "ubuntu".toList
    let next := acceptFilled values text create
    Catalog.parse Catalog.machineSource = .ok b.catalog ∧ b.catalog.HasNamedParameters ∧
    (∀ w ∈ Text.words text, Text.isDashLed w = false) ∧
    (∃ r entries, completionRequest (resolveContext text text root) = some r ∧
      b.completions r = .ok entries ∧
      create ∈ items entries (resolveContext text text root) ⟨0, 8⟩) ∧
    create.kind = .snippet ∧ (∀ n, IsPlainValue (values n)) ∧
    next = "az vm create --name web --image ubuntu ".toList ∧
    ∃ key d, lookup key b.catalog.commands = some d ∧
      Text.words key = ["vm".toList, "create".toList] ∧
      stops create.newText =
        ((requiredParameters d).zipIdx 1).map (fun (p, n) => (n, bareName (shownName p.1))) ∧
      (resolveContext next next root).subcommandPath = key ∧
      ∃ r' entries', completionRequest (resolveContext next next root) = some r' ∧
        b.completions r' = .ok entries' ∧ ∀ e ∈ entries', e.detail ≠ some "required".toList := by
  intro b root text create values next
  have hnamed : b.catalog.HasNamedParameters := by decide
  have hplain : ∀ w ∈ Text.words text, Text.isDashLed w = false := by decide
  have hrequest : completionRequest (resolveContext text text root) =
      some ⟨some "vm".toList, none, []⟩ := by decide
  have hanswer : b.completions ⟨some "vm".toList, none, []⟩ = .ok Catalog.machineEntries :=
    Catalog.completions_machine
  have hitem : create ∈ items Catalog.machineEntries (resolveContext text text root) ⟨0, 8⟩ := by
    decide
  have hvalues : ∀ n, IsPlainValue (values n) := by
    intro n
    dsimp only [values]
    split <;> decide
  obtain ⟨key, d, hlookup, hwords, hfilled⟩ := filled_snippet_leads_to_command
    Catalog.parse_machineSource hnamed hplain hrequest hanswer hitem rfl
  have hkey : Text.words key = ["vm".toList, "create".toList] := hwords
  have hrequired : ∀ entry ∈ b.catalog.commands, ∀ p ∈ requiredParameters entry.2,
      IsPlainName (shownName p.1) := by decide
  obtain ⟨hstops, hbehind⟩ := hfilled (by rw [hkey]; decide) (by decide)
    (hrequired _ (mem_of_lookup hlookup))
  exact ⟨Catalog.parse_machineSource, hnamed, hplain, ⟨_, _, hrequest, hanswer, hitem⟩, rfl,
    hvalues, by decide, key, d, hlookup, hkey, hstops, hbehind _ hvalues⟩

def stopWordSource : Text :=
  ("commands:\n '$\x7b1:x\x7d':\n" ++
    "  parameters: \x7b--name: \x7brequired: true\x7d\x7d").toList

def stopWord : Catalog where
  groups := []
  commands := [("$\x7b1:x\x7d".toList, ⟨[], [], [("--name".toList, ⟨[], [], true⟩)]⟩)]

theorem parse_stopWordSource : Catalog.parse stopWordSource = .ok stopWord :=
  ok_of_toOption (by decide +kernel)

/-- A word that reads as a tab stop is filled as well, and the path is another. -/
theorem filled_stopWord_leads_elsewhere :
    let b : Backend := ⟨stopWord, "az".toList, none, false, none⟩
    let root := "az".toList
    let text := "az ".toList
    let key := "$\x7b1:x\x7d".toList
    let d : CatalogCommand := ⟨[], [], [("--name".toList, ⟨[], [], true⟩)]⟩
    let value := "v".toList
    Catalog.parse stopWordSource = .ok b.catalog ∧ b.catalog.HasNamedParameters ∧
    (∀ w ∈ Text.words text, Text.isDashLed w = false) ∧
    lookup key b.catalog.commands = some d ∧
    (∀ w ∈ Text.words key, Text.isDashLed w = false) ∧
    (∀ p ∈ requiredParameters d, IsPlainName (shownName p.1)) ∧ IsPlainValue value ∧
    ∃ r entries i, completionRequest (resolveContext text text root) = some r ∧
      b.completions r = .ok entries ∧ i ∈ items entries (resolveContext text text root) ⟨0, 3⟩ ∧
      i.kind = .snippet ∧
      Text.words key = (resolveContext text text root).words ++ [i.label] ∧
      stops i.newText = [(1, "x".toList), (1, "name".toList)] ∧ (requiredParameters d).length = 1 ∧
      let next := acceptFilled (fun _ => value) text i
      next = "az v --name v ".toList ∧ (resolveContext next next root).subcommandPath ≠ key := by
  intro b root text key d value
  have hanswer : b.completions ⟨some [], none, []⟩ = .ok
      [⟨key, .command, none, none, none⟩,
        ⟨key, .snippet, some "with required parameters".toList, none,
          some "$\x7b1:x\x7d --name $\x7b1:name\x7d".toList⟩] := ok_of_toOption (by decide +kernel)
  have hnames : ∀ p ∈ requiredParameters d, IsPlainName (shownName p.1) := by decide
  have hvalue : IsPlainValue value := by decide
  refine ⟨parse_stopWordSource, by decide, by decide, rfl, by decide, hnames, hvalue, _, _, _,
    by decide, hanswer, List.mem_cons_of_mem _ List.mem_cons_self, ?_⟩
  decide

end LineAssist.Editor
