import LineAssist.Proofs.Editor.Acceptance

/-!
# Walks through a catalog

A command is reached from the root word by accepting one item after another: the groups above it and
then the command itself. Each step finds its item among those that are offered, and the text behind
it stands one word further down the path.
-/

namespace LineAssist.Editor

open Catalog (Entry CompletionRequest EntryKind StandsFor BlankParameter)
open Line
open Text (IsWord)

/-- The items at the end of a text; an unrecognized text is offered none. -/
def offered (b : Backend) (root : Text) (at_ : Position) (text : Text) :
    Except BlankParameter (List Item) :=
  let context := resolveContext text text root
  match completionRequest context with
  | none => .ok []
  | some r => do .ok (items (← b.completions r) context at_)

/-- Accepting an item of the kind and the label of each step is possible and, whichever is taken,
ends in a text with the property. A text is offered its items at the place of its cursor. -/
def LeadsTo (b : Backend) (root : Text) (place : Text → Position) (goal : Text → Prop) :
    Text → List (EntryKind × Text) → Prop
  | text, [] => goal text
  | text, (kind, label) :: steps =>
    ∃ shown, offered b root (place text) text = .ok shown ∧
      (∃ i ∈ shown, i.kind = kind ∧ i.label = label) ∧
      ∀ i ∈ shown, i.kind = kind → i.label = label →
        LeadsTo b root place goal (accept text i) steps

/-- The steps along the words of a command: groups, and the command at the end. -/
def stepsTo : List Text → List (EntryKind × Text)
  | [] => []
  | w :: rest => (if rest = [] then .command else .group, w) :: stepsTo rest

/-! ## The text between two steps -/

/-- The text is the root word and a path, and nothing else has been typed. -/
structure AtPath (root text : Text) (ws : List Text) : Prop where
  words : subcommandWords text = root :: ws
  fresh : typedWord text = []
  plain : (completePieces text).any Text.isDashLed = false

section AtPath

variable {root text : Text} {ws : List Text}

theorem atPath_root (hroot : IsWord root) (hplain : Text.isDashLed root = false) :
    AtPath root (root ++ [' ']) [] where
  words := by
    rw [subcommandWords_word hroot.nonempty hroot.solid (by rfl), hplain]
    rfl
  fresh := typedWord_concat_blank root (by rfl)
  plain := by
    rw [completePieces_concat_blank root (by rfl), completePieces_of_solid hroot.solid,
      typedWord_of_solid hroot.solid]
    simpa using hplain

/-- No parameter waits for a value, since none has been typed. -/
theorem AtPath.activeArgument_eq_none (h : AtPath root text ws) : activeArgument text = none :=
  activeArgument_of_plain h.plain

/-- Every name extends what is typed. -/
theorem AtPath.extends_typed (h : AtPath root text ws) (name : Text) : typedWord text <+: name := by
  rw [h.fresh]
  exact List.nil_prefix

theorem AtPath.isDashLed_words (h : AtPath root text ws) :
    ∀ w ∈ Text.words text, Text.isDashLed w = false := by
  have hany : (Text.words text).any Text.isDashLed = false := by
    rw [any_isDashLed_words, h.plain, h.fresh]
    rfl
  exact fun w hw => Bool.eq_false_iff.mpr (List.any_eq_false.mp hany w hw)

/-- A group or a command that is accepted lengthens the path by its name. -/
theorem AtPath.accept {c : Catalog} (h : AtPath root text ws) (hc : c.HasEvenKeys) {key : Text}
    {e : Entry} (hlisted : StandsFor c (Text.unwords ws) key e)
    (hname : Text.isDashLed e.name = false) (line : Text) (at_ : Position) :
    AtPath root (Editor.accept text (itemOf (resolveContext text line root) at_ e))
      (ws ++ [e.name]) := by
  have hnew := typedWord_append_newText hlisted.snippet (h.extends_typed e.name) line root at_
  obtain ⟨hwords, -⟩ := accept_child line at_ hc h.words hlisted (h.extends_typed e.name)
    h.isDashLed_words hname
  obtain ⟨hword, -⟩ :=
    (Catalog.childWord?_eq_some_iff (isWord_of_path h.words) (hlisted.isEven hc)).mp hlisted.below
  refine ⟨hwords, typedWord_concat_blank _ (by rfl), ?_⟩
  obtain ⟨hcomplete, htyped⟩ := pieces_append_solid text hword.solid
  rw [h.fresh, List.nil_append] at hnew
  rw [Editor.accept, hnew, completePieces_concat_blank _ (by rfl), hcomplete, htyped, h.fresh,
    List.any_append, h.plain]
  simpa using hname

/-- Behind a path without a command, the items are the groups and the commands one word below. -/
theorem AtPath.exists_offered {b : Backend} (h : AtPath root text ws)
    (hb : b.available ≠ some false) (hnames : b.catalog.HasNamedParameters)
    (hfree : Text.unwords ws ∉ b.catalog.commands.map Prod.fst) (at_ : Position) :
    ∃ shown, offered b root at_ text = .ok shown ∧
      (∀ key e, StandsFor b.catalog (Text.unwords ws) key e →
        itemOf (resolveContext text text root) at_ e ∈ shown) ∧
      ∀ i ∈ shown, i.kind = .group ∨ i.kind = .command → ∃ key e,
        StandsFor b.catalog (Text.unwords ws) key e ∧
          i = itemOf (resolveContext text text root) at_ e := by
  have hpath : Catalog.normalPath (Text.unwords ws) = Text.unwords ws := by
    rw [Catalog.normalPath, Text.words_unwords (isWord_of_path h.words)]
  have hrequest : completionRequest (resolveContext text text root) =
      some ⟨some (Text.unwords ws), none, arguments text⟩ := by
    rw [resolveContext_of_words h.words, h.activeArgument_eq_none]
    rfl
  obtain ⟨entries, hentries, hall⟩ := Catalog.exists_completions hnames
    (r := ⟨some (Text.unwords ws), none, arguments text⟩) rfl (by
      rw [Option.getD_some, hpath]
      exact lookup_eq_none hfree)
  rw [Option.getD_some, hpath] at hall
  have hanswer : b.completions ⟨some (Text.unwords ws), none, arguments text⟩ = .ok entries := by
    rw [Backend.completions, if_neg hb, hentries]
  refine ⟨items entries (resolveContext text text root) at_, ?_, fun key e hlisted => ?_,
    fun i hi hkind => ?_⟩
  · simp only [offered, hrequest, hanswer]
    rfl
  · have hextends := List.isPrefixOf_iff_prefix.mpr (h.extends_typed e.name)
    exact List.mem_map_of_mem (List.mem_filter.mpr ⟨hall key e hlisted, hextends⟩)
  · obtain ⟨e, he, rfl⟩ := List.mem_map.mp hi
    rw [kind_itemOf] at hkind
    obtain ⟨key, hlisted⟩ :=
      (origin_of_answer hanswer (List.mem_filter.mp he).1).exists_listed hkind
    rw [Option.getD_some, hpath] at hlisted
    exact ⟨key, e, hlisted, rfl⟩

end AtPath

/-! ## From the root word to a command -/

section Run

variable {b : Backend} {root key : Text} {place : Text → Position} {goal : Text → Prop}

/-- From every place on the way to a command, the remaining steps lead to it. -/
theorem AtPath.leadsTo (hc : b.catalog.HasEvenKeys) (hb : b.available ≠ some false)
    (hnames : b.catalog.HasNamedParameters) (hway : b.catalog.HasWay key)
    (hplain : ∀ w ∈ Text.words key, Text.isDashLed w = false)
    (hgoal : ∀ last, AtPath root last (Text.words key) → goal last) {text : Text}
    {ws rest : List Text} (hwords : ws ++ rest = Text.words key) (h : AtPath root text ws) :
    LeadsTo b root place goal text (stepsTo rest) := by
  -- on the words that remain; `AtPath` says what is known of the text behind each step
  induction rest generalizing text ws with
  | nil =>
    rw [List.append_nil] at hwords
    rw [hwords] at h
    exact hgoal text h
  | cons w rest ih =>
    have hfree : Text.unwords ws ∉ b.catalog.commands.map Prod.fst :=
      hway.free ws ⟨w :: rest, hwords⟩ (by rw [← hwords]; simp)
    have hw : Text.isDashLed w = false := by
      refine hplain w ?_
      rw [← hwords]
      exact List.mem_append_right ws List.mem_cons_self
    obtain ⟨shown, hshown, hall, honly⟩ := h.exists_offered hb hnames hfree (place text)
    obtain ⟨e, hlisted, hname, hkind⟩ := hway.exists_next hc hwords
    refine ⟨shown, hshown, ⟨_, hall _ e hlisted, (kind_itemOf _ _ e).trans hkind, hname⟩,
      fun i hi hsame hlabel => ?_⟩
    -- the item that is taken need not be that of `e`, but it has the same label
    rw [← hkind] at hsame
    obtain ⟨_, e', hlisted', rfl⟩ := honly i hi (by rw [hsame]; exact hlisted.kind)
    have hlabel : e'.name = w := hlabel
    have hnext := h.accept hc hlisted' (by rw [hlabel]; exact hw) text (place text)
    rw [hlabel] at hnext
    exact ih (by rw [← hwords]; simp) hnext

/-- Accepting the groups above a command and then the command leads from the root word to it. -/
theorem walk_to_command {source : Text} (hread : Catalog.parse source = .ok b.catalog)
    (hb : b.available ≠ some false) (hnames : b.catalog.HasNamedParameters)
    (hroot : IsWord root) (hplainRoot : Text.isDashLed root = false)
    (hway : b.catalog.HasWay key)
    (hplain : ∀ w ∈ Text.words key, Text.isDashLed w = false) (place : Text → Position) :
    LeadsTo b root place
      (fun last =>
        (resolveContext last last root).recognized = true ∧
          (resolveContext last last root).subcommandPath = key)
      (root ++ [' ']) (stepsTo (Text.words key)) := by
  have hc := Catalog.hasEvenKeys_of_parse hread
  refine (atPath_root hroot hplainRoot).leadsTo hc hb hnames hway hplain (fun last hlast => ?_)
    (List.nil_append _)
  rw [resolveContext_of_words hlast.words]
  exact ⟨rfl, hway.isEven hc⟩

end Run

/-- From a root word to a command below a group. -/
theorem walk_to_sample_command :
    LeadsTo sampleBackend "az".toList (fun text => ⟨0, text.length⟩)
      (fun last =>
        (resolveContext last last "az".toList).recognized = true ∧
          (resolveContext last last "az".toList).subcommandPath = "vm show".toList)
      "az ".toList [(.group, "vm".toList), (.command, "show".toList)] := by
  have hnames : sampleBackend.catalog.HasNamedParameters := by decide
  have hroot : IsWord "az".toList := by decide
  have hway : sampleBackend.catalog.HasWay "vm show".toList := by
    rw [Catalog.hasWay_iff]
    decide
  exact walk_to_command parse_sampleSource (by decide) hnames hroot (by decide) hway (by decide)
    fun text => ⟨0, text.length⟩

end LineAssist.Editor
