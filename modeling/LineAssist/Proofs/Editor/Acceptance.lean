import LineAssist.Backend
import LineAssist.Editor.Items
import LineAssist.Proofs.Catalog.Children
import LineAssist.Proofs.Line.Finishing

/-!
# Items that are accepted

An item is accepted with a space. The context behind the space is the one that the item promised:
the path of the group or the command, the parameter that waits for a value, or the value of the
parameter that waited for one.
-/

namespace LineAssist.Editor

open Catalog (Entry CompletionRequest EntryKind StandsFor Origin)
open Line
open Text (isBlank isQuote IsWord)

/-- The text behind an item that is accepted with a space. -/
def accept (text : Text) (i : Item) : Text :=
  text ++ i.newText ++ [' ']

/-- The kind of the entries that are shown like an item. -/
def Item.kind (i : Item) : EntryKind :=
  match i.symbol with
  | .moduleName => .group
  | .functionName => .command
  | .variableName => .parameterName
  | .enumMember => .parameterValue
  | .snippet => .snippet

/-- Entries of different kinds are shown differently. -/
theorem kind_itemOf (c : Context) (at_ : Position) (e : Entry) :
    (itemOf c at_ e).kind = e.kind := by
  unfold Item.kind itemOf
  cases e.kind <;> rfl

section Offer

variable {b : Backend} {root line text : Text} {r : CompletionRequest} {entries : List Entry}

/-- Where a line is recognized, its path is made of the words behind the root word. -/
theorem resolveContext_of_words {ws : List Text} (h : subcommandWords text = root :: ws)
    (line : Text) : resolveContext text line root =
      { subcommandPath := Text.unwords ws
        activeParameter := activeArgument text
        typed := typedWord text
        lead := (typedWord text).takeWhile (· == '-')
        arguments := arguments line
        recognized := true } := by
  simp [resolveContext, h]

theorem completionRequest_eq_some
    (h : completionRequest (resolveContext text line root) = some r) :
    ∃ ws, subcommandWords text = root :: ws ∧
      r = ⟨some (Text.unwords ws), activeArgument text, arguments line⟩ := by
  unfold completionRequest at h
  split at h
  case isTrue hrecognized =>
    have hhead : (subcommandWords text).head? = some root := by
      simpa [resolveContext] using hrecognized
    obtain ⟨ws, hws⟩ := List.head?_eq_some_iff.mp hhead
    rw [resolveContext_of_words hws] at h
    exact ⟨ws, hws, (Option.some.inj h).symm⟩
  case isFalse => cases h

theorem origin_of_answer (h : b.completions r = .ok entries) {e : Entry} (he : e ∈ entries) :
    Origin b.catalog r e := by
  unfold Backend.completions at h
  split at h
  case isTrue =>
    cases h
    cases he
  case isFalse => exact Catalog.origin_of_completions h he

theorem trimTyped_append (c : Context) (rest : Text) : trimTyped (c.typed ++ rest) c = rest := by
  rw [trimTyped, Text.stripStart?_append]
  dsimp only
  split
  case isTrue hnil => rw [List.isEmpty_iff.mp hnil, List.nil_append]
  case isFalse => rfl

/-- What an item without a snippet inserts finishes the typed word to its name. -/
theorem typedWord_append_newText {e : Entry} (hsnippet : e.snippet = none)
    (hextends : typedWord text <+: e.name) (line root : Text) (at_ : Position) :
    typedWord text ++ (itemOf (resolveContext text line root) at_ e).newText = e.name := by
  obtain ⟨rest, hrest⟩ := hextends
  have hnew : (itemOf (resolveContext text line root) at_ e).newText =
      trimTyped e.name (resolveContext text line root) := by
    rw [itemOf, insertText, hsnippet]
    rfl
  have htrim : trimTyped e.name (resolveContext text line root) = rest := by
    rw [← hrest]
    exact trimTyped_append (resolveContext text line root) rest
  rw [hnew, htrim, hrest]

end Offer

/-! ## The three kinds of items -/

section Kinds

variable {b : Backend} {root line text u : Text} {ws : List Text}

/-- A name that is no parameter is one more word of the path. -/
theorem finish_name (hws : subcommandWords text = root :: ws)
    (hplain : ∀ w ∈ Text.words text, Text.isDashLed w = false)
    (hword : IsWord (typedWord text ++ u)) (hname : Text.isDashLed (typedWord text ++ u) = false) :
    subcommandWords (text ++ u ++ [' ']) = root :: (ws ++ [typedWord text ++ u]) := by
  have hdash : ((completePieces text).any Text.isDashLed || (typedWord text).isDashLed) = false := by
    rw [← any_isDashLed_words, List.any_eq_false]
    exact fun w hw => Bool.eq_false_iff.mp (hplain w hw)
  obtain ⟨hcomplete, -⟩ := Bool.or_eq_false_iff.mp hdash
  have hsolid := (List.forall_mem_append.mp hword.solid).2
  rw [subcommandWords_finish hsolid hword.nonempty, if_neg, hws, List.cons_append]
  rw [hcomplete, hname]
  simp

/-- A parameter name leaves the path as it is and waits for its value. -/
theorem finish_parameter (hws : subcommandWords text = root :: ws)
    (hword : IsWord (typedWord text ++ u))
    (hparameter : isParameterWord (typedWord text ++ u) = true) :
    subcommandWords (text ++ u ++ [' ']) = root :: ws ∧
    activeArgument (text ++ u ++ [' ']) = some (typedWord text ++ u) ∧
    lookup (typedWord text ++ u) (arguments (text ++ u ++ [' '])) = some none := by
  have hsolid := (List.forall_mem_append.mp hword.solid).2
  have hcomplete : completePieces text ≠ [] := completePieces_ne_nil (by simp [hws])
  refine ⟨?_, ?_, arguments_finish_name hcomplete hword.solid hparameter⟩
  · rw [subcommandWords_finish hsolid hword.nonempty,
      if_pos (.inr (isParameterWord_iff.mp hparameter).1), hws]
  · rw [activeArgument_finish hsolid hword.nonempty, if_pos ⟨hparameter, hcomplete⟩]

/-- A value ends the parameter that waited for it. -/
theorem finish_value {a : Text} (hactive : activeArgument text = some a)
    (hword : IsWord (typedWord text ++ u)) (hplain : ∀ c ∈ typedWord text ++ u, isQuote c = false)
    (hvalue : Text.isDashLed (typedWord text ++ u) = false) :
    activeArgument (text ++ u ++ [' ']) = none ∧
    lookup a (arguments (text ++ u ++ [' '])) = some (some (typedWord text ++ u)) := by
  have hsolid := (List.forall_mem_append.mp hword.solid).2
  refine ⟨?_, arguments_finish_value hactive hword hplain hvalue⟩
  rw [activeArgument_finish hsolid hword.nonempty, if_neg]
  rintro ⟨hparameter, -⟩
  rw [(isParameterWord_iff.mp hparameter).1] at hvalue
  cases hvalue

end Kinds

/-! ## The context behind an item -/

section Accepted

variable {c : Catalog} {root text : Text} {ws : List Text} {e : Entry}
variable (line : Text) (at_ : Position)

theorem isWord_of_path (hws : subcommandWords text = root :: ws) : ∀ w ∈ ws, IsWord w := by
  intro w hw
  refine isWord_of_mem_subcommandWords (t := text) ?_
  rw [hws]
  exact List.mem_cons_of_mem root hw

/-- A group or a command leads to its own key, and to no other. -/
theorem accept_child (hc : c.HasEvenKeys) (hws : subcommandWords text = root :: ws) {key : Text}
    (hlisted : StandsFor c (Text.unwords ws) key e) (hextends : typedWord text <+: e.name)
    (hplain : ∀ w ∈ Text.words text, Text.isDashLed w = false)
    (hname : Text.isDashLed e.name = false) :
    let next := accept text (itemOf (resolveContext text line root) at_ e)
    subcommandWords next = root :: (ws ++ [e.name]) ∧
      ∀ key, StandsFor c (Text.unwords ws) key e ↔ key = Text.unwords (ws ++ [e.name]) := by
  have hkey {key : Text} (h : StandsFor c (Text.unwords ws) key e) :
      IsWord e.name ∧ key = Text.unwords (ws ++ [e.name]) :=
    (Catalog.childWord?_eq_some_iff (isWord_of_path hws) (h.isEven hc)).mp h.below
  have hnew := typedWord_append_newText hlisted.snippet hextends line root at_
  refine ⟨?_, fun key' => ⟨fun h => (hkey h).2, ?_⟩⟩
  · have hnext := finish_name hws hplain (by rw [hnew]; exact (hkey hlisted).1)
      (by rw [hnew]; exact hname)
    rw [hnew] at hnext
    exact hnext
  · rintro rfl
    rw [← (hkey hlisted).2]
    exact hlisted

theorem accept_parameter (hws : subcommandWords text = root :: ws) (hsnippet : e.snippet = none)
    (hextends : typedWord text <+: e.name) (hword : IsWord e.name)
    (hparameter : isParameterWord e.name = true) :
    let next := accept text (itemOf (resolveContext text line root) at_ e)
    subcommandWords next = root :: ws ∧ activeArgument next = some e.name ∧
      lookup e.name (arguments next) = some none := by
  have hnew := typedWord_append_newText hsnippet hextends line root at_
  have hnext := finish_parameter hws (by rw [hnew]; exact hword) (by rw [hnew]; exact hparameter)
  rw [hnew] at hnext
  exact hnext

theorem accept_value {a : Text} (hactive : activeArgument text = some a)
    (hsnippet : e.snippet = none) (hextends : typedWord text <+: e.name) (hword : IsWord e.name)
    (hplain : ∀ ch ∈ e.name, isQuote ch = false) (hvalue : Text.isDashLed e.name = false) :
    let next := accept text (itemOf (resolveContext text line root) at_ e)
    activeArgument next = none ∧ lookup a (arguments next) = some (some e.name) := by
  have hnew := typedWord_append_newText hsnippet hextends line root at_
  have hnext := finish_value hactive (by rw [hnew]; exact hword) (by rw [hnew]; exact hplain)
    (by rw [hnew]; exact hvalue)
  rw [hnew] at hnext
  exact hnext

end Accepted

/-- The context behind an accepted item. A group or a command leads to its own key, a parameter
waits for its value, and a value belongs to the parameter that waited. -/
theorem context_of_accepted {source : Text} {b : Backend}
    (hread : Catalog.parse source = .ok b.catalog) {root line text : Text} {r : CompletionRequest}
    {entries : List Entry} {at_ : Position} {i : Item}
    (hrequest : completionRequest (resolveContext text line root) = some r)
    (hanswer : b.completions r = .ok entries)
    (hi : i ∈ items entries (resolveContext text line root) at_) :
    let before := resolveContext text line root
    let after := resolveContext (accept text i) (accept text i) root
    (i.kind = .group ∨ i.kind = .command →
      (∀ w ∈ Text.words text, Text.isDashLed w = false) → Text.isDashLed i.label = false →
        after.recognized = true ∧ ∃ e ∈ entries, i = itemOf before at_ e ∧
          ∀ key, StandsFor b.catalog before.subcommandPath key e ↔ key = after.subcommandPath) ∧
    (i.kind = .parameterName →
      Text.isDashLed i.label = true → (∀ c ∈ i.label, isQuote c = false) →
        after.subcommandPath = before.subcommandPath ∧ after.activeParameter = some i.label ∧
          lookup i.label after.arguments = some none) ∧
    (i.kind = .parameterValue →
      IsWord i.label → (∀ c ∈ i.label, isQuote c = false) → Text.isDashLed i.label = false →
        after.activeParameter = none ∧ ∃ a, before.activeParameter = some a ∧
          lookup a after.arguments = some (some i.label)) := by
  intro before after
  obtain ⟨ws, hws, rfl⟩ := completionRequest_eq_some hrequest
  obtain ⟨e, he, rfl⟩ := List.mem_map.mp hi
  obtain ⟨he, hextends⟩ := List.mem_filter.mp he
  have hextends : typedWord text <+: e.name := List.isPrefixOf_iff_prefix.mp hextends
  have hpath : before.subcommandPath = Text.unwords ws :=
    congrArg Context.subcommandPath (resolveContext_of_words hws line)
  have horigin := origin_of_answer hanswer he
  rw [kind_itemOf]
  refine ⟨fun hkind hplain hname => ?_, fun hkind hdash hplain => ?_,
    fun hkind hword hplain hvalue => ?_⟩
  · obtain ⟨key, hlisted⟩ := horigin.exists_listed hkind
    rw [Option.getD_some, Catalog.normalPath, Text.words_unwords (isWord_of_path hws)] at hlisted
    obtain ⟨hnext, hkeys⟩ := accept_child line at_ (Catalog.hasEvenKeys_of_parse hread) hws hlisted
      hextends hplain hname
    have hafter : after = _ := resolveContext_of_words hnext _
    rw [hafter]
    refine ⟨rfl, e, he, rfl, ?_⟩
    rw [hpath]
    exact hkeys
  · obtain ⟨hword, hsnippet⟩ := horigin.isWord_of_parameter hkind
    obtain ⟨hnext, hactive, hvalue⟩ := accept_parameter line at_ hws hsnippet hextends hword
      (isParameterWord_iff.mpr ⟨hdash, hplain⟩)
    have hafter : after = _ := resolveContext_of_words hnext _
    rw [hafter, hpath]
    exact ⟨rfl, hactive, hvalue⟩
  · obtain ⟨⟨a, ha⟩, hsnippet⟩ := horigin.exists_argument hkind
    obtain ⟨hactive, hargument⟩ := accept_value line at_ ha hsnippet hextends hword hplain hvalue
    exact ⟨hactive, a, ha, hargument⟩

/-! ## A small catalog -/

def sampleSource : Text :=
  "groups:\n vm:\ncommands:\n vm show:\n  parameters:\n   --name -n:\n    options: [small]".toList

def sample : Catalog where
  groups := [("vm".toList, ⟨[], []⟩)]
  commands :=
    [("vm show".toList, ⟨[], [], [("--name -n".toList, ⟨[], ["small".toList], false⟩)]⟩)]

theorem parse_sampleSource : Catalog.parse sampleSource = .ok sample :=
  ok_of_toOption (by decide +kernel)

def sampleBackend : Backend :=
  ⟨sample, "az".toList, none, false, none⟩

/-- A command behind a part of its name, and a value behind a quote that is never closed. -/
theorem context_of_accepted_sample :
    let root := "az".toList
    let context (text : Text) := resolveContext text text root
    let show_ : Item := ⟨"show".toList, .functionName, "show".toList, "ow".toList,
      ⟨⟨0, 8⟩, ⟨0, 8⟩⟩, [' '], false, none, none⟩
    let small : Item := ⟨"small".toList, .enumMember, "small".toList, "mall".toList,
      ⟨⟨0, 9⟩, ⟨0, 9⟩⟩, [' '], false, none, none⟩
    let path := "az vm sh".toList
    let line := "az vm show --tag \"x --name s".toList
    Catalog.parse sampleSource = .ok sampleBackend.catalog ∧
    (∃ r entries, completionRequest (context path) = some r ∧
      sampleBackend.completions r = .ok entries ∧ show_ ∈ items entries (context path) ⟨0, 8⟩ ∧
      (context (accept path show_)).recognized = true ∧
      (context (accept path show_)).subcommandPath = "vm show".toList) ∧
    (∃ r entries, completionRequest (context line) = some r ∧
      sampleBackend.completions r = .ok entries ∧ small ∈ items entries (context line) ⟨0, 9⟩ ∧
      (context (accept line small)).activeParameter = none ∧
      ∃ a, (context line).activeParameter = some a ∧
        lookup a (context (accept line small)).arguments = some (some "small".toList)) := by
  intro root context show_ small path line
  refine ⟨parse_sampleSource, ?_, ?_⟩
  · have hrequest : completionRequest (context path) =
        some ⟨some "vm".toList, none, []⟩ := by decide
    have hanswer : sampleBackend.completions ⟨some "vm".toList, none, []⟩ =
        .ok [⟨"show".toList, .command, none, none, none⟩] := ok_of_toOption (by decide +kernel)
    have hitem : show_ ∈ items [⟨"show".toList, .command, none, none, none⟩] (context path)
        ⟨0, 8⟩ := by decide
    obtain ⟨hrecognized, e, he, -, hkeys⟩ :=
      (context_of_accepted parse_sampleSource hrequest hanswer hitem).1 (.inr rfl) (by decide)
        (by decide)
    have hpath : (context path).subcommandPath = "vm".toList := by decide
    have hbelow : Catalog.childWord? "vm".toList "vm show".toList = some "show".toList := by decide
    have hknown : ("vm show".toList, ⟨[], [], [("--name -n".toList, ⟨[], ["small".toList],
        false⟩)]⟩) ∈ sampleBackend.catalog.commands := List.mem_singleton_self _
    have hkey : "vm show".toList = (context (accept path show_)).subcommandPath := by
      refine (hkeys _).mp ?_
      rw [hpath, List.mem_singleton.mp he]
      exact .command hknown hbelow
    exact ⟨_, _, hrequest, hanswer, hitem, hrecognized, hkey.symm⟩
  · have hrequest : completionRequest (context line) = some ⟨some "vm show".toList,
        some "--name".toList,
        [("--tag".toList, some "\"x".toList), ("--name".toList, some "s".toList)]⟩ := by decide
    have hanswer : sampleBackend.completions ⟨some "vm show".toList, some "--name".toList,
        [("--tag".toList, some "\"x".toList), ("--name".toList, some "s".toList)]⟩ =
        .ok [Catalog.valueEntry "small".toList] := by rfl
    have hitem : small ∈ items [Catalog.valueEntry "small".toList] (context line) ⟨0, 9⟩ := by
      decide
    have hword : IsWord small.label := by decide
    have hplain : ∀ c ∈ small.label, isQuote c = false := by
      have hall : small.label.all (fun c => !isQuote c) = true := by decide
      simpa using hall
    exact ⟨_, _, hrequest, hanswer, hitem,
      (context_of_accepted parse_sampleSource hrequest hanswer hitem).2.2 rfl hword hplain
        (by decide)⟩

end LineAssist.Editor
