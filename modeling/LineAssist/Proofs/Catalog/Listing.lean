import LineAssist.Backend
import LineAssist.Proofs.Catalog.Children
import Mathlib.Data.Char
import Mathlib.Data.List.Forall2
import Mathlib.Data.List.Lex

/-!
# What is listed below a path

Below a path stand the groups and then the commands whose words are those of the path and one word
more. Each of them is listed once, in the order of the keys, and a command that requires parameters
is followed by its snippet.
-/

namespace LineAssist.Catalog

open Text (IsWord IsEven)

/-! ## The order of keys -/

theorem before_iff_lt (s t : Text) : Text.before s t = true ↔ s < t := by
  induction s generalizing t with
  | nil => cases t <;> simp [Text.before]
  | cons a s ih =>
    cases t with
    | nil => simp [Text.before]
    | cons b t =>
      rw [Text.before, List.cons_lt_cons_iff]
      split
      case isTrue h =>
        subst h
        simp [ih]
      case isFalse h =>
        simp only [h, false_and, or_false, decide_eq_true_eq]
        rfl

theorem not_before_iff_le (s t : Text) : (!Text.before t s) = true ↔ s ≤ t := by
  rw [Bool.not_eq_true', ← Bool.not_eq_true, before_iff_lt, not_lt]

section Sorting

variable {α : Type} {entries : List (Text × α)}

theorem pairwise_sortedByKey (entries : List (Text × α)) :
    (sortedByKey entries).Pairwise fun a b => a.1 ≤ b.1 := by
  have htrans (a b c : Text × α) (hab : (!Text.before b.1 a.1) = true)
      (hbc : (!Text.before c.1 b.1) = true) : (!Text.before c.1 a.1) = true := by
    rw [not_before_iff_le] at hab hbc ⊢
    exact le_trans hab hbc
  have htotal (a b : Text × α) : (!Text.before b.1 a.1 || !Text.before a.1 b.1) = true := by
    rw [Bool.or_eq_true, not_before_iff_le, not_before_iff_le]
    exact le_total a.1 b.1
  exact (List.pairwise_mergeSort htrans htotal entries).imp fun h => (not_before_iff_le _ _).mp h

/-- Where no key is there twice, each comes before the next one. -/
theorem strict_sortedByKey (h : (entries.map Prod.fst).Nodup) :
    (sortedByKey entries).Pairwise fun a b => Text.before a.1 b.1 = true := by
  have hperm : (sortedByKey entries).Perm entries := List.mergeSort_perm entries _
  have hnodup : ((sortedByKey entries).map Prod.fst).Nodup := (hperm.map Prod.fst).nodup_iff.mpr h
  have hdistinct : (sortedByKey entries).Pairwise fun a b => a.1 ≠ b.1 :=
    List.pairwise_map.mp hnodup
  refine (pairwise_sortedByKey entries).imp₂ ?_ hdistinct
  intro a b hle hne
  exact (before_iff_lt _ _).mpr (lt_of_le_of_ne hle hne)

end Sorting

/-! ## Children -/

/-- A group or a command with its key and the last word of that. -/
structure Child (α : Type) where
  key : Text
  word : Text
  value : α
  deriving DecidableEq, Repr

def childrenOf {α : Type} (path : Text) (section_ : List (Text × α)) : List (Child α) :=
  (sortedByKey section_).filterMap fun (key, value) =>
    (childWord? path key).map fun word => ⟨key, word, value⟩

/-- The children are those entries of a section whose words are the path and one word more, in the
order of their keys. -/
structure AreChildren {α : Type} (section_ : List (Text × α)) (path : List Text)
    (children : List (Child α)) : Prop where
  mem_iff : ∀ child, child ∈ children ↔
    (child.key, child.value) ∈ section_ ∧ Text.words child.key = path ++ [child.word]
  ordered : children.Pairwise fun a b => Text.before a.key b.key = true

section Children

variable {α : Type} {section_ : List (Text × α)} {ws : List Text}

theorem childWord?_eq_some_iff_words (hws : ∀ v ∈ ws, v.IsWord) {key w : Text}
    (hkey : key.IsEven) : childWord? (Text.unwords ws) key = some w ↔
      Text.words key = ws ++ [w] := by
  rw [childWord?_eq_some_iff hws hkey]
  constructor
  · rintro ⟨hw, rfl⟩
    exact Text.words_unwords (List.forall_mem_append.mpr ⟨hws, List.forall_mem_singleton.mpr hw⟩)
  · intro hwords
    have hmem : w ∈ Text.words key := by
      rw [hwords]
      exact List.mem_concat_self
    refine ⟨Text.isWord_of_mem_words hmem, ?_⟩
    rw [← hwords]
    exact hkey.symm

theorem mem_childrenOf {path : Text} {child : Child α} : child ∈ childrenOf path section_ ↔
    (child.key, child.value) ∈ section_ ∧ childWord? path child.key = some child.word := by
  simp only [childrenOf, List.mem_filterMap, mem_sortedByKey, Option.map_eq_some_iff]
  constructor
  · rintro ⟨⟨key, value⟩, hknown, word, hbelow, rfl⟩
    exact ⟨hknown, hbelow⟩
  · rintro ⟨hknown, hbelow⟩
    exact ⟨_, hknown, _, hbelow, rfl⟩

theorem areChildren_childrenOf (heven : ∀ entry ∈ section_, Text.IsEven entry.1)
    (hdistinct : (section_.map Prod.fst).Nodup) (hws : ∀ v ∈ ws, v.IsWord) :
    AreChildren section_ ws (childrenOf (Text.unwords ws) section_) where
  mem_iff := by
    intro child
    rw [mem_childrenOf]
    refine and_congr_right fun hknown => ?_
    exact childWord?_eq_some_iff_words hws (heven _ hknown)
  ordered := by
    refine (strict_sortedByKey hdistinct).filterMap _ ?_
    intro a b hbefore child hchild child' hchild'
    obtain ⟨_, _, rfl⟩ := Option.map_eq_some_iff.mp hchild
    obtain ⟨_, _, rfl⟩ := Option.map_eq_some_iff.mp hchild'
    exact hbefore

end Children

/-! ## Entries of children -/

def groupEntry (child : Child CommandGroup) : Entry :=
  ⟨child.word, .group, none, nonEmpty child.value.summary, none⟩

def commandEntry (child : Child CatalogCommand) : Entry :=
  ⟨child.word, .command, none, nonEmpty child.value.summary, none⟩

def snippetEntry (child : Child CatalogCommand) (snippet : Text) : Entry :=
  ⟨child.word, .snippet, some "with required parameters".toList, nonEmpty child.value.summary,
    some snippet⟩

/-- A command is listed with its own entry, and with a snippet when it requires a parameter. -/
inductive ListedAs (child : Child CatalogCommand) : List Entry → Prop
  | alone (free : ∀ p ∈ child.value.parameters, p.2.required = false) :
      ListedAs child [commandEntry child]
  | withSnippet {snippet : Text} (requires : ∃ p ∈ child.value.parameters, p.2.required = true) :
      ListedAs child [commandEntry child, snippetEntry child snippet]

theorem required_of_snippet? {word : Text} {d : CatalogCommand} {snippet : Option Text}
    (h : snippet? word d = .ok snippet) :
    snippet.isSome = true ↔ ∃ p ∈ d.parameters, p.2.required = true := by
  unfold snippet? at h
  split at h
  case h_1 hnone =>
    cases h
    have hfree := List.filter_eq_nil_iff.mp hnone
    refine ⟨nofun, ?_⟩
    rintro ⟨p, hp, hrequired⟩
    exact absurd hrequired (hfree p hp)
  case h_2 hsome =>
    obtain ⟨names, -, h⟩ := ok_of_bind h
    cases h
    obtain ⟨p, hp⟩ := List.exists_mem_of_ne_nil _ hsome
    obtain ⟨hp, hrequired⟩ := List.mem_filter.mp hp
    exact ⟨fun _ => ⟨p, hp, hrequired⟩, fun _ => rfl⟩

theorem listedAs_of_commandEntries {child : Child CatalogCommand} {entries : List Entry}
    (h : commandEntries child.word child.value = .ok entries) : ListedAs child entries := by
  obtain ⟨snippet, hsnippet, h⟩ := ok_of_bind h
  have hrequired := required_of_snippet? hsnippet
  cases snippet with
  | none =>
    cases h
    refine .alone fun p hp => ?_
    rw [← Bool.not_eq_true]
    intro hp'
    exact absurd (hrequired.mpr ⟨p, hp, hp'⟩) Bool.false_ne_true
  | some s =>
    cases h
    exact .withSnippet (hrequired.mp rfl)

theorem groupChildren_eq (c : Catalog) (path : Text) :
    groupChildren c path = (childrenOf path c.groups).map groupEntry := by
  simp only [groupChildren, childrenOf, List.map_filterMap, Option.map_map]
  rfl

theorem commandChildren_eq (c : Catalog) (path : Text) :
    commandChildren c path = (do
      let lists ← (childrenOf path c.commands).mapM fun child =>
        commandEntries child.word child.value
      .ok lists.flatten) := by
  have hpairs : ((sortedByKey c.commands).filterMap fun entry =>
      (childWord? path entry.1).map fun word => (word, entry.2)) =
        (childrenOf path c.commands).map fun child => (child.word, child.value) := by
    simp only [childrenOf, List.map_filterMap, Option.map_map]
    rfl
  rw [commandChildren, hpairs, List.mapM_map]
  rfl

/-! ## The answer -/

theorem bind_nonEmpty_eq_none {argument : Option Text} :
    argument.bind nonEmpty = none ↔ argument.getD [] = [] := by
  cases argument with
  | none => exact ⟨fun _ => rfl, fun _ => rfl⟩
  | some t => cases t <;> simp [nonEmpty]

/-- Where no command has the path, its children are listed: first the groups, then each command
with its snippet. -/
theorem completions_list_children {source : Text} {b : Backend}
    (hread : Catalog.parse source = .ok b.catalog) (hnamed : b.catalog.HasNamedParameters)
    (hpresent : b.available ≠ some false) {r : CompletionRequest}
    (hargument : r.argument.getD [] = [])
    (hpath : normalPath (r.subcommand.getD []) ∉ b.catalog.commands.map Prod.fst) :
    ∃ groups commands lists,
      AreChildren b.catalog.groups (Text.words (r.subcommand.getD [])) groups ∧
      AreChildren b.catalog.commands (Text.words (r.subcommand.getD [])) commands ∧
      List.Forall₂ ListedAs commands lists ∧
      b.completions r = .ok (groups.map groupEntry ++ lists.flatten) := by
  obtain ⟨heven, hdistinct⟩ := keys_of_parse hread
  have hwords : ∀ v ∈ Text.words (r.subcommand.getD []), v.IsWord :=
    fun v => Text.isWord_of_mem_words
  obtain ⟨entries, hentries, -⟩ :=
    exists_commandChildren hnamed (normalPath (r.subcommand.getD []))
  have hchildren := hentries
  rw [commandChildren_eq] at hchildren
  obtain ⟨lists, hlists, hflat⟩ := ok_of_bind hchildren
  cases hflat
  refine ⟨_, _, lists, areChildren_childrenOf heven.groups hdistinct.groups hwords,
    areChildren_childrenOf heven.commands hdistinct.commands hwords, ?_, ?_⟩
  · exact (forall₂_of_mapM hlists).imp fun _ _ => listedAs_of_commandEntries
  · rw [Backend.completions, if_neg hpresent, completions, bind_nonEmpty_eq_none.mpr hargument,
      lookup_eq_none hpath]
    dsimp only
    rw [childEntries, groupChildren_eq, hentries]
    rfl

def treeSource : Text :=
  ("groups:\n vm disk:\ncommands:\n vmss list:\n vm list:\n" ++
    " vm create: \x7bparameters: \x7b--name: \x7brequired: true\x7d\x7d\x7d").toList

def tree : Catalog where
  groups := [("vm disk".toList, ⟨[], []⟩)]
  commands :=
    [("vmss list".toList, ⟨[], [], []⟩), ("vm list".toList, ⟨[], [], []⟩),
      ("vm create".toList, ⟨[], [], [("--name".toList, ⟨[], [], true⟩)]⟩)]

theorem parse_treeSource : Catalog.parse treeSource = .ok tree :=
  ok_of_toOption (by decide +kernel)

/-- One group and two commands stand below the path, one of these with a snippet. -/
theorem completions_of_tree :
    let b : Backend := ⟨tree, "az".toList, none, false, none⟩
    let r : CompletionRequest := ⟨some " vm".toList, none, []⟩
    Catalog.parse treeSource = .ok b.catalog ∧ b.catalog.HasNamedParameters ∧
    b.available ≠ some false ∧ r.argument.getD [] = [] ∧
    normalPath (r.subcommand.getD []) ∉ b.catalog.commands.map Prod.fst ∧
    ∃ groups commands lists,
      AreChildren b.catalog.groups (Text.words (r.subcommand.getD [])) groups ∧
      AreChildren b.catalog.commands (Text.words (r.subcommand.getD [])) commands ∧
      List.Forall₂ ListedAs commands lists ∧
      b.completions r = .ok (groups.map groupEntry ++ lists.flatten) := by
  intro b r
  have hnamed : b.catalog.HasNamedParameters := by decide
  have hpresent : b.available ≠ some false := by decide
  have hpath : normalPath (r.subcommand.getD []) ∉ b.catalog.commands.map Prod.fst := by decide
  exact ⟨parse_treeSource, hnamed, hpresent, rfl, hpath,
    completions_list_children parse_treeSource hnamed hpresent rfl hpath⟩

end LineAssist.Catalog
