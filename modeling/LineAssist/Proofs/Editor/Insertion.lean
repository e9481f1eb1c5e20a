import LineAssist.Proofs.Catalog.Snippets
import LineAssist.Proofs.Editor.Acceptance
import Mathlib.Data.List.DropRight
import Mathlib.Data.List.Forall2

/-!
# What an item inserts

An item inserts at the cursor what its entry stands for, less the typed word. Only entries whose
names extend the typed word are offered, and a snippet starts with the name of its entry, so the
typed word is always there to be left out: nothing that was typed is repeated or lost.
-/

namespace LineAssist.Editor

open Catalog (Entry CompletionRequest)
open Line
open Text (isBlank)

/-- The text without the run without white space at its end. -/
def untyped (t : Text) : Text :=
  t.rdropWhile fun c => !isBlank c

theorem untyped_append_typedWord (t : Text) : untyped t ++ typedWord t = t := by
  have hsolid {w : Text} (hw : ∀ c ∈ w, isBlank c = false) :
      ∀ c ∈ w.reverse, (!isBlank c) = true := by
    intro c hc
    rw [hw c (List.mem_reverse.mp hc)]
    rfl
  rcases Text.solid_or_cut t with ht | ⟨s, b, w, rfl, hb, hw⟩
  · rw [typedWord_of_solid ht, untyped, List.rdropWhile, List.dropWhile_eq_nil_iff.mpr (hsolid ht)]
    rfl
  · rw [typedWord_cut hb hw, untyped, List.rdropWhile, List.reverse_append, List.reverse_cons,
      List.append_assoc, List.singleton_append, List.dropWhile_append_of_pos (hsolid hw),
      List.dropWhile_cons_of_neg (by simp [hb])]
    simp

section Insert

variable {b : Backend} {r : CompletionRequest} {entries : List Entry} {e : Entry}

theorem insertText_eq (hsnippet : e.snippet ≠ some []) (c : Context) :
    insertText e c = trimTyped e.whole c := by
  rw [insertText, Entry.whole]
  cases hs : e.snippet with
  | none => rfl
  | some s =>
    cases s with
    | nil => exact absurd hs hsnippet
    | cons ch s => rfl

/-- What is inserted for an entry finishes the typed word to what the entry stands for. -/
theorem typedWord_append_insertText {text : Text} (line root : Text)
    (hsnippet : e.snippet ≠ some []) (hextends : typedWord text <+: e.whole) :
    typedWord text ++ insertText e (resolveContext text line root) = e.whole := by
  obtain ⟨rest, hrest⟩ := hextends
  rw [insertText_eq hsnippet, ← hrest]
  exact congrArg _ (trimTyped_append (resolveContext text line root) rest)

/-- An answer that is not empty is that of the catalog, and the tool is there. -/
theorem catalog_answer_of_mem (hanswer : b.completions r = .ok entries) (he : e ∈ entries) :
    b.available ≠ some false ∧ Catalog.completions b.catalog r = .ok entries := by
  unfold Backend.completions at hanswer
  split at hanswer
  case isTrue =>
    cases hanswer
    cases he
  case isFalse hpresent => exact ⟨hpresent, hanswer⟩

/-- Behind each item that is inserted stands the text with its typed word replaced by what the entry
of the item stands for. -/
theorem append_newText (hanswer : b.completions r = .ok entries) (text line root : Text)
    (at_ : Position) :
    let c := resolveContext text line root
    List.Forall₂ (fun e i => text ++ i.newText = untyped text ++ e.snippet.getD e.name)
      (matching entries c) (items entries c at_) := by
  intro c
  refine List.forall₂_map_right_iff.mpr (List.forall₂_same.mpr fun e he => ?_)
  obtain ⟨he, hextends⟩ := List.mem_filter.mp he
  have hextends : typedWord text <+: e.name := List.isPrefixOf_iff_prefix.mp hextends
  obtain ⟨hname, hsnippet⟩ :=
    Catalog.name_prefix_whole (catalog_answer_of_mem hanswer he).2 he
  have hwhole := typedWord_append_insertText line root hsnippet (hextends.trans hname)
  calc text ++ insertText e c
    _ = untyped text ++ (typedWord text ++ insertText e c) := by
      rw [← List.append_assoc, untyped_append_typedWord]
    _ = untyped text ++ e.whole := by rw [hwhole]

end Insert

/-- A command and its snippet behind a part of their name. -/
theorem append_newText_of_machine :
    let b : Backend := ⟨Catalog.machine, "az".toList, none, false, none⟩
    let r : CompletionRequest := ⟨some "vm".toList, none, []⟩
    let text := "az vm cr".toList
    let c := resolveContext text text "az".toList
    completionRequest c = some r ∧ b.completions r = .ok Catalog.machineEntries ∧
    untyped text = "az vm ".toList ∧
    (items Catalog.machineEntries c ⟨0, 8⟩).map Item.newText = ["eate".toList,
      "eate --name $\x7b1:name\x7d --image $\x7b2:image\x7d".toList] ∧
    List.Forall₂ (fun e i => text ++ i.newText = untyped text ++ e.snippet.getD e.name)
      (matching Catalog.machineEntries c) (items Catalog.machineEntries c ⟨0, 8⟩) := by
  intro b r text c
  have hanswer : b.completions r = .ok Catalog.machineEntries := Catalog.completions_machine
  exact ⟨by decide, hanswer, by decide, by decide,
    append_newText hanswer text text "az".toList ⟨0, 8⟩⟩

end LineAssist.Editor
