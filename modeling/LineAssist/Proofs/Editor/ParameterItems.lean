import LineAssist.Proofs.Catalog.Snippets
import LineAssist.Proofs.Editor.Acceptance
import LineAssist.Proofs.Line.Arguments

/-!
# Parameters that are offered

Behind the path of a command its parameters are offered, each under its first alias. What has been
supplied is told by the dash-led tokens of the whole line, on both sides of the cursor: a parameter
is left out as soon as one of its aliases stands there.
-/

namespace LineAssist.Catalog

/-- The first alias of a parameter; a parameter without aliases has none to show. -/
def shownName (key : Text) : Text :=
  (aliases key).headD []

theorem firstAlias_eq_ok_iff {key name : Text} :
    firstAlias key = .ok name ↔ aliases key ≠ [] ∧ shownName key = name := by
  rw [firstAlias, shownName]
  cases aliases key with
  | nil => exact ⟨nofun, fun h => absurd rfl h.1⟩
  | cons a more =>
    refine ⟨fun h => ⟨List.cons_ne_nil a more, Except.ok.inj h⟩, ?_⟩
    rintro ⟨-, rfl⟩
    rfl

theorem shownName_mem_aliases {key : Text} (h : aliases key ≠ []) :
    shownName key ∈ aliases key := by
  obtain ⟨a, more, haliases⟩ := List.exists_cons_of_ne_nil h
  rw [shownName, haliases]
  exact List.mem_cons_self

/-- Where all parameters have aliases, those that are not supplied are listed in their order. -/
theorem parameterEntries_eq {arguments : Line.Arguments} {parameters : List (Text × Parameter)}
    (h : ∀ p ∈ parameters, aliases p.1 ≠ []) :
    parameterEntries arguments parameters =
      .ok ((parameters.filter fun p => !(aliases p.1).any fun a => (lookup a arguments).isSome).map
        fun p => parameterEntry (shownName p.1) p.2) := by
  induction parameters with
  | nil => rfl
  | cons parameter rest ih =>
    obtain ⟨key, p⟩ := parameter
    obtain ⟨hkey, hrest⟩ := List.forall_mem_cons.mp h
    rw [parameterEntries, List.filter_cons]
    cases (aliases key).any fun a => (lookup a arguments).isSome with
    | true => exact ih hrest
    | false => exact ok_bind (firstAlias_eq_ok_iff.mpr ⟨hkey, rfl⟩) (ok_bind (ih hrest) rfl)

end LineAssist.Catalog

namespace LineAssist.Editor

open Catalog (Entry CompletionRequest aliases shownName parameterEntry)
open Line

/-- No alias of the parameter is the text of a dash-led token of the line. -/
def IsFree (line key : Text) : Prop :=
  ∀ a ∈ aliases key, ∀ t ∈ tokens line, t.isDash = true → t.text ≠ a

instance (line key : Text) : Decidable (IsFree line key) :=
  inferInstanceAs (Decidable (∀ a ∈ aliases key, ∀ t ∈ tokens line, _ → _))

theorem isFree_iff {line key : Text} : IsFree line key ↔
    (aliases key).any (fun a => (lookup a (arguments line)).isSome) = false := by
  simp only [List.any_eq_false, isSome_lookup_iff, mem_keys_arguments, not_exists, not_and, IsFree]

/-- The answer at the path of a command. -/
theorem completions_at_command {b : Backend} {d : CatalogCommand} {ws : List Text}
    (hpresent : b.available ≠ some false) (hws : ∀ w ∈ ws, Text.IsWord w)
    (hcommand : lookup (Text.unwords ws) b.catalog.commands = some d)
    (hnamed : ∀ p ∈ d.parameters, aliases p.1 ≠ []) (line : Text) :
    b.completions ⟨some (Text.unwords ws), none, arguments line⟩ =
      .ok ((d.parameters.filter fun p => IsFree line p.1).map
        fun p => parameterEntry (shownName p.1) p.2) := by
  have hfree : (fun p : Text × Parameter => decide (IsFree line p.1)) = fun p =>
      !(aliases p.1).any fun a => (lookup a (arguments line)).isSome := by
    funext p
    simp only [isFree_iff, Bool.decide_eq_false]
  have hpath : Catalog.normalPath (Text.unwords ws) = Text.unwords ws := by
    rw [Catalog.normalPath, Text.words_unwords hws]
  rw [hfree, ← Catalog.parameterEntries_eq hnamed, Backend.completions, if_neg hpresent,
    Catalog.completions, Option.getD_some, hpath, hcommand]
  rfl

section Items

variable {source line text root : Text} {b : Backend} {d : CatalogCommand}

/-- What is asked for behind the path of a command where no parameter waits for a value. -/
theorem request_of_recognized (hrecognized : (resolveContext text line root).recognized = true)
    (hactive : (resolveContext text line root).activeParameter = none) :
    ∃ ws, (∀ w ∈ ws, Text.IsWord w) ∧
      (resolveContext text line root).subcommandPath = Text.unwords ws ∧
      completionRequest (resolveContext text line root) =
        some ⟨some (Text.unwords ws), none, arguments line⟩ := by
  have hrequest : completionRequest (resolveContext text line root) =
      some ⟨some (resolveContext text line root).subcommandPath,
        (resolveContext text line root).activeParameter, arguments line⟩ :=
    if_pos hrecognized
  obtain ⟨ws, hws, hsame⟩ := completionRequest_eq_some hrequest
  obtain ⟨hpath, -, -⟩ := Catalog.CompletionRequest.mk.inj hsame
  have hpath := Option.some.inj hpath
  rw [hpath, hactive] at hrequest
  exact ⟨ws, isWord_of_path hws, hpath, hrequest⟩

/-- Behind the path of a command the items are those of its parameters, in their order, that no
dash-led token of the line supplies and whose first alias extends the typed word. -/
theorem parameter_items (hread : Catalog.parse source = .ok b.catalog)
    (hnamed : b.catalog.HasNamedParameters) (hpresent : b.available ≠ some false)
    (hrecognized : (resolveContext text line root).recognized = true)
    (hactive : (resolveContext text line root).activeParameter = none)
    (hcommand : lookup (resolveContext text line root).subcommandPath b.catalog.commands = some d)
    (at_ : Position) :
    let c := resolveContext text line root
    (d.parameters.map Prod.fst).Nodup ∧ ∃ r entries, completionRequest c = some r ∧
      b.completions r = .ok entries ∧
      items entries c at_ =
        (d.parameters.filter fun p =>
          IsFree line p.1 ∧ typedWord text <+: shownName p.1).map fun p =>
            itemOf c at_ (parameterEntry (shownName p.1) p.2) := by
  intro c
  obtain ⟨ws, hws, hpath, hrequest⟩ := request_of_recognized hrecognized hactive
  have hknown := mem_of_lookup hcommand
  have haliases : ∀ p ∈ d.parameters, aliases p.1 ≠ [] :=
    fun p hp => Catalog.aliases_ne_nil (hnamed _ hknown p hp)
  rw [hpath] at hcommand
  refine ⟨Catalog.nodup_parameters_of_parse hread _ hknown, _, _, hrequest,
    completions_at_command hpresent hws hcommand haliases line, ?_⟩
  rw [items, matching, List.filter_map, List.map_map, List.filter_filter]
  refine congrArg (List.map _) (List.filter_congr fun p _ => ?_)
  change ((typedWord text).isPrefixOf (shownName p.1) && decide (IsFree line p.1)) = _
  rw [Bool.eq_iff_iff, Bool.and_eq_true, List.isPrefixOf_iff_prefix, decide_eq_true_eq,
    decide_eq_true_eq, and_comm]

end Items

/-- The line names one parameter by its second alias, behind the cursor; the others are offered. -/
theorem parameter_items_of_machine :
    let b : Backend := ⟨Catalog.machine, "az".toList, none, false, none⟩
    let root := "az".toList
    let text := "az vm create --".toList
    let line := "az vm create -- -n x".toList
    let c := resolveContext text line root
    let at_ : Position := ⟨0, 15⟩
    let d : CatalogCommand := ⟨[], [], [("--name -n".toList, ⟨[], [], true⟩),
      ("--size".toList, ⟨[], [], false⟩), ("--image".toList, ⟨[], [], true⟩)]⟩
    Catalog.parse Catalog.machineSource = .ok b.catalog ∧ b.catalog.HasNamedParameters ∧
    b.available ≠ some false ∧ c.recognized = true ∧ c.activeParameter = none ∧
    lookup c.subcommandPath b.catalog.commands = some d ∧ (d.parameters.map Prod.fst).Nodup ∧
    ∃ r entries, completionRequest c = some r ∧ b.completions r = .ok entries ∧
      items entries c at_ =
        [⟨"--size".toList, .variableName, "--size".toList, "size".toList, ⟨at_, at_⟩, [' '], false,
            none, none⟩,
          ⟨"--image".toList, .variableName, "--image".toList, "image".toList, ⟨at_, at_⟩, [' '],
            false, some "required".toList, none⟩] := by
  intro b root text line c at_ d
  have hnamed : b.catalog.HasNamedParameters := by decide
  have hpresent : b.available ≠ some false := by decide
  have hrecognized : c.recognized = true := by decide
  have hactive : c.activeParameter = none := by decide
  have hcommand : lookup c.subcommandPath b.catalog.commands = some d := by decide
  obtain ⟨hdistinct, r, entries, hrequest, hanswer, hitems⟩ :=
    parameter_items Catalog.parse_machineSource hnamed hpresent hrecognized hactive hcommand at_
  refine ⟨Catalog.parse_machineSource, hnamed, hpresent, hrecognized, hactive, hcommand, hdistinct,
    r, entries, hrequest, hanswer, hitems.trans ?_⟩
  decide

end LineAssist.Editor
