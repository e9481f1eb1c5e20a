import LineAssist.Proofs.Json.RoundTrip
import LineAssist.Proofs.LiveResult.View

/-!
# Values that a command prints

A command prints a value with some indent of its own, and a live result writes values with another
one. Neither changes the value: the run takes it as its result, and a text that shows the whole
result later reads as the value again. This asks for a value that nests no deeper than the stack of
the live result has room for; with a deeper one the run fails, and there is no result.
-/

namespace LineAssist.LiveResult

variable {printer codec : Json.Codec} {s : State} {v : Json} {given : Execution}

/-- The value is the result, and a toggle shows the whole of it while no query is cached. -/
structure State.Holds (s : State) (codec : Json.Codec) (v : Json) : Prop where
  hasResult : s.hasResult = true
  parsedResult : s.parsedResult = v
  toggled : s.queryExpression = none → ∀ view, s.sideView = some view →
    ∃ t, (s.edit codec .toggle).2.write = some (view, t) ∧ codec.read t = .ok v

theorem holds_of_rendered (hv : v.IsExact) (hfits : v.fits codec.levels = true)
    (hresult : s.hasResult = true) (hvalue : s.parsedResult = v) (hphase : s.phase = .rendered) :
    s.Holds codec v := by
  have hread : codec.read (Json.write (.indented codec.indent) v) = .ok v :=
    (Json.readWithin_write codec.indent codec.levels hv).trans (if_pos hfits)
  refine ⟨hresult, hvalue, fun hquery view hview => ⟨_, ?_, hread⟩⟩
  subst hvalue
  simp only [State.edit, if_pos hphase]
  exact rendering_of_read hread hresult (activeQuery_of_none hquery) hview

theorem json?_of_printed (hv : v.IsExact) (hfits : v.fits codec.levels = true)
    (hok : given.ok = true) (hprinted : printer.write? v = some given.stdout) :
    given.json? codec = some v :=
  json?_eq_some.mpr ⟨hok, (Json.Codec.read_of_write? codec hv hprinted).trans (if_pos hfits)⟩

theorem overflows_of_printed (hv : v.IsExact) (hdeep : v.fits codec.levels = false)
    (hok : given.ok = true) (hprinted : printer.write? v = some given.stdout) :
    given.overflows codec = true := by
  have hread := Json.Codec.read_of_write? codec hv hprinted
  rw [hdeep] at hread
  exact overflows_iff.mpr ⟨hok, hread⟩

/-- A run on an open view goes to its end if its execution gives an answer. -/
theorem noting_run_open {σ : Type} {w : Surroundings σ} (works : w.ViewWorks)
    (codec : Json.Codec) {around : σ} {line : Text} {view : Handle} (hopen : s.sideView = some view)
    (hexecuted : ∀ placed, w.write around view (placeholder line) = (placed, .ok ()) →
      ∃ next, w.execute placed line = (next, .ok given)) (noted : List (Handle × Text)) : ∃ next,
      w.noting.run codec (around, noted) s line =
        ((next, (view, contentOf codec given) :: (view, placeholder line) :: noted),
          (s.showing codec line view given).conclude codec given) := by
  obtain ⟨placed, hplaced⟩ := works.writes around view (placeholder line)
  obtain ⟨executed, hexecuted⟩ := hexecuted placed hplaced
  simp only [Surroundings.run, begin, hopen]
  exact noting_drive_shown works codec 1 noted hplaced hexecuted

/-- A command that succeeds and prints a value with any indent makes it the result of its run, if
the value nests no deeper than there is room for. A run on an open view gets there by itself and
leaves no query, and a toggle then writes a text of the same value. A run that overlaps with other
runs and edits ends so as well, whatever they did. -/
theorem printed_value_is_kept (hv : v.IsExact) (printer codec : Json.Codec)
    (hfits : v.fits codec.levels = true) (hok : given.ok = true)
    (hprinted : printer.write? v = some given.stdout) :
    (∀ {σ : Type} {w : Surroundings σ}, w.ViewWorks → ∀ (around : σ)
      (noted : List (Handle × Text)) (s : State) (line : Text) (view : Handle),
      s.sideView = some view →
      (∀ placed, w.write around view (placeholder line) = (placed, .ok ()) →
        ∃ next, w.execute placed line = (next, .ok given)) →
      let shown := (view, given.stdout) :: (view, placeholder line) :: noted
      ∃ ran toggled s' effect t,
        w.noting.run codec (around, noted) s line = ((ran, shown), s', .done) ∧
        s'.Holds codec v ∧ s'.queryExpression = none ∧ s'.sideView = some view ∧
        w.noting.edit codec (ran, shown) s' .toggle =
          ((toggled, (view, t) :: shown), { s' with queryEnabled := !s.queryEnabled }, effect,
            .ok ()) ∧
        codec.read t = .ok v) ∧
    (∀ (sc : Scene) (place : Nat) (line : Text) (view : Handle),
      sc.WaitsAt place ⟨line, .showing view given⟩ →
      let ended := sc.after codec (.answer place ⟨line, .showing view given⟩ (.ok ()))
      ended.runs[place]? = some .done ∧ ended.state.Holds codec v) := by
  have hjson := json?_of_printed hv hfits hok hprinted
  constructor
  · intro σ w works around noted s line view hopen hexecuted shown
    obtain ⟨ran, hrun⟩ := noting_run_open works codec hopen hexecuted noted
    rw [conclude_of_json hjson, show contentOf codec given = given.stdout from if_pos hok] at hrun
    have hholds := holds_of_rendered (s := { s.showing codec line view given with
      parsedResult := v, hasResult := true, phase := .rendered }) hv hfits rfl rfl rfl
    obtain ⟨t, hwrite, hread⟩ := hholds.toggled rfl view rfl
    obtain ⟨toggled, htoggle⟩ := noting_edit works codec ran shown
      { s.showing codec line view given with
        parsedResult := v, hasResult := true, phase := .rendered } .toggle
    rw [hwrite] at htoggle
    exact ⟨ran, toggled, _, _, t, hrun, hholds, rfl, rfl, htoggle, hread⟩
  · intro sc place line view hwaits ended
    have hplace : place < sc.runs.length := (List.getElem?_eq_some_iff.mp hwaits).1
    have hended : ended = ⟨(sc.state.conclude codec given).1,
        sc.runs.set place (sc.state.conclude codec given).2⟩ := rfl
    rw [hended, conclude_of_json hjson]
    exact ⟨List.getElem?_set_self hplace, holds_of_rendered hv hfits rfl rfl rfl⟩

/-- An object with its keys out of order and a text with escapes is printed on one line. -/
theorem printed_object_is_kept :
    let v : Json := .obj [("b".toList, .arr [.int (-20), .str "é\n\"".toList, .obj []]),
      ("a".toList, .bool true)]
    let printer : Json.Codec := ⟨none, none⟩
    let codec : Json.Codec := ⟨some 2, some 3⟩
    let given : Execution := ⟨true, Json.write (.indented none) v, [], 0⟩
    let s : State := { State.initial false with sideView := some "view-1".toList }
    let w := Surroundings.steady "view-1".toList given
    let r := w.noting.run codec ((), []) s "show".toList
    v.IsExact ∧ v.fits codec.levels = true ∧ printer.write? v = some given.stdout ∧
    r.2.2 = .done ∧ r.2.1.Holds codec v := by
  intro v printer codec given s w r
  have hv : v.IsExact := by
    refine .obj (by decide) (List.forall_mem_cons.mpr ⟨.arr ?_, ?_⟩)
    · simp only [List.mem_cons, List.not_mem_nil, or_false, forall_eq_or_imp, forall_eq]
      exact ⟨.int (by decide +kernel), .str _, .obj List.nodup_nil nofun⟩
    · exact List.forall_mem_singleton.mpr (.bool true)
  have hfits : v.fits codec.levels = true := rfl
  have hprinted : printer.write? v = some given.stdout :=
    Json.Codec.write?_of_exact hv (Json.fits_none v)
  obtain ⟨_, _, s', _, _, hrun, hholds, -⟩ :=
    (printed_value_is_kept hv printer codec hfits rfl hprinted).1
      (steady_works "view-1".toList given) () [] s "show".toList "view-1".toList rfl
      fun _ _ => ⟨(), rfl⟩
  have hr : r = _ := hrun
  rw [hr]
  exact ⟨hv, hfits, hprinted, rfl, hholds⟩

/-! ## Values that nest too deep -/

/-- A run on an open view that prints a value for which there is not room fails with the output in
the view, and there is no result. -/
theorem deep_value_ends_run {σ : Type} {w : Surroundings σ} (works : w.ViewWorks)
    (hv : v.IsExact) (hdeep : v.fits codec.levels = false) (hok : given.ok = true)
    (hprinted : printer.write? v = some given.stdout) {around : σ} {view : Handle}
    (noted : List (Handle × Text)) (line : Text) (hopen : s.sideView = some view)
    (hexecuted : ∀ placed, w.write around view (placeholder line) = (placed, .ok ()) →
      ∃ next, w.execute placed line = (next, .ok given)) :
    ∃ next s', w.noting.run codec (around, noted) s line =
        ((next, (view, given.stdout) :: (view, placeholder line) :: noted), s', .failed .nesting) ∧
      s'.hasResult = false ∧ s'.phase = .failed := by
  obtain ⟨next, hrun⟩ := noting_run_open works codec hopen hexecuted noted
  have hover := overflows_of_printed hv hdeep hok hprinted
  rw [conclude_eq, if_pos hover, show contentOf codec given = given.stdout from if_pos hok] at hrun
  exact ⟨next, _, hrun, rfl, rfl⟩

/-- An empty array inside of a number of other arrays. -/
def nested : Nat → Json
  | 0 => .arr []
  | n + 1 => .arr [nested n]

theorem depth_nested (n : Nat) : (nested n).depth = n + 1 := by
  induction n with
  | zero => rfl
  | succ n ih => rw [nested, Json.depth, Json.itemsDepth, ih, Json.itemsDepth, Nat.max_zero]

theorem isExact_nested (n : Nat) : (nested n).IsExact := by
  induction n with
  | zero => exact .arr nofun
  | succ n ih => exact .arr (List.forall_mem_singleton.mpr ih)

/-- A thousand arrays, one inside of the other, are printed on one line. -/
theorem nested_arrays_are_not_kept :
    let v := nested 999
    let printer : Json.Codec := ⟨none, none⟩
    let given : Execution := ⟨true, Json.write (.indented none) v, [], 0⟩
    let s : State := { State.initial false with sideView := some "view-1".toList }
    let w := Surroundings.steady "view-1".toList given
    let r := w.noting.run .usual ((), []) s "show".toList
    v.IsExact ∧ printer.write? v = some given.stdout ∧
    r.2.2 = .failed .nesting ∧ r.2.1.hasResult = false := by
  intro v printer given s w r
  have hprinted : printer.write? v = some given.stdout :=
    Json.Codec.write?_of_exact (isExact_nested 999) (Json.fits_none v)
  have hdeep : v.fits Json.Codec.usual.levels = false := by
    rw [Bool.eq_false_iff, ne_eq, Json.Codec.usual, Json.fits_some, depth_nested]
    decide
  have hopen : s.sideView = some "view-1".toList := rfl
  obtain ⟨_, s', hrun, hresult, -⟩ := deep_value_ends_run (steady_works "view-1".toList given)
    (isExact_nested 999) hdeep rfl hprinted [] "show".toList hopen fun _ _ => ⟨(), rfl⟩
  have hr : r = _ := hrun
  rw [hr]
  exact ⟨isExact_nested 999, hprinted, rfl, hresult⟩

end LineAssist.LiveResult
