import LineAssist.Proofs.LiveResult.Openings
import LineAssist.Proofs.LiveResult.View

/-!
# A query that is written while a run waits

An edit in the middle of a run has no result to be applied to, and the run ends with its output as
it was printed, whatever has been written meanwhile. The query is kept beside the result and comes
to apply with the next rendering.
-/

namespace LineAssist.LiveResult

variable {codec : Json.Codec} {live : Bool} {history : List Event} {sc : Scene}

/-! ## The newest query -/

/-- The query that an event writes. -/
def Event.query? : Event → Option (Option Text)
  | .edit (.query q) => some q
  | .edit (.line text) => some (Line.extractQuery text)
  | _ => none

/-- The query that was written last since the last start. -/
def lastQuery (history : List Event) : Option Text :=
  ((sinceStart history).findSome? Event.query?).join

theorem lastQuery_of_silent {event : Event} (hsince : sinceStart (event :: history) =
    event :: sinceStart history) (hquery : event.query? = none) :
    lastQuery (event :: history) = lastQuery history := by
  simp only [lastQuery, hsince, List.findSome?_cons, hquery]

theorem Interleaving.query_eq (h : Interleaving codec live history sc) :
    sc.state.queryExpression = lastQuery history := by
  induction h with
  | nil => rfl
  | @step history sc _ event _ ih =>
    cases event with
    | start line =>
      change (begin sc.state line).1.queryExpression = _
      rw [begin_state]
      rfl
    | answer place r given =>
      rw [lastQuery_of_silent rfl rfl, ← ih]
      obtain ⟨_, _, _, _, _, hstate⟩ := resume_state sc.state codec r given
      change (resume codec sc.state r given).1.queryExpression = _
      rw [hstate]
    | edit e =>
      have hquery (q : Option Text) : (sc.state.setQuery codec q).1.queryExpression = q := by
        rw [setQuery_state]
      cases e with
      | query q => exact hquery q
      | line text => exact hquery _
      | toggle => exact ih
      | close view =>
        rw [lastQuery_of_silent rfl rfl, ← ih]
        change (sc.state.edit codec (.close view)).1.queryExpression = _
        simp only [State.edit]
        split <;> rfl
      | render => exact ih

/-! ## What a view shows -/

/-- The content that a call writes to a view. -/
def writeTo? (view : Handle) : Caller × Call → Option Text
  | (_, .write v content) => if v = view then some content else none
  | _ => none

/-- The last content that was written to a view. -/
def shownIn (codec : Json.Codec) (live : Bool) (view : Handle) (history : List Event) :
    Option Text :=
  ((trace codec live history).filterMap (writeTo? view)).getLast?

theorem shownIn_cons (h : Interleaving codec live history sc) (view : Handle) (event : Event) :
    shownIn codec live view (event :: history) =
      ((sc.calls codec event).filterMap (writeTo? view)).getLast?.or
        (shownIn codec live view history) := by
  rw [shownIn, trace, List.filterMap_append, List.getLast?_append, h.reached_eq, shownIn]

theorem shownIn_of_no_calls (h : Interleaving codec live history sc) (view : Handle)
    {event : Event} (hcalls : sc.calls codec event = []) :
    shownIn codec live view (event :: history) = shownIn codec live view history := by
  rw [shownIn_cons h, hcalls]
  rfl

theorem shownIn_of_write (h : Interleaving codec live history sc) {view : Handle} {event : Event}
    {caller : Caller} {content : Text}
    (hcalls : sc.calls codec event = [(caller, .write view content)]) :
    shownIn codec live view (event :: history) = some content := by
  rw [shownIn_cons h, hcalls]
  simp [writeTo?]

theorem shownIn_of_rendering (h : Interleaving codec live history sc) {e : Edit} {view : Handle}
    {content : Text} (hwrite : (sc.state.edit codec e).2.write = some (view, content)) :
    shownIn codec live view (.edit e :: history) = some content := by
  have hcalls : sc.calls codec (.edit e) = [(.edit, .write view content)] := by
    simp only [Scene.calls, hwrite, Option.map_some, Option.toList_some]
  exact shownIn_of_write h hcalls

/-! ## A run among edits of the line -/

/-- An edit of the line, or an answer to the run at a place. -/
def Event.Accompanies (place : Nat) : Event → Prop
  | .answer p _ _ => p = place
  | .edit (.line _) => True
  | _ => False

/-- What goes with the newest run while there is nothing else than edits of the line. -/
structure Run.Undisturbed (codec : Json.Codec) (live : Bool) (history : List Event) (s : State)
    (r : Run) : Prop where
  unshown : lastJson codec history = none
  open_ : ∀ view, r.point.view? = some view → s.sideView = some view
  shows : ∀ view given, r.point = .showing view given →
    shownIn codec live view history = some (contentOf codec given)

theorem undisturbed_start (codec : Json.Codec) (live : Bool) (history : List Event) (s : State)
    (line : Text) :
    (begin s line).2.Undisturbed codec live (.start line :: history) (begin s line).1 := by
  refine ⟨rfl, fun view hview => ?_, fun view given hpoint => ?_⟩
  · rw [view?_begin] at hview
    rw [begin_state]
    exact hview
  · -- a run starts before its execution
    rw [begin_point] at hpoint
    cases hside : s.sideView <;> rw [hside] at hpoint <;> cases hpoint

theorem undisturbed_answer (h : Interleaving codec live history sc) {place : Nat} {r next : Run}
    {given : Except Failure r.point.Answer} (hwaits : sc.WaitsAt place r)
    (hr : r.Undisturbed codec live history sc.state)
    (hnext : (resume codec sc.state r given).2 = .waits next) :
    next.Undisturbed codec live (.answer place r given :: history)
      (resume codec sc.state r given).1 := by
  obtain ⟨line, point⟩ := r
  cases given with
  | error e => cases hnext
  | ok answer =>
    have hunshown :
        lastJson codec (.answer place ⟨line, point⟩ (.ok answer) :: history) = none := by
      cases point with
      | showing view given => exact absurd hnext (conclude_ends sc.state codec given next)
      | _ => exact hr.unshown
    cases point with
    | opening =>
      cases hnext
      exact ⟨hunshown, fun _ hview => hview, nofun⟩
    | placing view =>
      cases hnext
      exact ⟨hunshown, hr.open_, nofun⟩
    | executing view =>
      cases hnext
      refine ⟨hunshown, hr.open_, ?_⟩
      rintro v given ⟨⟩
      exact shownIn_of_write h rfl
    | showing view given => exact absurd hnext (conclude_ends sc.state codec given next)

theorem undisturbed_line (h : Interleaving codec live history sc) {r : Run}
    (hr : r.Undisturbed codec live history sc.state) (text : Text) :
    r.Undisturbed codec live (.edit (.line text) :: history)
      (sc.state.edit codec (.line text)).1 := by
  have hresult : sc.state.hasResult = false := by
    rw [h.recorded.hasResult, hr.unshown]
    rfl
  have hsilent : sc.calls codec (.edit (.line text)) = [] := by
    have hwrite : (sc.state.edit codec (.line text)).2.write = none :=
      setQuery_of_no_result hresult _
    simp only [Scene.calls, hwrite, Option.map_none, Option.toList_none]
  refine ⟨hr.unshown, fun view hview => ?_, fun view given hpoint => ?_⟩
  · rw [sideView_edit sc.state (by rintro v ⟨⟩)]
    exact hr.open_ view hview
  · rw [shownIn_of_no_calls h view hsilent]
    exact hr.shows view given hpoint

theorem Interleaving.undisturbed (h : Interleaving codec live history sc) {place : Nat} {r : Run}
    (hplace : place + 1 = started history)
    (halone : ∀ event ∈ sinceStart history, event.Accompanies place)
    (hwaits : sc.WaitsAt place r) : r.Undisturbed codec live history sc.state := by
  induction h generalizing r with
  | nil => cases hplace
  | @step history sc h event hadmits ih =>
    cases event with
    | start line =>
      -- the run is the newest one, so this is its own start
      have hlast : place = sc.runs.length := by
        rw [h.runs_length]
        exact Nat.succ.inj hplace
      subst hlast
      change (sc.runs ++ [.waits (begin sc.state line).2])[sc.runs.length]? = _ at hwaits
      rw [List.getElem?_concat_length] at hwaits
      cases hwaits
      exact undisturbed_start codec live history sc.state line
    | answer p r' given =>
      obtain ⟨hsame, hrest⟩ := List.forall_mem_cons.mp halone
      change p = place at hsame
      subst hsame
      have hnext := (waitsAt_after_answer hadmits).mp hwaits
      exact undisturbed_answer h hadmits (ih hplace hrest hadmits) hnext
    | edit e =>
      obtain ⟨hline, hrest⟩ := List.forall_mem_cons.mp halone
      cases e with
      | line text => exact undisturbed_line h (ih hplace hrest hwaits) text
      | _ => exact hline.elim

/-! ## The end of the run -/

/-- Switching the mode twice renders the state as it is. -/
theorem write_of_toggles {s : State} (hphase : s.phase = .rendered) :
    ((s.edit codec .toggle).1.edit codec .toggle).2.write = (s.rendering codec).write := by
  simp only [State.edit, if_pos hphase, Bool.not_not]

/-- However the line is edited while the newest run waits, and the run alone goes on, it ends with
its output in the view and with the query of the last edit beside its result. In live mode a
rendering then shows the value of that query, and so does switching the mode off and on. -/
theorem query_waits_for_rendering (h : Interleaving codec live history sc) {place : Nat}
    {line : Text} {view : Handle} {given : Execution} {v : Json}
    (hplace : place + 1 = started history)
    (halone : ∀ event ∈ sinceStart history, event.Accompanies place)
    (hwaits : sc.WaitsAt place ⟨line, .showing view given⟩) (hjson : given.json? codec = some v)
    (hlive : sc.state.queryEnabled = true) :
    let last : Event := .answer place ⟨line, .showing view given⟩ (.ok ())
    let s := (sc.after codec last).state
    shownIn codec live view (last :: history) = some given.stdout ∧
    s.sideView = some view ∧ s.hasResult = true ∧ s.parsedResult = v ∧
    s.queryExpression = lastQuery history ∧
    ∀ q value t, lastQuery history = some q → q ≠ [] → Query.search q v = .ok value →
      dumpValue codec value = .ok t →
      shownIn codec live view (.edit .render :: last :: history) = some t ∧
      shownIn codec live view (.edit .toggle :: .edit .toggle :: last :: history) = some t := by
  intro last s
  have hr := h.undisturbed hplace halone hwaits
  have hended : Interleaving codec live (last :: history) (sc.after codec last) :=
    h.step last hwaits
  have hrecorded := hended.recorded
  have hnewest : lastJson codec (last :: history) = some v := by
    rw [lastJson_shown, hjson, Option.some_or]
  have hview : s.sideView = some view := by
    rw [← hr.open_ view rfl]
    exact sideView_conclude sc.state codec given
  have hquery : s.queryExpression = lastQuery history := hended.query_eq
  have hresult : s.hasResult = true := by
    rw [hrecorded.hasResult, hnewest]
    rfl
  have hparsed : s.parsedResult = v := by
    rw [hrecorded.parsedResult, hnewest]
    rfl
  have hphase : s.phase = .rendered :=
    congrArg (fun ended => ended.1.phase) (conclude_of_json hjson sc.state)
  have henabled : s.queryEnabled = true := by
    obtain ⟨_, _, _, _, _, hstate⟩ :=
      resume_state sc.state codec ⟨line, .showing view given⟩ (.ok ())
    change (resume codec sc.state ⟨line, .showing view given⟩ (.ok ())).1.queryEnabled = true
    rw [hstate]
    exact hlive
  refine ⟨?_, hview, hresult, hparsed, hquery, ?_⟩
  · rw [shownIn_of_no_calls h view (calls_concluded sc place line view given ()),
      hr.shows view given rfl, contentOf, if_pos (json?_eq_some.mp hjson).1]
  · intro q value t hlast hsome hvalue hdump
    rw [← hparsed] at hvalue
    have hactive : s.activeQuery = some q :=
      activeQuery_of_on henabled (hquery.trans hlast) hsome
    refine ⟨shownIn_of_rendering hended ?_, ?_⟩
    · exact rendering_filtered hresult hactive hvalue hdump hview
    · have htoggled := hended.step (.edit .toggle) trivial
      refine shownIn_of_rendering htoggled ?_
      change ((s.edit codec .toggle).1.edit codec .toggle).2.write = _
      rw [write_of_toggles hphase]
      exact rendering_filtered hresult hactive hvalue hdump hview

/-- A query is begun while the view is opened and finished while the line is executed. -/
theorem query_waits_for_list :
    let given : Execution := ⟨true, "[true]".toList, [], 0⟩
    let history : List Event := [
      .answer 0 ⟨"list".toList, .executing "view-1".toList⟩ (.ok given),
      .edit (.line "list --query [0]".toList),
      .answer 0 ⟨"list".toList, .placing "view-1".toList⟩ (.ok ()),
      .answer 0 ⟨"list".toList, .opening⟩ (.ok "view-1".toList),
      .edit (.line "list --query [".toList), .start "list".toList]
    let last : Event := .answer 0 ⟨"list".toList, .showing "view-1".toList given⟩ (.ok ())
    Interleaving .usual true history (Scene.reached .usual true history) ∧
    lastQuery history = some "[0]".toList ∧
    shownIn .usual true "view-1".toList (last :: history) = some "[true]".toList ∧
    shownIn .usual true "view-1".toList (.edit .render :: last :: history) =
      some (Json.write (.indented (some 4)) (.bool true)) := by
  intro given history last
  have hinitial : Interleaving .usual true [] (Scene.initial true) := .nil
  have h : Interleaving .usual true history (Scene.reached .usual true history) :=
    (((((hinitial.step (.start _) trivial).step (.edit (.line _)) trivial).step
      (.answer 0 ⟨_, .opening⟩ (.ok "view-1".toList)) rfl).step
      (.answer 0 ⟨_, .placing _⟩ (.ok ())) rfl).step (.edit (.line _)) trivial).step
      (.answer 0 ⟨_, .executing _⟩ (.ok given)) rfl
  have halone : ∀ event ∈ sinceStart history, event.Accompanies 0 := by
    simp [history, sinceStart, Event.Accompanies]
  have hjson : given.json? .usual = some (.arr [.bool true]) := rfl
  have hlast : lastQuery history = some "[0]".toList := by decide
  have hvalue : Query.search "[0]".toList (.arr [.bool true]) = .ok (.bool true) := by
    with_unfolding_all rfl
  have hwritten : "[0]".toList ≠ [] := by decide
  obtain ⟨hshown, -, -, -, -, hrendered⟩ :=
    query_waits_for_rendering h rfl halone rfl hjson rfl
  exact ⟨h, hlast, hshown, (hrendered _ _ _ hlast hwritten hvalue rfl).1⟩

/-- The query is written while the line is executed, and the run ends with the whole output. -/
theorem edited_run_shows_whole_output :
    let given : Execution := ⟨true, "[true]".toList, [], 0⟩
    let history : List Event := [
      .answer 0 ⟨"list".toList, .showing "view-1".toList given⟩ (.ok ()),
      .answer 0 ⟨"list".toList, .executing "view-1".toList⟩ (.ok given),
      .edit (.line "list --query [0]".toList),
      .answer 0 ⟨"list".toList, .placing "view-1".toList⟩ (.ok ()),
      .answer 0 ⟨"list".toList, .opening⟩ (.ok "view-1".toList), .start "list".toList]
    ∃ sc, Interleaving .usual true history sc ∧ sc.runs = [.done] ∧
      sc.state.queryEnabled = true ∧ sc.state.sideView = some "view-1".toList ∧
      lastQuery history = some "[0]".toList ∧ given.json? .usual = some (.arr [.bool true]) ∧
      Query.search "[0]".toList (.arr [.bool true]) = .ok (.bool true) ∧
      shownIn .usual true "view-1".toList history ≠
        some (Json.write (.indented (some 4)) (.bool true)) := by
  intro given history
  have hinitial : Interleaving .usual true [] (Scene.initial true) := .nil
  have h := (((((hinitial.step (.start "list".toList) trivial).step
    (.answer 0 ⟨_, .opening⟩ (.ok "view-1".toList)) rfl).step
    (.answer 0 ⟨_, .placing _⟩ (.ok ())) rfl).step
    (.edit (.line "list --query [0]".toList)) trivial).step
    (.answer 0 ⟨_, .executing _⟩ (.ok given)) rfl).step
    (.answer 0 ⟨_, .showing _ given⟩ (.ok ())) rfl
  have hvalue : Query.search "[0]".toList (.arr [.bool true]) = .ok (.bool true) := by
    with_unfolding_all rfl
  exact ⟨_, h, rfl, rfl, rfl, by decide, rfl, hvalue, by decide⟩

end LineAssist.LiveResult
