import LineAssist.Proofs.LiveResult.Script

/-!
# How often the view is opened

A run looks for the view when it starts and keeps the one it finds; the state learns of a new view
only when its opening is answered. So a view is opened for each run that starts before the first
one is open, and with two such runs the writes go to two views.
-/

namespace LineAssist.LiveResult

variable {codec : Json.Codec} {live : Bool} {history : List Event} {sc : Scene}

/-- The view that an event opens. -/
def Event.opened? : Event → Option Handle
  | .answer _ ⟨_, .opening⟩ (.ok view) => some view
  | _ => none

/-- The views that have been opened, the newest first. -/
def openedViews (history : List Event) : List Handle :=
  history.filterMap Event.opened?

/-- The number of runs that were started before a view was open. -/
def startedBlind : List Event → Nat
  | [] => 0
  | .start _ :: history =>
    if openedViews history = [] then startedBlind history + 1 else startedBlind history
  | _ :: history => startedBlind history

def openings (codec : Json.Codec) (live : Bool) (history : List Event) : Nat :=
  (trace codec live history).countP fun c => c.2 = .openView

def NeverCloses (history : List Event) : Prop :=
  ∀ view, Event.edit (.close view) ∉ history

theorem openedViews_cons (event : Event) (history : List Event) :
    openedViews (event :: history) = event.opened?.toList ++ openedViews history := by
  rw [openedViews, List.filterMap_cons]
  cases event.opened? <;> rfl

theorem NeverCloses.tail {event : Event} (h : NeverCloses (event :: history)) :
    NeverCloses history :=
  fun view hmem => h view (List.mem_cons_of_mem event hmem)

/-! ## The view of the state -/

theorem sideView_conclude (s : State) (codec : Json.Codec) (given : Execution) :
    (s.conclude codec given).1.sideView = s.sideView := by
  rw [conclude_eq]
  split
  · rw [settle_eq]
  · cases given.json? codec <;> rfl

theorem sideView_resume (s : State) (place : Nat) (r : Run)
    (given : Except Failure r.point.Answer) :
    (resume codec s r given).1.sideView =
      (Event.opened? (.answer place r given)).or s.sideView := by
  obtain ⟨line, point⟩ := r
  cases given with
  | error e =>
    have hopened : Event.opened? (.answer place ⟨line, point⟩ (.error e)) = none := by
      cases point <;> rfl
    change s.settle.sideView = _
    rw [hopened, Option.none_or, settle_eq]
  | ok answer =>
    cases point with
    | opening => rfl
    | placing view => rfl
    | executing view => rfl
    | showing view given => exact sideView_conclude s codec given

theorem sideView_edit (s : State) {e : Edit} (h : ∀ view, e ≠ .close view) :
    (s.edit codec e).1.sideView = s.sideView := by
  have hquery (q : Option Text) : (s.setQuery codec q).1.sideView = s.sideView := by
    rw [setQuery_state]
  cases e with
  | query q => exact hquery q
  | line t => exact hquery _
  | toggle => rfl
  | close view => exact absurd rfl (h view)
  | render => rfl

/-- Where no view is closed, the state has the one that was opened last. -/
theorem Interleaving.sideView_eq (h : Interleaving codec live history sc)
    (hopen : NeverCloses history) : sc.state.sideView = (openedViews history).head? := by
  induction h with
  | nil => rfl
  | @step history sc _ event _ ih =>
    have hview := ih hopen.tail
    cases event with
    | start line =>
      change (begin sc.state line).1.sideView = _
      rw [begin_state]
      exact hview
    | answer place r given =>
      change (resume codec sc.state r given).1.sideView = _
      rw [sideView_resume sc.state place, hview, openedViews_cons, List.head?_append,
        Option.head?_toList]
    | edit e =>
      have hkept : ∀ view, e ≠ .close view := by
        rintro view rfl
        exact hopen view List.mem_cons_self
      change (sc.state.edit codec e).1.sideView = _
      rw [sideView_edit sc.state hkept]
      exact hview

/-! ## Openings that are asked for -/

theorem begin_point (s : State) (line : Text) :
    (begin s line).2 = ⟨line, match s.sideView with
      | some view => .placing view
      | none => .opening⟩ := by
  cases hview : s.sideView <;> simp only [begin, hview]

/-- The view that a run keeps to. -/
def Point.view? : Point → Option Handle
  | .opening => none
  | .placing view => some view
  | .executing view => some view
  | .showing view _ => some view

theorem view?_begin (s : State) (line : Text) : (begin s line).2.point.view? = s.sideView := by
  rw [begin_point]
  cases s.sideView <;> rfl

theorem view?_resume {s : State} {r next : Run} {given : Except Failure r.point.Answer}
    (h : (resume codec s r given).2 = .waits next) (place : Nat) :
    next.point.view? = (Event.opened? (.answer place r given)).or r.point.view? ∧
      next.point ≠ .opening := by
  obtain ⟨line, point⟩ := r
  cases given with
  | error e => cases h
  | ok answer =>
    cases point with
    | showing view given => exact absurd h (conclude_ends s codec given next)
    | _ =>
      cases h
      exact ⟨rfl, nofun⟩

theorem call_eq_openView_iff {r : Run} : r.call codec = .openView ↔ r.point = .opening := by
  obtain ⟨line, point⟩ := r
  cases point <;> simp [Run.call]

/-- Only a run that starts without a view asks for one. -/
theorem countP_openView_calls (event : Event) :
    (sc.calls codec event).countP (fun c => c.2 = .openView) =
      match event with
      | .start _ => if sc.state.sideView = none then 1 else 0
      | _ => 0 := by
  cases event with
  | start line =>
    simp only [Scene.calls, List.countP_singleton, decide_eq_true_eq, call_eq_openView_iff,
      begin_point]
    cases sc.state.sideView <;> simp
  | answer place r given =>
    simp only [Scene.calls]
    split
    case h_1 next hnext =>
      have hnever := (view?_resume hnext place).2
      simp only [List.countP_singleton, decide_eq_true_eq, call_eq_openView_iff, if_neg hnever]
    case h_2 => rfl
  | edit e =>
    simp only [Scene.calls]
    cases (sc.state.edit codec e).2.write with
    | none => rfl
    | some written => rfl

theorem Interleaving.openings_cons (h : Interleaving codec live history sc) (event : Event) :
    openings codec live (event :: history) =
      openings codec live history +
        (sc.calls codec event).countP (fun c => c.2 = .openView) := by
  rw [openings, trace, List.countP_append, h.reached_eq, openings]

theorem Interleaving.openings_eq (h : Interleaving codec live history sc)
    (hopen : NeverCloses history) : openings codec live history = startedBlind history := by
  induction h with
  | nil => rfl
  | @step history sc h event _ ih =>
    rw [h.openings_cons, countP_openView_calls, ih hopen.tail]
    cases event with
    | start line =>
      simp only [startedBlind, h.sideView_eq hopen.tail, List.head?_eq_none_iff]
      split <;> rfl
    | answer place r given => rfl
    | edit e => rfl

/-! ## Openings that are answered -/

def Progress.waitsForView : Progress → Bool
  | .waits ⟨_, .opening⟩ => true
  | _ => false

theorem waitsForView_waits (r : Run) :
    (Progress.waits r).waitsForView = true ↔ r.point = .opening := by
  obtain ⟨line, point⟩ := r
  cases point <;> simp [Progress.waitsForView]

/-- An answer ends the waiting for a view, and opens at most one. -/
theorem waitsForView_resume (s : State) (codec : Json.Codec) (place : Nat) (r : Run)
    (given : Except Failure r.point.Answer) :
    (resume codec s r given).2.waitsForView = false ∧
      (Event.opened? (.answer place r given)).toList.length ≤
        if (Progress.waits r).waitsForView = true then 1 else 0 := by
  obtain ⟨line, point⟩ := r
  cases given with
  | error e => cases point <;> exact ⟨rfl, Nat.zero_le _⟩
  | ok answer =>
    cases point with
    | showing view given =>
      change (s.conclude codec given).2.waitsForView = false ∧ _
      rw [conclude_eq]
      split <;> exact ⟨rfl, Nat.le_refl _⟩
    | _ => exact ⟨rfl, Nat.le_refl _⟩

/-- Every view that has been opened, or is still waited for, was asked for by a run that started
before one was open. -/
theorem Interleaving.opened_le (h : Interleaving codec live history sc)
    (hopen : NeverCloses history) :
    sc.runs.countP Progress.waitsForView + (openedViews history).length ≤ startedBlind history := by
  induction h with
  | nil => exact Nat.le_refl _
  | @step history sc h event hadmits ih =>
    have hrest := ih hopen.tail
    rw [openedViews_cons, List.length_append]
    cases event with
    | start line =>
      have hnew : (Progress.waits (begin sc.state line).2).waitsForView = true ↔
          openedViews history = [] := by
        rw [waitsForView_waits, begin_point, h.sideView_eq hopen.tail]
        cases openedViews history <;> simp
      simp only [Scene.after, List.countP_append, List.countP_singleton, startedBlind, hnew,
        Event.opened?, Option.toList_none, List.length_nil]
      split <;> omega
    | answer place r given =>
      obtain ⟨hlt, hplace⟩ := List.getElem?_eq_some_iff.mp hadmits
      obtain ⟨hnext, hopened⟩ := waitsForView_resume sc.state codec place r given
      -- an answer that opens a view ends a waiting for one, so the sum does not grow
      have hpos : (if (Progress.waits r).waitsForView = true then 1 else 0) ≤
          sc.runs.countP Progress.waitsForView := by
        split
        case isTrue hwaits =>
          exact List.countP_pos_iff.mpr ⟨_, List.mem_of_getElem hplace, hwaits⟩
        case isFalse => exact Nat.zero_le _
      simp only [Scene.after, List.countP_set hlt, hplace, hnext, startedBlind, Bool.false_eq_true,
        if_false]
      omega
    | edit e =>
      simp only [Scene.after, Event.opened?, Option.toList_none, List.length_nil, startedBlind]
      omega

/-! ## Where the writes go -/

/-- The state and the runs know only of views that have been opened. -/
structure Scene.KnowsOpened (history : List Event) (sc : Scene) : Prop where
  state : ∀ view, sc.state.sideView = some view → view ∈ openedViews history
  runs : ∀ place r view, sc.WaitsAt place r → r.point.view? = some view →
    view ∈ openedViews history

theorem mem_openedViews_cons {event : Event} {view : Handle} :
    view ∈ openedViews (event :: history) ↔
      event.opened? = some view ∨ view ∈ openedViews history := by
  rw [openedViews_cons, List.mem_append, Option.mem_toList]

theorem mem_of_or_eq_some {event : Event} {known : Option Handle} {view : Handle}
    (hknown : ∀ v, known = some v → v ∈ openedViews history)
    (h : event.opened?.or known = some view) : view ∈ openedViews (event :: history) := by
  rw [mem_openedViews_cons]
  rcases Option.or_eq_some_iff.mp h with h | ⟨-, h⟩
  · exact .inl h
  · exact .inr (hknown view h)

theorem sideView_of_edited {s : State} {e : Edit} {view : Handle}
    (h : (s.edit codec e).1.sideView = some view) : s.sideView = some view := by
  by_cases hclose : ∃ v, e = .close v
  · obtain ⟨v, rfl⟩ := hclose
    simp only [State.edit] at h
    split at h
    · cases h
    · exact h
  · rwa [sideView_edit s fun v hv => hclose ⟨v, hv⟩] at h

theorem knowsOpened_start (hs : sc.KnowsOpened history) (line : Text) :
    (sc.after codec (.start line)).KnowsOpened (.start line :: history) := by
  constructor
  · intro view hview
    change (begin sc.state line).1.sideView = some view at hview
    rw [begin_state] at hview
    exact hs.state view hview
  · intro place r view hwaits hview
    change (sc.runs ++ [.waits (begin sc.state line).2])[place]? = _ at hwaits
    rcases List.mem_append.mp (List.mem_of_getElem? hwaits) with hold | hnew
    · obtain ⟨place, hlt, hwaits⟩ := List.mem_iff_getElem.mp hold
      exact hs.runs place r view (List.getElem?_eq_some_iff.mpr ⟨hlt, hwaits⟩) hview
    · cases List.mem_singleton.mp hnew
      rw [view?_begin] at hview
      exact hs.state view hview

theorem knowsOpened_answer (hs : sc.KnowsOpened history) {place : Nat} {r : Run}
    (given : Except Failure r.point.Answer) (hplace : sc.WaitsAt place r) :
    (sc.after codec (.answer place r given)).KnowsOpened (.answer place r given :: history) := by
  constructor
  · intro view hview
    change (resume codec sc.state r given).1.sideView = some view at hview
    rw [sideView_resume sc.state place] at hview
    exact mem_of_or_eq_some hs.state hview
  · intro place' next view hwaits hview
    by_cases hsame : place' = place
    · subst hsame
      have hnext := (waitsAt_after_answer hplace).mp hwaits
      rw [(view?_resume hnext place').1] at hview
      exact mem_of_or_eq_some (fun v => hs.runs place' r v hplace) hview
    · change (sc.runs.set place _)[place']? = _ at hwaits
      rw [List.getElem?_set_ne (Ne.symm hsame)] at hwaits
      exact mem_openedViews_cons.mpr (.inr (hs.runs place' next view hwaits hview))

theorem Interleaving.knowsOpened (h : Interleaving codec live history sc) :
    sc.KnowsOpened history := by
  induction h with
  | nil => exact ⟨nofun, nofun⟩
  | @step history sc _ event hadmits ih =>
    cases event with
    | start line => exact knowsOpened_start ih line
    | answer place r given => exact knowsOpened_answer ih given hadmits
    | edit e => exact ⟨fun view hview => ih.state view (sideView_of_edited hview), ih.runs⟩

theorem view?_of_call {r : Run} {view : Handle} {content : Text}
    (h : r.call codec = .write view content) : r.point.view? = some view := by
  obtain ⟨line, point⟩ := r
  cases point <;> cases h <;> rfl

theorem sideView_of_rendering {s : State} {view : Handle} {content : Text}
    (h : (s.rendering codec).write = some (view, content)) : s.sideView = some view := by
  unfold State.rendering at h
  split at h
  · cases h
  · obtain ⟨_, -, h⟩ := Option.bind_eq_some_iff.mp h
    obtain ⟨v, hview, hsame⟩ := Option.map_eq_some_iff.mp h
    cases hsame
    exact hview

theorem sideView_of_written {s : State} {e : Edit} {view : Handle} {content : Text}
    (h : (s.edit codec e).2.write = some (view, content)) : s.sideView = some view := by
  have hquery (q : Option Text) (h : (s.setQuery codec q).2.write = some (view, content)) :
      s.sideView = some view := by
    unfold State.setQuery at h
    split at h
    · cases h
    · dsimp only at h
      split at h
      · have hview := sideView_of_rendering h
        exact hview
      · cases h
  cases e with
  | query q => exact hquery q h
  | line t => exact hquery _ h
  | toggle =>
    simp only [State.edit] at h
    split at h
    · have hview := sideView_of_rendering h
      exact hview
    · cases h
  | close view => cases h
  | render => exact sideView_of_rendering h

theorem mem_openedViews_of_call (h : Interleaving codec live history sc) {event : Event}
    (hadmits : sc.Admits event) {caller : Caller} {view : Handle} {content : Text}
    (hcall : (caller, Call.write view content) ∈ sc.calls codec event) :
    view ∈ openedViews (event :: history) := by
  have hknows := (h.step event hadmits).knowsOpened
  cases event with
  | start line =>
    obtain ⟨-, hwrite⟩ := Prod.mk.inj (List.mem_singleton.mp hcall)
    exact hknows.runs sc.runs.length _ view List.getElem?_concat_length
      (view?_of_call hwrite.symm)
  | answer place r given =>
    simp only [Scene.calls] at hcall
    split at hcall
    case h_1 next hnext =>
      obtain ⟨-, hwrite⟩ := Prod.mk.inj (List.mem_singleton.mp hcall)
      exact hknows.runs place next view ((waitsAt_after_answer hadmits).mpr hnext)
        (view?_of_call hwrite.symm)
    case h_2 => cases hcall
  | edit e =>
    simp only [Scene.calls, Option.mem_toList, Option.map_eq_some_iff] at hcall
    obtain ⟨⟨v, t⟩, hwritten, hsame⟩ := hcall
    cases hsame
    exact mem_openedViews_cons.mpr (.inr (h.knowsOpened.state _ (sideView_of_written hwritten)))

theorem Interleaving.write_opened (h : Interleaving codec live history sc) {caller : Caller}
    {view : Handle} {content : Text}
    (hcall : (caller, Call.write view content) ∈ trace codec live history) :
    view ∈ openedViews history := by
  induction h with
  | nil => cases hcall
  | @step history sc h event hadmits ih =>
    rw [trace, List.mem_append, h.reached_eq] at hcall
    rcases hcall with hcall | hcall
    · exact mem_openedViews_cons.mpr (.inr (ih hcall))
    · exact mem_openedViews_of_call h hadmits hcall

/-- While no view is closed, one is opened for each run that was started before the first was open,
and all writes go to opened views. So there is one view for all writes if at most one run was
started that early. -/
theorem openings_eq_startedBlind (h : Interleaving codec live history sc)
    (hopen : NeverCloses history) :
    openings codec live history = startedBlind history ∧
    (∀ caller view content, (caller, Call.write view content) ∈ trace codec live history →
      view ∈ openedViews history) ∧
    (startedBlind history ≤ 1 → ∃ view, ∀ caller v content,
      (caller, Call.write v content) ∈ trace codec live history → v = view) := by
  refine ⟨h.openings_eq hopen, fun caller view content hcall => h.write_opened hcall, ?_⟩
  intro hblind
  have hopened := h.opened_le hopen
  cases hviews : openedViews history with
  | nil =>
    refine ⟨[], fun caller v content hcall => ?_⟩
    have hmem := h.write_opened hcall
    rw [hviews] at hmem
    cases hmem
  | cons view rest =>
    rw [hviews, List.length_cons] at hopened
    -- a second opened view would need a second run started blindly
    have hrest : rest = [] := List.length_eq_zero_iff.mp (by omega)
    refine ⟨view, fun caller v content hcall => ?_⟩
    have hmem := h.write_opened hcall
    rw [hviews, hrest] at hmem
    exact List.mem_singleton.mp hmem

/-- The second run is started while the first one shows its placeholder. -/
theorem openings_of_overlap :
    let given : Execution := ⟨true, "1".toList, [], 0⟩
    let history := overlap "first".toList "second".toList "view-1".toList given
    Interleaving .usual true history
      (overlapped .usual true "second".toList "view-1".toList given) ∧
    NeverCloses history ∧ startedBlind history = 1 ∧ openings .usual true history = 1 ∧
    ∃ view, ∀ caller v content,
      (caller, Call.write v content) ∈ trace .usual true history → v = view := by
  intro given history
  have h : Interleaving .usual true history _ :=
    interleaving_overlap .usual true "first".toList "second".toList "view-1".toList rfl
  have hopen : NeverCloses history := by
    intro view hmem
    simp [history, overlap] at hmem
  have hblind : startedBlind history = 1 := rfl
  obtain ⟨hopenings, -, hone⟩ := openings_eq_startedBlind h hopen
  exact ⟨h, hopen, hblind, hopenings.trans hblind, hone (Nat.le_of_eq hblind)⟩

/-- The second run is started before the view of the first one is open. -/
theorem second_view_is_opened :
    let history : List Event := [
      .answer 1 ⟨"second".toList, .opening⟩ (.ok "view-2".toList),
      .answer 0 ⟨"first".toList, .opening⟩ (.ok "view-1".toList),
      .start "second".toList, .start "first".toList]
    ∃ sc, Interleaving .usual false history sc ∧ NeverCloses history ∧
      openings .usual false history = 2 ∧
      (Caller.run 0, Call.write "view-1".toList (placeholder "first".toList)) ∈
        trace .usual false history ∧
      (Caller.run 1, Call.write "view-2".toList (placeholder "second".toList)) ∈
        trace .usual false history := by
  intro history
  have hinitial : Interleaving .usual false [] (Scene.initial false) := .nil
  have h := (((hinitial.step (.start "first".toList) trivial).step
    (.start "second".toList) trivial).step
    (.answer 0 ⟨_, .opening⟩ (.ok "view-1".toList)) rfl).step
    (.answer 1 ⟨_, .opening⟩ (.ok "view-2".toList)) rfl
  refine ⟨_, h, ?_, by decide, by decide, by decide⟩
  intro view hmem
  simp [history] at hmem

end LineAssist.LiveResult
