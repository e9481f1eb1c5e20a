import LineAssist.Proofs.LiveResult.History

/-!
# What overlapping runs do to each other

A run that is shown leaves its result and the rendered phase to every run that is still in flight.
So a run without JSON can end beside the result of another one, and a run that raises can leave the
phase rendered. Both are decided by the events since a run was last started, and neither happens
while only the newest run is answered.
-/

namespace LineAssist.LiveResult

variable {codec : Json.Codec} {live : Bool} {history : List Event} {sc : Scene}

/-- The result, if there is one, is the JSON of the raw output. -/
def State.Coherent (s : State) (codec : Json.Codec) : Prop :=
  s.hasResult = true → ∃ raw, s.rawOutput = some raw ∧ codec.read raw = .ok s.parsedResult

theorem Recorded.coherent_iff {s : State} (hs : Recorded codec history s) :
    s.Coherent codec ↔ ∀ v, lastJson codec history = some v → ∃ given,
      lastExecution history = some given ∧ codec.read (contentOf codec given) = .ok v := by
  unfold State.Coherent
  rw [hs.hasResult, hs.rawOutput, hs.parsedResult]
  cases lastJson codec history with
  | none => simp
  | some v => cases lastExecution history <;> simp

/-- Overlapping runs can leave the output of one and the result of another. The result is that of
the raw output exactly when the newest JSON shown since the last start is the JSON of the newest
execution since then; and a run without JSON ends without a result exactly when no run has been
shown with JSON since the last start. -/
theorem result_matches_output_iff (h : Interleaving codec live history sc) :
    (sc.state.Coherent codec ↔ ∀ v, lastJson codec history = some v → ∃ given,
      lastExecution history = some given ∧ codec.read (contentOf codec given) = .ok v) ∧
    (∀ place line view given, sc.WaitsAt place ⟨line, .showing view given⟩ →
      given.json? codec = none →
      ((sc.after codec (.answer place ⟨line, .showing view given⟩ (.ok ()))).state.hasResult =
        false ↔ lastJson codec history = none)) := by
  refine ⟨h.recorded.coherent_iff, ?_⟩
  intro place line view given hwaits hgiven
  have hnext := (h.step (.answer place ⟨line, .showing view given⟩ (.ok ())) hwaits).recorded
  rw [hnext.hasResult, lastJson_shown, hgiven, Option.none_or]
  cases lastJson codec history <;> simp

/-- Beside the JSON of the first run the second one may still be waiting. -/
theorem overlapped_coherent :
    let given : Execution := ⟨true, "1".toList, [], 0⟩
    let sc := overlapped .usual false "second".toList "view-1".toList given
    Interleaving .usual false (overlap "first".toList "second".toList "view-1".toList given) sc ∧
    sc.state.hasResult = true ∧ sc.state.Coherent .usual := by
  intro given sc
  have h : Interleaving .usual false
      (overlap "first".toList "second".toList "view-1".toList given) _ :=
    interleaving_overlap .usual false "first".toList "second".toList "view-1".toList rfl
  refine ⟨h, rfl, (result_matches_output_iff h).1.mpr ?_⟩
  intro v hv
  have hone : Json.int 1 = v := Option.some.inj hv
  exact ⟨given, rfl, hone ▸ rfl⟩

/-- The command of the second run fails; its run ends beside the result of the first one. -/
theorem failed_run_keeps_result :
    let given : Execution := ⟨true, "1".toList, [], 0⟩
    let bad : Execution := ⟨false, [], "boom".toList, 1⟩
    ∃ sc, Interleaving .usual false
      (.answer 1 ⟨"second".toList, .showing "view-1".toList bad⟩ (.ok ()) ::
        .answer 1 ⟨"second".toList, .executing "view-1".toList⟩ (.ok bad) ::
        overlap "first".toList "second".toList "view-1".toList given) sc ∧
      sc.state.hasResult = true ∧ ¬ sc.state.Coherent .usual := by
  intro given bad
  have h : Interleaving .usual false
      (overlap "first".toList "second".toList "view-1".toList given) _ :=
    interleaving_overlap .usual false "first".toList "second".toList "view-1".toList rfl
  refine ⟨_, (h.step (.answer 1 ⟨_, .executing _⟩ (.ok bad)) rfl).step
    (.answer 1 ⟨_, .showing _ bad⟩ (.ok ())) rfl, rfl, ?_⟩
  intro hcoherent
  obtain ⟨raw, hraw, hread⟩ := hcoherent rfl
  have houtput : contentOf .usual bad = raw := Option.some.inj hraw
  rw [← houtput] at hread
  cases hread

theorem idle_of_settle {s : State} (hp : s.settle.phase = .idle) : s.phase = .idle := by
  rw [settle_eq] at hp
  dsimp only at hp
  split at hp
  · cases hp
  · exact hp

theorem idle_of_resume {s : State} {r : Run} {given : Except Failure r.point.Answer}
    (hp : (resume codec s r given).1.phase = .idle) : s.phase = .idle := by
  obtain ⟨line, point⟩ := r
  cases given with
  | error e => exact idle_of_settle hp
  | ok answer =>
    cases point with
    | opening => exact hp
    | placing view => exact hp
    | executing view => exact hp
    | showing view given =>
      change (s.conclude codec given).1.phase = .idle at hp
      rw [conclude_eq] at hp
      split at hp
      · exact idle_of_settle hp
      · cases hp

theorem Interleaving.runs_of_idle (h : Interleaving codec live history sc)
    (hp : sc.state.phase = .idle) : sc.runs = [] := by
  induction h with
  | nil => rfl
  | @step history sc _ event hadmits ih =>
    cases event with
    | start line =>
      change (begin sc.state line).1.phase = .idle at hp
      rw [begin_state] at hp
      cases hp
    | answer place r given =>
      change sc.runs[place]? = _ at hadmits
      rw [ih (idle_of_resume hp)] at hadmits
      cases hadmits
    | edit e =>
      obtain ⟨query, live, view, he⟩ := edit_state sc.state codec e
      change (sc.state.edit codec e).1.phase = .idle at hp
      rw [he] at hp
      exact ih hp

/-- A run that raises ends in the failed phase exactly when no run has been shown to its end since
the last start; otherwise the phase stays rendered. -/
theorem raised_run_fails_iff (h : Interleaving codec live history sc) {place : Nat} {r : Run}
    (hwaits : sc.WaitsAt place r) {given : Except Failure r.point.Answer} {e : Failure}
    (hraises : (resume codec sc.state r given).2 = .failed e) :
    ((sc.after codec (.answer place r given)).state.phase = .failed ↔ Unshown codec history) ∧
    ((sc.after codec (.answer place r given)).state.phase = .failed ∨
      (sc.after codec (.answer place r given)).state.phase = .rendered) := by
  have hphase : (sc.after codec (.answer place r given)).state.phase =
      if sc.state.phase = .running then .failed else sc.state.phase := by
    change (resume codec sc.state r given).1.phase = _
    rw [resume_failed hraises, settle_eq]
  have hrendered := h.recorded.rendered
  rw [hphase]
  cases hp : sc.state.phase with
  | idle =>
    change sc.runs[place]? = _ at hwaits
    rw [h.runs_of_idle hp] at hwaits
    cases hwaits
  | running => simpa [hp] using hrendered
  | rendered => simpa [hp] using hrendered
  | failed => simpa [hp] using hrendered

/-- The first of two runs cannot open the view. -/
theorem first_run_raises :
    let sc := ((Scene.initial true).after .usual (.start "first".toList)).after .usual
      (.start "second".toList)
    Interleaving .usual true [.start "second".toList, .start "first".toList] sc ∧
    sc.WaitsAt 0 ⟨"first".toList, .opening⟩ ∧
    (resume .usual sc.state ⟨"first".toList, .opening⟩
      (.error (.refused "open rejected".toList))).2 = .failed (.refused "open rejected".toList) ∧
    (sc.after .usual (.answer 0 ⟨"first".toList, .opening⟩
      (.error (.refused "open rejected".toList)))).state.phase = .failed := by
  intro sc
  have hinitial : Interleaving .usual true [] (Scene.initial true) := .nil
  have h : Interleaving .usual true [.start "second".toList, .start "first".toList] sc :=
    (hinitial.step (.start _) trivial).step (.start _) trivial
  have hwaits : sc.WaitsAt 0 ⟨"first".toList, .opening⟩ := rfl
  have hraises : (resume .usual sc.state ⟨"first".toList, .opening⟩
      (.error (.refused "open rejected".toList))).2 = .failed (.refused "open rejected".toList) := rfl
  exact ⟨h, hwaits, hraises, (raised_run_fails_iff h hwaits hraises).1.mpr (List.forall_mem_nil _)⟩

/-- The executor of the second run raises after the first one has been shown. -/
theorem raised_run_stays_rendered :
    let given : Execution := ⟨true, "1".toList, [], 0⟩
    ∃ sc, Interleaving .usual false
      (.answer 1 ⟨"second".toList, .executing "view-1".toList⟩
          (.error (.execution "boom".toList)) ::
        overlap "first".toList "second".toList "view-1".toList given) sc ∧
      sc.state.phase = .rendered := by
  intro given
  have h : Interleaving .usual false
      (overlap "first".toList "second".toList "view-1".toList given) _ :=
    interleaving_overlap .usual false "first".toList "second".toList "view-1".toList rfl
  exact ⟨_, h.step (.answer 1 ⟨_, .executing _⟩ (.error _)) rfl, rfl⟩

/-- The number of runs that have been started. -/
def started : List Event → Nat
  | [] => 0
  | .start _ :: history => started history + 1
  | _ :: history => started history

/-- Only the run that was started last is answered. -/
def NewestOnly : List Event → Prop
  | [] => True
  | .answer place _ _ :: history => place + 1 = started history ∧ NewestOnly history
  | _ :: history => NewestOnly history

theorem Interleaving.runs_length (h : Interleaving codec live history sc) :
    sc.runs.length = started history := by
  induction h with
  | nil => rfl
  | @step history sc _ event _ ih =>
    cases event with
    | start line => simp only [Scene.after, List.length_append, ih, started, List.length_singleton]
    | answer place r given => simp only [Scene.after, List.length_set, ih, started]
    | edit e => exact ih

/-- The newest run, while it waits, has no result beside it, and its output is the raw one from its
execution on. -/
structure Scene.Alone (codec : Json.Codec) (sc : Scene) : Prop where
  coherent : sc.state.Coherent codec
  cleared : ∀ place r, place + 1 = sc.runs.length → sc.WaitsAt place r → sc.state.hasResult = false
  output : ∀ place line view given, place + 1 = sc.runs.length →
    sc.WaitsAt place ⟨line, .showing view given⟩ →
    sc.state.rawOutput = some (contentOf codec given)

theorem coherent_of_no_result {s : State} (h : s.hasResult = false) : s.Coherent codec := by
  intro hresult
  rw [h] at hresult
  cases hresult

theorem alone_start (codec : Json.Codec) (sc : Scene) (line : Text) :
    (sc.after codec (.start line)).Alone codec := by
  have hresult : (begin sc.state line).1.hasResult = false := by rw [begin_state]
  refine ⟨coherent_of_no_result hresult, fun _ _ _ _ => hresult, ?_⟩
  intro place l view given hplace hwaits
  simp only [Scene.after, List.length_append, List.length_singleton] at hplace
  obtain rfl : place = sc.runs.length := by omega
  change (sc.runs ++ [.waits (begin sc.state line).2])[sc.runs.length]? = _ at hwaits
  rw [List.getElem?_concat_length] at hwaits
  have hrun : (begin sc.state line).2 = ⟨l, .showing view given⟩ := by
    injection hwaits with hprogress
    injection hprogress
  simp only [begin] at hrun
  split at hrun <;> cases hrun

/-- An answer to the newest run concerns no other run that could be waiting in its place. -/
theorem alone_of_progress {sc : Scene} {place : Nat} {r : Run}
    {given : Except Failure r.point.Answer} (hplace : place + 1 = sc.runs.length)
    (hwaits : sc.WaitsAt place r) (hcoherent : (resume codec sc.state r given).1.Coherent codec)
    (hprogress : ∀ next, (resume codec sc.state r given).2 = .waits next →
      (resume codec sc.state r given).1.hasResult = false ∧
      ∀ line view given', next = ⟨line, .showing view given'⟩ →
        (resume codec sc.state r given).1.rawOutput = some (contentOf codec given')) :
    (sc.after codec (.answer place r given)).Alone codec := by
  have hsame (place' : Nat)
      (h : place' + 1 = (sc.after codec (.answer place r given)).runs.length) :
      place' = place := by
    simp only [Scene.after, List.length_set] at h
    omega
  refine ⟨hcoherent, ?_, ?_⟩
  · intro place' next hplace' hnext
    obtain rfl := hsame place' hplace'
    exact (hprogress next ((waitsAt_after_answer hwaits).mp hnext)).1
  · intro place' line view given' hplace' hnext
    obtain rfl := hsame place' hplace'
    exact (hprogress _ ((waitsAt_after_answer hwaits).mp hnext)).2 line view given' rfl

theorem alone_answer {sc : Scene} (hs : sc.Alone codec) {place : Nat} {r : Run}
    (given : Except Failure r.point.Answer) (hplace : place + 1 = sc.runs.length)
    (hwaits : sc.WaitsAt place r) : (sc.after codec (.answer place r given)).Alone codec := by
  have hcleared := hs.cleared place r hplace hwaits
  obtain ⟨line, point⟩ := r
  cases given with
  | error e =>
    have hsettled := (hasResult_settle sc.state).trans hcleared
    exact alone_of_progress hplace hwaits (coherent_of_no_result hsettled) nofun
  | ok answer =>
    cases point with
    | opening =>
      refine alone_of_progress hplace hwaits (coherent_of_no_result hcleared) ?_
      rintro next ⟨⟩
      exact ⟨hcleared, nofun⟩
    | placing view =>
      refine alone_of_progress hplace hwaits (coherent_of_no_result hcleared) ?_
      rintro next ⟨⟩
      exact ⟨hcleared, nofun⟩
    | executing view =>
      refine alone_of_progress hplace hwaits (coherent_of_no_result hcleared) ?_
      rintro next ⟨⟩
      refine ⟨hcleared, ?_⟩
      rintro l v given' ⟨⟩
      rfl
    | showing view given =>
      refine alone_of_progress hplace hwaits ?_ fun next hnext =>
        absurd hnext (conclude_ends sc.state codec given next)
      change (sc.state.conclude codec given).1.Coherent codec
      cases hgiven : given.json? codec with
      | none => exact coherent_of_no_result ((hasResult_conclude hgiven).trans hcleared)
      | some v =>
        have hraw := hs.output place line view given hplace hwaits
        rw [conclude_of_json hgiven]
        exact fun _ => ⟨_, hraw, read_contentOf hgiven⟩

theorem alone_edit {sc : Scene} (hs : sc.Alone codec) (e : Edit) :
    (sc.after codec (.edit e)).Alone codec := by
  obtain ⟨query, live, view, he⟩ := edit_state sc.state codec e
  refine ⟨?_, ?_, ?_⟩
  · change (sc.state.edit codec e).1.Coherent codec
    rw [he]
    exact hs.coherent
  · intro place r hplace hwaits
    change (sc.state.edit codec e).1.hasResult = false
    rw [he]
    exact hs.cleared place r hplace hwaits
  · intro place line v given hplace hwaits
    change (sc.state.edit codec e).1.rawOutput = _
    rw [he]
    exact hs.output place line v given hplace hwaits

theorem Interleaving.alone (h : Interleaving codec live history sc)
    (hnewest : NewestOnly history) : sc.Alone codec := by
  induction h with
  | nil => exact ⟨coherent_of_no_result rfl, nofun, nofun⟩
  | @step history sc h event hadmits ih =>
    cases event with
    | start line => exact alone_start codec sc line
    | answer place r given =>
      obtain ⟨hplace, hrest⟩ := hnewest
      exact alone_answer (ih hrest) given (hplace.trans h.runs_length.symm) hadmits
    | edit e => exact alone_edit (ih hnewest) e

/-- Runs of which only the newest is answered do not mix: the result is that of the raw output, and
a run without JSON ends without a result. -/
theorem coherent_of_newestOnly (h : Interleaving codec live history sc)
    (hnewest : NewestOnly history) :
    sc.state.Coherent codec ∧
    ∀ place line view given, place + 1 = started history →
      sc.WaitsAt place ⟨line, .showing view given⟩ → given.json? codec = none →
      (sc.after codec (.answer place ⟨line, .showing view given⟩ (.ok ()))).state.hasResult =
        false := by
  have hs := h.alone hnewest
  refine ⟨hs.coherent, ?_⟩
  intro place line view given hplace hwaits hgiven
  exact (hasResult_conclude hgiven).trans
    (hs.cleared place _ (hplace.trans h.runs_length.symm) hwaits)

end LineAssist.LiveResult
