import LineAssist.Proofs.LiveResult.Interleaving

/-!
# The result and the phase agree

In every scene of every interleaving there is a result only in the rendered phase, no value is kept
without a result, and the phase is running only while some run has not ended.
-/

namespace LineAssist.LiveResult

variable {codec : Json.Codec} {live : Bool} {history : List Event} {sc : Scene}

structure State.Consistent (s : State) : Prop where
  rendered : s.hasResult = true → s.phase = .rendered
  cleared : s.hasResult = false → s.parsedResult = .null

theorem consistent_initial (live : Bool) : (State.initial live).Consistent :=
  ⟨fun h => absurd h Bool.false_ne_true, fun _ => rfl⟩

theorem consistent_begin (s : State) (line : Text) : (begin s line).1.Consistent := by
  rw [begin_state]
  exact ⟨fun h => absurd h Bool.false_ne_true, fun _ => rfl⟩

theorem consistent_settle {s : State} (hs : s.Consistent) : s.settle.Consistent := by
  rw [settle_eq]
  refine ⟨fun h => ?_, hs.cleared⟩
  have hrendered := hs.rendered h
  dsimp only
  rw [hrendered]
  rfl

/-- A run that takes a result is at its end, where the phase becomes rendered in the same step. -/
theorem consistent_conclude {s : State} (given : Execution) (hs : s.Consistent) :
    (s.conclude codec given).1.Consistent := by
  rw [conclude_eq]
  split
  case isTrue => exact consistent_settle hs
  case isFalse =>
    refine ⟨fun _ => rfl, ?_⟩
    cases given.json? codec with
    | none => exact hs.cleared
    | some v => exact fun h => absurd h.symm Bool.false_ne_true

theorem consistent_resume {s : State} (hs : s.Consistent) (r : Run)
    (given : Except Failure r.point.Answer) : (resume codec s r given).1.Consistent := by
  obtain ⟨line, point⟩ := r
  cases given with
  | error e => exact consistent_settle hs
  | ok answer =>
    cases point with
    | opening => exact ⟨hs.rendered, hs.cleared⟩
    | placing view => exact hs
    | executing view => exact ⟨hs.rendered, hs.cleared⟩
    | showing view given => exact consistent_conclude given hs

theorem consistent_edit {s : State} (hs : s.Consistent) (e : Edit) :
    (s.edit codec e).1.Consistent := by
  obtain ⟨query, live, view, he⟩ := edit_state s codec e
  rw [he]
  exact ⟨hs.rendered, hs.cleared⟩

theorem consistent_after (hs : sc.state.Consistent) (event : Event) :
    (sc.after codec event).state.Consistent := by
  cases event with
  | start line => exact consistent_begin sc.state line
  | answer place r given => exact consistent_resume hs r given
  | edit e => exact consistent_edit hs e

theorem Interleaving.state_consistent (h : Interleaving codec live history sc) :
    sc.state.Consistent := by
  induction h with
  | nil => exact consistent_initial live
  | step _ event _ ih => exact consistent_after ih event

theorem settle_not_running (s : State) : s.settle.phase ≠ .running := by
  rw [settle_eq]
  dsimp only
  split
  · exact nofun
  · assumption

theorem conclude_not_running (s : State) (given : Execution) :
    (s.conclude codec given).1.phase ≠ .running := by
  rw [conclude_eq]
  split
  · exact settle_not_running s
  · exact nofun

/-- Only a run that goes on to wait again leaves the phase running. -/
theorem waits_of_running {s : State} {r : Run} {given : Except Failure r.point.Answer}
    (hp : (resume codec s r given).1.phase = .running) :
    ∃ next, (resume codec s r given).2 = .waits next := by
  obtain ⟨line, point⟩ := r
  cases given with
  | error e => exact absurd hp (settle_not_running s)
  | ok answer =>
    cases point with
    | opening => exact ⟨_, rfl⟩
    | placing view => exact ⟨_, rfl⟩
    | executing view => exact ⟨_, rfl⟩
    | showing view given => exact absurd hp (conclude_not_running s given)

theorem Interleaving.inFlight_of_running (h : Interleaving codec live history sc)
    (hp : sc.state.phase = .running) : sc.InFlight := by
  induction h with
  | nil => cases hp
  | @step history sc _ event hadmits ih =>
    cases event with
    | start line => exact ⟨sc.runs.length, _, List.getElem?_concat_length⟩
    | answer place r given =>
      obtain ⟨next, hnext⟩ := waits_of_running hp
      exact ⟨place, next, (waitsAt_after_answer hadmits).mpr hnext⟩
    | edit e =>
      obtain ⟨query, live, view, he⟩ := edit_state sc.state codec e
      change (sc.state.edit codec e).1.phase = .running at hp
      rw [he] at hp
      exact ih hp

/-- What holds in every scene, whatever the order of starts, answers, failures and edits. -/
theorem interleaving_consistent (h : Interleaving codec live history sc) :
    (sc.state.hasResult = true → sc.state.phase = .rendered) ∧
    (sc.state.hasResult = false → sc.state.parsedResult = .null) ∧
    (¬ sc.InFlight → sc.state.phase ≠ .running) :=
  ⟨h.state_consistent.rendered, h.state_consistent.cleared,
    fun hends hp => hends (h.inFlight_of_running hp)⟩

/-- The first run is shown with a result while the second one is still in flight. -/
theorem overlapped_consistent :
    let given : Execution := ⟨true, "1".toList, [], 0⟩
    let sc := overlapped .usual true "second".toList "view-1".toList given
    Interleaving .usual true (overlap "first".toList "second".toList "view-1".toList given) sc ∧
    sc.InFlight ∧ sc.state.hasResult = true ∧
    (sc.state.hasResult = true → sc.state.phase = .rendered) ∧
    (sc.state.hasResult = false → sc.state.parsedResult = .null) ∧
    (¬ sc.InFlight → sc.state.phase ≠ .running) := by
  intro given sc
  have h : Interleaving .usual true _ sc :=
    interleaving_overlap .usual true "first".toList "second".toList "view-1".toList rfl
  exact ⟨h, ⟨1, _, rfl⟩, rfl, interleaving_consistent h⟩

end LineAssist.LiveResult
