import LineAssist.Proofs.LiveResult.Interleaving

/-!
# The state as its history left it

The raw output is that of the newest execution since a run was last started, and the result that of
the newest run since then to be shown to its end with JSON. With runs that overlap these need not be
one run. The phase tells of any run shown since the last start, and a run that fails after that
leaves it as it is. A run whose output nests too deep to be read fails.
-/

namespace LineAssist.LiveResult

variable {codec : Json.Codec} {live : Bool} {history : List Event} {sc : Scene}

/-- The events since a run was last started, the newest first. -/
def sinceStart : List Event → List Event
  | [] => []
  | .start _ :: _ => []
  | event :: history => event :: sinceStart history

/-- The execution that an event hands to its run. -/
def Event.executed? : Event → Option Execution
  | .answer _ ⟨_, .executing _⟩ (.ok given) => some given
  | _ => none

/-- The execution that has been shown when an event ends its run well. -/
def Event.shown? (codec : Json.Codec) : Event → Option Execution
  | .answer _ ⟨_, .showing _ given⟩ (.ok _) => if given.overflows codec then none else some given
  | _ => none

/-- The newest execution since the last start. -/
def lastExecution (history : List Event) : Option Execution :=
  (sinceStart history).findSome? Event.executed?

/-- The JSON of the newest run since the last start that was shown with JSON. -/
def lastJson (codec : Json.Codec) (history : List Event) : Option Json :=
  (sinceStart history).findSome? fun event =>
    (event.shown? codec).bind fun given => given.json? codec

/-- No run has been shown to its end since the last start. -/
def Unshown (codec : Json.Codec) (history : List Event) : Prop :=
  ∀ event ∈ sinceStart history, event.shown? codec = none

structure Recorded (codec : Json.Codec) (history : List Event) (s : State) : Prop where
  rawOutput : s.rawOutput = (lastExecution history).map (contentOf codec)
  hasResult : s.hasResult = (lastJson codec history).isSome
  parsedResult : s.parsedResult = (lastJson codec history).getD .null
  rendered : s.phase = .rendered ↔ ¬ Unshown codec history

/-- An event that neither starts, executes nor shows a run leaves what is recorded as it is. -/
theorem Recorded.of_silent {s t : State} {event : Event} (hs : Recorded codec history s)
    (hsince : sinceStart (event :: history) = event :: sinceStart history)
    (hexecuted : event.executed? = none) (hshown : event.shown? codec = none)
    (hraw : t.rawOutput = s.rawOutput) (hhas : t.hasResult = s.hasResult)
    (hparsed : t.parsedResult = s.parsedResult)
    (hphase : t.phase = .rendered ↔ s.phase = .rendered) :
    Recorded codec (event :: history) t := by
  have hexecution : lastExecution (event :: history) = lastExecution history := by
    simp only [lastExecution, hsince, List.findSome?_cons, hexecuted]
  have hjson : lastJson codec (event :: history) = lastJson codec history := by
    simp only [lastJson, hsince, List.findSome?_cons, hshown, Option.bind_none]
  have hunshown : Unshown codec (event :: history) ↔ Unshown codec history := by
    simp only [Unshown, hsince, List.forall_mem_cons, hshown, true_and]
  constructor
  · rw [hraw, hexecution, hs.rawOutput]
  · rw [hhas, hjson, hs.hasResult]
  · rw [hparsed, hjson, hs.parsedResult]
  · rw [hphase, hunshown, hs.rendered]

theorem recorded_start (codec : Json.Codec) (history : List Event) (s : State) (line : Text) :
    Recorded codec (.start line :: history) (begin s line).1 := by
  rw [begin_state]
  constructor
  · rfl
  · rfl
  · rfl
  · refine ⟨nofun, fun h => absurd ?_ h⟩
    exact List.forall_mem_nil _

theorem recorded_executed {s : State} (hs : Recorded codec history s) (place : Nat) (line : Text)
    (view : Handle) (given : Execution) :
    Recorded codec (.answer place ⟨line, .executing view⟩ (.ok given) :: history)
      { s with rawOutput := some (contentOf codec given) } where
  rawOutput := rfl
  hasResult := hs.hasResult
  parsedResult := hs.parsedResult
  rendered := by
    have hunshown : Unshown codec (.answer place ⟨line, .executing view⟩ (.ok given) :: history) ↔
        Unshown codec history := by
      simp only [Unshown, sinceStart, List.forall_mem_cons, Event.shown?, true_and]
    rw [hunshown]
    exact hs.rendered

theorem lastJson_shown (codec : Json.Codec) (history : List Event) (place : Nat) (line : Text)
    (view : Handle) (given : Execution) :
    lastJson codec (.answer place ⟨line, .showing view given⟩ (.ok ()) :: history) =
      (given.json? codec).or (lastJson codec history) := by
  simp only [lastJson, sinceStart, List.findSome?_cons, Event.shown?]
  cases hover : given.overflows codec with
  | true =>
    rw [json?_of_overflows hover]
    rfl
  | false =>
    rw [if_neg Bool.false_ne_true, Option.bind_some]
    cases given.json? codec <;> rfl

/-- A run that fails leaves a phase that is not its own. -/
theorem Recorded.of_settle {s : State} {event : Event} (hs : Recorded codec history s)
    (hsince : sinceStart (event :: history) = event :: sinceStart history)
    (hexecuted : event.executed? = none) (hshown : event.shown? codec = none) :
    Recorded codec (event :: history) s.settle := by
  rw [settle_eq]
  refine hs.of_silent hsince hexecuted hshown rfl rfl rfl ?_
  dsimp only
  split
  case isTrue hp =>
    rw [hp]
    exact ⟨nofun, nofun⟩
  case isFalse => exact Iff.rfl

theorem recorded_failed {s : State} (hs : Recorded codec history s) (place : Nat) (r : Run)
    (e : Failure) : Recorded codec (.answer place r (.error e) :: history) s.settle := by
  obtain ⟨line, point⟩ := r
  refine hs.of_settle rfl ?_ ?_
  · cases point <;> rfl
  · cases point <;> rfl

theorem recorded_concluded {s : State} (hs : Recorded codec history s) (place : Nat) (line : Text)
    (view : Handle) (given : Execution) :
    Recorded codec (.answer place ⟨line, .showing view given⟩ (.ok ()) :: history)
      (s.conclude codec given).1 := by
  have hjson := lastJson_shown codec history place line view given
  rw [conclude_eq]
  split
  case isTrue hover => exact hs.of_settle rfl rfl (if_pos hover)
  case isFalse hfits =>
    have hphase :
        ¬ Unshown codec (.answer place ⟨line, .showing view given⟩ (.ok ()) :: history) := by
      intro h
      have hhead : (if given.overflows codec then none else some given) = none :=
        h _ List.mem_cons_self
      rw [if_neg hfits] at hhead
      cases hhead
    cases hgiven : given.json? codec with
    | none =>
      rw [hgiven, Option.none_or] at hjson
      exact ⟨hs.rawOutput, by rw [hjson]; exact hs.hasResult, by rw [hjson]; exact hs.parsedResult,
        fun _ => hphase, fun _ => rfl⟩
    | some v =>
      rw [hgiven, Option.some_or] at hjson
      exact ⟨hs.rawOutput, by rw [hjson]; rfl, by rw [hjson]; rfl, fun _ => hphase, fun _ => rfl⟩

theorem recorded_edit {s : State} (hs : Recorded codec history s) (e : Edit) :
    Recorded codec (.edit e :: history) (s.edit codec e).1 := by
  obtain ⟨query, live, view, he⟩ := edit_state s codec e
  rw [he]
  exact hs.of_silent rfl rfl rfl rfl rfl rfl Iff.rfl

theorem Interleaving.recorded (h : Interleaving codec live history sc) :
    Recorded codec history sc.state := by
  induction h with
  | nil => exact ⟨rfl, rfl, rfl, nofun, fun h => absurd (List.forall_mem_nil _) h⟩
  | @step history sc _ event _ ih =>
    cases event with
    | start line => exact recorded_start codec history sc.state line
    | edit e => exact recorded_edit ih e
    | answer place r given =>
      obtain ⟨line, point⟩ := r
      cases given with
      | error e => exact recorded_failed ih place ⟨line, point⟩ e
      | ok answer =>
        cases point with
        | opening => exact ih.of_silent rfl rfl rfl rfl rfl rfl Iff.rfl
        | placing view => exact ih.of_silent rfl rfl rfl rfl rfl rfl Iff.rfl
        | executing view => exact recorded_executed ih place line view answer
        | showing view given => exact recorded_concluded ih place line view given

end LineAssist.LiveResult
