import LineAssist.LiveResult.Interleaving

/-!
# What a step changes

Starting a run clears all that the last one left. Of the fields that runs decide, an answer changes
the raw output, the result or the phase. An edit changes none of them.
-/

namespace LineAssist

/-- The JSON value that an execution gives as its result. -/
def Execution.json? (given : Execution) (codec : Json.Codec) : Option Json :=
  if given.ok then (codec.read given.stdout).toOption else none

/-- The execution printed what nests too deep to be read. -/
def Execution.overflows (given : Execution) (codec : Json.Codec) : Bool :=
  given.ok && match codec.read given.stdout with
    | .error .tooDeep => true
    | _ => false

namespace LiveResult

variable {codec : Json.Codec}

theorem begin_state (s : State) (line : Text) :
    (begin s line).1 = { s with
      sourceLine := some line
      rawOutput := none
      parsedResult := .null
      hasResult := false
      queryExpression := none
      phase := .running } := by
  simp only [begin]
  split <;> rfl

theorem setQuery_state (s : State) (codec : Json.Codec) (q : Option Text) :
    (s.setQuery codec q).1 = { s with queryExpression := q } := by
  unfold State.setQuery
  split
  case isTrue h => rw [h]
  case isFalse => rfl

theorem rendering_of_no_result {s : State} (h : s.hasResult = false) :
    (s.rendering codec).write = none := by
  simp only [State.rendering, render, h, Bool.not_false, if_true, Option.bind_none]

theorem setQuery_of_no_result {s : State} (h : s.hasResult = false) (q : Option Text) :
    (s.setQuery codec q).2.write = none := by
  unfold State.setQuery
  split
  case isTrue => rfl
  case isFalse => simp only [h, Bool.and_false, Bool.false_eq_true, if_false, Effect.none]

/-- Only the query, the mode and the reference to the view are subject to edits. -/
theorem edit_state (s : State) (codec : Json.Codec) (e : Edit) :
    ∃ query live view, (s.edit codec e).1 =
      { s with queryExpression := query, queryEnabled := live, sideView := view } := by
  cases e with
  | query q => exact ⟨q, _, _, setQuery_state s codec q⟩
  | line t => exact ⟨_, _, _, setQuery_state s codec _⟩
  | toggle => exact ⟨_, _, _, rfl⟩
  | close view =>
    simp only [State.edit]
    split
    · exact ⟨_, _, _, rfl⟩
    · exact ⟨_, _, _, rfl⟩
  | render => exact ⟨_, _, _, rfl⟩

theorem json?_eq_some {given : Execution} {v : Json} :
    given.json? codec = some v ↔ given.ok = true ∧ codec.read given.stdout = .ok v := by
  unfold Execution.json?
  cases hok : given.ok with
  | false => simp
  | true => cases hr : codec.read given.stdout <;> simp [Except.toOption]

theorem overflows_iff {given : Execution} :
    given.overflows codec = true ↔ given.ok = true ∧ codec.read given.stdout = .error .tooDeep := by
  unfold Execution.overflows
  rw [Bool.and_eq_true]
  refine and_congr_right fun _ => ?_
  split
  case h_1 hread => simp only [hread]
  case h_2 hread => exact ⟨nofun, fun h => absurd h hread⟩

theorem overflows_of_json {given : Execution} {v : Json} (h : given.json? codec = some v) :
    given.overflows codec = false := by
  rw [Bool.eq_false_iff, ne_eq, overflows_iff, (json?_eq_some.mp h).2]
  exact fun h => nomatch h.2

theorem json?_of_overflows {given : Execution} (h : given.overflows codec = true) :
    given.json? codec = none := by
  cases hjson : given.json? codec with
  | none => rfl
  | some v =>
    rw [overflows_of_json hjson] at h
    cases h

/-- The state with a result, if there is a new one. -/
def State.holding (s : State) : Option Json → State
  | some v => { s with parsedResult := v, hasResult := true }
  | none => s

/-- A run takes exactly the JSON value that its execution gives, and fails with one that nests too
deep. -/
theorem take_eq (s : State) (codec : Json.Codec) (given : Execution) :
    s.take codec given =
      if given.overflows codec then .error .nesting else .ok (s.holding (given.json? codec)) := by
  unfold State.take Execution.overflows Execution.json? contentOf
  cases hok : given.ok with
  | false => rfl
  | true =>
    cases hread : codec.read given.stdout with
    | ok v => simp [hread, Except.toOption, State.holding]
    | error e => cases e <;> simp [hread, Except.toOption, State.holding]

/-- Where the output nests too deep, a run that has been shown ends as if the write had failed. -/
theorem conclude_eq (s : State) (codec : Json.Codec) (given : Execution) :
    s.conclude codec given =
      if given.overflows codec then (s.settle, .failed .nesting)
      else ({ s.holding (given.json? codec) with phase := .rendered }, .done) := by
  rw [State.conclude, take_eq]
  cases given.overflows codec <;> rfl

theorem conclude_of_json {given : Execution} {v : Json} (h : given.json? codec = some v)
    (s : State) : s.conclude codec given =
      ({ s with parsedResult := v, hasResult := true, phase := .rendered }, .done) := by
  rw [conclude_eq, overflows_of_json h, if_neg Bool.false_ne_true, h]
  rfl

theorem conclude_ends (s : State) (codec : Json.Codec) (given : Execution) (next : Run) :
    (s.conclude codec given).2 ≠ .waits next := by
  rw [conclude_eq]
  split <;> exact nofun

theorem holding_of_cleared {s : State} (hvalue : s.parsedResult = .null)
    (hresult : s.hasResult = false) (v? : Option Json) :
    s.holding v? = { s with parsedResult := v?.getD .null, hasResult := v?.isSome } := by
  cases v? with
  | none => simp only [State.holding, Option.getD_none, Option.isSome_none, ← hvalue, ← hresult]
  | some v => rfl

/-- The content of an execution with a JSON result is that JSON. -/
theorem read_contentOf {given : Execution} {v : Json} (h : given.json? codec = some v) :
    codec.read (contentOf codec given) = .ok v := by
  obtain ⟨hok, hread⟩ := json?_eq_some.mp h
  rw [contentOf, if_pos hok, hread]

theorem settle_eq (s : State) :
    s.settle = { s with phase := if s.phase = .running then .failed else s.phase } := by
  unfold State.settle
  split
  case isTrue => rfl
  case isFalse => rfl

theorem hasResult_settle (s : State) : s.settle.hasResult = s.hasResult := by
  rw [settle_eq]

/-- A run that ends without JSON leaves the result that there is. -/
theorem hasResult_conclude {s : State} {given : Execution} (h : given.json? codec = none) :
    (s.conclude codec given).1.hasResult = s.hasResult := by
  rw [conclude_eq, h]
  split
  · exact hasResult_settle s
  · rfl

/-- Whatever makes a run fail, it leaves the state settled. -/
theorem resume_failed {s : State} {r : Run} {given : Except Failure r.point.Answer} {e : Failure}
    (h : (resume codec s r given).2 = .failed e) : (resume codec s r given).1 = s.settle := by
  obtain ⟨line, point⟩ := r
  cases given with
  | error e => rfl
  | ok answer =>
    cases point with
    | opening => cases h
    | placing view => cases h
    | executing view => cases h
    | showing view given =>
      change (s.conclude codec given).2 = .failed e at h
      change (s.conclude codec given).1 = s.settle
      rw [conclude_eq] at h ⊢
      split at h
      case isTrue hover => rw [if_pos hover]
      case isFalse => cases h

/-- No answer to a run touches the line, the query or the mode. -/
theorem resume_state (s : State) (codec : Json.Codec) (r : Run)
    (given : Except Failure r.point.Answer) :
    ∃ raw value result view phase, (resume codec s r given).1 = { s with
      rawOutput := raw
      parsedResult := value
      hasResult := result
      sideView := view
      phase := phase } := by
  obtain ⟨line, point⟩ := r
  cases given with
  | error e => exact ⟨_, _, _, _, _, settle_eq s⟩
  | ok answer =>
    cases point with
    | opening => exact ⟨_, _, _, _, _, rfl⟩
    | placing view => exact ⟨_, _, _, _, _, rfl⟩
    | executing view => exact ⟨_, _, _, _, _, rfl⟩
    | showing view given =>
      change ∃ raw value result view phase, (s.conclude codec given).1 = _
      rw [conclude_eq]
      split
      case isTrue => exact ⟨_, _, _, _, _, settle_eq s⟩
      case isFalse =>
        cases given.json? codec with
        | none => exact ⟨_, _, _, _, _, rfl⟩
        | some v => exact ⟨_, _, _, _, _, rfl⟩

theorem waitsAt_after_answer {sc : Scene} {place : Nat} {r next : Run}
    {given : Except Failure r.point.Answer} (hwaits : sc.WaitsAt place r) :
    (sc.after codec (.answer place r given)).WaitsAt place next ↔
      (resume codec sc.state r given).2 = .waits next := by
  have hplace : place < sc.runs.length := (List.getElem?_eq_some_iff.mp hwaits).1
  change (sc.runs.set place _)[place]? = _ ↔ _
  rw [List.getElem?_set_self hplace, Option.some_inj]

/-- The first of two runs is shown to its end while the second one waits for its execution. -/
def overlap (first second : Text) (view : Handle) (given : Execution) : List Event :=
  [.answer 0 ⟨first, .showing view given⟩ (.ok ()),
    .answer 0 ⟨first, .executing view⟩ (.ok given), .answer 1 ⟨second, .placing view⟩ (.ok ()),
    .start second, .answer 0 ⟨first, .placing view⟩ (.ok ()),
    .answer 0 ⟨first, .opening⟩ (.ok view), .start first]

/-- The first run leaves its output, and its result if it has one, to the second. -/
def overlapped (codec : Json.Codec) (live : Bool) (second : Text) (view : Handle)
    (given : Execution) : Scene where
  state := {
    sourceLine := some second
    rawOutput := some (contentOf codec given)
    parsedResult := (given.json? codec).getD .null
    hasResult := (given.json? codec).isSome
    queryExpression := none
    queryEnabled := live
    sideView := some view
    phase := .rendered }
  runs := [.done, .waits ⟨second, .executing view⟩]

theorem interleaving_overlap (codec : Json.Codec) (live : Bool) (first second : Text)
    (view : Handle) {given : Execution} (hfits : given.overflows codec = false) :
    Interleaving codec live (overlap first second view given)
      (overlapped codec live second view given) := by
  have hinitial : Interleaving codec live [] (Scene.initial live) := .nil
  have hplaced := ((hinitial.step (.start first) trivial).step
    (.answer 0 ⟨first, .opening⟩ (.ok view)) rfl).step
    (.answer 0 ⟨first, .placing view⟩ (.ok ())) rfl
  have hexecuted := ((hplaced.step (.start second) trivial).step
    (.answer 1 ⟨second, .placing view⟩ (.ok ())) rfl).step
    (.answer 0 ⟨first, .executing view⟩ (.ok given)) rfl
  have hshown := hexecuted.step (.answer 0 ⟨first, .showing view given⟩ (.ok ())) rfl
  change Interleaving codec live _
    ⟨(State.conclude _ codec given).1, [(State.conclude _ codec given).2, _]⟩ at hshown
  rw [conclude_eq, hfits, if_neg Bool.false_ne_true, holding_of_cleared rfl rfl] at hshown
  exact hshown

end LiveResult

end LineAssist
