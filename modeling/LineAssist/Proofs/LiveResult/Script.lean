import LineAssist.Proofs.LiveResult.Consistency
import LineAssist.Proofs.LiveResult.Overlap

/-!
# What runs and edits ask for

The calls of an interleaving, each with its caller. However the runs overlap, each of them keeps to
the script of its own line, view and result, as far as it gets. An edit executes nothing, leaves
what runs decide as it is, and writes nothing while the phase is running.
-/

namespace LineAssist.LiveResult

variable {codec : Json.Codec} {live : Bool} {history : List Event} {sc : Scene}

/-! ## The calls of an interleaving -/

inductive Caller where
  | run (place : Nat)
  | edit
  deriving DecidableEq, Repr

/-- The calls that follow an event. A run that starts or goes on makes one, unless it is at its
end. The write of an edit is its last call, so that it is left out where an earlier one fails. -/
def Scene.calls (codec : Json.Codec) (sc : Scene) : Event → List (Caller × Call)
  | .start line => [(.run sc.runs.length, (begin sc.state line).2.call codec)]
  | .answer place r given =>
    match (resume codec sc.state r given).2 with
    | .waits next => [(.run place, next.call codec)]
    | _ => []
  | .edit e =>
    ((sc.state.edit codec e).2.write.map fun (view, content) =>
      (Caller.edit, Call.write view content)).toList

/-- The scene that events lead to, the newest event first. -/
def Scene.reached (codec : Json.Codec) (live : Bool) : List Event → Scene
  | [] => Scene.initial live
  | event :: history => (reached codec live history).after codec event

theorem Interleaving.reached_eq (h : Interleaving codec live history sc) :
    Scene.reached codec live history = sc := by
  induction h with
  | nil => rfl
  | step _ event _ ih => rw [Scene.reached, ih]

/-- All calls since the beginning in their order. -/
def trace (codec : Json.Codec) (live : Bool) : List Event → List (Caller × Call)
  | [] => []
  | event :: history =>
    trace codec live history ++ (Scene.reached codec live history).calls codec event

/-- A write or an execution of the run at a place. -/
def ownCall? (place : Nat) : Caller × Call → Option Call
  | (_, .openView) => none
  | (caller, call) => if caller = .run place then some call else none

/-- The writes and executions of the run at a place. -/
def callsOf (codec : Json.Codec) (live : Bool) (place : Nat) (history : List Event) : List Call :=
  (trace codec live history).filterMap (ownCall? place)

/-! ## The script of a run -/

/-- What a run has been given: its line, the view that it found open or was opened for it, and the
answer to its execution. -/
structure Account where
  line : Text
  view : Option Handle
  given : Option Execution
  deriving DecidableEq, Repr

/-- Adds the answer to a call. -/
def Account.add (a : Account) : (point : Point) → Except Failure point.Answer → Account
  | .opening, .ok view => { a with view := some view }
  | .executing _, .ok given => { a with given := some given }
  | _, _ => a

/-- What the run at a place has been given so far. -/
def account? (codec : Json.Codec) (live : Bool) (place : Nat) : List Event → Option Account
  | [] => none
  | .start line :: history =>
    if place = started history then
      some ⟨line, (Scene.reached codec live history).state.sideView, none⟩
    else account? codec live place history
  | .answer p r given :: history =>
    if place = p then (account? codec live place history).map fun a => a.add r.point given
    else account? codec live place history
  | .edit _ :: history => account? codec live place history

/-- The placeholder of the line, its execution and the content of the result, all in one view. -/
def Account.script (codec : Json.Codec) (a : Account) : List Call :=
  match a.view with
  | none => []
  | some view =>
    [.write view (placeholder a.line), .execute a.line] ++
      (a.given.map fun given => .write view (contentOf codec given)).toList

/-- What a run that waits must have been given. -/
def Run.account (r : Run) : Account :=
  match r.point with
  | .opening => ⟨r.line, none, none⟩
  | .placing view => ⟨r.line, some view, none⟩
  | .executing view => ⟨r.line, some view, none⟩
  | .showing view given => ⟨r.line, some view, some given⟩

/-- The number of calls of its script that a run has made when it waits. -/
def Point.made : Point → Nat
  | .opening => 0
  | .placing _ => 1
  | .executing _ => 2
  | .showing _ _ => 3

/-- The calls of a run go with what it has been given. Only a run that fails can be anywhere in its
script. -/
def Progress.Keeps (codec : Json.Codec) (calls : List Call) (a : Account) : Progress → Prop
  | .waits r => a = r.account ∧ calls = (a.script codec).take r.point.made
  | .done => a.given.isSome = true ∧ calls = a.script codec
  | .failed _ => calls <+: a.script codec

theorem prefix_of_keeps {calls : List Call} {a : Account} {progress : Progress}
    (h : progress.Keeps codec calls a) : calls <+: a.script codec := by
  cases progress with
  | waits r =>
    rw [h.2]
    exact List.take_prefix _ _
  | done => exact h.2 ▸ List.prefix_refl _
  | failed e => exact h

theorem ownCalls_write (place : Nat) (view : Handle) (content : Text) :
    [(Caller.run place, Call.write view content)].filterMap (ownCall? place) =
      [.write view content] := by
  simp [ownCall?]

theorem ownCalls_execute (place : Nat) (line : Text) :
    [(Caller.run place, Call.execute line)].filterMap (ownCall? place) = [.execute line] := by
  simp [ownCall?]

theorem ownCall?_other {place : Nat} {caller : Caller} (h : caller ≠ .run place) (call : Call) :
    ownCall? place (caller, call) = none := by
  cases call with
  | openView => rfl
  | write view content => exact if_neg h
  | execute line => exact if_neg h

/-- A run that starts makes the first call of its script, or asks for a view. -/
theorem keeps_begin (codec : Json.Codec) (s : State) (line : Text) (place : Nat) :
    (Progress.waits (begin s line).2).Keeps codec
      ([(Caller.run place, (begin s line).2.call codec)].filterMap (ownCall? place))
      ⟨line, s.sideView, none⟩ := by
  cases hview : s.sideView with
  | some view =>
    have hrun : (begin s line).2 = ⟨line, .placing view⟩ := by simp only [begin, hview]
    rw [hrun]
    exact ⟨rfl, ownCalls_write place view _⟩
  | none =>
    have hrun : (begin s line).2 = ⟨line, .opening⟩ := by simp only [begin, hview]
    rw [hrun]
    exact ⟨rfl, rfl⟩

/-- A run that has been shown makes no further call. -/
theorem calls_concluded (sc : Scene) (place : Nat) (line : Text) (view : Handle)
    (given : Execution) (answer : (Point.showing view given).Answer) :
    sc.calls codec (.answer place ⟨line, .showing view given⟩ (.ok answer)) = [] := by
  change (match (sc.state.conclude codec given).2 with
    | .waits next => [(Caller.run place, next.call codec)]
    | _ => []) = []
  split
  case h_1 next hnext => exact absurd hnext (conclude_ends sc.state codec given next)
  case h_2 => rfl

/-- An answer leads a run to the next call of its script, or to its end. -/
theorem keeps_resume (codec : Json.Codec) (sc : Scene) (place : Nat) (r : Run)
    (given : Except Failure r.point.Answer) :
    (resume codec sc.state r given).2.Keeps codec
      ((r.account.script codec).take r.point.made ++
        (sc.calls codec (.answer place r given)).filterMap (ownCall? place))
      (r.account.add r.point given) := by
  obtain ⟨line, point⟩ := r
  cases given with
  | error e =>
    have hadd : (Run.account ⟨line, point⟩).add point (.error e) = Run.account ⟨line, point⟩ := by
      cases point <;> rfl
    change _ ++ [] <+: ((Run.account ⟨line, point⟩).add point (.error e)).script codec
    rw [List.append_nil, hadd]
    exact List.take_prefix _ _
  | ok answer =>
    cases point with
    | opening => exact ⟨rfl, ownCalls_write place answer _⟩
    | placing view => exact ⟨rfl, congrArg (_ :: ·) (ownCalls_execute place line)⟩
    | executing view => exact ⟨rfl, congrArg (_ :: _ :: ·) (ownCalls_write place view _)⟩
    | showing view given =>
      rw [calls_concluded]
      change (sc.state.conclude codec given).2.Keeps codec _ _
      rw [conclude_eq]
      split
      case isTrue => exact List.prefix_refl _
      case isFalse => exact ⟨rfl, rfl⟩

/-! ## Every run keeps to its script -/

/-- The one whose calls follow an event; a run that starts takes the next place. -/
def Event.caller (places : Nat) : Event → Caller
  | .start _ => .run places
  | .answer place _ _ => .run place
  | .edit _ => .edit

theorem caller_of_mem_calls {event : Event} {c : Caller × Call} (h : c ∈ sc.calls codec event) :
    c.1 = event.caller sc.runs.length := by
  cases event with
  | start line =>
    rw [List.mem_singleton.mp h]
    rfl
  | answer place r given =>
    simp only [Scene.calls] at h
    split at h
    · rw [List.mem_singleton.mp h]
      rfl
    · cases h
  | edit e =>
    simp only [Scene.calls, Option.mem_toList, Option.map_eq_some_iff] at h
    obtain ⟨written, -, rfl⟩ := h
    rfl

theorem callsOf_cons (h : Interleaving codec live history sc) (event : Event) (place : Nat) :
    callsOf codec live place (event :: history) =
      callsOf codec live place history ++
        (sc.calls codec event).filterMap (ownCall? place) := by
  rw [callsOf, trace, List.filterMap_append, h.reached_eq, callsOf]

/-- What concerns another run, or none, adds no call. -/
theorem callsOf_of_caller_ne (h : Interleaving codec live history sc) {event : Event} {place : Nat}
    (hother : event.caller sc.runs.length ≠ .run place) :
    callsOf codec live place (event :: history) = callsOf codec live place history := by
  have hnil : (sc.calls codec event).filterMap (ownCall? place) = [] := by
    rw [List.filterMap_eq_nil_iff]
    rintro ⟨caller, call⟩ hc
    refine ownCall?_other ?_ call
    rw [show caller = _ from caller_of_mem_calls hc]
    exact hother
  rw [callsOf_cons h, hnil, List.append_nil]

theorem Interleaving.callsOf_unstarted (h : Interleaving codec live history sc) {place : Nat}
    (hplace : sc.runs.length ≤ place) : callsOf codec live place history = [] := by
  induction h with
  | nil => rfl
  | @step history sc h event hadmits ih =>
    cases event with
    | start line =>
      simp only [Scene.after, List.length_append, List.length_singleton] at hplace
      rw [callsOf_of_caller_ne h, ih (Nat.le_of_succ_le hplace)]
      rintro ⟨⟩
      exact absurd hplace (Nat.not_succ_le_self _)
    | answer p r given =>
      simp only [Scene.after, List.length_set] at hplace
      have hp : p < sc.runs.length := (List.getElem?_eq_some_iff.mp hadmits).1
      rw [callsOf_of_caller_ne h, ih hplace]
      rintro ⟨⟩
      exact absurd hplace (Nat.not_le.mpr hp)
    | edit e =>
      rw [callsOf_of_caller_ne h, ih hplace]
      rintro ⟨⟩

theorem Interleaving.keeps (h : Interleaving codec live history sc) {place : Nat}
    {progress : Progress} (hplace : sc.runs[place]? = some progress) :
    ∃ a, account? codec live place history = some a ∧
      progress.Keeps codec (callsOf codec live place history) a := by
  induction h generalizing progress with
  | nil => cases hplace
  | @step history sc h event hadmits ih =>
    cases event with
    | start line =>
      simp only [account?, h.reached_eq, ← h.runs_length]
      by_cases hnew : place = sc.runs.length
      · subst hnew
        change (sc.runs ++ [.waits (begin sc.state line).2])[sc.runs.length]? = _ at hplace
        rw [List.getElem?_concat_length] at hplace
        obtain rfl := Option.some.inj hplace
        rw [if_pos rfl, callsOf_cons h, h.callsOf_unstarted (Nat.le_refl _), List.nil_append]
        exact ⟨_, rfl, keeps_begin codec sc.state line _⟩
      · have hold : sc.runs[place]? = some progress := by
          change (sc.runs ++ [.waits (begin sc.state line).2])[place]? = _ at hplace
          have hlt := (List.getElem?_eq_some_iff.mp hplace).1
          rw [List.length_append, List.length_singleton] at hlt
          rwa [List.getElem?_append_left (by omega)] at hplace
        rw [if_neg hnew, callsOf_of_caller_ne h]
        · exact ih hold
        · rintro ⟨⟩
          exact hnew rfl
    | answer p r given =>
      change (sc.runs.set p (resume codec sc.state r given).2)[place]? = _ at hplace
      by_cases hsame : place = p
      · subst hsame
        obtain ⟨a, haccount, rfl, hcalls⟩ := ih hadmits
        rw [List.getElem?_set_self (List.getElem?_eq_some_iff.mp hadmits).1] at hplace
        obtain rfl := Option.some.inj hplace
        rw [account?, if_pos rfl, haccount, callsOf_cons h, hcalls]
        exact ⟨_, rfl, keeps_resume codec sc place r given⟩
      · rw [List.getElem?_set_ne (Ne.symm hsame)] at hplace
        rw [account?, if_neg hsame, callsOf_of_caller_ne h]
        · exact ih hplace
        · rintro ⟨⟩
          exact hsame rfl
    | edit e =>
      rw [account?, callsOf_of_caller_ne h]
      · exact ih hplace
      · rintro ⟨⟩

/-! ## Edits -/

/-- Without a result there is nothing to write, and while the phase is running there is none. -/
theorem edit_write_of_running {s : State} (hs : s.Consistent) (hphase : s.phase = .running)
    (e : Edit) : (s.edit codec e).2.write = none := by
  have hresult : s.hasResult = false := by
    cases h : s.hasResult with
    | false => rfl
    | true =>
      have hrendered := hs.rendered h
      rw [hphase] at hrendered
      cases hrendered
  cases e with
  | query q => exact setQuery_of_no_result hresult q
  | line t => exact setQuery_of_no_result hresult _
  | toggle => simp [State.edit, hphase, Effect.none]
  | close view => rfl
  | render => exact rendering_of_no_result hresult

/-- However runs overlap, each of them makes a first part of the calls of its script, and all of
them if nothing fails. An edit executes nothing, changes nothing that runs decide and does not write
while the phase is running. -/
theorem calls_keep_to_script (h : Interleaving codec live history sc) :
    (∀ place progress, sc.runs[place]? = some progress →
      ∃ a, account? codec live place history = some a ∧
        callsOf codec live place history <+: a.script codec ∧
        (progress = .done → a.given.isSome = true ∧
          callsOf codec live place history = a.script codec)) ∧
    ∀ e, let next := (sc.after codec (.edit e)).state
      (∀ line, (Caller.edit, Call.execute line) ∉ sc.calls codec (.edit e)) ∧
      (next.sourceLine = sc.state.sourceLine ∧ next.rawOutput = sc.state.rawOutput ∧
        next.parsedResult = sc.state.parsedResult ∧ next.hasResult = sc.state.hasResult ∧
        next.phase = sc.state.phase) ∧
      (sc.state.phase = .running → sc.calls codec (.edit e) = []) := by
  refine ⟨?_, fun e => ⟨?_, ?_, ?_⟩⟩
  · intro place progress hplace
    obtain ⟨a, haccount, hkeeps⟩ := h.keeps hplace
    refine ⟨a, haccount, prefix_of_keeps hkeeps, ?_⟩
    rintro rfl
    exact hkeeps
  · intro line hmem
    simp only [Scene.calls, Option.mem_toList, Option.map_eq_some_iff] at hmem
    obtain ⟨written, -, hcall⟩ := hmem
    cases hcall
  · obtain ⟨query, live, view, he⟩ := edit_state sc.state codec e
    simp only [Scene.after, he, and_self]
  · intro hphase
    simp only [Scene.calls, edit_write_of_running h.state_consistent hphase e, Option.map_none,
      Option.toList_none]

/-- A second run has started while the first one waits for its execution, and live mode is turned
off. -/
theorem overlapping_calls :
    let history : List Event := [.start "second".toList,
      .answer 0 ⟨"first".toList, .placing "view-1".toList⟩ (.ok ()),
      .answer 0 ⟨"first".toList, .opening⟩ (.ok "view-1".toList), .start "first".toList]
    let sc := Scene.reached .usual true history
    Interleaving .usual true history sc ∧
    sc.runs[0]? = some (.waits ⟨"first".toList, .executing "view-1".toList⟩) ∧
    (∃ a, account? .usual true 0 history = some a ∧
      callsOf .usual true 0 history <+: a.script .usual) ∧
    sc.state.phase = .running ∧ sc.calls .usual (.edit .toggle) = [] := by
  intro history sc
  have hinitial : Interleaving .usual true [] (Scene.initial true) := .nil
  have h : Interleaving .usual true history sc :=
    (((hinitial.step (.start _) trivial).step
      (.answer 0 ⟨_, .opening⟩ (.ok "view-1".toList)) rfl).step
      (.answer 0 ⟨_, .placing _⟩ (.ok ())) rfl).step (.start _) trivial
  have hplace : sc.runs[0]? = some (.waits ⟨"first".toList, .executing "view-1".toList⟩) := rfl
  obtain ⟨a, haccount, hprefix, -⟩ := (calls_keep_to_script h).1 0 _ hplace
  exact ⟨h, hplace, ⟨a, haccount, hprefix⟩, rfl, ((calls_keep_to_script h).2 .toggle).2.2 rfl⟩

end LineAssist.LiveResult
