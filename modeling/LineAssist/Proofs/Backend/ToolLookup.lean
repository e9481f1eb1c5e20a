import LineAssist.Backend.Interleaving
import Mathlib.Data.List.Basic

/-!
# The tool is looked up once

The first call that needs the tool looks it up, in one step with keeping the answer, so that no
other call comes between. If the tool is missing, that call alone gives the notice, and from then on
nothing more is asked of the surroundings: every answer is empty, except that the call with the
notice fails when the notice does.
-/

namespace LineAssist.Backend

variable {b b' : Backend} {asked asked' : List (Nat × Request)} {requests : List Request}
  {history history' later : List Event} {place : Nat} {call : Call} {sc sc' start : Scene}

/-! ## The start of a call -/

/-- What a backend becomes when a call starts, where the call stands then, and what it has asked
for. -/
inductive Begins (b : Backend) : Backend → Call → List Request → Prop
  | idle : Begins b b (.status (.done [])) []
  | recalls {present : Bool} (known : b.available = some present) :
      Begins b b (.check (.done present)) []
  | executes (known : b.available = some true) (command : Text) :
      Begins b b (.status (.executing command)) [.execute command]
  | finds (unknown : b.available = none) :
      Begins b { b with available := some true } (.check (.done true)) [.look true]
  | findsAndExecutes (unknown : b.available = none) (command : Text) :
      Begins b { b with available := some true } (.status (.executing command))
        [.look true, .execute command]
  | misses (unknown : b.available = none) (silent : b.notifies = false) {call : Call}
      (answer : call = .check (.done false) ∨ call = .status (.done [])) :
      Begins b { b with available := some false } call [.look false]
  | notifies (unknown : b.available = none) (notifies : b.notifies = true) {call : Call}
      (waits : call.isNotifying = true) :
      Begins b { b with available := some false } call [.look false, .notice]

theorem check_of_known {present : Bool} (known : b.available = some present) (found : Bool) :
    b.check found = (b, .recalls present) := by
  rw [check, known]

theorem check_of_unknown (unknown : b.available = none) (found : Bool) :
    b.check found = ({ b with available := some found },
      if !found && b.notifies then .notifies else .looks found) := by
  rw [check, unknown]

theorem begins_check (sc : Scene) (found : Bool) : ∃ b' call requests,
    sc.after (.check found) = sc.begin b' call requests ∧ Begins sc.backend b' call requests := by
  refine ⟨(sc.backend.check found).1, .check (.begun (sc.backend.check found).2),
    (sc.backend.check found).2.requests, rfl, ?_⟩
  cases known : sc.backend.available with
  | some present =>
    rw [check_of_known known]
    exact .recalls known
  | none =>
    rw [check_of_unknown known]
    cases found with
    | true => exact .finds known
    | false =>
      by_cases notifies : sc.backend.notifies = true
      · rw [if_pos (by rwa [Bool.not_false, Bool.true_and])]
        exact .notifies known notifies rfl
      · rw [if_neg (by rwa [Bool.not_false, Bool.true_and])]
        exact .misses known (Bool.eq_false_iff.mpr notifies) (.inl rfl)

theorem begins_status (sc : Scene) (found : Bool) : ∃ b' call requests,
    sc.after (.status found) = sc.begin b' call requests ∧ Begins sc.backend b' call requests := by
  refine ⟨(sc.backend.askStatus found).1, .status (sc.backend.askStatus found).2.2,
    ((sc.backend.askStatus found).2.1.map Check.requests).getD [] ++
      (sc.backend.askStatus found).2.2.requests, rfl, ?_⟩
  unfold askStatus
  split
  case h_1 => exact .idle
  case h_2 command _ =>
    cases known : sc.backend.available with
    | some present =>
      rw [check_of_known known]
      cases present with
      | true => exact .executes known command
      | false => exact .idle
    | none =>
      rw [check_of_unknown known]
      cases found with
      | true => exact .findsAndExecutes known command
      | false =>
        by_cases notifies : sc.backend.notifies = true
        · rw [if_pos (by rwa [Bool.not_false, Bool.true_and])]
          exact .notifies known notifies rfl
        · rw [if_neg (by rwa [Bool.not_false, Bool.true_and])]
          exact .misses known (Bool.eq_false_iff.mpr notifies) (.inr rfl)

/-- Once a backend knows whether its tool is there, it stays as it is. -/
theorem Begins.backend_eq {present : Bool} (h : Begins b b' call requests)
    (known : b.available = some present) : b' = b := by
  cases h with
  | idle => rfl
  | recalls => rfl
  | executes => rfl
  | finds unknown => cases known.symm.trans unknown
  | findsAndExecutes unknown => cases known.symm.trans unknown
  | misses unknown => cases known.symm.trans unknown
  | notifies unknown => cases known.symm.trans unknown

/-- A call asks for nothing once the tool is known to be missing. -/
theorem Begins.requests_eq (h : Begins b b' call requests) (missing : b.available = some false) :
    requests = [] := by
  cases h with
  | idle => rfl
  | recalls => rfl
  | executes known => cases missing.symm.trans known
  | finds unknown => cases missing.symm.trans unknown
  | findsAndExecutes unknown => cases missing.symm.trans unknown
  | misses unknown => cases missing.symm.trans unknown
  | notifies unknown => cases missing.symm.trans unknown

/-! ## A call that goes on -/

theorem Scene.after_noticed (hcall : sc.calls[place]? = some call) (outcome : Except Failure Unit) :
    sc.after (.noticed place outcome) = sc.goOn place (call.noticed sc.backend outcome) := by
  rw [after, hcall]

/-- Behind its notice a call executes at most one command, and only when the tool is there. -/
theorem requests_noticed (b : Backend) (outcome : Except Failure Unit) (call : Call) :
    (call.noticed b outcome).requests = [] ∨ b.available = some true ∧
      ∃ command, (call.noticed b outcome).requests = [.execute command] := by
  cases call with
  | check c => exact .inl rfl
  | status q =>
    cases outcome with
    | error e => exact .inl rfl
    | ok given =>
      rw [Call.noticed, Call.requests, StatusQuery.noticed]
      split
      case h_1 => exact .inl rfl
      case h_2 command _ =>
        by_cases known : b.available = some true
        · rw [known]
          exact .inr ⟨rfl, command, rfl⟩
        · rw [beq_false_of_ne known]
          exact .inl rfl

theorem requests_noticed_of_missing (missing : b.available = some false)
    (outcome : Except Failure Unit) (call : Call) : (call.noticed b outcome).requests = [] := by
  rcases requests_noticed b outcome call with quiet | ⟨known, -⟩
  · exact quiet
  · cases missing.symm.trans known

theorem requests_executed (outcome : Except Failure Execution) :
    (Call.status (.executed outcome)).requests = [] := by
  cases outcome <;> rfl

theorem asked_goOn (sc : Scene) (place : Nat) (quiet : call.requests = []) :
    (sc.goOn place call).asked = sc.asked := by
  rw [Scene.goOn, quiet, List.map_nil, List.append_nil]

/-! ## The tool is known -/

theorem backend_after {present : Bool} (known : sc.backend.available = some present)
    (event : Event) : (sc.after event).backend = sc.backend := by
  cases event with
  | check found =>
    obtain ⟨b', call, requests, hafter, hbegins⟩ := begins_check sc found
    rw [hafter]
    exact hbegins.backend_eq known
  | status found =>
    obtain ⟨b', call, requests, hafter, hbegins⟩ := begins_status sc found
    rw [hafter]
    exact hbegins.backend_eq known
  | noticed place outcome =>
    rw [Scene.after]
    split <;> rfl
  | executed place outcome => rfl

theorem asked_begin (sc : Scene) (b : Backend) (call : Call) :
    (sc.begin b call []).asked = sc.asked := by
  rw [Scene.begin, List.map_nil, List.append_nil]

theorem asked_after (missing : sc.backend.available = some false) (event : Event) :
    (sc.after event).asked = sc.asked := by
  cases event with
  | check found =>
    obtain ⟨b', call, requests, hafter, hbegins⟩ := begins_check sc found
    rw [hafter, hbegins.requests_eq missing, asked_begin]
  | status found =>
    obtain ⟨b', call, requests, hafter, hbegins⟩ := begins_status sc found
    rw [hafter, hbegins.requests_eq missing, asked_begin]
  | noticed place outcome =>
    rw [Scene.after]
    split
    case h_1 => rfl
    case h_2 call _ => exact asked_goOn sc place (requests_noticed_of_missing missing outcome call)
  | executed place outcome => exact asked_goOn sc place (requests_executed outcome)

/-! ## What has been asked for -/

/-- What was asked for agrees with what the backend knows. -/
inductive Recorded (b : Backend) (asked : List (Nat × Request)) : Prop
  | unknown (known : b.available = none) (record : asked = [])
  | missing (place : Nat) (known : b.available = some false)
      (record : asked = [(place, .look false)] ∨ asked = [(place, .look false), (place, .notice)])
  | present (place : Nat) (executions : List (Nat × Text)) (known : b.available = some true)
      (record : asked = (place, .look true) :: executions.map fun e => (e.1, .execute e.2))

theorem Recorded.executes (h : Recorded b asked) (known : b.available = some true) (place : Nat)
    (command : Text) : Recorded b (asked ++ [(place, .execute command)]) := by
  cases h with
  | unknown unknown _ => cases known.symm.trans unknown
  | missing _ missing _ => cases known.symm.trans missing
  | present first executions _ record =>
    refine .present first (executions ++ [(place, command)]) known ?_
    rw [record, List.cons_append, List.map_append]
    rfl

theorem recorded_begin (h : Recorded b asked) (hbegins : Begins b b' call requests) (place : Nat) :
    Recorded b' (asked ++ requests.map fun r => (place, r)) := by
  have hfirst (unknown : b.available = none) : asked = [] := by
    cases h with
    | unknown _ record => exact record
    | missing _ known _ => cases unknown.symm.trans known
    | present _ _ known _ => cases unknown.symm.trans known
  cases hbegins with
  | idle => rwa [List.map_nil, List.append_nil]
  | recalls => rwa [List.map_nil, List.append_nil]
  | executes known command => exact h.executes known place command
  | finds unknown =>
    rw [hfirst unknown]
    exact .present place [] rfl rfl
  | findsAndExecutes unknown command =>
    rw [hfirst unknown]
    exact .present place [(place, command)] rfl rfl
  | misses unknown =>
    rw [hfirst unknown]
    exact .missing place rfl (.inl rfl)
  | notifies unknown =>
    rw [hfirst unknown]
    exact .missing place rfl (.inr rfl)

theorem recorded_noticed (h : Recorded sc.backend sc.asked) (place : Nat)
    (outcome : Except Failure Unit) (call : Call) :
    Recorded sc.backend (sc.goOn place (call.noticed sc.backend outcome)).asked := by
  rcases requests_noticed sc.backend outcome call with quiet | ⟨known, command, executes⟩
  · rwa [asked_goOn sc place quiet]
  · rw [Scene.goOn, executes]
    exact h.executes known place command

theorem recorded_after (h : Recorded sc.backend sc.asked) (event : Event) :
    Recorded (sc.after event).backend (sc.after event).asked := by
  cases event with
  | check found =>
    obtain ⟨b', call, requests, hafter, hbegins⟩ := begins_check sc found
    rw [hafter]
    exact recorded_begin h hbegins sc.calls.length
  | status found =>
    obtain ⟨b', call, requests, hafter, hbegins⟩ := begins_status sc found
    rw [hafter]
    exact recorded_begin h hbegins sc.calls.length
  | noticed place outcome =>
    rw [Scene.after]
    split
    case h_1 => exact h
    case h_2 call _ => exact recorded_noticed h place outcome call
  | executed place outcome =>
    rw [Scene.after, asked_goOn sc place (requests_executed outcome)]
    exact h

theorem Recorded.missing_of_notice (h : Recorded b asked) (noticed : (place, .notice) ∈ asked) :
    b.available = some false := by
  cases h with
  | unknown _ record =>
    rw [record] at noticed
    cases noticed
  | missing _ known _ => exact known
  | present _ executions _ record => simp [record] at noticed

theorem Recorded.look_of_notice (h : Recorded b asked) (noticed : (place, .notice) ∈ asked) :
    (place, .look false) ∈ asked := by
  cases h with
  | unknown _ record =>
    rw [record] at noticed
    cases noticed
  | missing first _ record =>
    rcases record with record | record <;> simp_all
  | present _ executions _ record => simp [record] at noticed

theorem Recorded.available_of_look {found : Bool} (h : Recorded b asked)
    (looked : (place, .look found) ∈ asked) : b.available = some found := by
  cases h with
  | unknown _ record =>
    rw [record] at looked
    cases looked
  | missing first known record =>
    rw [known]
    rcases record with record | record <;> simp_all
  | present _ executions known record =>
    rw [known]
    simp_all

theorem countP_executions {p : Nat × Request → Bool}
    (hp : ∀ place command, p (place, .execute command) = false)
    (executions : List (Nat × Text)) :
    (executions.map fun e => (e.1, Request.execute e.2)).countP p = 0 := by
  rw [List.countP_map]
  exact List.countP_eq_zero.mpr fun e _ => Bool.eq_false_iff.mp (hp e.1 e.2)

theorem Recorded.countP_isLook (h : Recorded b asked) :
    asked.countP (fun r => r.2.isLook) ≤ 1 := by
  cases h with
  | unknown _ record => simp [record]
  | missing _ _ record => rcases record with record | record <;> simp [record, Request.isLook]
  | present _ executions _ record =>
    rw [record, List.countP_cons, countP_executions fun _ _ => rfl]
    simp [Request.isLook]

theorem Recorded.countP_notice (h : Recorded b asked) :
    asked.countP (fun r => r.2 = .notice) ≤ 1 := by
  cases h with
  | unknown _ record => simp [record]
  | missing _ _ record => rcases record with record | record <;> simp [record]
  | present _ executions _ record =>
    rw [record, List.countP_cons, countP_executions fun _ _ => rfl]
    simp

theorem Recorded.not_execute {command : Text} (h : Recorded b asked)
    (missing : b.available = some false) : (place, .execute command) ∉ asked := by
  cases h with
  | unknown known _ => cases missing.symm.trans known
  | missing _ _ record => rcases record with record | record <;> simp [record]
  | present _ _ known _ => cases missing.symm.trans known

/-! ## Where the calls stand -/

/-- Where the call at a place stands agrees with what the backend knows and with what was asked for.
Only the call that gave the notice waits for it or fails with it. -/
inductive Fits (b : Backend) (asked : List (Nat × Request)) (history : List Event)
    (place : Nat) : Call → Prop
  | answered {present : Bool} (known : b.available = some present) :
      Fits b asked history place (.check (.done present))
  | empty : Fits b asked history place (.status (.done []))
  | executes (known : b.available = some true) {q : StatusQuery} (goes : q ≠ .notifying) :
      Fits b asked history place (.status q)
  | waits {call : Call} (noticed : (place, .notice) ∈ asked) (waiting : call.isNotifying = true) :
      Fits b asked history place call
  | failed {call : Call} {e : Failure} (noticed : (place, .notice) ∈ asked)
      (given : .noticed place (.error e) ∈ history) (failure : call.failure? = some e) :
      Fits b asked history place call

theorem Fits.mono (h : Fits b asked history place call)
    (hknown : ∀ present, b.available = some present → b'.available = some present)
    (hasked : asked ⊆ asked') (hhistory : history ⊆ history') :
    Fits b' asked' history' place call := by
  cases h with
  | answered known => exact .answered (hknown _ known)
  | empty => exact .empty
  | executes known goes => exact .executes (hknown _ known) goes
  | waits noticed waiting => exact .waits (hasked noticed) waiting
  | failed noticed given failure => exact .failed (hasked noticed) (hhistory given) failure

theorem Begins.fits (h : Begins b b' call requests) (history : List Event) (place : Nat) :
    Fits b' (asked ++ requests.map fun r => (place, r)) history place call := by
  cases h with
  | idle => exact .empty
  | recalls known => exact .answered known
  | executes known => exact .executes known nofun
  | finds => exact .answered rfl
  | findsAndExecutes => exact .executes rfl nofun
  | misses _ _ answer =>
    rcases answer with rfl | rfl
    · exact .answered rfl
    · exact .empty
  | notifies _ _ waits => exact .waits (by simp) waits

/-- Every call fits. -/
def Scene.AllFit (sc : Scene) (history : List Event) : Prop :=
  ∀ place call, sc.calls[place]? = some call → Fits sc.backend sc.asked history place call

theorem allFit_begin (h : sc.AllFit history) (hbegins : Begins sc.backend b call requests)
    (event : Event) : (sc.begin b call requests).AllFit (event :: history) := by
  intro place other hother
  change (sc.calls ++ [call])[place]? = some other at hother
  rcases Nat.lt_or_ge place sc.calls.length with hlt | hge
  · rw [List.getElem?_append_left hlt] at hother
    refine (h place other hother).mono (fun present known => ?_) (List.subset_append_left _ _)
      (List.subset_cons_self _ _)
    change b.available = some present
    rw [hbegins.backend_eq known, known]
  · rw [List.getElem?_append_right hge] at hother
    obtain ⟨hplace, rfl⟩ := List.getElem?_eq_some_iff.mp hother
    obtain rfl : place = sc.calls.length := by
      rw [List.length_singleton] at hplace
      omega
    have hfirst : [call][sc.calls.length - sc.calls.length] = call := by simp
    rw [hfirst]
    exact hbegins.fits (event :: history) sc.calls.length

/-- The call at a place goes on and fits. -/
theorem allFit_goOn (h : sc.AllFit history) (quiet : call.requests = []) (event : Event)
    (hfits : Fits sc.backend sc.asked (event :: history) place call) :
    (sc.goOn place call).AllFit (event :: history) := by
  intro other next hnext
  rw [asked_goOn sc place quiet]
  change (sc.calls.set place call)[other]? = some next at hnext
  rw [List.getElem?_set] at hnext
  split at hnext
  case isTrue hplace =>
    subst hplace
    split at hnext
    case isTrue => rwa [← Option.some.inj hnext]
    case isFalse => cases hnext
  case isFalse =>
    exact (h other next hnext).mono (fun _ => id) (fun _ => id) (List.subset_cons_self _ _)

/-- With the notice a status query has ended: the tool has been found missing. -/
theorem StatusQuery.noticed_of_missing (missing : b.available = some false) :
    noticed b (.ok ()) = .done [] := by
  rw [noticed, missing]
  split <;> rfl

theorem fits_noticed (hrecord : Recorded b asked) (noticed : (place, .notice) ∈ asked)
    (outcome : Except Failure Unit) (call : Call) :
    Fits b asked (.noticed place outcome :: history) place (call.noticed b outcome) := by
  have hmissing := hrecord.missing_of_notice noticed
  cases outcome with
  | error e => cases call <;> exact .failed noticed List.mem_cons_self rfl
  | ok answer =>
    cases call with
    | check c =>
      rw [Call.noticed, ToolCheck.noticed, hmissing]
      exact .answered hmissing
    | status q =>
      rw [Call.noticed, StatusQuery.noticed_of_missing hmissing]
      exact .empty

/-- A call that waits for a notice has given it. -/
theorem Fits.noticed_of_notifying (h : Fits b asked history place call)
    (hnotifying : call.isNotifying = true) : (place, .notice) ∈ asked := by
  cases h with
  | answered => cases hnotifying
  | empty => cases hnotifying
  | executes _ goes =>
    rename_i q
    cases q with
    | notifying => exact absurd rfl goes
    | _ => cases hnotifying
  | waits noticed => exact noticed
  | failed noticed => exact noticed

/-- Without the tool a status is empty, unless its query gave the notice. -/
theorem Fits.status_of_missing {q : StatusQuery} (h : Fits b asked history place (.status q))
    (missing : b.available = some false) :
    q = .done [] ∨ (place, .notice) ∈ asked ∧
      (q = .notifying ∨ ∃ e, q = .failed e ∧ .noticed place (.error e) ∈ history) := by
  cases h with
  | empty => exact .inl rfl
  | executes known => cases missing.symm.trans known
  | waits noticed waiting =>
    cases q with
    | notifying => exact .inr ⟨noticed, .inl rfl⟩
    | _ => cases waiting
  | @failed _ e noticed given failure =>
    cases q with
    | failed e' =>
      obtain rfl : e' = e := Option.some.inj failure
      exact .inr ⟨noticed, .inr ⟨e', rfl, given⟩⟩
    | _ => cases failure

theorem Fits.available_of_executing {command : Text}
    (h : Fits b asked history place (.status (.executing command))) : b.available = some true := by
  cases h with
  | executes known => exact known
  | waits _ waiting => cases waiting
  | failed _ _ failure => cases failure

theorem allFit_noticed (hrecord : Recorded sc.backend sc.asked) (h : sc.AllFit history)
    {outcome : Except Failure Unit} (hadmits : sc.Admits (.noticed place outcome)) :
    (sc.after (.noticed place outcome)).AllFit (.noticed place outcome :: history) := by
  obtain ⟨waiting, hwaiting, hnotifying⟩ := hadmits
  have hnoticed := (h place waiting hwaiting).noticed_of_notifying hnotifying
  rw [Scene.after_noticed hwaiting]
  exact allFit_goOn h
    (requests_noticed_of_missing (hrecord.missing_of_notice hnoticed) outcome waiting) _
    (fits_noticed hrecord hnoticed outcome waiting)

theorem allFit_executed (h : sc.AllFit history) {outcome : Except Failure Execution}
    (hadmits : sc.Admits (.executed place outcome)) :
    (sc.after (.executed place outcome)).AllFit (.executed place outcome :: history) := by
  obtain ⟨command, hexecuting⟩ := hadmits
  have hpresent := (h place _ hexecuting).available_of_executing
  have hgoes : StatusQuery.executed outcome ≠ .notifying := by cases outcome <;> exact nofun
  exact allFit_goOn h (requests_executed outcome) _ (.executes hpresent hgoes)

theorem allFit_after (hrecord : Recorded sc.backend sc.asked) (h : sc.AllFit history)
    {event : Event} (hadmits : sc.Admits event) : (sc.after event).AllFit (event :: history) := by
  cases event with
  | check found =>
    obtain ⟨b', call, requests, hafter, hbegins⟩ := begins_check sc found
    rw [hafter]
    exact allFit_begin h hbegins _
  | status found =>
    obtain ⟨b', call, requests, hafter, hbegins⟩ := begins_status sc found
    rw [hafter]
    exact allFit_begin h hbegins _
  | noticed place outcome => exact allFit_noticed hrecord h hadmits
  | executed place outcome => exact allFit_executed h hadmits

/-! ## Whole histories -/

theorem Scene.Leads.trans (h : start.Leads history sc) (hlater : sc.Leads later sc') :
    start.Leads (later ++ history) sc' := by
  induction hlater with
  | nil => exact h
  | step _ event admits ih => exact ih.step event admits

theorem Scene.Leads.recorded (hnew : b.available = none) (h : (Scene.initial b).Leads history sc) :
    Recorded sc.backend sc.asked := by
  induction h with
  | nil => exact .unknown hnew rfl
  | step _ event _ ih => exact recorded_after ih event

theorem Scene.Leads.allFit (hnew : b.available = none) (h : (Scene.initial b).Leads history sc) :
    sc.AllFit history := by
  induction h with
  | nil => exact nofun
  | step earlier event admits ih => exact allFit_after (earlier.recorded hnew) ih admits

theorem Scene.Leads.backend_eq {present : Bool} (h : start.Leads history sc)
    (known : start.backend.available = some present) : sc.backend = start.backend := by
  induction h with
  | nil => rfl
  | @step history sc _ event _ ih =>
    rw [← ih] at known ⊢
    exact backend_after known event

theorem Scene.Leads.asked_eq (h : start.Leads history sc)
    (missing : start.backend.available = some false) : sc.asked = start.asked := by
  induction h with
  | nil => rfl
  | @step history sc earlier event _ ih =>
    rw [← ih]
    refine asked_after ?_ event
    rw [earlier.backend_eq missing, missing]

/-- However checks and status queries overlap, and whatever becomes of the notice, the tool is
looked up at most once, by which the backend knows for good whether it is there, and the notice is
given at most once, by the call that found the tool missing. Once the tool is known to be missing,
nothing is executed, there are no completions and no hovers, and a status is empty, unless the
notice that its own query gave is pending or has failed. -/
theorem tool_looked_up_once (hnew : b.available = none) (h : (Scene.initial b).Leads history sc)
    (hlater : sc.Leads later sc') :
    sc.asked.countP (fun r => r.2.isLook) ≤ 1 ∧
    (∀ place found, (place, .look found) ∈ sc.asked → sc.backend.available = some found) ∧
    (∀ (place : Nat) present, sc.calls[place]? = some (.check (.done present)) →
      sc.backend.available = some present) ∧
    (∀ present, sc.backend.available = some present → sc'.backend.available = some present) ∧
    sc.asked.countP (fun r => r.2 = .notice) ≤ 1 ∧
    (∀ place, (place, .notice) ∈ sc.asked → (place, .look false) ∈ sc.asked) ∧
    (sc.backend.available = some false →
      sc'.asked = sc.asked ∧ (∀ place command, (place, .execute command) ∉ sc'.asked) ∧
      (∀ r, sc'.backend.completions r = .ok []) ∧ (∀ r, sc'.backend.hover r = none) ∧
      ∀ (place : Nat) q, sc'.calls[place]? = some (.status q) → q = .done [] ∨
        (place, .notice) ∈ sc'.asked ∧ (q = .notifying ∨
          ∃ e, q = .failed e ∧ .noticed place (.error e) ∈ later ++ history)) := by
  have hrecord := h.recorded hnew
  have hall := h.trans hlater
  refine ⟨hrecord.countP_isLook, fun place found => hrecord.available_of_look,
    fun place present hcall => ?_, fun present known => ?_, hrecord.countP_notice,
    fun place => hrecord.look_of_notice, fun missing => ?_⟩
  · cases h.allFit hnew place _ hcall with
    | answered known => exact known
    | waits _ waiting => cases waiting
    | failed _ _ failure => cases failure
  · rw [hlater.backend_eq known, known]
  · have hmissing : sc'.backend.available = some false := by
      rw [hlater.backend_eq missing, missing]
    refine ⟨hlater.asked_eq missing, fun place command => ?_, fun r => if_pos hmissing,
      fun r => if_pos hmissing, fun place q hcall => ?_⟩
    · exact (hall.recorded hnew).not_execute hmissing
    · exact (hall.allFit hnew place _ hcall).status_of_missing hmissing

/-- A status query gives the notice. While the notice is pending the tool is checked, and a lookup
would find it now; then the notice fails, and the status is asked for once more. -/
theorem missing_tool_overlapped :
    let b : Backend := ⟨⟨[], []⟩, "az".toList, some "status".toList, true, none⟩
    let e : Failure := .refused "closed".toList
    let history : List Event := [.status false]
    let later : List Event := [.status true, .noticed 0 (.error e), .check true]
    ∃ sc sc' : Scene, b.available = none ∧ (Scene.initial b).Leads history sc ∧
      sc.Leads later sc' ∧ sc.backend.available = some false ∧
      sc.calls = [.status .notifying] ∧ sc.asked = [(0, .look false), (0, .notice)] ∧
      sc'.calls = [.status (.failed e), .check (.done false), .status (.done [])] ∧
      sc'.asked = sc.asked ∧ ∀ r, sc'.backend.completions r = .ok [] := by
  intro b e history later
  have h : (Scene.initial b).Leads history ((Scene.initial b).after (.status false)) :=
    Scene.Leads.nil.step (.status false) trivial
  have hnothing : ((Scene.initial b).after (.status false)).Leads []
      ((Scene.initial b).after (.status false)) := .nil
  have hlater := ((hnothing.step (.check true) trivial).step (.noticed 0 (.error e))
    ⟨_, rfl, rfl⟩).step (.status true) trivial
  obtain ⟨-, -, -, -, -, -, hmissing⟩ := tool_looked_up_once rfl h hlater
  obtain ⟨hasked, -, hcompletions, -⟩ := hmissing rfl
  exact ⟨_, _, rfl, h, hlater, rfl, rfl, rfl, rfl, hasked, hcompletions⟩

end LineAssist.Backend
