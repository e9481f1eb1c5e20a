import LineAssist.Proofs.LiveResult.Wiring

/-!
# Runs start afresh

Of all that came before, a run keeps the open view and whether live mode is on. So two live results
that agree in these go the same way from a run on, as long as what they are wired to answers alike.
This does not ask for wirings in the same state: what one of them remembers of an earlier history
may differ, if it shows in no answer.
-/

namespace LineAssist.LiveResult

variable {σ τ ε α β : Type} {R : σ → τ → Prop} {a : σ} {b : τ}

/-- The same answer, with states behind it that belong together. -/
def Agree (R : σ → τ → Prop) (x : σ × α) (y : τ × α) : Prop :=
  x.2 = y.2 ∧ R x.1 y.1

/-- From states that belong together, two wirings answer every call alike. -/
structure Wiring.Alike (w : Wiring σ ε) (v : Wiring τ ε) (R : σ → τ → Prop) : Prop where
  openView : ∀ a b, R a b → Agree R (w.openView a) (v.openView b)
  write : ∀ a b, R a b → ∀ view content, Agree R (w.write a view content) (v.write b view content)
  execute : ∀ a b, R a b → ∀ line, Agree R (w.execute a line) (v.execute b line)
  evaluate : ∀ a b, R a b → ∀ q value, Agree R (w.evaluate a q value) (v.evaluate b q value)
  hearMode : ∀ a b, R a b → ∀ live, Agree R (w.hearMode a live) (v.hearMode b live)
  hearReport : ∀ a b, R a b → ∀ m, Agree R (w.hearReport a m) (v.hearReport b m)

variable {w : Wiring σ ε} {v : Wiring τ ε}

/-! ## Records -/

/-- States that belong together, with the same record. -/
def SameRecord (R : σ → τ → Prop) (x : σ × List Signal) (y : τ × List Signal) : Prop :=
  R x.1 y.1 ∧ x.2 = y.2

theorem agree_note {f : σ → σ × α} {g : τ → τ × α} (h : ∀ a b, R a b → Agree R (f a) (g b))
    (signal : Signal) (x : σ × List Signal) (y : τ × List Signal) (hxy : SameRecord R x y) :
    Agree (SameRecord R) (Wiring.note signal f x) (Wiring.note signal g y) := by
  obtain ⟨hstate, hrecord⟩ := hxy
  obtain ⟨hanswer, hnext⟩ := h x.1 y.1 hstate
  exact ⟨hanswer, hnext, congrArg (signal :: ·) hrecord⟩

theorem Wiring.Alike.recording (h : w.Alike v R) :
    w.recording.Alike v.recording (SameRecord R) where
  openView := agree_note h.openView _
  write := fun a b hab view content =>
    agree_note (fun a b hab => h.write a b hab view content) _ a b hab
  execute := fun a b hab line => agree_note (fun a b hab => h.execute a b hab line) _ a b hab
  evaluate := fun a b hab q value =>
    agree_note (fun a b hab => h.evaluate a b hab q value) _ a b hab
  hearMode := fun a b hab live => agree_note (fun a b hab => h.hearMode a b hab live) _ a b hab
  hearReport := fun a b hab m => agree_note (fun a b hab => h.hearReport a b hab m) _ a b hab

/-! ## Runs -/

theorem agree_reply (h : w.Alike v R) (hab : R a b) (codec : Json.Codec) (line : Text)
    (point : Point) :
    Agree R (w.reply codec a line point) (v.reply codec b line point) := by
  cases point with
  | opening => exact h.openView a b hab
  | placing view => exact h.write a b hab view _
  | executing view => exact h.execute a b hab line
  | showing view given => exact h.write a b hab view _

theorem agree_drive (h : w.Alike v R) (hab : R a b) (codec : Json.Codec) (n : Nat) (s : State)
    (progress : Progress) :
    Agree R (w.drive codec n a s progress) (v.drive codec n b s progress) := by
  induction n generalizing a b s progress with
  | zero => cases progress <;> exact ⟨rfl, hab⟩
  | succ n ih =>
    cases progress with
    | waits r =>
      obtain ⟨hanswer, hnext⟩ := agree_reply h hab codec r.line r.point
      -- One answer takes one state to one next state, so the runs part in nothing but `a` and `b`.
      simp only [Surroundings.drive, hanswer]
      exact ih hnext _ _
    | done => exact ⟨rfl, hab⟩
    | failed e => exact ⟨rfl, hab⟩

theorem agree_run (h : w.Alike v R) (hab : R a b) (codec : Json.Codec) (s : State) (line : Text) :
    Agree R (w.run codec a s line) (v.run codec b s line) :=
  agree_drive h hab codec callsOfRun _ _

/-! ## Edits -/

/-- Two courses of calls that answer alike from states that belong together. -/
def GoTogether (R : σ → τ → Prop) (m : Calls σ ε α) (n : Calls τ ε α) : Prop :=
  ∀ a b, R a b → Agree R (m.run.run a).swap (n.run.run b).swap

theorem together_pure (x : α) : GoTogether R (pure x : Calls σ ε α) (pure x) :=
  fun _ _ hab => ⟨rfl, hab⟩

theorem together_throw (e : Fault ε) : GoTogether R (throw e : Calls σ ε α) (throw e) :=
  fun _ _ hab => ⟨rfl, hab⟩

theorem GoTogether.bind {m : Calls σ ε α} {n : Calls τ ε α} {f : α → Calls σ ε β}
    {g : α → Calls τ ε β} (h : GoTogether R m n) (hnext : ∀ x, GoTogether R (f x) (g x)) :
    GoTogether R (m >>= f) (n >>= g) := by
  intro a b hab
  obtain ⟨hresult, hstate⟩ := h a b hab
  rw [run_bind, run_bind]
  generalize m.run.run a = p at hresult hstate ⊢
  generalize n.run.run b = q at hresult hstate ⊢
  obtain ⟨result, a⟩ := p
  obtain ⟨other, b⟩ := q
  obtain rfl : result = other := hresult
  cases result with
  | error e => exact ⟨rfl, hstate⟩
  | ok x => exact hnext x a b hstate

theorem together_call {f : σ → σ × Except Failure α} {g : τ → τ × Except Failure α}
    (h : ∀ a b, R a b → Agree R (f a) (g b)) :
    GoTogether R (Wiring.call f : Calls σ ε α) (Wiring.call g) := by
  intro a b hab
  obtain ⟨hanswer, hnext⟩ := h a b hab
  exact ⟨congrArg (Except.mapError Fault.outside) hanswer, hnext⟩

theorem together_compose (h : w.Alike v R) (codec : Json.Codec) (s : State) :
    GoTogether R (w.compose codec s) (v.compose codec s) := by
  have hjudge (q : Text) (value : Json) : GoTogether R (w.judge q value) (v.judge q value) :=
    fun a b hab => (h.evaluate a b hab q value).imp_left (congrArg Except.ok)
  unfold Wiring.compose
  split
  · exact together_pure _
  · split
    · split
      · exact together_pure _
      · exact together_throw _
    · refine (hjudge _ _).bind fun verdict => ?_
      cases verdict with
      | value r =>
        dsimp only
        split
        · exact together_pure _
        · exact together_throw _
      | complaint c => exact together_pure _
      | fault e => exact together_throw _

theorem together_tell (h : w.Alike v R) (r : Rendering) : GoTogether R (w.tell r) (v.tell r) := by
  unfold Wiring.tell
  split
  · exact together_call fun a b hab => h.hearReport a b hab _
  · exact together_pure ()

theorem together_put (h : w.Alike v R) (s : State) (r : Rendering) :
    GoTogether R (w.put s r) (v.put s r) := by
  unfold Wiring.put
  split
  · exact together_call fun a b hab => h.write a b hab _ _
  · exact together_pure ()

theorem together_render (h : w.Alike v R) (codec : Json.Codec) (s : State) :
    GoTogether R (w.render codec s) (v.render codec s) :=
  (together_compose h codec s).bind fun r =>
    (together_tell h r).bind fun _ => (together_put h s r).bind fun _ => together_pure _

/-- An edit changes the state in one way whatever the wiring, and goes on with the same calls. -/
theorem together_edit (h : w.Alike v R) (codec : Json.Codec) (s : State) (e : Edit) :
    (w.edit codec s e).1 = (v.edit codec s e).1 ∧
      GoTogether R (w.edit codec s e).2 (v.edit codec s e).2 := by
  have hquery (q : Option Text) :
      (w.setQuery codec s q).1 = (v.setQuery codec s q).1 ∧
        GoTogether R (w.setQuery codec s q).2 (v.setQuery codec s q).2 := by
    unfold Wiring.setQuery
    split
    · exact ⟨rfl, together_pure _⟩
    · refine ⟨rfl, ?_⟩
      dsimp only
      split
      · exact together_render h codec _
      · exact together_pure _
  cases e with
  | query q => exact hquery q
  | line t => exact hquery _
  | toggle =>
    refine ⟨rfl, (together_call fun a b hab => h.hearMode a b hab _).bind fun _ => ?_⟩
    split
    · exact together_render h codec _
    · exact together_pure _
  | close view => exact ⟨rfl, together_pure _⟩
  | render => exact ⟨rfl, together_render h codec s⟩

/-! ## Operations -/

theorem agree_operate (h : w.Alike v R) (hab : R a b) (codec : Json.Codec) (s : State)
    (op : Operation) : Agree R (w.operate codec a s op) (v.operate codec b s op) := by
  cases op with
  | run line =>
    obtain ⟨hresult, hnext⟩ := agree_run h hab codec s line
    simp only [Wiring.operate, hresult]
    exact ⟨rfl, hnext⟩
  | edit e =>
    obtain ⟨hstate, hcalls⟩ := together_edit h codec s e
    obtain ⟨hresult, hnext⟩ := hcalls a b hab
    exact ⟨Prod.ext hstate (congrArg Conclusion.edit hresult), hnext⟩

theorem agree_operateAll (h : w.Alike v R) (hab : R a b) (codec : Json.Codec) (s : State)
    (ops : List Operation) :
    Agree R (w.operateAll codec a s ops) (v.operateAll codec b s ops) := by
  induction ops generalizing a b s with
  | nil => exact ⟨rfl, hab⟩
  | cons op ops ih =>
    obtain ⟨hresult, hnext⟩ := agree_operate h hab codec s op
    simp only [Wiring.operateAll, hresult]
    obtain ⟨hresults, hend⟩ := ih hnext (v.operate codec b s op).2.1
    simp only [hresults]
    exact ⟨rfl, hend⟩

/-! ## What a run keeps -/

theorem begin_eq_of_agree {s t : State} (hview : s.sideView = t.sideView)
    (hlive : s.queryEnabled = t.queryEnabled) (line : Text) : begin s line = begin t line := by
  unfold begin
  rw [hview, hlive]

/-- From a run on, two live results go the same way if they agree on the open view and on live
mode: the calls and reports, what becomes of each operation, and the state in the end. -/
theorem run_forgets_history (h : w.Alike v R) (hab : R a b) {s t : State}
    (hview : s.sideView = t.sideView) (hlive : s.queryEnabled = t.queryEnabled)
    (codec : Json.Codec) (line : Text) (ops : List Operation) :
    let x := w.recording.operateAll codec (a, []) s (.run line :: ops)
    let y := v.recording.operateAll codec (b, []) t (.run line :: ops)
    x.1.2 = y.1.2 ∧ x.2.2 = y.2.2 ∧ x.2.1 = y.2.1 := by
  intro x y
  -- A beginning reads no more of a state than the view and the mode, so `s` may as well be `t`.
  have hstart : w.recording.operateAll codec (a, []) s (.run line :: ops) =
      w.recording.operateAll codec (a, []) t (.run line :: ops) := by
    simp only [Wiring.operateAll, Wiring.operate, Surroundings.run,
      begin_eq_of_agree hview hlive line]
  obtain ⟨hresult, -, hrecord⟩ := agree_operateAll (a := (a, [])) (b := (b, [])) h.recording
    ⟨hab, rfl⟩ codec t (.run line :: ops)
  rw [← hstart] at hresult hrecord
  exact ⟨hrecord, congrArg Prod.snd hresult, congrArg Prod.fst hresult⟩

/-- A wiring in which nothing fails but writes and queries; a write leads to a next state or is
refused. -/
def Wiring.rationed {σ : Type} (next? : σ → Option σ) : Wiring σ Unit where
  openView := fun a => (a, .ok "view-1".toList)
  write := fun a _ _ => match next? a with
    | some next => (next, .ok ())
    | none => (a, .error (.refused "edit rejected".toList))
  execute := fun a _ => (a, .ok ⟨true, "true".toList, [], 0⟩)
  evaluate := fun a q _ => (a, .complaint ⟨q, false, "no".toList⟩)
  hearMode := fun a _ => (a, .ok ())
  hearReport := fun a _ => (a, .ok ())

/-- Writes are counted up to three. -/
def countUp (n : Nat) : Option Nat :=
  if n < 3 then some (n + 1) else none

/-- Writes are counted down to none. -/
def countDown : Nat → Option Nat
  | 0 => none
  | n + 1 => some n

theorem alike_counts :
    (Wiring.rationed countUp).Alike (Wiring.rationed countDown) fun m n => m + n = 3 where
  openView := fun _ _ h => ⟨rfl, h⟩
  write := by
    intro m n h view content
    cases n with
    | zero =>
      have hm : ¬ m < 3 := by omega
      simp only [Wiring.rationed, countUp, countDown, if_neg hm]
      exact ⟨rfl, h⟩
    | succ n =>
      have hm : m < 3 := by omega
      simp only [Wiring.rationed, countUp, countDown, if_pos hm]
      exact ⟨rfl, by omega⟩
  execute := fun _ _ h _ => ⟨rfl, h⟩
  evaluate := fun _ _ h _ _ => ⟨rfl, h⟩
  hearMode := fun _ _ h _ => ⟨rfl, h⟩
  hearReport := fun _ _ h _ => ⟨rfl, h⟩

/-- One live result has shown something already and the other has failed. Both have two writes
left, which the run takes, so that switching live mode off fails after a report. -/
theorem rationed_runs_agree :
    let s : State := ⟨some "old".toList, some "1".toList, .int 1, true, some "x".toList, true,
      some "view-1".toList, .rendered⟩
    let t : State := ⟨none, none, .null, false, none, true, some "view-1".toList, .failed⟩
    let ops := [.run "show".toList, .edit (.query (some "y".toList)), .edit .toggle]
    let x := (Wiring.rationed countUp).recording.operateAll .usual (1, []) s ops
    let y := (Wiring.rationed countDown).recording.operateAll .usual (2, []) t ops
    (Wiring.rationed countUp).Alike (Wiring.rationed countDown) (fun m n => m + n = 3) ∧
    1 + 2 = 3 ∧ s.sideView = t.sideView ∧ s.queryEnabled = t.queryEnabled ∧
    x.1.2 = y.1.2 ∧ x.2.2 = y.2.2 ∧ x.2.1 = y.2.1 ∧ x.1.2.length = 7 := by
  intro s t ops x y
  obtain ⟨hcalls, hends, hstate⟩ := run_forgets_history (a := 1) (b := 2) (s := s) (t := t)
    alike_counts rfl rfl rfl .usual "show".toList
    [.edit (.query (some "y".toList)), .edit .toggle]
  exact ⟨alike_counts, rfl, rfl, rfl, hcalls, hends, hstate, by decide +kernel⟩

end LineAssist.LiveResult
