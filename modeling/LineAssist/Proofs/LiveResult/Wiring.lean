import LineAssist.LiveResult.Wiring
import LineAssist.Proofs.Computation

/-!
# Surroundings as a wiring

Among surroundings, with the evaluator of the query language, operations are what they are on the
wiring made of these: the same states and endings, and the listeners hear what the edits report.
-/

namespace LineAssist.LiveResult

/-! ## Effects of edits as calls -/

def Outcome.rendering (o : Outcome) : Rendering :=
  ⟨o.content, o.filtered, o.failure.map QueryFailure.complaint⟩

def RenderFault.fault : RenderFault → Fault Query.QueryError
  | .query e => .evaluation e
  | .dump e => .dump e

/-- What becomes of an edit with an effect, given what became of its write. -/
def Effect.conclusion (effect : Effect) (written : Except Failure Unit) :
    Except (Fault Query.QueryError) (Option Rendering) :=
  match effect.rendered with
  | .none => .ok .none
  | .some (.error e) => .error e.fault
  | .some (.ok o) => (written.mapError .outside).map fun _ => some o.rendering

/-- What an edit tells the listeners, the newest first. -/
def Effect.signals (effect : Effect) : List Signal :=
  (effect.reported.map .report).toList ++ (effect.toggled.map .mode).toList

def Ending.conclusion : Ending → Conclusion Query.QueryError
  | .run progress => .run progress
  | .edit effect written => .edit (effect.conclusion written)

def Ending.signals : Ending → List Signal
  | .run _ => []
  | .edit effect _ => effect.signals

section Calls

variable {σ ε α β : Type}

theorem run_bind (m : Calls σ ε α) (f : α → Calls σ ε β) (around : σ) :
    (m >>= f).run.run around =
      match m.run.run around with
      | (.ok x, next) => (f x).run.run next
      | (.error e, next) => (.error e, next) := by
  rw [ExceptT.run_bind, StateT.run_bind]
  rcases m.run.run around with ⟨_ | _, next⟩ <;> rfl

end Calls

section Wired

variable {σ : Type} {codec : Json.Codec} {s : State}

/-- Makes the write that an effect asks for. -/
def Surroundings.perform (w : Surroundings σ) (around : σ) (effect : Effect) :
    σ × Except Failure Unit :=
  match effect.write with
  | none => (around, .ok ())
  | some (view, content) => w.write around view content

/-- Carries out an effect: what becomes of it, the surroundings then, and what has been heard. -/
def Surroundings.carryOut (w : Surroundings σ) (around : σ) (heard : List Signal)
    (effect : Effect) :
    Except (Fault Query.QueryError) (Option Rendering) × σ × List Signal :=
  (effect.conclusion (w.perform around effect).2, (w.perform around effect).1,
    effect.signals ++ heard)

theorem edit_eq_perform (w : Surroundings σ) (codec : Json.Codec) (around : σ) (s : State)
    (e : Edit) :
    w.edit codec around s e = ((w.perform around (s.edit codec e).2).1, (s.edit codec e).1,
      (s.edit codec e).2, (w.perform around (s.edit codec e).2).2) := by
  unfold Surroundings.edit Surroundings.perform
  dsimp only
  cases (s.edit codec e).2.write <;> rfl

/-! ## Renderings -/

/-- The query language words the report about a failure as an evaluator's complaint is worded. -/
theorem complaint_report? {f : QueryFailure} (h : f.cause.isReported = true) :
    f.complaint.report? = f.report? := by
  unfold Complaint.report? QueryFailure.report? QueryFailure.complaint
  dsimp only
  cases hsyntactic : f.cause.isSyntactic with
  | true => rfl
  | false =>
    rw [Query.QueryError.isReported, hsyntactic, Bool.false_or] at h
    obtain ⟨m, hm⟩ := Option.isSome_iff_exists.mp h
    rw [hm]
    rfl

theorem isReported_of_render {o : Outcome} {f : QueryFailure} (h : render codec s = .ok o)
    (hf : o.failure = some f) : f.cause.isReported = true := by
  unfold render at h
  cases hresult : s.hasResult with
  | false =>
    rw [hresult] at h
    cases h
    cases hf
  | true =>
    rw [hresult, if_neg (by decide)] at h
    cases hquery : s.activeQuery with
    | none =>
      rw [hquery] at h
      cases hdump : dump codec s.parsedResult with
      | error e =>
        rw [hdump] at h
        cases h
      | ok t =>
        rw [hdump] at h
        cases h
        cases hf
    | some q =>
      rw [hquery] at h
      cases hsearch : Query.search q s.parsedResult with
      | error e =>
        simp only [hsearch] at h
        split at h
        case isTrue hreported =>
          cases h
          cases hf
          exact hreported
        case isFalse => cases h
      | ok v =>
        simp only [hsearch] at h
        cases hdump : dumpValue codec v with
        | error e =>
          rw [hdump] at h
          cases h
        | ok t =>
          rw [hdump] at h
          cases h
          cases hf

variable (w : Surroundings σ)

theorem run_compose (around : σ × List Signal) :
    (w.wired.compose codec s).run.run around =
      (((render codec s).mapError RenderFault.fault).map Outcome.rendering, around) := by
  unfold Wiring.compose render
  cases s.hasResult with
  | false => rfl
  | true =>
    cases s.activeQuery with
    | none =>
      dsimp only
      cases dump codec s.parsedResult <;> rfl
    | some q =>
      dsimp only
      have hjudge : (w.wired.judge q s.parsedResult).run.run around =
          (.ok (verdict q s.parsedResult), around) := rfl
      rw [if_neg (by decide), if_neg (by decide), run_bind, hjudge, verdict]
      cases Query.search q s.parsedResult with
      | ok v =>
        dsimp only
        cases dumpValue codec v <;> rfl
      | error e =>
        dsimp only
        cases e.isReported <;> rfl

theorem run_tell {o : Outcome} (h : render codec s = .ok o) (around : σ) (heard : List Signal) :
    (w.wired.tell o.rendering).run.run (around, heard) =
      (.ok (), around, ((o.failure.bind QueryFailure.report?).map .report).toList ++ heard) := by
  have hreport : o.rendering.complaint.bind Complaint.report? =
      o.failure.bind QueryFailure.report? := by
    cases hf : o.failure with
    | none => rw [Outcome.rendering, hf]; rfl
    | some f =>
      rw [Outcome.rendering, hf]
      exact complaint_report? (isReported_of_render h hf)
  rw [Wiring.tell, hreport]
  cases o.failure.bind QueryFailure.report? <;> rfl

theorem run_put {r : Rendering} {effect : Effect}
    (h : effect.write = r.content.bind fun content => s.sideView.map fun view => (view, content))
    (around : σ) (heard : List Signal) :
    (w.wired.put s r).run.run (around, heard) =
      ((w.perform around effect).2.mapError .outside, (w.perform around effect).1, heard) := by
  rw [Wiring.put, Surroundings.perform, h]
  cases r.content with
  | none => rfl
  | some content => cases s.sideView <;> rfl

/-- A rendering by calls comes to what its effect comes to. -/
theorem run_render (around : σ) (heard : List Signal) :
    (w.wired.render codec s).run.run (around, heard) =
      w.carryOut around heard (s.rendering codec) := by
  rw [Wiring.render, run_bind, run_compose]
  cases hrender : render codec s with
  | error e =>
    rw [State.rendering, hrender]
    rfl
  | ok o =>
    have hwrite : (s.rendering codec).write = o.rendering.content.bind fun content =>
        s.sideView.map fun view => (view, content) := by
      rw [State.rendering, hrender]
      rfl
    have hsignals : (s.rendering codec).signals =
        ((o.failure.bind QueryFailure.report?).map Signal.report).toList := by
      rw [State.rendering, hrender]
      exact List.append_nil _
    have hrendered : (s.rendering codec).rendered = some (.ok o) := by
      rw [State.rendering, hrender]
    dsimp only [Except.mapError, Except.map]
    rw [run_bind, run_tell w hrender, ← hsignals]
    dsimp only
    rw [run_bind, run_put w hwrite, Surroundings.carryOut, Effect.conclusion, hrendered]
    cases (w.perform around (s.rendering codec)).2 <;> rfl

theorem signals_rendering (s : State) (codec : Json.Codec) :
    (s.rendering codec).signals = ((s.rendering codec).reported.map Signal.report).toList := by
  unfold State.rendering
  split <;> exact List.append_nil _

/-! ## Operations -/

theorem run_setQuery (q : Option Text) (around : σ) (heard : List Signal) :
    (w.wired.setQuery codec s q).1 = (s.setQuery codec q).1 ∧
    (w.wired.setQuery codec s q).2.run.run (around, heard) =
      w.carryOut around heard (s.setQuery codec q).2 := by
  unfold Wiring.setQuery State.setQuery
  split
  · exact ⟨rfl, rfl⟩
  · refine ⟨rfl, ?_⟩
    dsimp only
    split
    · exact run_render w around heard
    · rfl

theorem run_edit (codec : Json.Codec) (s : State) (e : Edit) (around : σ) (heard : List Signal) :
    (w.wired.edit codec s e).1 = (s.edit codec e).1 ∧
    (w.wired.edit codec s e).2.run.run (around, heard) =
      w.carryOut around heard (s.edit codec e).2 := by
  cases e with
  | query q => exact run_setQuery w q around heard
  | line t => exact run_setQuery w _ around heard
  | toggle =>
    -- The mode is told before the rendering, whose report comes on top of it.
    have hhear (live : Bool) : (Wiring.call fun a => w.wired.hearMode a live :
        Calls (σ × List Signal) Query.QueryError Unit).run.run (around, heard) =
          (.ok (), around, .mode live :: heard) := rfl
    refine ⟨rfl, ?_⟩
    dsimp only [Wiring.edit, State.edit]
    rw [run_bind, hhear]
    dsimp only
    split
    · rw [run_render, Surroundings.carryOut, Surroundings.carryOut, signals_rendering,
        Effect.signals, List.append_assoc]
      rfl
    · rfl
  | close view => exact ⟨rfl, rfl⟩
  | render => exact ⟨rfl, run_render w around heard⟩

theorem wired_drive (codec : Json.Codec) (n : Nat) (around : σ) (heard : List Signal) (s : State)
    (progress : Progress) :
    w.wired.drive codec n (around, heard) s progress =
      (((w.drive codec n around s progress).1, heard),
        (w.drive codec n around s progress).2) := by
  induction n generalizing around s progress with
  | zero => cases progress <;> rfl
  | succ n ih =>
    cases progress with
    | waits r =>
      have hreply : w.wired.reply codec (around, heard) r.line r.point =
          (((w.reply codec around r.line r.point).1, heard),
            (w.reply codec around r.line r.point).2) := by
        cases r.point <;> rfl
      rw [Surroundings.drive, Surroundings.drive, hreply]
      exact ih _ _ _
    | done => rfl
    | failed e => rfl

theorem wired_operate (around : σ) (heard : List Signal) (op : Operation) :
    w.wired.operate codec (around, heard) s op =
      (((w.operate codec around s op).1, (w.operate codec around s op).2.2.signals ++ heard),
        (w.operate codec around s op).2.1, (w.operate codec around s op).2.2.conclusion) := by
  cases op with
  | run line =>
    rw [Wiring.operate, Surroundings.run]
    dsimp only
    rw [wired_drive]
    rfl
  | edit e =>
    obtain ⟨hstate, hcalls⟩ := run_edit w codec s e around heard
    rw [Wiring.operate, Surroundings.operate, edit_eq_perform]
    dsimp only
    rw [hcalls, hstate]
    rfl

/-- Operations among surroundings are operations on their wiring. -/
theorem wired_operateAll (codec : Json.Codec) (around : σ) (heard : List Signal) (s : State)
    (ops : List Operation) :
    let r := w.operateAll codec around s ops
    w.wired.operateAll codec (around, heard) s ops =
      ((r.1, r.2.2.reverse.flatMap Ending.signals ++ heard), r.2.1,
        r.2.2.map Ending.conclusion) := by
  induction ops generalizing around heard s with
  | nil => rfl
  | cons op ops ih =>
    dsimp only at ih ⊢
    rw [Wiring.operateAll, wired_operate]
    dsimp only
    rw [ih, Surroundings.operateAll, List.reverse_cons, List.flatMap_append, List.flatMap_singleton,
      List.append_assoc]
    rfl

end Wired

end LineAssist.LiveResult
