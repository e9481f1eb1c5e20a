import LineAssist.LiveResult.Render
import LineAssist.Proofs.Query.Evaluation

/-!
# Results that cannot be rendered

Rendering gives an outcome for every state, but for a query that fails without being reported, or a
value without a text. Such a fault has its cause in the query that applies: a part of it that can
raise the failure, a reference, an integer that is too long, or a value that nests too deep. Where
no query applies, only an integer of the result can be too long, or the result nest too deep.
-/

namespace LineAssist.LiveResult

/-- The state has in it what the fault comes from. -/
def RenderFault.ExplainedBy (codec : Json.Codec) (s : State) : RenderFault → Prop
  | .query err => err.isReported = false ∧
      ∃ expression, s.activeQuery = some expression ∧ err.ExplainedBy expression s.parsedResult
  | .dump (.part err) =>
    match s.activeQuery with
    | some expression => ∃ q, Query.parse expression = .ok q ∧
        q.ExplainsDump (q.MayHaveLong s.parsedResult) err
    | none => err = .longInteger ∧ s.parsedResult.isWritable = false
  | .dump .nesting =>
    match s.activeQuery with
    | some expression => ∃ v j, Query.search expression s.parsedResult = .ok v ∧
        v.toJson = .ok j ∧ j.fits codec.levels = false
    | none => s.parsedResult.fits codec.levels = false

/-- The outcome shows the result, or the value of the query that applies, or reports why that query
fails; before there is a result, it shows nothing. -/
def Outcome.Answers (codec : Json.Codec) (s : State) (o : Outcome) : Prop :=
  match s.hasResult, s.activeQuery with
  | false, _ => o = ⟨none, false, none⟩
  | true, none => o = ⟨some (Json.write (.indented codec.indent) s.parsedResult), false, none⟩
  | true, some expression =>
    (∃ v j, Query.search expression s.parsedResult = .ok v ∧ v.toJson = .ok j ∧
      o = ⟨some (Json.write (.indented codec.indent) j), true, none⟩) ∨
    ∃ err, Query.search expression s.parsedResult = .error err ∧ err.isReported = true ∧
      o = ⟨none, false, some ⟨expression, err⟩⟩

theorem yields_dump {fails : DumpFault → Prop} {codec : Json.Codec} {v : Json}
    (hlong : v.isWritable = false → fails (.part .longInteger))
    (hdeep : v.fits codec.levels = false → fails .nesting) :
    Yields fails (fun t => t = Json.write (.indented codec.indent) v) (dump codec v) := by
  unfold dump Json.Codec.write?
  cases hwritable : v.isWritable with
  | true =>
    cases hfits : v.fits codec.levels with
    | true => exact rfl
    | false => exact hdeep hfits
  | false => exact hlong hwritable

section Faults

variable (codec : Json.Codec) {s : State} {expression : Text} {v : Query.Value}

theorem yields_whole (hactive : s.activeQuery = none) :
    Yields (fun e => RenderFault.ExplainedBy codec s (.dump e))
      (fun t => t = Json.write (.indented codec.indent) s.parsedResult)
      (dump codec s.parsedResult) := by
  refine yields_dump (fun hlong => ?_) fun hdeep => ?_
  · rw [RenderFault.ExplainedBy, hactive]
    exact ⟨rfl, hlong⟩
  · rw [RenderFault.ExplainedBy, hactive]
    exact hdeep

theorem yields_filtered (hactive : s.activeQuery = some expression)
    (hsearch : Query.search expression s.parsedResult = .ok v) :
    Yields (fun e => RenderFault.ExplainedBy codec s (.dump e))
      (fun t => ∃ j, v.toJson = .ok j ∧ t = Json.write (.indented codec.indent) j)
      (dumpValue codec v) := by
  have hyields := Query.yields_search expression s.parsedResult
  rw [hsearch] at hyields
  obtain ⟨q, hparse, hwithin⟩ := hyields
  have hjson := Query.Value.yields_toJson hwithin
  unfold dumpValue
  cases hwritten : v.toJson with
  | error err =>
    rw [hwritten] at hjson
    show RenderFault.ExplainedBy codec s (.dump (.part err))
    rw [RenderFault.ExplainedBy, hactive]
    exact ⟨q, hparse, hjson⟩
  | ok j =>
    rw [hwritten] at hjson
    have hdump : Yields (fun e => RenderFault.ExplainedBy codec s (.dump e))
        (fun t => t = Json.write (.indented codec.indent) j) (dump codec j) := by
      refine yields_dump (fun hlong => ?_) fun hdeep => ?_
      · -- a value that has become JSON has no long integer
        rw [hjson] at hlong
        cases hlong
      · rw [RenderFault.ExplainedBy, hactive]
        exact ⟨v, j, hsearch, hwritten, hdeep⟩
    exact hdump.imp (fun _ => id) fun _ ht => ⟨j, rfl, ht⟩

end Faults

/-- Every state has an outcome, or a fault whose cause is in the state. -/
theorem yields_render (codec : Json.Codec) (s : State) :
    Yields (RenderFault.ExplainedBy codec s) (Outcome.Answers codec s) (render codec s) := by
  cases hresult : s.hasResult with
  | false =>
    rw [render, hresult]
    show Outcome.Answers codec s _
    rw [Outcome.Answers, hresult]
  | true =>
    rw [render, hresult]
    cases hactive : s.activeQuery with
    | none =>
      have hwhole := yields_whole codec hactive
      cases hdump : dump codec s.parsedResult with
      | error e =>
        rw [hdump] at hwhole
        exact hwhole
      | ok t =>
        rw [hdump] at hwhole
        show Outcome.Answers codec s _
        rw [Outcome.Answers, hresult, hactive, show t = _ from hwhole]
    | some expression =>
      have hyields := Query.yields_search expression s.parsedResult
      simp only [Bool.not_true, Bool.false_eq_true, if_false]
      cases hsearch : Query.search expression s.parsedResult with
      | error err =>
        rw [hsearch] at hyields
        dsimp only
        cases hreported : err.isReported with
        | true =>
          show Outcome.Answers codec s _
          rw [Outcome.Answers, hresult, hactive]
          exact .inr ⟨err, hsearch, hreported, rfl⟩
        | false => exact ⟨hreported, expression, hactive, hyields⟩
      | ok v =>
        have hfiltered := yields_filtered codec hactive hsearch
        dsimp only
        cases hdump : dumpValue codec v with
        | error e =>
          rw [hdump] at hfiltered
          exact hfiltered
        | ok t =>
          rw [hdump] at hfiltered
          obtain ⟨j, hwritten, ht⟩ := hfiltered
          show Outcome.Answers codec s _
          rw [Outcome.Answers, hresult, hactive]
          exact .inl ⟨v, j, hsearch, hwritten, ht ▸ rfl⟩

/-- A number is put in order with a text, and no outcome is given. -/
theorem render_of_mixed_order :
    let s : State :=
      { State.initial true with
        parsedResult := .arr [.int 1, .str ['a']]
        hasResult := true
        queryExpression := some "[0] < [1]".toList }
    ¬ ∃ o, render .usual s = .ok o := by
  intro s
  have hfault : (render .usual s).isOk = false := by decide +kernel
  rintro ⟨o, ho⟩
  rw [ho] at hfault
  cases hfault

end LineAssist.LiveResult
