import LineAssist.Proofs.Json.Writable
import LineAssist.Proofs.LiveResult.Drive
import LineAssist.Proofs.LiveResult.Overlap

/-!
# What the open view shows

Operations one after another, while the view can be opened and written. The state of a live result
says nothing about the content of its view, yet after each operation the two go together: the last
content is the value of the query that applies, if it has one, and the whole output if none applies.
-/

namespace LineAssist.LiveResult

variable {σ : Type} {w : Surroundings σ} {codec : Json.Codec} {s : State}
  {noted : List (Handle × Text)}

/-- A content of the view that goes with the result. Under a query without a value it is any. -/
def State.ShownAs (codec : Json.Codec) (s : State) (content : Option Text) : Prop :=
  match s.activeQuery with
  | some q => ∀ v t, Query.search q s.parsedResult = .ok v → dumpValue codec v = .ok t →
      content = some t
  | none => ∃ t, content = some t ∧
      (s.rawOutput = some t ∨ codec.write? s.parsedResult = some t)

theorem activeQuery_of_none (h : s.queryExpression = none) : s.activeQuery = none := by
  simp only [State.activeQuery, h, ite_self]

theorem activeQuery_of_on {q : Text} (hlive : s.queryEnabled = true)
    (hquery : s.queryExpression = some q) (hsome : q ≠ []) : s.activeQuery = some q := by
  cases q with
  | nil => contradiction
  | cons c q => simp only [State.activeQuery, hlive, hquery, if_true]

/-- The state goes with what has been noted of its view. -/
structure Fits (codec : Json.Codec) (s : State) (noted : List (Handle × Text)) : Prop where
  coherent : s.Coherent codec
  rendered : s.hasResult = true → s.phase = .rendered
  shown : s.hasResult = true → ∀ view, s.sideView = some view →
    s.ShownAs codec (lookup view noted)

theorem dump_of_read {t : Text} {v : Json} (h : codec.read t = .ok v) :
    dump codec v = .ok (Json.write (.indented codec.indent) v) := by
  rw [dump, Json.Codec.write?_of_read h]

theorem rendering_of_read {view : Handle} {t : Text} (hread : codec.read t = .ok s.parsedResult)
    (hresult : s.hasResult = true) (hquery : s.activeQuery = none)
    (hview : s.sideView = some view) :
    (s.rendering codec).write =
      some (view, Json.write (.indented codec.indent) s.parsedResult) := by
  have hrender : render codec s =
      .ok ⟨some (Json.write (.indented codec.indent) s.parsedResult), false, none⟩ := by
    simp only [render, hresult, Bool.not_true, Bool.false_eq_true, if_false, hquery,
      dump_of_read hread]
  simp only [State.rendering, hrender, hview, Option.bind_some, Option.map_some]

theorem rendering_filtered {view : Handle} {q t : Text} {v : Query.Value}
    (hresult : s.hasResult = true) (hquery : s.activeQuery = some q)
    (hvalue : Query.search q s.parsedResult = .ok v) (hdump : dumpValue codec v = .ok t)
    (hview : s.sideView = some view) : (s.rendering codec).write = some (view, t) := by
  have hrender : render codec s = .ok ⟨some t, true, none⟩ := by
    simp only [render, hresult, Bool.not_true, Bool.false_eq_true, if_false, hquery, hvalue, hdump]
  simp only [State.rendering, hrender, hview, Option.bind_some, Option.map_some]

end LineAssist.LiveResult
