import LineAssist.LiveResult.Operation

/-!
# Wirings

All that a live result is given from outside: its surroundings, the evaluator of its queries, and
two listeners, one for switches of live mode and one for reports about failed queries. Each of them
may have a state of its own, and may fail at any call. An operation that fails keeps what it has
changed so far.
-/

namespace LineAssist.LiveResult

/-- A query that failed, as its evaluator tells it. -/
structure Complaint where
  expression : Text
  /-- The query is incomplete or malformed. -/
  isSyntactic : Bool
  message : Text
  deriving DecidableEq, Repr

/-- The report about a failed query; a query that is still being written is not reported. -/
def Complaint.report? (c : Complaint) : Option Text :=
  if c.isSyntactic then none
  else some ("query ".toList ++ Text.shown c.expression ++ " failed: ".toList ++ c.message)

/-- The answer of an evaluator. -/
inductive Verdict (ε : Type) where
  | value (v : Query.Value)
  | complaint (c : Complaint)
  /-- A failure that is not about the query. -/
  | fault (e : ε)
  deriving Repr

/-- Why an edit fails. -/
inductive Fault (ε : Type) where
  | outside (e : Failure)
  | evaluation (e : ε)
  | dump (e : DumpFault)
  deriving DecidableEq, Repr

/-- What the view is to show, and the query that failed. -/
structure Rendering where
  /-- None leaves the view as it is. -/
  content : Option Text
  filtered : Bool
  complaint : Option Complaint
  deriving DecidableEq, Repr

/-- How an operation ended. -/
inductive Conclusion (ε : Type) where
  | run (progress : Progress)
  | edit (rendered : Except (Fault ε) (Option Rendering))
  deriving Repr

/-- Calls to what a live result is wired to, one after another up to the first that fails. -/
abbrev Calls (σ ε : Type) := ExceptT (Fault ε) (StateM σ)

/-- What a live result is given from outside. A listener that is not there does nothing. -/
structure Wiring (σ ε : Type) extends Surroundings σ where
  evaluate : σ → Text → Json → σ × Verdict ε
  hearMode : σ → Bool → σ × Except Failure Unit
  hearReport : σ → Text → σ × Except Failure Unit

namespace Wiring

variable {σ ε : Type}

/-- A call whose failure ends the operation. -/
def call {α : Type} (f : σ → σ × Except Failure α) : Calls σ ε α :=
  fun around => ((f around).2.mapError .outside, (f around).1)

/-- The verdict of the evaluator. -/
def judge (w : Wiring σ ε) (q : Text) (v : Json) : Calls σ ε (Verdict ε) :=
  fun around => (.ok (w.evaluate around q v).2, (w.evaluate around q v).1)

/-- What the view is to show in a state. -/
def compose (w : Wiring σ ε) (codec : Json.Codec) (s : State) : Calls σ ε Rendering :=
  if !s.hasResult then pure ⟨none, false, none⟩
  else
    match s.activeQuery with
    | none =>
      match dump codec s.parsedResult with
      | .ok t => pure ⟨some t, false, none⟩
      | .error e => throw (.dump e)
    | some q => do
      match ← w.judge q s.parsedResult with
      | .value v =>
        match dumpValue codec v with
        | .ok t => pure ⟨some t, true, none⟩
        | .error e => throw (.dump e)
      | .complaint c => pure ⟨none, false, some c⟩
      | .fault e => throw (.evaluation e)

/-- Reports a failed query. -/
def tell (w : Wiring σ ε) (r : Rendering) : Calls σ ε Unit :=
  match r.complaint.bind Complaint.report? with
  | some message => call fun around => w.hearReport around message
  | none => pure ()

/-- Writes what is to be shown into the open view. -/
def put (w : Wiring σ ε) (s : State) (r : Rendering) : Calls σ ε Unit :=
  match r.content, s.sideView with
  | some content, some view => call fun around => w.write around view content
  | _, _ => pure ()

/-- Renders a state into the open view. -/
def render (w : Wiring σ ε) (codec : Json.Codec) (s : State) : Calls σ ε (Option Rendering) := do
  let r ← w.compose codec s
  w.tell r
  w.put s r
  pure (some r)

/-- Takes a query; a query that is not new changes nothing. -/
def setQuery (w : Wiring σ ε) (codec : Json.Codec) (s : State) (expression : Option Text) :
    State × Calls σ ε (Option Rendering) :=
  if expression = s.queryExpression then (s, pure none)
  else
    let s := { s with queryExpression := expression }
    (s, if s.queryEnabled && s.hasResult then w.render codec s else pure none)

/-- The state after an edit, and the calls that the edit makes then. -/
def edit (w : Wiring σ ε) (codec : Json.Codec) (s : State) :
    Edit → State × Calls σ ε (Option Rendering)
  | .query expression => w.setQuery codec s expression
  | .line text => w.setQuery codec s (Line.extractQuery text)
  | .toggle =>
    let s := { s with queryEnabled := !s.queryEnabled }
    (s, do
      call fun around => w.hearMode around s.queryEnabled
      if s.phase = .rendered then w.render codec s else pure none)
  | .close view => (if s.sideView = some view then { s with sideView := none } else s, pure none)
  | .render => (s, w.render codec s)

/-- An operation from its start to its end. -/
def operate (w : Wiring σ ε) (codec : Json.Codec) (around : σ) (s : State) :
    Operation → σ × State × Conclusion ε
  | .run line =>
    let (around, s, progress) := w.run codec around s line
    (around, s, .run progress)
  | .edit e =>
    let (s, calls) := w.edit codec s e
    let (rendered, around) := calls.run.run around
    (around, s, .edit rendered)

/-- Operations in their order, whatever becomes of each of them. -/
def operateAll (w : Wiring σ ε) (codec : Json.Codec) (around : σ) (s : State) :
    List Operation → σ × State × List (Conclusion ε)
  | [] => (around, s, [])
  | op :: ops =>
    let (around, s, conclusion) := w.operate codec around s op
    let (around, s, conclusions) := w.operateAll codec around s ops
    (around, s, conclusion :: conclusions)

end Wiring

/-! ## Records -/

/-- A call to something that a live result is wired to. -/
inductive Signal where
  | call (c : Call)
  | evaluate (query : Text) (value : Json)
  | mode (live : Bool)
  | report (message : Text)
  deriving Repr

namespace Wiring

variable {σ ε : Type}

/-- A call with a note of it, the newest first, whether it fails or not. -/
def note {α : Type} (signal : Signal) (f : σ → σ × α) (around : σ × List Signal) :
    (σ × List Signal) × α :=
  (((f around.1).1, signal :: around.2), (f around.1).2)

/-- The wiring with a record of every call. -/
def recording (w : Wiring σ ε) : Wiring (σ × List Signal) ε where
  openView := note (.call .openView) w.openView
  write := fun around view content =>
    note (.call (.write view content)) (fun a => w.write a view content) around
  execute := fun around line => note (.call (.execute line)) (fun a => w.execute a line) around
  evaluate := fun around q v => note (.evaluate q v) (fun a => w.evaluate a q v) around
  hearMode := fun around live => note (.mode live) (fun a => w.hearMode a live) around
  hearReport := fun around m => note (.report m) (fun a => w.hearReport a m) around

end Wiring

/-! ## Surroundings as a wiring -/

/-- A query failure as a complaint. The words of a syntactic one are not kept. -/
def QueryFailure.complaint (f : QueryFailure) : Complaint :=
  ⟨f.expression, f.cause.isSyntactic, f.cause.message?.getD []⟩

/-- The verdict of the query language. -/
def verdict (q : Text) (v : Json) : Verdict Query.QueryError :=
  match Query.search q v with
  | .ok r => .value r
  | .error e => if e.isReported then .complaint (QueryFailure.complaint ⟨q, e⟩) else .fault e

/-- A call beside something that it leaves alone. -/
def beside {σ ρ α : Type} (f : σ → σ × α) (around : σ × ρ) : (σ × ρ) × α :=
  (((f around.1).1, around.2), (f around.1).2)

/-- Surroundings with the evaluator of the query language, and with listeners that note what they
hear, the newest first. -/
def Surroundings.wired {σ : Type} (w : Surroundings σ) :
    Wiring (σ × List Signal) Query.QueryError where
  openView := beside w.openView
  write := fun around view content => beside (fun a => w.write a view content) around
  execute := fun around line => beside (fun a => w.execute a line) around
  evaluate := fun around q v => (around, verdict q v)
  hearMode := fun around live => ((around.1, .mode live :: around.2), .ok ())
  hearReport := fun around message => ((around.1, .report message :: around.2), .ok ())

end LineAssist.LiveResult
