import LineAssist.LiveResult.Drive

/-!
# One operation after another

Runs and edits of a live result, each at its end before the next one starts. A live result does not
keep what its view shows; the surroundings can note it.
-/

namespace LineAssist.LiveResult

/-- What a live result is asked to do. -/
inductive Operation where
  | run (line : Text)
  | edit (e : Edit)
  deriving DecidableEq, Repr

/-- How an operation ended. -/
inductive Ending where
  | run (progress : Progress)
  | edit (effect : Effect) (written : Except Failure Unit)
  deriving Repr

namespace Surroundings

variable {σ : Type}

/-- An operation from its start to its end. -/
def operate (w : Surroundings σ) (codec : Json.Codec) (around : σ) (s : State) :
    Operation → σ × State × Ending
  | .run line =>
    let (around, s, progress) := w.run codec around s line
    (around, s, .run progress)
  | .edit e =>
    let (around, s, effect, written) := w.edit codec around s e
    (around, s, .edit effect written)

/-- Operations in their order, whatever becomes of each of them. -/
def operateAll (w : Surroundings σ) (codec : Json.Codec) (around : σ) (s : State) :
    List Operation → σ × State × List Ending
  | [] => (around, s, [])
  | op :: ops =>
    let (around, s, ending) := w.operate codec around s op
    let (around, s, endings) := w.operateAll codec around s ops
    (around, s, ending :: endings)

/-- The surroundings with a note of every write that did not fail, the newest first. -/
def noting (w : Surroundings σ) : Surroundings (σ × List (Handle × Text)) where
  openView := fun (around, noted) =>
    let (around, answer) := w.openView around
    ((around, noted), answer)
  write := fun (around, noted) view content =>
    let (around, outcome) := w.write around view content
    match outcome with
    | .ok () => ((around, (view, content) :: noted), .ok ())
    | .error e => ((around, noted), .error e)
  execute := fun (around, noted) line =>
    let (around, answer) := w.execute around line
    ((around, noted), answer)

end Surroundings

end LineAssist.LiveResult
