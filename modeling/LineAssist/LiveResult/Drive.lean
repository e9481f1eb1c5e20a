import LineAssist.LiveResult.Pipeline

/-!
# Whole runs

A run among surroundings that answer every call at once goes on to its end without being suspended.
-/

namespace LineAssist.LiveResult

/-- Surroundings with a state of their own that answer every call at once. -/
structure Surroundings (σ : Type) where
  openView : σ → σ × Except Failure Handle
  write : σ → Handle → Text → σ × Except Failure Unit
  execute : σ → Text → σ × Except Failure Execution

namespace Surroundings

variable {σ : Type}

/-- The answer to the call of a run. -/
def reply (w : Surroundings σ) (codec : Json.Codec) (around : σ) (line : Text) :
    (point : Point) → σ × Except Failure point.Answer
  | .opening => w.openView around
  | .placing view => w.write around view (placeholder line)
  | .executing _ => w.execute around line
  | .showing view given => w.write around view (contentOf codec given)

/-- Answers the calls of a run, at most a given number of them. -/
def drive (w : Surroundings σ) (codec : Json.Codec) : Nat → σ → State → Progress →
    σ × State × Progress
  | n + 1, around, s, .waits r =>
    let (around, answer) := w.reply codec around r.line r.point
    let (s, progress) := resume codec s r answer
    w.drive codec n around s progress
  | _, around, s, progress => (around, s, progress)

/-- Runs a line from its start to its end. -/
def run (w : Surroundings σ) (codec : Json.Codec) (around : σ) (s : State) (line : Text) :
    σ × State × Progress :=
  let (s, r) := begin s line
  w.drive codec callsOfRun around s (.waits r)

/-- Applies an edit and the write that it asks for. -/
def edit (w : Surroundings σ) (codec : Json.Codec) (around : σ) (s : State) (e : Edit) :
    σ × State × Effect × Except Failure Unit :=
  let (s, effect) := s.edit codec e
  match effect.write with
  | none => (around, s, effect, .ok ())
  | some (view, content) =>
    let (around, outcome) := w.write around view content
    (around, s, effect, outcome)

end Surroundings

end LineAssist.LiveResult
