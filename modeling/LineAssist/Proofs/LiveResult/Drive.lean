import LineAssist.LiveResult.Operation
import LineAssist.Proofs.LiveResult.Interleaving

/-!
# Operations among surroundings

Where the surroundings answer at once, a run is one step per call to its end. While the view can be
opened and written, only the execution of a run can fail, and all that an operation writes is noted.
-/

namespace LineAssist.LiveResult

variable {σ : Type} {w : Surroundings σ} {codec : Json.Codec} {s : State}

section Calls

variable {n : Nat} {around next : σ} {line : Text} {view : Handle} {given : Execution} {e : Failure}

theorem drive_ended {progress : Progress} (h : ∀ r, progress ≠ .waits r) :
    w.drive codec n around s progress = (around, s, progress) := by
  cases progress with
  | waits r => exact absurd rfl (h r)
  | done => cases n <;> rfl
  | failed e => cases n <;> rfl

theorem drive_placing (h : w.write around view (placeholder line) = (next, .ok ())) :
    w.drive codec (n + 1) around s (.waits ⟨line, .placing view⟩) =
      w.drive codec n next s (.waits ⟨line, .executing view⟩) := by
  rw [Surroundings.drive, Surroundings.reply, h]
  rfl

theorem drive_executing (h : w.execute around line = (next, .ok given)) :
    w.drive codec (n + 1) around s (.waits ⟨line, .executing view⟩) =
      w.drive codec n next { s with rawOutput := some (contentOf codec given) }
        (.waits ⟨line, .showing view given⟩) := by
  rw [Surroundings.drive, Surroundings.reply, h]
  rfl

theorem drive_showing (h : w.write around view (contentOf codec given) = (next, .ok ())) :
    w.drive codec (n + 1) around s (.waits ⟨line, .showing view given⟩) =
      (next, s.conclude codec given) := by
  rw [Surroundings.drive, Surroundings.reply, h]
  exact drive_ended (conclude_ends s codec given)

end Calls

/-- The view can be opened and written at any time. Executions may fail. -/
structure Surroundings.ViewWorks (w : Surroundings σ) : Prop where
  opens : ∀ around, ∃ next view, w.openView around = (next, .ok view)
  writes : ∀ around view content, ∃ next, w.write around view content = (next, .ok ())

/-- Surroundings with one view and one answer to every execution. -/
def Surroundings.steady (view : Handle) (given : Execution) : Surroundings Unit where
  openView := fun _ => ((), .ok view)
  write := fun _ _ _ => ((), .ok ())
  execute := fun _ _ => ((), .ok given)

theorem steady_works (view : Handle) (given : Execution) :
    (Surroundings.steady view given).ViewWorks :=
  ⟨fun _ => ⟨(), view, rfl⟩, fun _ _ _ => ⟨(), rfl⟩⟩

theorem noting_write_ok {around next : σ} {view : Handle} {content : Text}
    (h : w.write around view content = (next, .ok ())) (noted : List (Handle × Text)) :
    w.noting.write (around, noted) view content = ((next, (view, content) :: noted), .ok ()) := by
  simp only [Surroundings.noting, h]

theorem noting_execute {around next : σ} {line : Text} {answer : Except Failure Execution}
    (h : w.execute around line = (next, answer)) (noted : List (Handle × Text)) :
    w.noting.execute (around, noted) line = ((next, noted), answer) := by
  simp only [Surroundings.noting, h]

theorem noting_write (works : w.ViewWorks) (around : σ) (noted : List (Handle × Text))
    (view : Handle) (content : Text) : ∃ next,
      w.noting.write (around, noted) view content = ((next, (view, content) :: noted), .ok ()) := by
  obtain ⟨next, hwrite⟩ := works.writes around view content
  exact ⟨next, noting_write_ok hwrite noted⟩

theorem noting_edit (works : w.ViewWorks) (codec : Json.Codec) (around : σ)
    (noted : List (Handle × Text)) (s : State) (e : Edit) : ∃ next,
      w.noting.edit codec (around, noted) s e =
        ((next, (s.edit codec e).2.write.toList ++ noted), (s.edit codec e).1,
          (s.edit codec e).2, .ok ()) := by
  unfold Surroundings.edit
  dsimp only
  cases hwrite : (s.edit codec e).2.write with
  | none => exact ⟨around, rfl⟩
  | some written =>
    obtain ⟨view, content⟩ := written
    obtain ⟨next, hnext⟩ := noting_write works around noted view content
    refine ⟨next, ?_⟩
    simp only [hnext]
    rfl

/-- A run whose execution gives an answer ends with what it shows of the answer. -/
theorem noting_drive_shown (works : w.ViewWorks) (codec : Json.Codec) (n : Nat)
    (noted : List (Handle × Text)) {s : State} {around placed executed : σ} {line : Text}
    {view : Handle} {given : Execution}
    (hplaced : w.write around view (placeholder line) = (placed, .ok ()))
    (hexecuted : w.execute placed line = (executed, .ok given)) : ∃ next,
      w.noting.drive codec (n + 3) (around, noted) s (.waits ⟨line, .placing view⟩) =
        ((next, (view, contentOf codec given) :: (view, placeholder line) :: noted),
          State.conclude { s with rawOutput := some (contentOf codec given) } codec given) := by
  obtain ⟨shown, hshown⟩ := noting_write works executed ((view, placeholder line) :: noted) view
    (contentOf codec given)
  refine ⟨shown, ?_⟩
  rw [drive_placing (noting_write_ok hplaced noted), drive_executing (noting_execute hexecuted _),
    drive_showing hshown]

/-- The state when a run has shown its output. -/
def State.showing (s : State) (codec : Json.Codec) (line : Text) (view : Handle)
    (given : Execution) : State where
  sourceLine := some line
  rawOutput := some (contentOf codec given)
  parsedResult := .null
  hasResult := false
  queryExpression := none
  queryEnabled := s.queryEnabled
  sideView := some view
  phase := .running

end LineAssist.LiveResult
