import LineAssist.Text.Basic
import Mathlib.Data.List.Forall2

/-!
# Computations that can fail

What is known when a sequence of steps, or a step for each of several things, comes to an end.
-/

namespace LineAssist

section Steps

variable {ε α β : Type}

theorem ok_of_bind {x : Except ε α} {f : α → Except ε β} {b : β}
    (h : x >>= f = .ok b) : ∃ a, x = .ok a ∧ f a = .ok b := by
  cases x with
  | error e => cases h
  | ok a => exact ⟨a, rfl, h⟩

theorem ok_bind {x : Except ε α} {f : α → Except ε β} {a : α} {y : Except ε β} (hx : x = .ok a)
    (hf : f a = y) : x >>= f = y := by
  rw [hx]
  exact hf

theorem ok_of_map {x : Except ε α} {f : α → β} {b : β} (h : x.map f = .ok b) :
    ∃ a, x = .ok a ∧ f a = b := by
  cases x with
  | error e => cases h
  | ok a => exact ⟨a, rfl, Except.ok.inj h⟩

theorem ok_of_toOption {x : Except ε α} {a : α} (h : x.toOption = some a) : x = .ok a := by
  cases x <;> cases h
  rfl

/-- The results of a step for every element are in the order of the elements. -/
theorem forall₂_of_mapM {f : α → Except ε β} {xs : List α} {ys : List β} (h : xs.mapM f = .ok ys) :
    List.Forall₂ (fun x y => f x = .ok y) xs ys := by
  induction xs generalizing ys with
  | nil =>
    cases h
    exact .nil
  | cons x xs ih =>
    rw [List.mapM_cons] at h
    obtain ⟨first, hfirst, h⟩ := ok_of_bind h
    obtain ⟨rest, hrest, h⟩ := ok_of_bind h
    cases h
    exact .cons hfirst (ih hrest)

/-- Each result of a step for every element is that of one of them. -/
theorem mem_of_mapM {f : α → Except ε β} {xs : List α} {ys : List β} (h : xs.mapM f = .ok ys)
    {y : β} (hy : y ∈ ys) : ∃ x ∈ xs, f x = .ok y := by
  have hsteps := forall₂_of_mapM h
  clear h
  induction hsteps with
  | nil => cases hy
  | @cons x y' xs ys hstep _ ih =>
    rcases List.mem_cons.mp hy with rfl | hy
    · exact ⟨x, List.mem_cons_self, hstep⟩
    · obtain ⟨x', hx', hstep'⟩ := ih hy
      exact ⟨x', List.mem_cons_of_mem x hx', hstep'⟩

/-- A step for every element ends if each of them ends, and has the results of all of them. -/
theorem exists_mapM {f : α → Except ε β} {l : List α} (h : ∀ x ∈ l, ∃ y, f x = .ok y) :
    ∃ ys, l.mapM f = .ok ys ∧ ∀ x ∈ l, ∃ y ∈ ys, f x = .ok y := by
  induction l with
  | nil => exact ⟨[], rfl, List.forall_mem_nil _⟩
  | cons x l ih =>
    obtain ⟨⟨y, hy⟩, hrest⟩ := List.forall_mem_cons.mp h
    obtain ⟨ys, hys, hall⟩ := ih hrest
    refine ⟨y :: ys, ?_, List.forall_mem_cons.mpr ⟨⟨y, List.mem_cons_self, hy⟩, ?_⟩⟩
    · rw [List.mapM_cons, hy, hys]
      rfl
    · intro x' hx'
      obtain ⟨y', hy', hstep⟩ := hall x' hx'
      exact ⟨y', List.mem_cons_of_mem y hy', hstep⟩

theorem ok_of_forM {f : α → Except ε Unit} {l : List α} (h : l.forM f = .ok ()) {x : α}
    (hx : x ∈ l) : f x = .ok () := by
  induction l with
  | nil => cases hx
  | cons y l ih =>
    obtain ⟨_, hy, h⟩ := ok_of_bind (f := fun _ => l.forM f) h
    rcases List.mem_cons.mp hx with rfl | hx
    · exact hy
    · exact ih h hx

end Steps

/-! ## Computations without a result -/

section Failing

variable {ε α β : Type}

def Fails (x : Except ε α) : Prop :=
  ∃ e, x = .error e

theorem fails_error (e : ε) : Fails (.error e : Except ε α) :=
  ⟨e, rfl⟩

theorem not_fails_ok (a : α) : ¬ Fails (.ok a : Except ε α) :=
  nofun

theorem exists_ok_of_not_fails {x : Except ε α} (h : ¬ Fails x) : ∃ a, x = .ok a := by
  cases x with
  | error e => exact absurd (fails_error e) h
  | ok a => exact ⟨a, rfl⟩

theorem fails_bind_iff {x : Except ε α} {f : α → Except ε β} :
    Fails (x >>= f) ↔ Fails x ∨ ∃ a, x = .ok a ∧ Fails (f a) := by
  cases x with
  | error e => exact ⟨fun _ => .inl (fails_error e), fun _ => fails_error e⟩
  | ok a =>
    refine ⟨fun h => .inr ⟨a, rfl, h⟩, ?_⟩
    rintro (h | ⟨b, hb, h⟩)
    · exact absurd h (not_fails_ok a)
    · cases hb
      exact h

/-- A step that always has a result cannot be where a computation fails. -/
theorem fails_bind_ok_iff {x : Except ε α} {f : α → β} :
    Fails (x >>= fun a => (.ok (f a) : Except ε β)) ↔ Fails x := by
  rw [fails_bind_iff, or_iff_left]
  rintro ⟨a, -, h⟩
  exact not_fails_ok (f a) h

theorem fails_mapM_iff {f : α → Except ε β} {l : List α} :
    Fails (l.mapM f) ↔ ∃ x ∈ l, Fails (f x) := by
  induction l with
  | nil => exact ⟨fun h => absurd h (not_fails_ok []), fun ⟨_, hx, _⟩ => absurd hx List.not_mem_nil⟩
  | cons x l ih =>
    rw [List.mapM_cons, fails_bind_iff, List.exists_mem_cons_iff]
    cases hx : f x with
    | error e => exact ⟨fun _ => .inl (fails_error e), fun _ => .inl (fails_error e)⟩
    | ok y =>
      have hy : ¬ Fails (.ok y : Except ε β) := not_fails_ok y
      rw [or_iff_right hy, or_iff_right hy, ← ih]
      constructor
      · rintro ⟨_, -, h⟩
        exact fails_bind_ok_iff.mp h
      · exact fun h => ⟨y, rfl, fails_bind_ok_iff.mpr h⟩

end Failing

/-! ## How computations end -/

section Endings

variable {ε σ α β : Type} {fails : ε → Prop} {holds : α → Prop} {holds' : β → Prop}

/-- The computation fails only as it is allowed to, and its result has the property. -/
def Yields (fails : ε → Prop) (holds : α → Prop) : Except ε α → Prop
  | .ok a => holds a
  | .error e => fails e

theorem Yields.bind {x : Except ε α} {f : α → Except ε β} (hx : Yields fails holds x)
    (hf : ∀ a, holds a → Yields fails holds' (f a)) : Yields fails holds' (x >>= f) := by
  cases x with
  | error e => exact hx
  | ok a => exact hf a hx

theorem Yields.imp {fails' : ε → Prop} {holds' : α → Prop} {x : Except ε α}
    (hx : Yields fails holds x) (hfails : ∀ e, fails e → fails' e)
    (hholds : ∀ a, holds a → holds' a) : Yields fails' holds' x := by
  cases x with
  | error e => exact hfails e hx
  | ok a => exact hholds a hx

theorem Yields.eq_ok {x : Except ε α} (hx : Yields fails holds x) :
    Yields fails (fun a => x = .ok a) x := by
  cases x with
  | error e => exact hx
  | ok a => exact rfl

theorem yields_foldlM (holds' : β → Prop) {f : β → α → Except ε β} {l : List α} {b : β}
    (hb : holds' b)
    (hf : ∀ b, holds' b → ∀ a ∈ l, Yields fails holds' (f b a)) :
    Yields fails holds' (l.foldlM f b) := by
  induction l generalizing b with
  | nil => exact hb
  | cons a l ih =>
    rw [List.foldlM_cons]
    refine (hf b hb a List.mem_cons_self).bind fun c hc => ih hc ?_
    exact fun b hb a ha => hf b hb a (List.mem_cons_of_mem _ ha)

theorem yields_mapM {f : α → Except ε β} {l : List α} (hf : ∀ a ∈ l, Yields fails holds' (f a)) :
    Yields fails (fun bs => ∀ b ∈ bs, holds' b) (l.mapM f) := by
  induction l with
  | nil => exact List.forall_mem_nil _
  | cons a l ih =>
    obtain ⟨ha, hl⟩ := List.forall_mem_cons.mp hf
    rw [List.mapM_cons]
    refine ha.bind fun b hb => (ih hl).bind fun bs hbs => ?_
    exact List.forall_mem_cons.mpr ⟨hb, hbs⟩

theorem yields_forM {f : α → Except ε Unit} {l : List α}
    (hf : ∀ a ∈ l, Yields fails (fun _ => True) (f a)) : Yields fails (fun _ => True) (l.forM f) := by
  induction l with
  | nil => exact trivial
  | cons a l ih =>
    obtain ⟨ha, hl⟩ := List.forall_mem_cons.mp hf
    exact ha.bind fun _ _ => ih hl

/-- The computation ends in this way from every state on. -/
def Ends (fails : ε → Prop) (holds : α → Prop) (m : StateT σ (Except ε) α) : Prop :=
  ∀ s, Yields fails (fun r => holds r.1) (m s)

theorem ends_pure {a : α} (h : holds a) :
    Ends fails holds (pure a : StateT σ (Except ε) α) :=
  fun _ => h

theorem ends_throw {e : ε} (h : fails e) :
    Ends fails holds (throw e : StateT σ (Except ε) α) :=
  fun _ => h

theorem ends_lift {x : Except ε α} (h : Yields fails holds x) :
    Ends fails holds (liftM x : StateT σ (Except ε) α) := by
  intro s
  cases x with
  | error e => exact h
  | ok a => exact h

theorem Ends.bind {m : StateT σ (Except ε) α} {f : α → StateT σ (Except ε) β}
    (hm : Ends fails holds m) (hf : ∀ a, holds a → Ends fails holds' (f a)) :
    Ends fails holds' (m >>= f) :=
  fun s => (hm s).bind fun r hr => hf r.1 hr r.2

theorem ends_mapM {f : α → StateT σ (Except ε) β} {l : List α}
    (hf : ∀ a ∈ l, Ends fails holds' (f a)) :
    Ends fails (fun bs => ∀ b ∈ bs, holds' b) (l.mapM f) := by
  induction l with
  | nil => exact ends_pure (List.forall_mem_nil _)
  | cons a l ih =>
    obtain ⟨ha, hl⟩ := List.forall_mem_cons.mp hf
    rw [List.mapM_cons]
    refine ha.bind fun b hb => (ih hl).bind fun bs hbs => ?_
    exact ends_pure (List.forall_mem_cons.mpr ⟨hb, hbs⟩)

theorem ends_foldlM (holds' : β → Prop) {f : β → α → StateT σ (Except ε) β} {l : List α} {b : β}
    (hb : holds' b)
    (hf : ∀ b, holds' b → ∀ a ∈ l, Ends fails holds' (f b a)) :
    Ends fails holds' (l.foldlM f b) := by
  induction l generalizing b with
  | nil => exact ends_pure hb
  | cons a l ih =>
    rw [List.foldlM_cons]
    refine (hf b hb a List.mem_cons_self).bind fun c hc => ih hc ?_
    exact fun b hb a ha => hf b hb a (List.mem_cons_of_mem _ ha)

end Endings

end LineAssist
