import LineAssist.Proofs.Query.Calls

/-!
# Where a failure of a query comes from

The value of a query is made of what the query and the value it is applied to have in them, and a
failure is one that a part of the query can raise. One step of evaluation keeps to this if its parts
and the references that it applies do; the depth of references only decides when evaluation gives up.
-/

namespace LineAssist.Query

open Value

variable {q : Expr} {long : Prop} {apply : Expr → Value → Evaluation Value}

/-! ## Several expressions or elements -/

section Several

variable {fails : EvalError → Prop} {holds : Value → Prop} {v : Value}

theorem ends_freshMark : Ends fails (fun _ => True) freshMark :=
  fun _ => trivial

theorem ends_collect {each : Value → Evaluation Value} {items : List Value}
    (heach : ∀ v ∈ items, Ends fails holds (each v)) :
    Ends fails (fun rs => ∀ r ∈ rs, holds r) (collect each items) := by
  induction items with
  | nil => exact ends_pure (List.forall_mem_nil _)
  | cons v rest ih =>
    obtain ⟨hv, hrest⟩ := List.forall_mem_cons.mp heach
    refine hv.bind fun r hr => (ih hrest).bind fun more hmore => ends_pure ?_
    split
    · exact hmore
    · exact List.forall_mem_cons.mpr ⟨hr, hmore⟩

theorem ends_collectIf {condition each : Value → Evaluation Value} {items : List Value}
    (hcondition : ∀ v ∈ items, Ends fails holds (condition v))
    (heach : ∀ v ∈ items, Ends fails holds (each v)) :
    Ends fails (fun rs => ∀ r ∈ rs, holds r) (collectIf condition each items) := by
  induction items with
  | nil => exact ends_pure (List.forall_mem_nil _)
  | cons v rest ih =>
    obtain ⟨hc, hrest⟩ := List.forall_mem_cons.mp hcondition
    obtain ⟨hv, hmore⟩ := List.forall_mem_cons.mp heach
    refine hc.bind fun c _ => ?_
    split
    · exact ih hrest hmore
    · refine hv.bind fun r hr => (ih hrest hmore).bind fun more hmore => ends_pure ?_
      split
      · exact hmore
      · exact List.forall_mem_cons.mpr ⟨hr, hmore⟩

theorem ends_evalItems {items : List Expr}
    (hitems : ∀ e ∈ items, Ends fails holds (evalWith apply e v)) :
    Ends fails (fun rs => rs.length = items.length ∧ ∀ r ∈ rs, holds r)
      (evalItems apply items v) := by
  induction items with
  | nil => exact ends_pure ⟨rfl, List.forall_mem_nil _⟩
  | cons e rest ih =>
    obtain ⟨he, hrest⟩ := List.forall_mem_cons.mp hitems
    refine he.bind fun r hr => (ih hrest).bind fun more hmore => ends_pure ?_
    exact ⟨congrArg Nat.succ hmore.1, List.forall_mem_cons.mpr ⟨hr, hmore.2⟩⟩

theorem ends_evalFields {fields : List (Text × Expr)}
    (hfields : ∀ e ∈ fields.map Prod.snd, Ends fails holds (evalWith apply e v)) :
    Ends fails (fun entries => ∀ entry ∈ entries, holds entry.2)
      (evalFields apply fields v) := by
  induction fields with
  | nil => exact ends_pure (List.forall_mem_nil _)
  | cons field rest ih =>
    obtain ⟨he, hrest⟩ := List.forall_mem_cons.mp hfields
    refine he.bind fun r hr => (ih hrest).bind fun more hmore => ends_pure ?_
    exact List.forall_mem_cons.mpr ⟨hr, hmore⟩

end Several

/-! ## Comparisons -/

theorem yields_compareValues {fails : EvalError → Prop} {op : Comparison}
    (h : op.isOrder = true → fails .incomparable) (a b : Value) :
    Yields fails (·.Within q long) (compareValues op a b) := by
  cases op with
  | eq | ne => exact Within.bool _
  | lt | le | gt | ge =>
    have hraise := h rfl
    simp only [compareValues]
    split
    · split
      · exact Within.bool _
      · exact Within.bool _
      · exact hraise
    · exact Within.null

theorem fieldsWithin_of_entries {entries : List (Text × Value)} {fields : List (Value × Value)}
    (hentries : ∀ entry ∈ entries, entry.2.Within q long) (hfields : FieldsWithin q long fields) :
    FieldsWithin q long (entries.foldl (fun acc (k, w) => putKey (.str k) w acc) fields) := by
  induction entries generalizing fields with
  | nil => exact hfields
  | cons entry entries ih =>
    obtain ⟨hv, hrest⟩ := List.forall_mem_cons.mp hentries
    exact ih hrest (fieldsWithin_putKey hfields rfl (.str entry.1) hv)

/-! ## Expressions -/

/-- The parts of a query keep to the query, if the references that they apply do. -/
theorem ends_evalWith (hlong : ∀ e ∈ q.parts, e.makesIntegers = true → long)
    (happly : ∀ e, .reference e ∈ q.parts → ∀ v, v.Within q long →
      Ends (q.Explains long) (·.Within q long) (apply e v))
    {e : Expr} (he : e ∈ q.parts) {v : Value} (hv : v.Within q long) :
    Ends (q.Explains long) (·.Within q long) (evalWith apply e v) := by
  -- Along the expression: a child is a part too, and may be evaluated against any value within.
  induction e using Expr.child_induction generalizing v with
  | step e ih =>
    have hchild : ∀ c ∈ e.children, ∀ {v : Value}, v.Within q long →
        Ends (q.Explains long) (·.Within q long) (evalWith apply c v) :=
      fun c hc v hv => ih c hc (Expr.child_mem_parts he hc) hv
    cases e with
    | current => exact ends_pure hv
    | field name => exact ends_pure (within_fieldOf name hv)
    | literal j =>
      refine ends_pure (within_ofJson j ?_)
      cases hwritable : j.isWritable with
      | true => exact .inr rfl
      | false => exact .inl (hlong _ he (by rw [Expr.makesIntegers, hwritable]; rfl))
    | sub first second | subscript first second | pipe first second =>
      exact (hchild first (by simp [Expr.children]) hv).bind fun _ hw =>
        hchild second (by simp [Expr.children]) hw
    | index i => exact ends_pure (within_elementAt i hv)
    | slice start stop step =>
      refine ends_lift (yields_sliceOf hv fun hstep => ?_)
      subst hstep
      exact ⟨_, he, .zeroStep⟩
    | flatten base =>
      refine (hchild base (by simp [Expr.children]) hv).bind fun w hw => ?_
      split
      · exact ends_pure (.arr (within_flattenItems (within_arr.mp hw)))
      · exact ends_pure .null
    | project base each =>
      refine (hchild base (by simp [Expr.children]) hv).bind fun w hw => ?_
      split
      · refine (ends_collect fun v hv => hchild each (by simp [Expr.children]) ?_).bind ?_
        · exact within_arr.mp hw v hv
        · exact fun _ hrs => ends_pure (.arr hrs)
      · exact ends_pure .null
    | projectValues base each =>
      refine (hchild base (by simp [Expr.children]) hv).bind fun w hw => ?_
      split
      · refine (ends_collect (List.forall_mem_map.mpr fun field hfield =>
          hchild each (by simp [Expr.children]) ?_)).bind ?_
        · exact (within_obj.mp hw field hfield).2.2
        · exact fun _ hrs => ends_pure (.arr hrs)
      · exact ends_pure .null
    | filter base each condition =>
      refine (hchild base (by simp [Expr.children]) hv).bind fun w hw => ?_
      split
      · refine (ends_collectIf (fun v hv => hchild condition (by simp [Expr.children]) ?_)
          fun v hv => hchild each (by simp [Expr.children]) ?_).bind ?_
        · exact within_arr.mp hw v hv
        · exact within_arr.mp hw v hv
        · exact fun _ hrs => ends_pure (.arr hrs)
      · exact ends_pure .null
    | compare op left right =>
      refine (hchild left (by simp [Expr.children]) hv).bind fun a _ => ?_
      refine (hchild right (by simp [Expr.children]) hv).bind fun b _ => ?_
      exact ends_lift (yields_compareValues (fun hop => ⟨_, he, .incomparable hop⟩) a b)
    | or left right =>
      refine (hchild left (by simp [Expr.children]) hv).bind fun a ha => ?_
      split
      · exact hchild right (by simp [Expr.children]) hv
      · exact ends_pure ha
    | and left right =>
      refine (hchild left (by simp [Expr.children]) hv).bind fun a ha => ?_
      split
      · exact ends_pure ha
      · exact hchild right (by simp [Expr.children]) hv
    | not e =>
      exact (hchild e (by simp [Expr.children]) hv).bind fun _ _ => ends_pure (.bool _)
    | list items =>
      rw [evalWith]
      split
      · exact ends_pure .null
      · exact (ends_evalItems fun e he => hchild e he hv).bind fun _ hrs => ends_pure (.arr hrs.2)
    | hash fields =>
      rw [evalWith]
      split
      · exact ends_pure .null
      · refine (ends_evalFields fun e he => hchild e he hv).bind fun entries hentries => ?_
        exact ends_pure (within_obj.mpr
          (fieldsWithin_of_entries hentries (List.forall_mem_nil _)))
    | call name arguments =>
      refine (ends_evalItems fun e he => hchild e he hv).bind fun rs hrs => ?_
      exact ends_callFunction he (hlong _ he) happly hrs.1 hrs.2
    | reference e =>
      exact ends_freshMark.bind fun _ _ => ends_pure (.reference he)

/-- Applying references up to a depth keeps to the query; beyond it, evaluation gives up. -/
theorem ends_evalDepth (hlong : ∀ e ∈ q.parts, e.makesIntegers = true → long) (depth : Nat)
    {e : Expr} (he : e ∈ q.parts) {v : Value} (hv : v.Within q long) :
    Ends (q.Explains long) (·.Within q long) (evalDepth depth e v) := by
  -- Only a reference starts over, with one depth less for the expression that it refers to.
  induction depth generalizing e v with
  | zero => exact ends_evalWith hlong (fun e he _ _ => ends_throw ⟨_, he, .tooDeep⟩) he hv
  | succ depth ih =>
    refine ends_evalWith hlong (fun e he v hv => ih ?_ hv) he hv
    exact Expr.child_mem_parts he List.mem_cons_self

/-- A whole query gives a value within it, or fails in a way that one of its parts explains. -/
theorem yields_eval (hlong : ∀ e ∈ q.parts, e.makesIntegers = true → long) {v : Value}
    (hv : v.Within q long) : Yields (q.Explains long) (·.Within q long) (eval q v) := by
  have hends := ends_evalDepth hlong referenceDepth (Expr.self_mem_parts q) hv 0
  unfold eval
  exact hends.bind fun r hr => hr

/-! ## Queries -/

/-- There may be integers without a text: the value has them, or a part of the query gives integers
of any size. -/
def Expr.MayHaveLong (q : Expr) (v : Json) : Prop :=
  v.isWritable = false ∨ ∃ e ∈ q.parts, e.makesIntegers = true

/-- The failure comes from the text of the query or from a part of its expression. -/
def QueryError.ExplainedBy (query : Text) (v : Json) : QueryError → Prop
  | .syntaxError err => parse query = .error err
  | .evaluation err => ∃ q, parse query = .ok q ∧ q.Explains (q.MayHaveLong v) err

/-- A query gives a value within its expression, or fails in a way that is explained. -/
theorem yields_search (query : Text) (v : Json) :
    Yields (QueryError.ExplainedBy query v)
      (fun r => ∃ q, parse query = .ok q ∧ r.Within q (q.MayHaveLong v)) (search query v) := by
  unfold search
  cases hparse : parse query with
  | error err => exact hparse
  | ok q =>
    have hwithin : (Value.ofJson v).Within q (q.MayHaveLong v) := by
      refine within_ofJson v ?_
      cases hwritable : v.isWritable with
      | true => exact .inr rfl
      | false => exact .inl (.inl hwritable)
    have heval := yields_eval (fun e he hmakes => .inr ⟨e, he, hmakes⟩) hwithin
    dsimp only
    cases hresult : eval q (.ofJson v) with
    | error err =>
      rw [hresult] at heval
      exact ⟨q, hparse, heval⟩
    | ok r =>
      rw [hresult] at heval
      exact ⟨q, rfl, heval⟩

end LineAssist.Query
