import LineAssist.Proofs.Query.Operations

/-!
# What a call gives

A function that is called with arguments within a query gives a value within the query, or fails in
one of the ways that `Function.MayRaise` lists for it. The check of the arguments fails only for a
value of the wrong type, and leaves nothing to select from that cannot be compared.
-/

namespace LineAssist.Query

/-! ## Arguments -/

section Arguments

variable {function : Text} {expected : List Declared} {items : List Value}

theorem yields_checkElement (fails : EvalError → Prop)
    (hraise : ∀ v expected received, fails (.wrongType function v expected received))
    (k : Value.Kind) (v : Value) :
    Yields fails (fun _ => True) (checkElement function expected k v) := by
  unfold checkElement
  split
  · exact trivial
  · exact hraise _ _ _

/-- A check of arguments fails only for a value of the wrong type. -/
theorem yields_checkArguments {fails : EvalError → Prop}
    (hraise : ∀ v expected received, fails (.wrongType function v expected received))
    (signature : List (List Declared)) (arguments : List Value) :
    Yields fails (fun _ => True) (checkArguments function signature arguments) := by
  refine yields_forM fun (expected, v) _ => ?_
  dsimp only
  unfold checkArgument
  split
  · exact trivial
  · split
    · split
      · unfold checkElements
        split
        · exact trivial
        · exact trivial
        · exact yields_forM fun v _ => yields_checkElement fails hraise _ v
        · split
          · exact yields_forM fun v _ => yields_checkElement fails hraise _ v
          · exact hraise _ _ _
      · exact trivial
    · exact hraise _ _ _

/-- Elements that are all numbers or all texts can be compared with each other. -/
theorem comparable_of_checkElements
    (hkinds : expected.filterMap Declared.element? = [.number, .string])
    (h : checkElements function expected items = .ok ()) :
    ∀ a ∈ items, ∀ b ∈ items, a.Comparable b := by
  cases items with
  | nil => exact List.forall_mem_nil _
  | cons first rest =>
    simp only [checkElements, hkinds] at h
    split at h
    · rename_i hfirst
      have hkind : ∀ v ∈ first :: rest, v.kind = first.kind := by
        intro v hv
        have hv := ok_of_forM h hv
        unfold checkElement at hv
        split at hv
        · assumption
        · cases hv
      intro a ha b hb
      refine ⟨(hkind a ha).trans (hkind b hb).symm, ?_⟩
      rw [hkind a ha]
      simpa using hfirst
    · cases h

/-- Functions that select an element check that all of them can be compared. -/
theorem comparable_of_checkArguments {f : Function} (hf : f = .max ∨ f = .min)
    (h : checkArguments function f.signature [.arr items] = .ok ()) :
    ∀ a ∈ items, ∀ b ∈ items, a.Comparable b := by
  rcases hf with rfl | rfl <;>
    exact comparable_of_checkElements rfl (ok_of_forM h (List.mem_singleton_self _))

end Arguments

/-! ## Functions -/

namespace Function

open Value

variable {apply : Expr → Value → Evaluation Value} {q : Expr} {long : Prop}
  {fails : EvalError → Prop} {f : Function} {name : Text} {arguments : List Value}

theorem ends_sortBy {first : Value} {rest : List Value} (mark : Nat) {e : Expr}
    (hraise : ∀ {function v expected received}, fails (.wrongType function v expected received))
    (hitems : ∀ v ∈ first :: rest, v.Within q long)
    (happly : ∀ v, v.Within q long → Ends fails (·.Within q long) (apply e v)) :
    Ends fails (·.Within q long)
      (Function.sortBy.compute apply [.arr (first :: rest), .reference mark e]) := by
  refine (happly first (hitems first List.mem_cons_self)).bind fun k _ => ?_
  dsimp only
  split
  · have hkeyed : Ends fails (fun keyed : List (Value × Value) => ∀ p ∈ keyed, p.2.Within q long)
        ((first :: rest).mapM fun v => do
          pure (← keyOf "sort_by".toList [k.kind] (apply e) v, v)) :=
      ends_mapM fun v hv => (ends_keyOf (fun _ => hraise) (happly v (hitems v hv))).bind
        fun _ _ => ends_pure (hitems v hv)
    refine hkeyed.bind fun keyed hkeyed => ends_pure (.arr ?_)
    exact List.forall_mem_map.mpr fun p hp => hkeyed p (mem_of_mem_sortList hp)
  · exact ends_throw hraise

/-- What a function gives for arguments that were checked. -/
theorem ends_compute (hraise : ∀ {err}, f.MayRaise q.HasReference long err → fails err)
    (hmakes : f.makesIntegers = true → long)
    (happly : ∀ e, .reference e ∈ q.parts → ∀ v, v.Within q long →
      Ends fails (·.Within q long) (apply e v))
    (hchecked : checkArguments name f.signature arguments = .ok ())
    (hargs : ∀ v ∈ arguments, v.Within q long) :
    Ends fails (·.Within q long) (f.compute apply arguments) := by
  -- One case for each equation, in their order. What was checked is needed for max and min only:
  -- the other functions have their arguments in the pattern, or fail in a way of their own.
  fun_cases Function.compute apply f arguments with
  | case1 i => exact ends_pure (within_natAbs (hargs _ List.mem_cons_self))
  | case2 x => exact ends_computed_float x.abs
  | case3 => exact ends_computed_float .nan
  | case5 items =>
    have hover := hraise (.overflow (by simp))
    refine (ends_lift (yields_sumNumbers hover items)).bind fun total _ => ?_
    refine (ends_lift (yields_mean hover total items.length)).bind fun n hn => ?_
    obtain ⟨x, rfl⟩ := hn
    exact ends_computed_float x
  | case6 v =>
    have hnan := hraise (.notANumber (.inl rfl))
    have hover := hraise (.overflow (by simp))
    exact ends_lift (yields_toInteger hnan hover (hmakes rfl) (hargs v List.mem_cons_self))
  | case7 v =>
    have hnan := hraise (.notANumber (.inr rfl))
    have hover := hraise (.overflow (by simp))
    exact ends_lift (yields_toInteger hnan hover (hmakes rfl) (hargs v List.mem_cons_self))
  | case8 | case9 | case11 | case12 => exact ends_pure (.bool _)
  | case10 => exact ends_throw (hraise .notText)
  | case13 | case26 | case40 => exact ends_pure (.str _)
  | case14 fields =>
    have hfields := within_obj.mp (hargs _ List.mem_cons_self)
    exact ends_pure (.arr (List.forall_mem_map.mpr fun field hfield => (hfields field hfield).2.1))
  | case15 fields =>
    have hfields := within_obj.mp (hargs _ List.mem_cons_self)
    exact ends_pure (.arr (List.forall_mem_map.mpr fun field hfield => (hfields field hfield).2.2))
  | case16 | case17 | case18 => exact ends_pure (.int (.inl (hmakes rfl)))
  | case19 mark e items =>
    have he := within_reference.mp (hargs (.reference mark e) (by simp))
    have hitems := within_arr.mp (hargs (.arr items) (by simp))
    refine (ends_mapM fun v hv => happly e he v (hitems v hv)).bind fun _ hbs => ?_
    exact ends_pure (.arr hbs)
  | case20 items =>
    have hcomparable := comparable_of_checkArguments (.inl rfl) hchecked
    exact ends_selectBest (within_arr.mp (hargs _ List.mem_cons_self)) fun a ha b hb =>
      yields_lessThan (.inl (hcomparable b hb a ha))
  | case21 items =>
    have hcomparable := comparable_of_checkArguments (.inr rfl) hchecked
    exact ends_selectBest (within_arr.mp (hargs _ List.mem_cons_self)) fun a ha b hb =>
      yields_lessThan (.inl (hcomparable a ha b hb))
  | case22 items mark e | case23 items mark e =>
    have hitems := within_arr.mp (hargs (.arr items) (by simp))
    have he := within_reference.mp (hargs (.reference mark e) (by simp))
    refine ends_selectBestBy hitems (fun v hv => ?_) fun a b => yields_lessThan (.inr ?_)
    · exact ends_keyOf (fun _ => hraise .wrongType) (happly e he v (hitems v hv))
    · exact hraise (.incomparable (by simp))
  | case24 =>
    refine (ends_lift (yields_mergeAll (hraise .notPairs) (hraise .pairLength) hargs)).bind ?_
    exact fun fields hfields => ends_pure (within_obj.mpr hfields)
  | case25 =>
    exact ends_pure (within_option fun v hv => hargs v (List.mem_of_find?_eq_some hv))
  | case27 items =>
    have hitems := within_arr.mp (hargs _ List.mem_cons_self)
    exact ends_pure (.arr fun v hv => hitems v (List.mem_reverse.mp hv))
  | case28 items =>
    have hitems := within_arr.mp (hargs _ List.mem_cons_self)
    exact ends_pure (.arr fun v hv => hitems v (mem_of_mem_sortList hv))
  | case29 => exact ends_pure (.arr (List.forall_mem_nil _))
  | case30 first rest mark e =>
    have hitems := within_arr.mp (hargs (.arr (first :: rest)) (by simp))
    have he := within_reference.mp (hargs (.reference mark e) (by simp))
    exact ends_sortBy mark (hraise .wrongType) hitems (happly e he)
  | case31 items =>
    have hover := hraise (.overflow (by simp))
    refine (ends_lift (yields_sumNumbers hover items)).bind fun total _ => ?_
    exact ends_computed fun _ _ => .inl (hmakes rfl)
  | case32 items => exact ends_pure (hargs _ List.mem_cons_self)
  | case33 v => exact ends_pure (.arr hargs)
  | case34 t n hn => exact ends_computed fun i hi => .inr (isShort_of_textNumber? (hi ▸ hn))
  | case36 mark e =>
    have he := within_reference.mp (hargs _ List.mem_cons_self)
    exact ends_throw (hraise (.referenceValue ⟨e, he⟩ (.inl rfl)))
  | case37 v =>
    refine ends_pure ?_
    split
    · exact hargs v List.mem_cons_self
    · exact .null
  | case38 v =>
    refine ends_lift (yields_compactText ?_ ?_ (hargs v List.mem_cons_self))
    · exact fun hreferences => hraise (.referenceValue hreferences (.inr rfl))
    · exact fun hlong => hraise (.longInteger hlong)
  | _ => exact ends_pure .null

end Function

/-! ## Calls -/

section Call

variable {q : Expr} {long : Prop} {apply : Expr → Value → Evaluation Value} {name : Text}
  {expressions : List Expr} {arguments : List Value}

/-- A call that is part of the query gives a value within the query, or fails in a way that the
query explains. -/
theorem ends_callFunction (hcall : .call name expressions ∈ q.parts)
    (hlong : (Expr.call name expressions).makesIntegers = true → long)
    (happly : ∀ e, .reference e ∈ q.parts → ∀ v, v.Within q long →
      Ends (q.Explains long) (·.Within q long) (apply e v))
    (hlength : arguments.length = expressions.length)
    (hargs : ∀ v ∈ arguments, v.Within q long) :
    Ends (q.Explains long) (·.Within q long) (callFunction apply name arguments) := by
  unfold callFunction
  cases hname : Function.ofName? name with
  | none => exact ends_throw ⟨_, hcall, .unknownFunction hname⟩
  | some f =>
    dsimp only
    cases hcount : f.accepts arguments.length with
    | false => exact ends_throw ⟨_, hcall, .arity hname (hlength ▸ hcount)⟩
    | true =>
      have hraise {err} (hf : f.MayRaise q.HasReference long err) : q.Explains long err :=
        ⟨_, hcall, .function hname (hlength ▸ hcount) hf⟩
      have hmakes (hf : f.makesIntegers = true) : long :=
        hlong (by rw [Expr.makesIntegers, hname]; exact hf)
      have hyields : Yields (q.Explains long) (fun _ => True)
          (checkArguments name f.signature arguments) :=
        yields_checkArguments (fun _ _ _ => hraise .wrongType) f.signature arguments
      refine (ends_lift hyields.eq_ok).bind fun _ hchecked => ?_
      exact Function.ends_compute hraise hmakes happly hchecked hargs

end Call

end LineAssist.Query
