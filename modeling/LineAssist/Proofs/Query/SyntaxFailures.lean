import LineAssist.Proofs.Query.Evaluation

/-!
# Failures of the syntax

A query counts as wrong in itself if it is malformed, or if it calls a function with the wrong
number of arguments. The first is known before the query is applied to anything. The second is only
found out when the call is reached, so the same query may fail in this way for one value and have a
result for another. Where no call is miscounted, the value does not matter.
-/

namespace LineAssist.Query

/-- Every known function that the query calls gets a number of arguments that it accepts. -/
def Expr.countsFit (q : Expr) : Bool :=
  q.parts.all fun
    | .call name arguments => (Function.ofName? name).all fun f => f.accepts arguments.length
    | _ => true

/-- The query fails for the value as one that cannot be right for any. -/
def failsSyntactically (query : Text) (v : Json) : Bool :=
  match search query v with
  | .error err => err.isSyntactic
  | .ok _ => false

/-- Only a miscounted call gives the failure of a wrong number of arguments. -/
theorem Expr.Explains.countsFit_eq_false {q : Expr} {long : Prop} {name : Text}
    (h : q.Explains long (.arity name)) : q.countsFit = false := by
  obtain ⟨e, he, hraise⟩ := h
  cases hraise with
  | @arity _ arguments f hname hcount =>
    refine Bool.eq_false_iff.mpr fun hall => ?_
    have hfits := List.all_eq_true.mp hall _ he
    simp only [hname, Option.all_some, hcount, Bool.false_eq_true] at hfits
  | function _ _ hf => cases hf

/-- Without miscounted calls, only malformed queries fail syntactically, and they always do. -/
theorem failsSyntactically_iff_malformed {query : Text}
    (hcounts : ∀ q, parse query = .ok q → q.countsFit = true) (v : Json) :
    failsSyntactically query v = true ↔ parse query = .error .malformed := by
  constructor
  · intro hfails
    have hyields := yields_search query v
    unfold failsSyntactically at hfails
    split at hfails
    · rename_i err hsearch
      rw [hsearch] at hyields
      match err, hfails with
      | .syntaxError .malformed, _ => exact hyields
      | .evaluation (.arity name), _ =>
        obtain ⟨q, hparse, hq⟩ := hyields
        exact absurd (hcounts q hparse) (Bool.eq_false_iff.mp hq.countsFit_eq_false)
    · cases hfails
  · intro hmalformed
    rw [failsSyntactically, search, hmalformed]
    rfl

/-- Unless a call has the wrong number of arguments, whether a query fails syntactically depends on
the query alone: it does if it is malformed. -/
theorem failsSyntactically_for_all_values {query : Text}
    (hcounts : ∀ q, parse query = .ok q → q.countsFit = true) (v w : Json) :
    failsSyntactically query v = failsSyntactically query w ∧
      (failsSyntactically query v = true ↔ parse query = .error .malformed) := by
  have hv := failsSyntactically_iff_malformed hcounts v
  have hw := failsSyntactically_iff_malformed hcounts w
  exact ⟨Bool.eq_iff_iff.mpr (hv.trans hw.symm), hv⟩

/-- The call fails for the text, but not syntactically. -/
theorem failsSyntactically_for_number_and_text :
    (∀ q, parse "abs(@)".toList = .ok q → q.countsFit = true) ∧
      failsSyntactically "abs(@)".toList (.int 1) =
        failsSyntactically "abs(@)".toList (.str ['a']) ∧
      (failsSyntactically "abs(@)".toList (.int 1) = true ↔
        parse "abs(@)".toList = .error .malformed) := by
  have hcounts : ∀ q, parse "abs(@)".toList = .ok q → q.countsFit = true := by
    have hfits : (parse "abs(@)".toList).toOption.all Expr.countsFit = true := by decide +kernel
    intro q hq
    rwa [hq] at hfits
  exact ⟨hcounts, failsSyntactically_for_all_values hcounts (.int 1) (.str ['a'])⟩

/-- A call with too many arguments fails syntactically for an array that has an element, and has a
result for an array that has none. -/
theorem failsSyntactically_for_some_values :
    failsSyntactically "[].abs(@, @)".toList (.arr [.int 1]) = true ∧
      failsSyntactically "[].abs(@, @)".toList (.arr []) = false := by
  decide +kernel

end LineAssist.Query
