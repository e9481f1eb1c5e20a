import LineAssist.Query.Function

/-!
# What a query is made of

A query has parts: itself, and the parts of the expressions that it is built from. A failure is
explained by a query if one of its parts is of a kind that can raise it. Nothing here looks at the
value that the query is applied to, except for whether it can have integers without a text.
-/

namespace LineAssist.Query

namespace Expr

/-- The expressions that an expression is directly built from. -/
def children : Expr → List Expr
  | .sub first second => [first, second]
  | .subscript base place => [base, place]
  | .flatten base => [base]
  | .project base each => [base, each]
  | .projectValues base each => [base, each]
  | .filter base each condition => [base, each, condition]
  | .compare _ left right => [left, right]
  | .or left right => [left, right]
  | .and left right => [left, right]
  | .not e => [e]
  | .pipe first second => [first, second]
  | .list items => items
  | .hash fields => fields.map Prod.snd
  | .call _ arguments => arguments
  | .reference e => [e]
  | _ => []

mutual

/-- An expression and everything that it is built from. -/
def parts : Expr → List Expr
  | .sub first second => .sub first second :: (parts first ++ parts second)
  | .subscript base place => .subscript base place :: (parts base ++ parts place)
  | .flatten base => .flatten base :: parts base
  | .project base each => .project base each :: (parts base ++ parts each)
  | .projectValues base each => .projectValues base each :: (parts base ++ parts each)
  | .filter base each condition =>
    .filter base each condition :: (parts base ++ (parts each ++ parts condition))
  | .compare op left right => .compare op left right :: (parts left ++ parts right)
  | .or left right => .or left right :: (parts left ++ parts right)
  | .and left right => .and left right :: (parts left ++ parts right)
  | .not e => .not e :: parts e
  | .pipe first second => .pipe first second :: (parts first ++ parts second)
  | .list items => .list items :: itemParts items
  | .hash fields => .hash fields :: fieldParts fields
  | .call name arguments => .call name arguments :: itemParts arguments
  | .reference e => .reference e :: parts e
  | e => [e]

def itemParts : List Expr → List Expr
  | [] => []
  | e :: rest => parts e ++ itemParts rest

def fieldParts : List (Text × Expr) → List Expr
  | [] => []
  | (_, e) :: rest => parts e ++ fieldParts rest

end

theorem sizeOf_lt_of_child {c e : Expr} (hc : c ∈ e.children) : sizeOf c < sizeOf e := by
  cases e with
  | list items =>
    have hlt : sizeOf c < sizeOf items := List.sizeOf_lt_of_mem hc
    simp only [list.sizeOf_spec]
    omega
  | call name arguments =>
    have hlt : sizeOf c < sizeOf arguments := List.sizeOf_lt_of_mem hc
    simp only [call.sizeOf_spec]
    omega
  | hash fields =>
    obtain ⟨⟨k, d⟩, hmem, rfl⟩ := List.mem_map.mp hc
    have hlt : sizeOf (k, d) < sizeOf fields := List.sizeOf_lt_of_mem hmem
    simp only [hash.sizeOf_spec, Prod.mk.sizeOf_spec] at hlt ⊢
    omega
  | current | field | literal | index | slice => cases hc
  | _ =>
    simp only [children, List.mem_cons, List.not_mem_nil, or_false] at hc
    grind

/-- Induction over the expressions that an expression is built from. -/
theorem child_induction {motive : Expr → Prop}
    (step : ∀ e, (∀ c ∈ e.children, motive c) → motive e) (e : Expr) : motive e :=
  step e fun c hc =>
    have := sizeOf_lt_of_child hc
    child_induction step c
termination_by sizeOf e

theorem itemParts_eq (items : List Expr) : itemParts items = items.flatMap parts := by
  induction items with
  | nil => rfl
  | cons e items ih => rw [itemParts, ih, List.flatMap_cons]

theorem fieldParts_eq (fields : List (Text × Expr)) :
    fieldParts fields = (fields.map Prod.snd).flatMap parts := by
  induction fields with
  | nil => rfl
  | cons field fields ih =>
    obtain ⟨k, e⟩ := field
    rw [fieldParts, ih, List.map_cons, List.flatMap_cons]

theorem parts_eq (e : Expr) : e.parts = e :: e.children.flatMap parts := by
  cases e <;> simp [parts, children, itemParts_eq, fieldParts_eq]

theorem self_mem_parts (e : Expr) : e ∈ e.parts := by
  rw [parts_eq]
  exact List.mem_cons_self

theorem mem_parts_iff {x e : Expr} : x ∈ e.parts ↔ x = e ∨ ∃ c ∈ e.children, x ∈ c.parts := by
  rw [parts_eq, List.mem_cons, List.mem_flatMap]

/-- What a part is built from is a part too. -/
theorem child_mem_parts {q e c : Expr} (he : e ∈ q.parts) (hc : c ∈ e.children) : c ∈ q.parts := by
  induction q using child_induction with
  | step q ih =>
    rw [mem_parts_iff] at he ⊢
    rcases he with rfl | ⟨d, hd, he⟩
    · exact .inr ⟨c, hc, self_mem_parts c⟩
    · exact .inr ⟨d, hd, ih d hd he⟩

end Expr

/-! ## What can fail -/

/-- The comparison asks for an order. -/
def Comparison.isOrder : Comparison → Bool
  | .eq | .ne => false
  | .lt | .le | .gt | .ge => true

namespace Function

/-- The function can give integers of any size. -/
def makesIntegers : Function → Bool
  | .ceil | .floor | .length | .sum => true
  | _ => false

/-- The failures of a function that is called with the right number of arguments, where there may be
references, and integers of any size. -/
inductive MayRaise (references long : Prop) : Function → EvalError → Prop where
  | wrongType {f name v expected received} :
    MayRaise references long f (.wrongType name v expected received)
  | notText : MayRaise references long .contains .notText
  | notPairs : MayRaise references long .merge .notPairs
  | pairLength : MayRaise references long .merge .pairLength
  | incomparable {f} (h : f = .maxBy ∨ f = .minBy) : MayRaise references long f .incomparable
  | notANumber {f} (h : f = .ceil ∨ f = .floor) : MayRaise references long f .notANumber
  | overflow {f} (h : f = .ceil ∨ f = .floor ∨ f = .avg ∨ f = .sum) :
    MayRaise references long f .overflow
  | referenceValue {f} (hreferences : references) (h : f = .toNumber ∨ f = .toString) :
    MayRaise references long f .referenceValue
  | longInteger (hlong : long) : MayRaise references long .toString .notANumber

end Function

namespace Expr

/-- The expression itself can give integers of any size. -/
def makesIntegers : Expr → Bool
  | .literal v => !v.isWritable
  | .call name _ => (Function.ofName? name).any Function.makesIntegers
  | _ => false

/-- The failures of an expression whose parts have values. -/
inductive MayRaise (references long : Prop) : Expr → EvalError → Prop where
  | zeroStep {start stop} : MayRaise references long (.slice start stop (some 0)) .zeroStep
  | incomparable {op left right} (h : op.isOrder = true) :
    MayRaise references long (.compare op left right) .incomparable
  | tooDeep {e} : MayRaise references long (.reference e) .tooDeep
  | unknownFunction {name arguments} (h : Function.ofName? name = none) :
    MayRaise references long (.call name arguments) (.unknownFunction name)
  | arity {name arguments f} (h : Function.ofName? name = some f)
    (hcount : f.accepts arguments.length = false) :
    MayRaise references long (.call name arguments) (.arity name)
  | function {name arguments f err} (h : Function.ofName? name = some f)
    (hcount : f.accepts arguments.length = true) (hf : f.MayRaise references long err) :
    MayRaise references long (.call name arguments) err

def HasReference (q : Expr) : Prop :=
  ∃ e, .reference e ∈ q.parts

/-- A part of the query can raise the failure. -/
def Explains (q : Expr) (long : Prop) (err : EvalError) : Prop :=
  ∃ e ∈ q.parts, e.MayRaise q.HasReference long err

/-- The query can give a value that has no text for this reason. -/
def ExplainsDump (q : Expr) (long : Prop) : DumpError → Prop
  | .reference => q.HasReference
  | .longInteger => long

end Expr

end LineAssist.Query
