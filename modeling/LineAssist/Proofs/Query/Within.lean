import LineAssist.Proofs.Json.Writable
import LineAssist.Proofs.Query.Parts
import LineAssist.Query.Eval

/-!
# What the values of a query are made of

The references in a value are written in the query, and its integers have a text unless the query
can make longer ones. Taking a value apart and putting values together keeps to that, so what a
query gives can be written as JSON but for references and long integers.
-/

namespace LineAssist.Query

/-- The value is made of references of the query and of integers that have a text; where there may
be long ones, of any integers. The keys of objects are neither arrays nor objects. -/
inductive Value.Within (q : Expr) (long : Prop) : Value → Prop where
  | null : Within q long .null
  | bool (b : Bool) : Within q long (.bool b)
  | int {i : Int} (h : long ∨ LineAssist.Number.isShort i = true) : Within q long (.int i)
  | float (x : Binary64) : Within q long (.float x)
  | str (t : Text) : Within q long (.str t)
  | arr {items : List Value} (h : ∀ v ∈ items, Within q long v) : Within q long (.arr items)
  | obj {fields : List (Value × Value)} (hkeys : ∀ field ∈ fields, isKey field.1 = true)
    (hnames : ∀ field ∈ fields, Within q long field.1)
    (hvalues : ∀ field ∈ fields, Within q long field.2) : Within q long (.obj fields)
  | reference {mark : Nat} {e : Expr} (h : .reference e ∈ q.parts) :
    Within q long (.reference mark e)
  | indefinite (mark : Nat) : Within q long (.indefinite mark)

namespace Value

/-- The fields of an object within a query. -/
def FieldsWithin (q : Expr) (long : Prop) (fields : List (Value × Value)) : Prop :=
  ∀ field ∈ fields, isKey field.1 = true ∧ field.1.Within q long ∧ field.2.Within q long

section Within

variable {q : Expr} {long : Prop} {v : Value} {items : List Value} {fields : List (Value × Value)}

theorem within_arr : (Value.arr items).Within q long ↔ ∀ v ∈ items, v.Within q long :=
  ⟨fun h => by cases h; assumption, .arr⟩

theorem within_obj : (Value.obj fields).Within q long ↔ FieldsWithin q long fields := by
  constructor
  · rintro ⟨⟩ field hfield
    exact ⟨by solve_by_elim, by solve_by_elim, by solve_by_elim⟩
  · intro h
    exact .obj (fun f hf => (h f hf).1) (fun f hf => (h f hf).2.1) fun f hf => (h f hf).2.2

theorem within_reference {mark : Nat} {e : Expr} :
    (Value.reference mark e).Within q long ↔ .reference e ∈ q.parts :=
  ⟨fun h => by cases h; assumption, .reference⟩

theorem within_option {o : Option Value} (h : ∀ v ∈ o, v.Within q long) :
    (o.getD .null).Within q long := by
  cases o with
  | none => exact .null
  | some v => exact h v rfl

/-! ## Objects -/

theorem within_of_lookupKey {key : Value} (h : FieldsWithin q long fields)
    (hv : lookupKey key fields = some v) : v.Within q long := by
  induction fields with
  | nil => cases hv
  | cons field fields ih =>
    obtain ⟨hfirst, hrest⟩ := List.forall_mem_cons.mp h
    rw [lookupKey] at hv
    split at hv
    · obtain rfl := Option.some.inj hv
      exact hfirst.2.2
    · exact ih hrest hv

theorem fieldsWithin_putKey {key : Value} (h : FieldsWithin q long fields)
    (hkey : isKey key = true) (hname : key.Within q long) (hv : v.Within q long) :
    FieldsWithin q long (putKey key v fields) := by
  induction fields with
  | nil => exact List.forall_mem_singleton.mpr ⟨hkey, hname, hv⟩
  | cons field fields ih =>
    obtain ⟨hfirst, hrest⟩ := List.forall_mem_cons.mp h
    rw [putKey]
    split
    · exact List.forall_mem_cons.mpr ⟨⟨hfirst.1, hfirst.2.1, hv⟩, hrest⟩
    · exact List.forall_mem_cons.mpr ⟨hfirst, ih hrest⟩

end Within

/-! ## JSON values -/

section Json

variable {q : Expr} {long : Prop}

-- The limit on the digits of an integer must not be computed.
attribute [local irreducible] LineAssist.Number.isShort

mutual

theorem within_ofJson : ∀ j : Json, (long ∨ j.isWritable = true) → (ofJson j).Within q long
  | .null, _ => .null
  | .bool b, _ => .bool b
  | .int _, h => .int h
  | .float x, _ => .float x
  | .str t, _ => .str t
  | .arr items, h => .arr (within_of_mem_ofItems items h)
  | .obj fields, h => within_obj.mpr (fieldsWithin_ofFields fields h)

theorem within_of_mem_ofItems : ∀ items : List Json, (long ∨ Json.itemsWritable items = true) →
    ∀ v ∈ ofItems items, v.Within q long
  | [], _ => List.forall_mem_nil _
  | j :: rest, h => by
    have hboth : long ∨ j.isWritable = true ∧ Json.itemsWritable rest = true :=
      h.imp_right (Bool.and_eq_true _ _).mp
    refine List.forall_mem_cons.mpr ⟨within_ofJson j ?_, within_of_mem_ofItems rest ?_⟩
    · exact hboth.imp_right And.left
    · exact hboth.imp_right And.right

theorem fieldsWithin_ofFields : ∀ fields : List (Text × Json),
    (long ∨ Json.fieldsWritable fields = true) → FieldsWithin q long (ofFields fields)
  | [], _ => List.forall_mem_nil _
  | (k, j) :: rest, h => by
    have hboth : long ∨ j.isWritable = true ∧ Json.fieldsWritable rest = true :=
      h.imp_right (Bool.and_eq_true _ _).mp
    refine List.forall_mem_cons.mpr ⟨⟨rfl, .str k, within_ofJson j ?_⟩, fieldsWithin_ofFields rest ?_⟩
    · exact hboth.imp_right And.left
    · exact hboth.imp_right And.right

end

theorem toItems_eq (items : List Value) : toItems items = items.mapM toJson := by
  induction items with
  | nil => rfl
  | cons v items ih =>
    rw [toItems, ih, List.mapM_cons]
    rfl

theorem toFields_eq (fields : List (Value × Value)) :
    toFields fields = fields.mapM fun (k, v) =>
      (keyText k).bind fun key => (toJson v).bind fun j => .ok (key, j) := by
  induction fields with
  | nil => rfl
  | cons field fields ih =>
    obtain ⟨k, v⟩ := field
    rw [toFields, ih, List.mapM_cons]
    dsimp only
    cases keyText k with
    | error e => rfl
    | ok key => cases toJson v <;> rfl

theorem yields_short {α : Type} {holds : α → Prop} {i : Int} {a : α}
    (h : long ∨ LineAssist.Number.isShort i = true)
    (ha : LineAssist.Number.isShort i = true → holds a) :
    Yields (q.ExplainsDump long) holds
      (if LineAssist.Number.isShort i then .ok a else .error .longInteger) := by
  generalize LineAssist.Number.isShort i = short at h ha ⊢
  cases short with
  | true => exact ha rfl
  | false => exact h.resolve_right Bool.false_ne_true

theorem yields_keyText {k : Value} (hkey : isKey k = true) (h : k.Within q long) :
    Yields (q.ExplainsDump long) (fun _ => True) k.keyText := by
  cases h with
  | bool b => cases b <;> exact trivial
  | int h => exact yields_short h fun _ => trivial
  | arr => cases hkey
  | obj => cases hkey
  | @reference mark e he => exact ⟨e, he⟩
  | null | float | str | indefinite => exact trivial

/-- A value within a query is JSON that can be written but for references and long integers. -/
theorem yields_toJson {v : Value} (h : v.Within q long) :
    Yields (q.ExplainsDump long) (fun j => j.isWritable = true) v.toJson := by
  induction h with
  | int h => exact yields_short h id
  | @arr items _ ih =>
    rw [toJson, toItems_eq]
    exact (yields_mapM ih).bind fun _ hitems => Json.itemsWritable_iff.mpr hitems
  | @obj fields hkeys hnames _ _ ih =>
    rw [toJson, toFields_eq]
    have hentry : ∀ field ∈ fields, Yields (q.ExplainsDump long)
        (fun entry : Text × Json => entry.2.isWritable = true)
        ((keyText field.1).bind fun key => (toJson field.2).bind fun j => .ok (key, j)) := by
      intro field hfield
      have hkey := yields_keyText (hkeys field hfield) (hnames field hfield)
      exact hkey.bind fun _ _ => (ih field hfield).bind fun _ hj => hj
    exact (yields_mapM hentry).bind fun _ hfields => Json.fieldsWritable_iff.mpr hfields
  | @reference mark e he => exact ⟨e, he⟩
  | null | bool | float | str | indefinite => exact rfl

theorem spelledItems_eq (items : List Value) : spelledItems items = items.map spelled := by
  induction items with
  | nil => rfl
  | cons v items ih => rw [spelledItems, ih, List.map_cons]

theorem spelledFields_eq (fields : List (Value × Value)) :
    spelledFields fields = fields.map fun (k, v) => (k, spelled v) := by
  induction fields with
  | nil => rfl
  | cons field fields ih =>
    obtain ⟨k, v⟩ := field
    rw [spelledFields, ih, List.map_cons]

theorem Within.spelled {v : Value} (h : v.Within q long) : v.spelled.Within q long := by
  induction h with
  | arr _ ih =>
    rw [Value.spelled, spelledItems_eq, within_arr]
    exact List.forall_mem_map.mpr ih
  | obj hkeys hnames _ _ ih =>
    rw [Value.spelled, spelledFields_eq, within_obj]
    refine List.forall_mem_map.mpr fun field hfield => ?_
    exact ⟨hkeys field hfield, hnames field hfield, ih field hfield⟩
  | int h => exact .int h
  | reference => exact .str _
  | null => exact .null
  | bool b => exact .bool b
  | float x => exact .float x
  | str t => exact .str t
  | indefinite mark => exact .indefinite mark

end Json

/-! ## Taking values apart -/

section Access

variable {q : Expr} {long : Prop} {v : Value} {items : List Value}

theorem within_fieldOf (name : Text) (h : v.Within q long) : (fieldOf name v).Within q long := by
  cases h with
  | obj hkeys hnames hvalues =>
    exact within_option fun w hw => within_of_lookupKey (within_obj.mp (.obj hkeys hnames hvalues)) hw
  | _ => exact .null

theorem within_getElem? (h : ∀ v ∈ items, v.Within q long) (n : Nat) :
    ((items[n]?).getD .null).Within q long :=
  within_option fun _ hw => h _ (List.mem_of_getElem? hw)

theorem within_elementAt (i : Int) (h : v.Within q long) : (elementAt i v).Within q long := by
  cases h with
  | @arr items hitems =>
    rw [elementAt]
    generalize (if i < 0 then i + (items.length : Int) else i) = n
    split
    · exact .null
    · exact within_getElem? hitems _
  | _ => exact .null

theorem mem_of_mem_takeStepping {items : Array Value} {step stop : Int} {fuel : Nat} {i : Int}
    (h : v ∈ takeStepping items step stop fuel i) : v ∈ items := by
  induction fuel generalizing i with
  | zero => cases h
  | succ fuel ih =>
    rw [takeStepping] at h
    by_cases hfurther : if 0 < step then i < stop else stop < i
    · rw [if_pos hfurther] at h
      rcases List.mem_append.mp h with hv | hv
      · exact Array.mem_of_getElem? (Option.mem_toList.mp hv)
      · exact ih hv
    · rw [if_neg hfurther] at h
      cases h

/-- A slice fails only for a step of zero. -/
theorem yields_sliceOf {fails : EvalError → Prop} {start stop step : Option Int}
    (h : v.Within q long) (hstep : step = some 0 → fails .zeroStep) :
    Yields fails (·.Within q long) (sliceOf start stop step v) := by
  cases h with
  | @arr items hitems =>
    rw [sliceOf]
    dsimp only
    split
    · rename_i hzero
      apply hstep
      cases step with
      | none => cases hzero
      | some n => exact congrArg some hzero
    · refine within_arr.mpr fun w hw => hitems w ?_
      exact List.mem_toArray.mp (mem_of_mem_takeStepping hw)
  | _ => exact Value.Within.null

theorem within_flattenItems (h : ∀ v ∈ items, v.Within q long) :
    ∀ v ∈ flattenItems items, v.Within q long := by
  fun_induction flattenItems items with
  | case1 => exact h
  | case2 inner rest ih =>
    obtain ⟨hfirst, hrest⟩ := List.forall_mem_cons.mp h
    exact List.forall_mem_append.mpr ⟨within_arr.mp hfirst, ih hrest⟩
  | case3 v rest hv ih =>
    obtain ⟨hfirst, hrest⟩ := List.forall_mem_cons.mp h
    exact List.forall_mem_cons.mpr ⟨hfirst, ih hrest⟩

end Access

end Value

end LineAssist.Query
