import LineAssist.Proofs.Json.Writable
import LineAssist.Proofs.Query.Within
import Mathlib.Data.List.InsertIdx

/-!
# What functions are computed from

Sorting and selecting only return what was there, and two numbers or two texts can always be put in
order. What is computed from values within a query, and the values that are put together from them,
are within the query too.
-/

namespace LineAssist.Query

/-! ## Sorting -/

section Sorting

variable {α : Type} {less : α → α → Bool} {x y : α}

theorem mem_of_mem_insertSorted {sorted : Array α} (h : y ∈ insertSorted less sorted x) :
    y = x ∨ y ∈ sorted := by
  simp only [insertSorted, Array.insertIdxIfInBounds] at h
  split at h
  · rename_i hplace
    rw [← Array.mem_toList_iff, Array.toList_insertIdx] at h
    exact (List.eq_or_mem_of_mem_insertIdx h).imp_right Array.mem_toList_iff.mp
  · exact .inr h

theorem mem_of_mem_foldl_insertSorted {l : List α} {sorted : Array α}
    (h : y ∈ l.foldl (insertSorted less) sorted) : y ∈ sorted ∨ y ∈ l := by
  induction l generalizing sorted with
  | nil => exact .inl h
  | cons x l ih =>
    rcases ih h with h | h
    · rcases mem_of_mem_insertSorted h with rfl | h
      · exact .inr List.mem_cons_self
      · exact .inl h
    · exact .inr (List.mem_cons_of_mem x h)

/-- Sorting adds nothing. -/
theorem mem_of_mem_sortList {l : List α} (h : y ∈ sortList less l) : y ∈ l := by
  match l with
  | [] => exact h
  | [_] => exact h
  | first :: second :: rest =>
    rw [sortList] at h
    generalize runLength _ second rest = n at h
    have hrest : y ∈ first :: second :: rest.take n ∨ y ∈ rest.drop n := by
      refine (mem_of_mem_foldl_insertSorted (Array.mem_toList_iff.mp h)).imp_left fun h => ?_
      rw [List.mem_toArray] at h
      split at h
      · exact List.mem_reverse.mp h
      · exact h
    rw [← List.take_append_drop n rest, ← List.cons_append, ← List.cons_append]
    exact List.mem_append.mpr hrest

end Sorting

namespace Value

variable {q : Expr} {long : Prop} {fails : EvalError → Prop} {v : Value} {items : List Value}

/-! ## Numbers -/

theorem yields_toFraction (h : fails .overflow) (n : Number) :
    Yields fails (fun _ => True) (toFraction n) := by
  unfold toFraction
  split
  · exact trivial
  · split
    · exact h
    · exact trivial

theorem yields_addNumbers (h : fails .overflow) (a b : Number) :
    Yields fails (fun _ => True) (addNumbers a b) := by
  unfold addNumbers
  split
  · exact trivial
  · exact (yields_toFraction h a).bind fun _ _ => (yields_toFraction h b).bind fun _ _ => trivial

theorem yields_sumNumbers (h : fails .overflow) (items : List Value) :
    Yields fails (fun _ => True) (sumNumbers items) :=
  yields_foldlM _ trivial fun total _ n _ => yields_addNumbers h total n

/-- A mean is a fraction. -/
theorem yields_mean (h : fails .overflow) (total : Number) (count : Nat) :
    Yields fails (fun n => ∃ x, n = .float x) (mean total count) := by
  unfold mean
  split
  · split
    · exact h
    · exact ⟨_, rfl⟩
  · exact ⟨_, rfl⟩

theorem ends_computed {n : Number}
    (h : ∀ i, n = .int i → long ∨ LineAssist.Number.isShort i = true) :
    Ends fails (·.Within q long) (computed n) := by
  unfold computed
  split
  · exact ends_pure (.int (h _ rfl))
  · exact fun mark => .indefinite mark
  · exact ends_pure (.float _)

theorem ends_computed_float (x : Binary64) : Ends fails (·.Within q long) (computed (.float x)) :=
  ends_computed fun i h => by cases h

theorem yields_toInteger {round : Binary64 → Option Int} (hnan : fails .notANumber)
    (hrange : fails .overflow) (hlong : long) (h : v.Within q long) :
    Yields fails (·.Within q long) (toInteger round v) := by
  unfold toInteger
  split
  · split
    · exact Within.int (.inl hlong)
    · exact hnan
    · exact hrange
  · exact hnan
  · exact h

theorem isShort_of_readInt? {t : Text} {i : Int} (h : LineAssist.Number.readInt? t = some i) :
    LineAssist.Number.isShort i = true := by
  rw [LineAssist.Number.readInt?] at h
  obtain ⟨plain, -, h⟩ := Option.bind_eq_some_iff.mp h
  dsimp only at h
  split at h
  · cases h
  · rename_i hdigits
    simp only [Bool.or_eq_true, Bool.not_eq_true', decide_eq_true_eq, not_or,
      Bool.not_eq_false, not_lt] at hdigits
    obtain ⟨⟨-, hall⟩, hlength⟩ := hdigits
    obtain rfl := Option.some.inj h
    exact Json.isShort_of_digits _ (List.all_eq_true.mp hall) hlength

theorem isShort_of_textNumber? {t : Text} {i : Int} (h : textNumber? t = some (.int i)) :
    LineAssist.Number.isShort i = true := by
  rw [textNumber?] at h
  split at h
  · rename_i hread
    cases h
    exact isShort_of_readInt? hread
  · cases hread : LineAssist.Number.readBinary64? t <;> simp [hread] at h

/-! ## Order -/

/-- Two numbers, or two texts. -/
def Comparable (a b : Value) : Prop :=
  a.kind = b.kind ∧ (a.kind = .number ∨ a.kind = .string)

theorem exists_number_of_kind (h : v.kind = .number) : ∃ n, v.number? = some n := by
  cases v with
  | int | float | indefinite => exact ⟨_, rfl⟩
  | _ => cases h

theorem exists_text_of_kind (h : v.kind = .string) : ∃ t, v = .str t := by
  cases v with
  | str t => exact ⟨t, rfl⟩
  | _ => cases h

theorem yields_lessThan {a b : Value} (h : Comparable a b ∨ fails .incomparable) :
    Yields fails (fun _ => True) (lessThan a b) := by
  rcases h with ⟨hkind, hnumber | htext⟩ | h
  · obtain ⟨x, hx⟩ := exists_number_of_kind hnumber
    obtain ⟨y, hy⟩ := exists_number_of_kind (hkind.symm.trans hnumber)
    unfold lessThan
    rw [hx, hy]
    exact trivial
  · obtain ⟨s, rfl⟩ := exists_text_of_kind htext
    obtain ⟨t, rfl⟩ := exists_text_of_kind (hkind.symm.trans htext)
    exact trivial
  · unfold lessThan
    split
    · exact trivial
    · exact trivial
    · exact h

/-- What is selected under its key is one of the elements, if the keys can be compared. -/
theorem yields_selectBest {better : Value → Value → Except EvalError Bool}
    (hbetter : ∀ a ∈ items, ∀ b ∈ items, Yields fails (fun _ => True) (better a b)) :
    Yields fails (fun best => ∀ v ∈ best, v ∈ items)
      (selectBest better (items.map fun v => (v, v))) := by
  have hkeyed : ∀ p ∈ items.map fun v => (v, v), p.1 ∈ items ∧ p.2 ∈ items :=
    List.forall_mem_map.mpr fun v hv => ⟨hv, hv⟩
  -- The best so far is kept with its key, so both must stay among the elements.
  revert hkeyed
  generalize (items.map fun v => (v, v)) = keyed
  intro hkeyed
  cases keyed with
  | nil => rintro v ⟨⟩
  | cons first rest =>
    obtain ⟨hfirst, hrest⟩ := List.forall_mem_cons.mp hkeyed
    refine (yields_foldlM (fun best => best.1 ∈ items ∧ best.2 ∈ items) hfirst ?_).bind ?_
    · intro best hbest p hp
      refine (hbetter p.1 (hrest p hp).1 best.1 hbest.1).bind fun isBetter _ => ?_
      cases isBetter with
      | true => exact hrest p hp
      | false => exact hbest
    · exact fun best hbest v hv => Option.some.inj hv ▸ hbest.2

theorem ends_selectBest {better : Value → Value → Except EvalError Bool}
    (hitems : ∀ v ∈ items, v.Within q long)
    (hbetter : ∀ a ∈ items, ∀ b ∈ items, Yields fails (fun _ => True) (better a b)) :
    Ends fails (·.Within q long)
      (do pure ((← selectBest better (items.map fun v => (v, v))).getD .null) : Evaluation Value) :=
  (ends_lift (yields_selectBest hbetter)).bind fun _ hbest =>
    ends_pure (within_option fun v hv => hitems v (hbest v hv))

theorem ends_selectBestBy {better : Value → Value → Except EvalError Bool}
    {key : Value → Evaluation Value} (hitems : ∀ v ∈ items, v.Within q long)
    (hkey : ∀ v ∈ items, Ends fails (·.Within q long) (key v))
    (hbetter : ∀ a b, Yields fails (fun _ => True) (better a b)) :
    Ends fails (·.Within q long) (selectBestBy better key items) := by
  refine (ends_foldlM (fun best => ∀ p ∈ best, p.2.Within q long) ?_ ?_).bind ?_
  · rintro p ⟨⟩
  · intro best hbest v hv
    refine (hkey v hv).bind fun k _ => ?_
    cases best with
    | none => exact ends_pure fun p hp => Option.some.inj hp ▸ hitems v hv
    | some best =>
      refine (ends_lift (hbetter k best.1)).bind fun isBetter _ => ?_
      cases isBetter with
      | true => exact ends_pure fun p hp => Option.some.inj hp ▸ hitems v hv
      | false => exact ends_pure hbest
  · intro best hbest
    refine ends_pure ?_
    cases best with
    | none => exact .null
    | some p => exact hbest p rfl

theorem ends_keyOf {function : Text} {expected : List Kind} {apply : Value → Evaluation Value}
    (hraise : ∀ received, fails (.wrongType function received (expected.map Kind.name) received.kind.name))
    (happly : Ends fails (·.Within q long) (apply v)) :
    Ends fails (·.Within q long) (keyOf function expected apply v) := by
  refine happly.bind fun k hk => ?_
  split
  · exact ends_pure hk
  · exact ends_throw (hraise k)

/-! ## Merging -/

section Merging

variable {fields : List (Value × Value)}

theorem within_pairItems? (h : v.Within q long) (hitems : pairItems? v = some items) :
    ∀ item ∈ items, item.Within q long := by
  cases h with
  | arr hinner => exact Option.some.inj hitems ▸ hinner
  | str t => exact Option.some.inj hitems ▸ List.forall_mem_map.mpr fun c _ => .str [c]
  | obj _ hnames => exact Option.some.inj hitems ▸ List.forall_mem_map.mpr hnames
  | _ => cases hitems

theorem yields_mergePair (hpairs : fails .notPairs) (hlength : fails .pairLength)
    (hfields : FieldsWithin q long fields) (h : v.Within q long) :
    Yields fails (FieldsWithin q long) (mergePair fields v) := by
  unfold mergePair
  split
  · exact hpairs
  · rename_i k w hitems
    have hboth := within_pairItems? h hitems
    split
    · rename_i hkey
      exact fieldsWithin_putKey hfields hkey (hboth k (by simp)) (hboth w (by simp))
    · exact hpairs
  · exact hlength

theorem fieldsWithin_foldl_putKey {more : List (Value × Value)} (hfields : FieldsWithin q long fields)
    (hmore : FieldsWithin q long more) :
    FieldsWithin q long (more.foldl (fun acc (k, v) => putKey k v acc) fields) := by
  induction more generalizing fields with
  | nil => exact hfields
  | cons field more ih =>
    obtain ⟨⟨hkey, hname, hv⟩, hmore⟩ := List.forall_mem_cons.mp hmore
    exact ih (fieldsWithin_putKey hfields hkey hname hv) hmore

theorem yields_mergeInto (hpairs : fails .notPairs) (hlength : fails .pairLength)
    (hfields : FieldsWithin q long fields) (h : v.Within q long) :
    Yields fails (FieldsWithin q long) (mergeInto fields v) := by
  cases h with
  | obj hkeys hnames hvalues =>
    exact fieldsWithin_foldl_putKey hfields (within_obj.mp (.obj hkeys hnames hvalues))
  | arr hitems =>
    exact yields_foldlM _ hfields fun fields hfields pair hpair =>
      yields_mergePair hpairs hlength hfields (hitems pair hpair)
  | str t =>
    refine yields_foldlM _ hfields fun fields hfields pair hpair => ?_
    obtain ⟨c, -, rfl⟩ := List.mem_map.mp hpair
    exact yields_mergePair hpairs hlength hfields (.str [c])
  | _ => exact hpairs

theorem yields_mergeAll (hpairs : fails .notPairs) (hlength : fails .pairLength)
    (hitems : ∀ v ∈ items, v.Within q long) :
    Yields fails (FieldsWithin q long) (mergeAll items) :=
  yields_foldlM _ (List.forall_mem_nil _) fun _ hfields v hv =>
    yields_mergeInto hpairs hlength hfields (hitems v hv)

end Merging

/-! ## Texts -/

theorem yields_compactText (hreference : q.HasReference → fails .referenceValue)
    (hlong : long → fails .notANumber) (h : v.Within q long) :
    Yields fails (·.Within q long) (compactText v) := by
  unfold compactText
  split
  · exact Within.str _
  · have hjson := yields_toJson h.spelled
    cases hwritten : v.spelled.toJson with
    | ok j => exact Within.str _
    | error e =>
      rw [hwritten] at hjson
      cases e with
      | reference => exact hreference hjson
      | longInteger => exact hlong hjson

theorem within_natAbs {i : Int} (h : (Value.int i).Within q long) :
    (Value.int i.natAbs).Within q long := by
  cases h with
  | int h => exact .int (h.imp_right fun hshort => by
      rwa [LineAssist.Number.isShort, Int.natAbs_natCast, ← LineAssist.Number.isShort])

end Value

end LineAssist.Query
