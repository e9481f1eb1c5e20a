import LineAssist.Proofs.Line.WrittenQuery

/-!
# Where the query is found

The search goes from the start of the line, and it goes past a text in which the parameter name does
not occur: no occurrence of the name can begin there and end behind it, since a name has no white
space. So the first query of a line is found at its place, in each of the three ways to write it,
whatever stands around it.
-/

namespace LineAssist.Line

open Text (isBlank isQuote)

theorem solid_queryParameter : ∀ c ∈ queryParameter, isBlank c = false := by
  have hall : (queryParameter.all fun c => !isBlank c) = true := by decide
  simpa using hall

/-! ## In front of the query -/

section Search

variable {u p : Text} {b : Char}

/-- A text that stops before a character that it does not have stands in front of it. -/
theorem prefix_of_prefix_append_cons (rest : Text) (hb : b ∉ p) (h : p <+: u ++ b :: rest) :
    p <+: u := by
  have hcut : u ++ [b] <+: u ++ b :: rest := ⟨rest, by simp⟩
  rcases List.prefix_or_prefix_of_prefix h hcut with hshort | hlong
  · rcases List.prefix_concat_iff.mp hshort with rfl | hshort
    · exact absurd (List.mem_append_right u List.mem_cons_self) hb
    · exact hshort
  · exact absurd (hlong.subset (List.mem_append_right u List.mem_cons_self)) hb

theorem queryAt?_eq_none (hname : ¬ queryParameter <+: u) (hb : isBlank b = true) (rest : Text) :
    queryAt? (u ++ b :: rest) = none := by
  cases hfound : queryAt? (u ++ b :: rest) with
  | none => rfl
  | some q =>
    obtain ⟨gap, c, more, htext, -⟩ := queryAt?_eq_some hfound
    have hmem : b ∉ queryParameter := by
      intro hmem
      rw [solid_queryParameter b hmem] at hb
      cases hb
    refine absurd (prefix_of_prefix_append_cons rest hmem ?_) hname
    rw [htext]
    exact List.prefix_append _ _

/-- A text without the parameter name does not matter for what is found behind it. -/
theorem findQuery_append (hname : ¬ queryParameter <:+: u) (hb : isBlank b = true) (rest : Text) :
    findQuery (u ++ b :: rest) = findQuery (b :: rest) := by
  induction u with
  | nil => rfl
  | cons c u ih =>
    have hrest : ¬ queryParameter <:+: u := fun h => hname (h.trans (List.suffix_cons c u).isInfix)
    have hhere : ¬ queryParameter <+: u := fun h => hrest h.isInfix
    have hnone : (if isBlank c then queryAt? (u ++ b :: rest) else none) = none := by
      rw [queryAt?_eq_none hhere hb, ite_self]
    rw [List.cons_append, findQuery, hnone]
    exact ih hrest

end Search

/-! ## The query itself -/

section Written

variable {q v : Text}

theorem queryValue?_quoted {c : Char} (hc : isQuote c = true) (hq : c ∉ q) (v : Text) :
    queryValue? (c :: (q ++ c :: v)) = some q := by
  rw [queryValue?, if_pos hc, Text.cut?_append hq]
  rfl

theorem queryValue?_bare (hne : q ≠ []) (hblank : ∀ c ∈ q, isBlank c = false)
    (hquote : ∀ c ∈ q, isQuote c = false)
    (hstop : ∀ c, v.head? = some c → isBlank c = true ∨ isQuote c = true) :
    queryValue? (q ++ v) = some q := by
  have hrun : ∀ c ∈ q, isRun c = true := fun c hc => isRun_iff.mpr ⟨hblank c hc, hquote c hc⟩
  have hend : ∀ c, v.head? = some c → isRun c = false := by
    intro c hc
    rw [isRun]
    rcases hstop c hc with h | h <;> simp [h]
  have hwhole : (q ++ v).takeWhile isRun = q := takeWhile_append_of_stop hrun hend
  obtain ⟨c, q, rfl⟩ := List.exists_cons_of_ne_nil hne
  rw [List.cons_append] at hwhole ⊢
  rw [queryValue?, if_neg (Bool.eq_false_iff.mp (hquote c List.mem_cons_self)),
    if_neg (Bool.eq_false_iff.mp (hblank c List.mem_cons_self)), hwhole]

theorem queryAt?_written {gap : Text} (hne : gap ≠ []) (hgap : ∀ c ∈ gap, isBlank c = true)
    {c : Char} (hc : isBlank c = false) (rest : Text) :
    queryAt? (queryParameter ++ (gap ++ c :: rest)) = queryValue? (c :: rest) := by
  have hvalue : (gap ++ c :: rest).dropWhile isBlank = c :: rest := by
    rw [List.dropWhile_append_of_pos hgap, List.dropWhile_cons_of_neg (Bool.eq_false_iff.mp hc)]
  obtain ⟨b, gap, rfl⟩ := List.exists_cons_of_ne_nil hne
  obtain ⟨hb, -⟩ := List.forall_mem_cons.mp hgap
  rw [List.cons_append, List.dropWhile_cons_of_pos hb] at hvalue
  rw [queryAt?, Text.stripStart?_append, List.cons_append]
  dsimp only
  rw [if_pos hb, hvalue]

/-- A value that is not empty is the query of a line in which the name stands for the first time. -/
theorem extractQuery_of_value {u gap rest : Text} {b c : Char} (hname : ¬ queryParameter <:+: u)
    (hb : isBlank b = true) (hne : gap ≠ []) (hgap : ∀ d ∈ gap, isBlank d = true)
    (hc : isBlank c = false) (hvalue : queryValue? (c :: rest) = some q) (hq : q ≠ []) :
    extractQuery (u ++ b :: (queryParameter ++ (gap ++ c :: rest))) = some q := by
  have hat : queryAt? (queryParameter ++ (gap ++ c :: rest)) = some q := by
    rw [queryAt?_written hne hgap hc, hvalue]
  have hfound : findQuery (u ++ b :: (queryParameter ++ (gap ++ c :: rest))) = some q := by
    rw [findQuery_append hname hb, findQuery, if_pos hb, hat]
  obtain ⟨d, q, rfl⟩ := List.exists_cons_of_ne_nil hq
  rw [extractQuery, hfound]

end Written

/-- A query is read back from a line on which it is written: between double quotes or single quotes
that it does not have, or bare up to white space, a quote or the end. In front of it stands any text
without the parameter name, quotes that are never closed included, and behind it any text, further
queries included. -/
theorem extractQuery_written {u gap q v : Text} {b : Char} (hname : ¬ queryParameter <:+: u)
    (hb : isBlank b = true) (hne : gap ≠ []) (hgap : ∀ c ∈ gap, isBlank c = true) (hq : q ≠ []) :
    ('"' ∉ q →
      extractQuery (u ++ b :: (queryParameter ++ (gap ++ '"' :: (q ++ '"' :: v)))) = some q) ∧
    ('\'' ∉ q →
      extractQuery (u ++ b :: (queryParameter ++ (gap ++ '\'' :: (q ++ '\'' :: v)))) = some q) ∧
    ((∀ c ∈ q, isBlank c = false ∧ isQuote c = false) →
      (∀ c, v.head? = some c → isBlank c = true ∨ isQuote c = true) →
      extractQuery (u ++ b :: (queryParameter ++ (gap ++ (q ++ v)))) = some q) := by
  have hquoted {c : Char} (hc : isQuote c = true) (hblank : isBlank c = false) (hplain : c ∉ q) :
      extractQuery (u ++ b :: (queryParameter ++ (gap ++ c :: (q ++ c :: v)))) = some q :=
    extractQuery_of_value hname hb hne hgap hblank (queryValue?_quoted hc hplain v) hq
  refine ⟨hquoted (by decide) (by decide), hquoted (by decide) (by decide), fun hplain hstop => ?_⟩
  have hvalue : queryValue? (q ++ v) = some q :=
    queryValue?_bare hq (fun c hc => (hplain c hc).1) (fun c hc => (hplain c hc).2) hstop
  obtain ⟨c, q, rfl⟩ := List.exists_cons_of_ne_nil hq
  obtain ⟨hblank, -⟩ := hplain c List.mem_cons_self
  exact extractQuery_of_value hname hb hne hgap hblank hvalue hq

/-- A quote stands open in front of the query, and another query stands behind it. -/
theorem extractQuery_between_quotes :
    let u := "az vm 'list".toList
    let q := "[0].id".toList
    let v := " --query b".toList
    ¬ queryParameter <:+: u ∧
    extractQuery (u ++ ' ' :: (queryParameter ++ (" \t".toList ++ '"' :: (q ++ '"' :: v)))) =
      some q ∧
    extractQuery (u ++ ' ' :: (queryParameter ++ (" \t".toList ++ '\'' :: (q ++ '\'' :: v)))) =
      some q ∧
    extractQuery (u ++ ' ' :: (queryParameter ++ (" \t".toList ++ (q ++ v)))) = some q := by
  intro u q v
  have hname : ¬ queryParameter <:+: u := by decide +kernel
  have hb : isBlank ' ' = true := rfl
  have hgap : ∀ c ∈ " \t".toList, isBlank c = true := List.all_eq_true.mp (by decide)
  have hplain : ∀ c ∈ q, isBlank c = false ∧ isQuote c = false := by
    have hall : (q.all fun c => !isBlank c && !isQuote c) = true := by decide
    simpa using hall
  have hstop : ∀ c, v.head? = some c → isBlank c = true ∨ isQuote c = true := by
    intro c hc
    have hhead : v.head? = some ' ' := by decide
    rw [hhead] at hc
    exact .inl (Option.some.inj hc ▸ hb)
  obtain ⟨hdouble, hsingle, hbare⟩ :=
    extractQuery_written (v := v) hname hb (by decide) hgap (by decide : q ≠ [])
  exact ⟨hname, hdouble (by decide), hsingle (by decide), hbare hplain hstop⟩

end LineAssist.Line
