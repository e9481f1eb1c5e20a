import LineAssist.Catalog.Completion
import LineAssist.Proofs.Text.Digits
import LineAssist.Proofs.Text.Words

/-!
# Snippets as an editor reads them

A snippet is a text with numbered tab stops. A tab stop is written as a dollar sign and a number, or
as a dollar sign and a number in braces, with the text that is shown there until the tab stop is
filled. A backslash takes the meaning from a dollar sign, a closing brace or a backslash behind it.
Choices, variables and tab stops inside of a shown text are not read.

The tab stops of names are read back as they were written, as long as no name has a character that
the syntax uses.
-/

namespace LineAssist.Snippet

inductive Part where
  | char (c : Char)
  | stop (number : Nat) (shown : Text)
  deriving DecidableEq, Repr

def isEscapable (c : Char) : Bool :=
  c == '$' || c == '}' || c == '\\'

/-- The tab stop behind a dollar sign, with the number of characters that it takes. -/
def stop? (t : Text) : Option (Part × Nat) :=
  match t with
  | '{' :: inner =>
    let (digits, rest) := Text.spanDigits inner
    if digits.isEmpty then none
    else
      match rest with
      | '}' :: _ => some (.stop (Text.digitsValue digits) [], digits.length + 2)
      | ':' :: more =>
        (Text.cut? '}' more).map fun (shown, _) =>
          (.stop (Text.digitsValue digits) shown, digits.length + shown.length + 3)
      | _ => none
  | _ =>
    let digits := (Text.spanDigits t).1
    if digits.isEmpty then none else some (.stop (Text.digitsValue digits) [], digits.length)

/-- The parts of a text whose first `skip` characters belong to the part before. -/
def partsFrom (skip : Nat) : Text → List Part
  | [] => []
  | c :: rest =>
    match skip with
    | n + 1 => partsFrom n rest
    | 0 =>
      if c = '$' then
        match stop? rest with
        | some (stop, n) => stop :: partsFrom n rest
        | none => .char c :: partsFrom 0 rest
      else if c = '\\' then
        match rest.head?.filter isEscapable with
        | some d => .char d :: partsFrom 1 rest
        | none => .char c :: partsFrom 0 rest
      else .char c :: partsFrom 0 rest

def parts (t : Text) : List Part :=
  partsFrom 0 t

def Part.stop? : Part → Option (Nat × Text)
  | .char _ => none
  | .stop number shown => some (number, shown)

/-- The tab stops of a snippet in order, each with its number and the text that it shows. -/
def stops (t : Text) : List (Nat × Text) :=
  (parts t).filterMap Part.stop?

def Part.filled (values : Nat → Text) : Part → Text
  | .char c => [c]
  | .stop number _ => values number

/-- The text of a snippet with values in place of its tab stops. -/
def fill (values : Nat → Text) (t : Text) : Text :=
  (parts t).flatMap (Part.filled values)

/-! ## Reading -/

theorem partsFrom_skip (n : Nat) (t : Text) : partsFrom n t = parts (t.drop n) := by
  induction n generalizing t with
  | zero => rfl
  | succ n ih =>
    cases t with
    | nil => rfl
    | cons c t => rw [partsFrom, ih, List.drop_succ_cons]

/-- A text without dollar signs and backslashes stands for itself. -/
def IsLiteral (t : Text) : Prop :=
  ∀ c ∈ t, c ≠ '$' ∧ c ≠ '\\'

instance (t : Text) : Decidable (IsLiteral t) :=
  List.decidableBAll (fun c => c ≠ '$' ∧ c ≠ '\\') t

theorem parts_append_literal {t : Text} (ht : IsLiteral t) (rest : Text) :
    parts (t ++ rest) = t.map .char ++ parts rest := by
  induction t with
  | nil => rfl
  | cons c t ih =>
    obtain ⟨⟨hdollar, hbackslash⟩, ht⟩ := List.forall_mem_cons.mp ht
    rw [List.cons_append, parts, partsFrom, if_neg hdollar, if_neg hbackslash, List.map_cons,
      List.cons_append, ← ih ht]
    rfl

/-- A tab stop is read as it was written, whatever stands behind it. -/
theorem parts_stop (n : Nat) {shown : Text} (hshown : '}' ∉ shown) (rest : Text) :
    parts ('$' :: '{' :: (Text.ofNat n ++ ':' :: (shown ++ '}' :: rest))) =
      .stop n shown :: parts rest := by
  have hempty : (Text.ofNat n).isEmpty = false :=
    List.isEmpty_eq_false_iff.mpr (Text.ofNat_ne_nil n)
  have hspan : Text.spanDigits (Text.ofNat n ++ ':' :: (shown ++ '}' :: rest)) =
      (Text.ofNat n, ':' :: (shown ++ '}' :: rest)) :=
    Text.spanDigits_append (fun _ => Text.isDigit_of_mem_ofNat) (by simp [Text.isDigit])
  have hstop : stop? ('{' :: (Text.ofNat n ++ ':' :: (shown ++ '}' :: rest))) =
      some (.stop n shown, (Text.ofNat n).length + shown.length + 3) := by
    simp only [stop?, hspan, hempty, Text.cut?_append hshown, Text.digitsValue_ofNat]
    rfl
  have hrest : ('{' :: (Text.ofNat n ++ ':' :: (shown ++ '}' :: rest))).drop
      ((Text.ofNat n).length + shown.length + 3) = rest := by
    have hsplit : '{' :: (Text.ofNat n ++ ':' :: (shown ++ '}' :: rest)) =
        ('{' :: (Text.ofNat n ++ ':' :: (shown ++ ['}']))) ++ rest := by simp
    rw [hsplit]
    exact List.drop_left' (by simp; omega)
  rw [parts, partsFrom, if_pos rfl, hstop]
  dsimp only
  rw [partsFrom_skip, hrest]

/-! ## Tab stops of names -/

section Names

open Catalog (tabStop tabStops)

/-- A name that the syntax of snippets leaves as it is, also inside of a tab stop. -/
def IsLiteralName (name : Text) : Prop :=
  ∀ c ∈ name, c ∉ ['$', '{', '}', '\\']

instance (name : Text) : Decidable (IsLiteralName name) :=
  List.decidableBAll (· ∉ ['$', '{', '}', '\\']) name

/-- A name without its dashes. -/
def bareName (name : Text) : Text :=
  name.dropWhile (· == '-')

theorem IsLiteralName.isLiteral {name : Text} (h : IsLiteralName name) : IsLiteral name := by
  intro c hc
  have := h c hc
  simp only [List.mem_cons, not_or] at this
  exact ⟨this.1, this.2.2.2.1⟩

theorem IsLiteralName.not_mem_bareName {name : Text} (h : IsLiteralName name) :
    '}' ∉ bareName name := by
  intro hmem
  have := h '}' ((List.dropWhile_sublist _).subset hmem)
  simp at this

theorem parts_tabStop {name : Text} (hname : IsLiteralName name) (n : Nat) (rest : Text) :
    parts (' ' :: (tabStop n name ++ rest)) =
      (' ' :: (name ++ [' '])).map .char ++ .stop n (bareName name) :: parts rest := by
  have hliteral : IsLiteral (' ' :: (name ++ [' '])) := by
    refine List.forall_mem_cons.mpr ⟨by decide, List.forall_mem_append.mpr ⟨hname.isLiteral, ?_⟩⟩
    exact List.forall_mem_singleton.mpr (by decide)
  have htext : ' ' :: (tabStop n name ++ rest) = (' ' :: (name ++ [' '])) ++
      '$' :: '{' :: (Text.ofNat n ++ ':' :: (bareName name ++ '}' :: rest)) := by
    simp [tabStop, bareName]
  rw [htext, parts_append_literal hliteral, parts_stop n hname.not_mem_bareName]

/-- The tab stops of names are numbered in the order of the names. -/
theorem parts_tabStops {names : List Text} (hnames : ∀ name ∈ names, IsLiteralName name) (n : Nat) :
    parts ((tabStops n names).flatMap fun stop => ' ' :: stop) =
      (names.zipIdx n).flatMap fun (name, n) =>
        (' ' :: (name ++ [' '])).map .char ++ [.stop n (bareName name)] := by
  induction names generalizing n with
  | nil => rfl
  | cons name names ih =>
    obtain ⟨hname, hrest⟩ := List.forall_mem_cons.mp hnames
    rw [tabStops, List.flatMap_cons, List.cons_append, parts_tabStop hname, ih hrest,
      List.zipIdx_cons, List.flatMap_cons, List.append_assoc, List.singleton_append]

variable {t : Text} {names : List Text}

theorem parts_written (ht : IsLiteral t) (hnames : ∀ name ∈ names, IsLiteralName name) :
    parts (t ++ (tabStops 1 names).flatMap fun stop => ' ' :: stop) =
      t.map .char ++ (names.zipIdx 1).flatMap fun (name, n) =>
        (' ' :: (name ++ [' '])).map .char ++ [.stop n (bareName name)] := by
  rw [parts_append_literal ht, parts_tabStops hnames]

theorem filterMap_stop?_char (t : Text) : (t.map Part.char).filterMap Part.stop? = [] := by
  rw [List.filterMap_map, List.filterMap_eq_nil_iff]
  exact fun _ _ => rfl

theorem flatMap_filled_char (values : Nat → Text) (t : Text) :
    (t.map Part.char).flatMap (Part.filled values) = t := by
  rw [List.flatMap_map]
  exact List.flatMap_singleton' t

theorem stops_written (ht : IsLiteral t) (hnames : ∀ name ∈ names, IsLiteralName name) :
    stops (t ++ (tabStops 1 names).flatMap fun stop => ' ' :: stop) =
      (names.zipIdx 1).map fun (name, n) => (n, bareName name) := by
  rw [stops, parts_written ht hnames, List.filterMap_append, filterMap_stop?_char, List.nil_append,
    List.filterMap_flatMap, List.map_eq_flatMap]
  refine congrArg (List.flatMap · _) (funext fun (name, n) => ?_)
  rw [List.filterMap_append, filterMap_stop?_char]
  rfl

/-- What a name and its tab stop leave once the tab stop is filled, for names in order. -/
def filledWords (values : Nat → Text) (n : Nat) (names : List Text) : List Text :=
  (names.zipIdx n).flatMap fun (name, n) => [name, values n]

section FilledWords

variable {values : Nat → Text}

theorem filledWords_cons (values : Nat → Text) (n : Nat) (name : Text) (names : List Text) :
    filledWords values n (name :: names) =
      name :: values n :: filledWords values (n + 1) names := by
  rw [filledWords, List.zipIdx_cons, List.flatMap_cons]
  rfl

theorem mem_filledWords {n : Nat} {w : Text} (h : w ∈ filledWords values n names) :
    w ∈ names ∨ ∃ k, w = values k := by
  obtain ⟨⟨name, k⟩, hname, hw⟩ := List.mem_flatMap.mp h
  rcases List.mem_cons.mp hw with rfl | hw
  · exact .inl (List.fst_mem_of_mem_zipIdx hname)
  · exact .inr ⟨k, List.mem_singleton.mp hw⟩

theorem mem_filledWords_of_mem {name : Text} (h : name ∈ names) (n : Nat) :
    name ∈ filledWords values n names := by
  induction names generalizing n with
  | nil => cases h
  | cons first rest ih =>
    rw [filledWords_cons]
    rcases List.mem_cons.mp h with rfl | h
    · exact List.mem_cons_self
    · exact List.mem_cons_of_mem _ (List.mem_cons_of_mem _ (ih h _))

/-- The words end with a value. -/
theorem exists_getLast?_filledWords (values : Nat → Text) (h : names ≠ []) (n : Nat) :
    ∃ k, (filledWords values n names).getLast? = some (values k) := by
  induction names generalizing n with
  | nil => exact absurd rfl h
  | cons first rest ih =>
    rw [filledWords_cons]
    by_cases hrest : rest = []
    · subst hrest
      exact ⟨n, rfl⟩
    · obtain ⟨k, hk⟩ := ih hrest (n + 1)
      exact ⟨k, by rw [List.getLast?_cons, List.getLast?_cons, hk]; rfl⟩

end FilledWords

theorem fill_written (values : Nat → Text) (ht : IsLiteral t)
    (hnames : ∀ name ∈ names, IsLiteralName name) :
    fill values (t ++ (tabStops 1 names).flatMap fun stop => ' ' :: stop) =
      t ++ (filledWords values 1 names).flatMap fun w => ' ' :: w := by
  rw [fill, parts_written ht hnames, List.flatMap_append, flatMap_filled_char, List.flatMap_assoc,
    filledWords, List.flatMap_assoc]
  refine congrArg (t ++ List.flatMap · _) (funext fun (name, n) => ?_)
  rw [List.flatMap_append, flatMap_filled_char]
  simp [Part.filled]

end Names

end LineAssist.Snippet
