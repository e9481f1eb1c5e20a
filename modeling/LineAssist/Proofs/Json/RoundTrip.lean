import LineAssist.Proofs.Json.Writable

/-!
# What is written is read back

A value is read back from its text with the fields of every object in their order, whatever the
indent, as long as its numbers are integers that have a text and every object has each key once.
Binary fractions are left out: they are written in their shortest decimals. Where there is not room
for all of its levels, the reader says so.

A value needs no more fuel than its text is long. What stands behind a value is left as it is, and
must not go on with the digits of a number that stands last.
-/

namespace LineAssist.Json

/-- Every number is an integer that is short enough, and every object has each key once. -/
inductive IsExact : Json → Prop
  | null : IsExact .null
  | bool (b : Bool) : IsExact (.bool b)
  | int {i : Int} (short : Number.isShort i = true) : IsExact (.int i)
  | str (t : Text) : IsExact (.str t)
  | arr {items : List Json} (each : ∀ v ∈ items, IsExact v) : IsExact (.arr items)
  | obj {fields : List (Text × Json)} (once : (fields.map Prod.fst).Nodup)
      (each : ∀ field ∈ fields, IsExact field.2) : IsExact (.obj fields)

/-! ## Strings -/

theorem ofUnits_toNat_cons (c : Char) (units : List Nat) :
    ofUnits (c.toNat :: units) = c :: ofUnits units := by
  -- no character is a surrogate
  have hscalar : ¬(0xD800 ≤ c.toNat ∧ c.toNat ≤ 0xDFFF) := by
    have hvalid := c.valid
    simp only [UInt32.isValidChar, Nat.isValidChar] at hvalid
    change ¬(0xD800 ≤ c.val.toNat ∧ c.val.toNat ≤ 0xDFFF)
    omega
  cases units with
  | nil => rw [ofUnits, ofUnits, if_neg hscalar, Char.ofNat_toNat]
  | cons m rest =>
    have hpair : ¬(0xD800 ≤ c.toNat ∧ c.toNat ≤ 0xDBFF ∧ 0xDC00 ≤ m ∧ m ≤ 0xDFFF) := by omega
    rw [ofUnits, if_neg hpair, if_neg hscalar, Char.ofNat_toNat]

theorem ofUnits_map_toNat (t : Text) : ofUnits (t.map Char.toNat) = t := by
  induction t with
  | nil => rfl
  | cons c t ih => rw [List.map_cons, ofUnits_toNat_cons, ih]

/-- The units of a control character: two zeros, and two digits that give its code point. -/
theorem unitEscape_control : ∀ n : Fin 32, ∃ a b : Char,
    unitEscape n = ['\\', 'u', '0', '0', a, b] ∧ hexUnit? '0' '0' a b = some n := by
  have h : ∀ n : Fin 32,
      unitEscape n = ['\\', 'u', '0', '0', (n.val / 16).digitChar, (n.val % 16).digitChar] ∧
      hexUnit? '0' '0' (n.val / 16).digitChar (n.val % 16).digitChar = some n.val := by decide
  exact fun n => ⟨_, _, h n⟩

/-- A character is written behind a backslash, as a unit, or as it is. -/
theorem writeChar_cases (c : Char) :
    (∃ e, writeChar false c = ['\\', e] ∧ escaped? e = some c) ∨
    (c.toNat < 0x20 ∧ writeChar false c = unitEscape c.toNat) ∨
    (¬c.toNat < 0x20 ∧ c ≠ '"' ∧ c ≠ '\\' ∧ writeChar false c = [c]) := by
  by_cases hescaped : c ∈ ['"', '\\', '\n', '\r', '\t', '\x08', '\x0c']
  · refine .inl ?_
    simp only [List.mem_cons, List.not_mem_nil, or_false] at hescaped
    rcases hescaped with rfl | rfl | rfl | rfl | rfl | rfl | rfl <;> exact ⟨_, rfl, rfl⟩
  · simp only [List.mem_cons, List.not_mem_nil, or_false, not_or] at hescaped
    obtain ⟨hquote, hbackslash, hn, hr, ht, hb, hf⟩ := hescaped
    rw [writeChar, if_neg hquote, if_neg hbackslash, if_neg hn, if_neg hr, if_neg ht, if_neg hb,
      if_neg hf]
    refine .inr ?_
    split
    case isTrue hcontrol => exact .inl ⟨hcontrol, rfl⟩
    case isFalse hcontrol => exact .inr ⟨hcontrol, hquote, hbackslash, rfl⟩

theorem readUnits_escape {e c : Char} (he : escaped? e = some c) (t : Text) :
    readUnits ('\\' :: e :: t) = (readUnits t).map fun p => (c.toNat :: p.1, p.2) := by
  rw [readUnits, he]
  · cases readUnits t <;> rfl
  · rintro a b c d rest rfl -
    cases he

theorem readUnits_control {c : Char} (hc : c.toNat < 0x20) (t : Text) :
    readUnits (unitEscape c.toNat ++ t) = (readUnits t).map fun p => (c.toNat :: p.1, p.2) := by
  obtain ⟨a, b, hwritten, hread⟩ := unitEscape_control ⟨c.toNat, hc⟩
  rw [hwritten]
  simp only [List.cons_append, List.nil_append]
  rw [readUnits, hread]
  cases readUnits t <;> rfl

theorem readUnits_plain {c : Char} (hc : ¬c.toNat < 0x20) (hquote : c ≠ '"')
    (hbackslash : c ≠ '\\') (t : Text) :
    readUnits (c :: t) = (readUnits t).map fun p => (c.toNat :: p.1, p.2) := by
  rw [readUnits, if_neg (not_or.mpr ⟨hc, hbackslash⟩)]
  · cases readUnits t <;> rfl
  · exact hquote
  · rintro a b c d rest rfl
    exact absurd rfl hbackslash
  · rintro e rest rfl
    exact absurd rfl hbackslash

theorem readUnits_writeChar (c : Char) (t : Text) :
    readUnits (writeChar false c ++ t) = (readUnits t).map fun p => (c.toNat :: p.1, p.2) := by
  rcases writeChar_cases c with
    ⟨e, hwritten, he⟩ | ⟨hc, hwritten⟩ | ⟨hc, hquote, hbackslash, hwritten⟩
  · rw [hwritten]
    exact readUnits_escape he t
  · rw [hwritten]
    exact readUnits_control hc t
  · rw [hwritten]
    exact readUnits_plain hc hquote hbackslash t

theorem readUnits_written (t rest : Text) :
    readUnits (t.flatMap (writeChar false) ++ '"' :: rest) = some (t.map Char.toNat, rest) := by
  induction t with
  | nil => rw [List.flatMap_nil, List.nil_append, readUnits, List.map_nil]
  | cons c t ih =>
    rw [List.flatMap_cons, List.append_assoc, readUnits_writeChar, ih]
    rfl

theorem readString_written (t rest : Text) :
    readString (t.flatMap (writeChar false) ++ '"' :: rest) = some (t, rest) := by
  rw [readString, readUnits_written, Option.map_some]
  dsimp only
  rw [ofUnits_map_toNat]

theorem writeString_append (t rest : Text) :
    writeString false t ++ rest = '"' :: (t.flatMap (writeChar false) ++ '"' :: rest) := by
  simp [writeString]

/-! ## Numbers -/

/-- The text does not go on with a number. -/
def EndsNumber (t : Text) : Prop :=
  ∀ c ∈ t.head?, Text.isDigit c = false ∧ c ≠ '.' ∧ c ≠ 'e' ∧ c ≠ 'E'

theorem readWhole_ofNat (n : Nat) {rest : Text} (hrest : EndsNumber rest) :
    readWhole (Text.ofNat n ++ rest) = some (Text.ofNat n, rest) := by
  have hspan : Text.spanDigits (Text.ofNat n ++ rest) = (Text.ofNat n, rest) :=
    Text.spanDigits_append (fun _ => Text.isDigit_of_mem_ofNat) fun c hc => (hrest c hc).1
  have hempty : (Text.ofNat n).isEmpty = false :=
    List.isEmpty_eq_false_iff.mpr (Text.ofNat_ne_nil n)
  rcases Nat.eq_zero_or_pos n with rfl | hpos
  · rfl
  · unfold readWhole
    split
    case h_1 heq =>
      -- the first digit of a positive number is not zero
      have hhead : (Text.ofNat n ++ rest).head? = some '0' := by rw [heq]; rfl
      rw [List.head?_append_of_ne_nil _ (Text.ofNat_ne_nil n)] at hhead
      exact absurd hhead (Text.head?_ofNat_ne_zero hpos)
    case h_2 =>
      rw [hspan]
      simp only [hempty, Bool.false_eq_true, if_false]

theorem readFraction_of_ends {rest : Text} (h : EndsNumber rest) :
    readFraction rest = (none, rest) := by
  unfold readFraction
  split
  case h_1 => exact absurd rfl (h '.' rfl).2.1
  case h_2 => rfl

theorem readExponent_of_ends {rest : Text} (h : EndsNumber rest) :
    readExponent rest = (none, rest) := by
  cases rest with
  | nil => rfl
  | cons c rest =>
    obtain ⟨-, -, he, hE⟩ := h c rfl
    rw [readExponent, if_neg (not_or.mpr ⟨he, hE⟩)]

theorem length_ofNat_le_limit {n : Nat} (h : n < Nat.pow 10 Number.digitLimit) :
    (Text.ofNat n).length ≤ Number.digitLimit := by
  have hpos : 0 < Number.digitLimit := by decide
  -- the power must not be computed
  generalize Number.digitLimit = limit at hpos h ⊢
  exact Text.length_ofNat_le hpos h

theorem readMagnitude_ofNat (negative : Bool) {n : Nat} (hn : n < Nat.pow 10 Number.digitLimit)
    {rest : Text} (hrest : EndsNumber rest) :
    readMagnitude negative (Text.ofNat n ++ rest) =
      .ok (.int (if negative then -(n : Int) else n), rest) := by
  have hlength : ¬Number.digitLimit < (Text.ofNat n).length :=
    Nat.not_lt.mpr (length_ofNat_le_limit hn)
  unfold readMagnitude
  rw [readWhole_ofNat n hrest]
  dsimp only
  rw [readFraction_of_ends hrest]
  dsimp only
  rw [readExponent_of_ends hrest]
  dsimp only
  rw [if_neg hlength, Text.digitsValue_ofNat]

theorem readWord_of_digit {c : Char} (hc : Text.isDigit c = true) (t : Text) :
    readWord (c :: t) = none ∧ readWord ('-' :: c :: t) = none := by
  have hne : ∀ d : Char, Text.isDigit d = false → d ≠ c := by
    rintro d hd rfl
    rw [hc] at hd
    cases hd
  have hnull : Text.stripStart? "null".toList (c :: t) = none := if_neg (hne 'n' rfl)
  have htrue : Text.stripStart? "true".toList (c :: t) = none := if_neg (hne 't' rfl)
  have hfalse : Text.stripStart? "false".toList (c :: t) = none := if_neg (hne 'f' rfl)
  have hnan : Text.stripStart? "NaN".toList (c :: t) = none := if_neg (hne 'N' rfl)
  have hinfinity : Text.stripStart? "Infinity".toList (c :: t) = none := if_neg (hne 'I' rfl)
  have hminus : Text.stripStart? "-Infinity".toList (c :: t) = none := if_neg (hne '-' rfl)
  have hbehind : Text.stripStart? "-Infinity".toList ('-' :: c :: t) = none :=
    if_neg (hne 'I' rfl)
  constructor
  · simp only [readWord, hnull, htrue, hfalse, hnan, hinfinity, hminus, Option.map_none]
    rfl
  · change (Text.stripStart? "-Infinity".toList ('-' :: c :: t)).map _ = none
    rw [hbehind, Option.map_none]

variable {room : Option Nat}

theorem readValue_digit (fuel : Nat) {c : Char} (hc : Text.isDigit c = true) (t : Text) :
    readValue room (fuel + 1) (c :: t) = readMagnitude false (c :: t) := by
  unfold readValue
  split
  case h_1 heq => cases heq; cases hc
  case h_2 heq => cases heq; cases hc
  case h_3 heq => cases heq; cases hc
  case h_4 =>
    rw [(readWord_of_digit hc t).1]
    dsimp only
    split
    case h_1 heq => cases heq; cases hc
    case h_2 => rfl

theorem readValue_minus (fuel : Nat) {c : Char} (hc : Text.isDigit c = true) (t : Text) :
    readValue room (fuel + 1) ('-' :: c :: t) = readMagnitude true (c :: t) := by
  unfold readValue
  split
  case h_1 heq => cases heq
  case h_2 heq => cases heq
  case h_3 heq => cases heq
  case h_4 =>
    rw [(readWord_of_digit hc t).2]
    rfl

/-- An integer is read behind its sign. -/
theorem readValue_ofInt (fuel : Nat) {i : Int} (hshort : Number.isShort i = true) {rest : Text}
    (hrest : EndsNumber rest) :
    readValue room (fuel + 1) (Text.ofInt i ++ rest) = .ok (.int i, rest) := by
  have hlt : i.natAbs < Nat.pow 10 Number.digitLimit := of_decide_eq_true hshort
  obtain ⟨c, more, hmore⟩ := List.exists_cons_of_ne_nil (Text.ofNat_ne_nil i.natAbs)
  have hdigit : Text.isDigit c = true :=
    Text.isDigit_of_mem_ofNat (hmore ▸ List.mem_cons_self)
  have hread (negative : Bool) := readMagnitude_ofNat negative hlt hrest
  rw [hmore, List.cons_append] at hread
  cases i with
  | ofNat n =>
    have htext : Text.ofInt (.ofNat n) ++ rest = c :: (more ++ rest) :=
      congrArg (fun t => t ++ rest) hmore
    rw [htext, readValue_digit fuel hdigit, hread]
    rfl
  | negSucc n =>
    have htext : Text.ofInt (.negSucc n) ++ rest = '-' :: c :: (more ++ rest) :=
      congrArg (fun t => '-' :: t ++ rest) hmore
    rw [htext, readValue_minus fuel hdigit, hread]
    rfl

/-! ## Layout -/

section Layout

variable (indent : Option Nat) (depth : Nat)

theorem skipSpace_append {gap : Text} (hgap : ∀ c ∈ gap, isSpace c = true) (t : Text) :
    skipSpace (gap ++ t) = skipSpace t := by
  rw [skipSpace, List.dropWhile_append_of_pos hgap, skipSpace]

theorem skipSpace_lineBreak (t : Text) :
    skipSpace ((Layout.indented indent).lineBreak depth ++ t) = skipSpace t := by
  refine skipSpace_append ?_ t
  cases indent with
  | none => exact nofun
  | some n =>
    intro c hc
    rcases List.mem_cons.mp hc with rfl | hc
    · rfl
    · rw [List.eq_of_mem_replicate hc]
      rfl

/-- The next item or field stands behind a comma and white space. -/
theorem separated_append (t : Text) : ∃ gap,
    (Layout.indented indent).itemSeparator ++ ((Layout.indented indent).lineBreak depth ++ t) =
      ',' :: gap ∧ skipSpace gap = skipSpace t := by
  cases indent with
  | none => exact ⟨' ' :: t, rfl, rfl⟩
  | some n => exact ⟨_, rfl, skipSpace_lineBreak (some n) depth t⟩

theorem itemSeparator_pos : 0 < (Layout.indented indent).itemSeparator.length := by
  cases indent with
  | none => decide
  | some n => exact Nat.one_pos

theorem asciiOnly_indented : (Layout.indented indent).asciiOnly = false :=
  rfl

theorem writeAt_arr (v : Json) (items : List Json) :
    writeAt (.indented indent) depth (.arr (v :: items)) =
      '[' :: ((Layout.indented indent).lineBreak (depth + 1) ++
        (writeAt (.indented indent) (depth + 1) v ++
          (writeItems (.indented indent) (depth + 1) items ++
            ((Layout.indented indent).lineBreak depth ++ [']'])))) :=
  rfl

theorem writeAt_obj (key : Text) (v : Json) (fields : List (Text × Json)) :
    writeAt (.indented indent) depth (.obj ((key, v) :: fields)) =
      '{' :: ((Layout.indented indent).lineBreak (depth + 1) ++
        (writeString false key ++ ((Layout.indented indent).keySeparator ++
          (writeAt (.indented indent) (depth + 1) v ++
            (writeFields (.indented indent) (depth + 1) fields ++
              ((Layout.indented indent).lineBreak depth ++ ['}'])))))) :=
  rfl

theorem isSpace_of_digit {c : Char} (hc : Text.isDigit c = true) : isSpace c = false := by
  by_contra hspace
  simp only [isSpace, Bool.not_eq_false, Bool.or_eq_true, beq_iff_eq] at hspace
  rcases hspace with ((rfl | rfl) | rfl) | rfl <;> cases hc

/-- The text of a value starts neither with white space nor with a closing bracket. -/
theorem writeAt_eq_cons {v : Json} (hv : IsExact v) : ∃ c t,
    writeAt (.indented indent) depth v = c :: t ∧ isSpace c = false ∧ c ≠ ']' := by
  cases hv with
  | null => exact ⟨_, _, rfl, rfl, by decide⟩
  | bool b => cases b <;> exact ⟨_, _, rfl, rfl, by decide⟩
  | str t => exact ⟨'"', _, rfl, rfl, by decide⟩
  | @int i short =>
    cases i with
    | negSucc n => exact ⟨'-', _, rfl, rfl, by decide⟩
    | ofNat n =>
      obtain ⟨c, t, hcons⟩ := List.exists_cons_of_ne_nil (Text.ofNat_ne_nil n)
      have hdigit : Text.isDigit c = true :=
        Text.isDigit_of_mem_ofNat (hcons ▸ List.mem_cons_self)
      refine ⟨c, t, hcons, isSpace_of_digit hdigit, ?_⟩
      rintro rfl
      cases hdigit
  | @arr items each => cases items <;> exact ⟨'[', _, rfl, rfl, by decide⟩
  | @obj fields once each => cases fields <;> exact ⟨'{', _, rfl, rfl, by decide⟩

theorem skipSpace_written {v : Json} (hv : IsExact v) (t : Text) :
    skipSpace (writeAt (.indented indent) depth v ++ t) =
      writeAt (.indented indent) depth v ++ t := by
  obtain ⟨c, more, hcons, hspace, -⟩ := writeAt_eq_cons indent depth hv
  rw [hcons, List.cons_append, skipSpace, List.dropWhile_cons_of_neg (by simp [hspace])]

theorem skipSpace_written_string (key t : Text) :
    skipSpace (writeString false key ++ t) = writeString false key ++ t := by
  rw [writeString_append]
  rfl

theorem endsNumber_lineBreak {t : Text} (ht : EndsNumber t) :
    EndsNumber ((Layout.indented indent).lineBreak depth ++ t) := by
  cases indent with
  | none => exact ht
  | some n =>
    rintro c ⟨⟩
    exact ⟨rfl, by decide, by decide, by decide⟩

theorem endsNumber_punctuation {c : Char} (hc : c = ',' ∨ c = ']' ∨ c = '}') (t : Text) :
    EndsNumber (c :: t) := by
  rintro d ⟨⟩
  rcases hc with rfl | rfl | rfl <;> exact ⟨rfl, by decide, by decide, by decide⟩

end Layout

/-! ## Steps of the reader -/

/-- What reading gives that ends well if there is room. -/
def givenRoom {α : Type} (enough : Bool) (x : α) : Except ReadError α :=
  if enough then .ok x else .error .tooDeep

section Steps

variable {room : Option Nat} {fuel : Nat} {t body quoted rest more after : Text} {key : Text}
  {v : Json} {items : List Json} {fields : List (Text × Json)} {enough enoughMore : Bool}

theorem givenRoom_bind {α β : Type} {x : Except ReadError α} {a : α} {b : β}
    {f : α → Except ReadError β} (hx : x = givenRoom enough a)
    (hf : f a = givenRoom enoughMore b) : x >>= f = givenRoom (enough && enoughMore) b := by
  subst hx
  cases enough with
  | true => exact hf
  | false => rfl

/-- A step behind which nothing needs room. -/
theorem givenRoom_bind_ok {α β : Type} {x : Except ReadError α} {a : α} {b : β}
    {f : α → Except ReadError β} (hx : x = givenRoom enough a) (hf : f a = .ok b) :
    x >>= f = givenRoom enough b := by
  subst hx
  cases enough with
  | true => exact hf
  | false => rfl

/-- What takes no level needs no room. -/
theorem givenRoom_scalar {α : Type} (x : α) (hv : v.depth = 0) :
    givenRoom (v.fits room) x = .ok x := by
  rw [fits_of_depth hv]
  rfl

theorem readValue_arr_nil :
    readValue room (fuel + 1) ('[' :: ']' :: rest) =
      givenRoom ((Json.arr []).fits room) (.arr [], rest) := by
  match room with
  | none | some 0 | some (_ + 1) => rfl

theorem readValue_obj_nil :
    readValue room (fuel + 1) ('{' :: '}' :: rest) =
      givenRoom ((Json.obj []).fits room) (.obj [], rest) := by
  match room with
  | none | some 0 | some (_ + 1) => rfl

theorem readValue_arr {first : Text} (hbody : skipSpace body = first)
    (hfirst : first.head? ≠ some ']')
    (hitems : ∀ inside, readItems inside fuel first =
      givenRoom (items.all (fits inside)) (items, after)) :
    readValue room (fuel + 1) ('[' :: body) =
      givenRoom ((Json.arr items).fits room) (.arr items, after) := by
  rw [readValue, hbody]
  cases henter : enter room with
  | error e =>
    obtain ⟨rfl, rfl⟩ := enter_eq_error henter
    rfl
  | ok inside =>
    rw [fits_arr henter]
    refine ok_bind rfl ?_
    split
    case h_1 => exact absurd rfl hfirst
    case h_2 => exact givenRoom_bind_ok (hitems inside) rfl

theorem readValue_obj {first : Text} (hbody : skipSpace body = first)
    (hfirst : first.head? ≠ some '}')
    (hfields : ∀ inside, readFields inside fuel first =
      givenRoom (fields.all fun field => field.2.fits inside) (fields, after))
    (honce : ofEntries fields = fields) :
    readValue room (fuel + 1) ('{' :: body) =
      givenRoom ((Json.obj fields).fits room) (.obj fields, after) := by
  rw [readValue, hbody]
  cases henter : enter room with
  | error e =>
    obtain ⟨rfl, rfl⟩ := enter_eq_error henter
    rfl
  | ok inside =>
    rw [fits_obj henter]
    refine ok_bind rfl ?_
    split
    case h_1 => exact absurd rfl hfirst
    case h_2 =>
      refine givenRoom_bind_ok (hfields inside) ?_
      dsimp only
      rw [honce]

theorem readItems_last (hv : readValue room fuel t = givenRoom enough (v, rest))
    (hrest : skipSpace rest = ']' :: after) :
    readItems room (fuel + 1) t = givenRoom enough ([v], after) := by
  rw [readItems]
  refine givenRoom_bind_ok hv ?_
  simp only [hrest]

theorem readItems_more (hv : readValue room fuel t = givenRoom enough (v, rest))
    (hrest : skipSpace rest = ',' :: more)
    (hmore : readItems room fuel (skipSpace more) = givenRoom enoughMore (items, after)) :
    readItems room (fuel + 1) t = givenRoom (enough && enoughMore) (v :: items, after) := by
  rw [readItems]
  refine givenRoom_bind hv ?_
  simp only [hrest]
  exact givenRoom_bind_ok hmore rfl

theorem readFields_last (hkey : readString quoted = some (key, rest))
    (hcolon : skipSpace rest = ':' :: t)
    (hv : readValue room fuel (skipSpace t) = givenRoom enough (v, more))
    (hmore : skipSpace more = '}' :: after) :
    readFields room (fuel + 1) ('"' :: quoted) = givenRoom enough ([(key, v)], after) := by
  rw [readFields, hkey]
  simp only [hcolon]
  refine givenRoom_bind_ok hv ?_
  simp only [hmore]

theorem readFields_more {first : Text} (hkey : readString quoted = some (key, rest))
    (hcolon : skipSpace rest = ':' :: t)
    (hv : readValue room fuel (skipSpace t) = givenRoom enough (v, more))
    (hmore : skipSpace more = ',' :: first)
    (hfields : readFields room fuel (skipSpace first) = givenRoom enoughMore (fields, after)) :
    readFields room (fuel + 1) ('"' :: quoted) =
      givenRoom (enough && enoughMore) ((key, v) :: fields, after) := by
  rw [readFields, hkey]
  simp only [hcolon]
  refine givenRoom_bind hv ?_
  simp only [hmore]
  exact givenRoom_bind_ok hfields rfl

end Steps

/-! ## Values, items and fields -/

/-- With some fuel, all that was written in fewer characters is read back where there is room for
it, for values, items and fields together. -/
structure ReadsBack (indent : Option Nat) (fuel : Nat) : Prop where
  value : ∀ (depth : Nat) {room v rest}, IsExact v → EndsNumber rest →
    (writeAt (.indented indent) depth v).length < fuel →
    readValue room fuel (writeAt (.indented indent) depth v ++ rest) =
      givenRoom (v.fits room) (v, rest)
  items : ∀ (depth outer : Nat) {room v items rest}, (∀ w ∈ v :: items, IsExact w) →
    (writeAt (.indented indent) depth v).length +
      (writeItems (.indented indent) depth items).length + 1 < fuel →
    readItems room fuel (writeAt (.indented indent) depth v ++
      (writeItems (.indented indent) depth items ++
        ((Layout.indented indent).lineBreak outer ++ ']' :: rest))) =
      givenRoom ((v :: items).all (fits room)) (v :: items, rest)
  fields : ∀ (depth outer : Nat) {room key v fields rest},
    (∀ field ∈ (key, v) :: fields, IsExact field.2) →
    (writeAt (.indented indent) depth v).length +
      (writeFields (.indented indent) depth fields).length + 1 < fuel →
    readFields room fuel (writeString false key ++ ((Layout.indented indent).keySeparator ++
      (writeAt (.indented indent) depth v ++ (writeFields (.indented indent) depth fields ++
        ((Layout.indented indent).lineBreak outer ++ '}' :: rest))))) =
      givenRoom (((key, v) :: fields).all fun field => field.2.fits room) ((key, v) :: fields, rest)

section ReadsBack

variable {indent room : Option Nat} {fuel : Nat}

theorem readsBack_items (ih : ReadsBack indent fuel) {depth outer : Nat} {v : Json}
    {items : List Json} {rest : Text} (hexact : ∀ w ∈ v :: items, IsExact w)
    (hfuel : (writeAt (.indented indent) depth v).length +
      (writeItems (.indented indent) depth items).length + 1 < fuel + 1) :
    readItems room (fuel + 1) (writeAt (.indented indent) depth v ++
      (writeItems (.indented indent) depth items ++
        ((Layout.indented indent).lineBreak outer ++ ']' :: rest))) =
      givenRoom ((v :: items).all (fits room)) (v :: items, rest) := by
  obtain ⟨hv, hitems⟩ := List.forall_mem_cons.mp hexact
  rw [List.all_cons]
  cases items with
  | nil =>
    have hends := endsNumber_lineBreak indent outer (endsNumber_punctuation (.inr (.inl rfl)) rest)
    rw [List.all_nil, Bool.and_true]
    refine readItems_last (ih.value depth hv hends (by omega)) ?_
    exact skipSpace_lineBreak indent outer (']' :: rest)
  | cons w items =>
    have hw := (List.forall_mem_cons.mp hitems).1
    have hsep := itemSeparator_pos indent
    simp only [writeItems, List.append_assoc, List.length_append] at hfuel ⊢
    obtain ⟨gap, hgap, hskip⟩ := separated_append indent depth
      (writeAt (.indented indent) depth w ++ (writeItems (.indented indent) depth items ++
        ((Layout.indented indent).lineBreak outer ++ ']' :: rest)))
    rw [hgap]
    refine readItems_more (ih.value depth hv (endsNumber_punctuation (.inl rfl) gap) (by omega)) rfl ?_
    rw [hskip, skipSpace_written indent depth hw]
    exact ih.items depth outer hitems (by omega)

theorem readsBack_fields (ih : ReadsBack indent fuel) {depth outer : Nat} {key : Text} {v : Json}
    {fields : List (Text × Json)} {rest : Text}
    (hexact : ∀ field ∈ (key, v) :: fields, IsExact field.2)
    (hfuel : (writeAt (.indented indent) depth v).length +
      (writeFields (.indented indent) depth fields).length + 1 < fuel + 1) :
    readFields room (fuel + 1) (writeString false key ++
      ((Layout.indented indent).keySeparator ++ (writeAt (.indented indent) depth v ++
        (writeFields (.indented indent) depth fields ++
          ((Layout.indented indent).lineBreak outer ++ '}' :: rest))))) =
      givenRoom (((key, v) :: fields).all fun field => field.2.fits room)
        ((key, v) :: fields, rest) := by
  obtain ⟨hv, hfields⟩ := List.forall_mem_cons.mp hexact
  change IsExact v at hv
  -- the value stands behind a colon and a space
  have hvalue {tail : Text} (hends : EndsNumber tail) :
      readValue room fuel (skipSpace (' ' :: (writeAt (.indented indent) depth v ++ tail))) =
        givenRoom (v.fits room) (v, tail) :=
    (congrArg (readValue room fuel) (skipSpace_written indent depth hv tail)).trans
      (ih.value depth hv hends (by omega))
  rw [writeString_append, List.all_cons]
  cases fields with
  | nil =>
    have hends := endsNumber_lineBreak indent outer (endsNumber_punctuation (.inr (.inr rfl)) rest)
    rw [List.all_nil, Bool.and_true]
    refine readFields_last (readString_written key _) rfl (hvalue hends) ?_
    exact skipSpace_lineBreak indent outer ('}' :: rest)
  | cons field fields =>
    obtain ⟨k, w⟩ := field
    have hsep := itemSeparator_pos indent
    simp only [writeFields, asciiOnly_indented, List.append_assoc, List.length_append] at hfuel ⊢
    obtain ⟨gap, hgap, hskip⟩ := separated_append indent depth
      (writeString false k ++ ((Layout.indented indent).keySeparator ++
        (writeAt (.indented indent) depth w ++ (writeFields (.indented indent) depth fields ++
          ((Layout.indented indent).lineBreak outer ++ '}' :: rest)))))
    rw [hgap]
    refine readFields_more (readString_written key _) rfl
      (hvalue (endsNumber_punctuation (.inl rfl) gap)) rfl ?_
    rw [hskip, skipSpace_written_string]
    exact ih.fields depth outer hfields (by omega)

theorem readsBack_value (ih : ReadsBack indent fuel) {depth : Nat} {v : Json} {rest : Text}
    (hv : IsExact v) (hrest : EndsNumber rest)
    (hfuel : (writeAt (.indented indent) depth v).length < fuel + 1) :
    readValue room (fuel + 1) (writeAt (.indented indent) depth v ++ rest) =
      givenRoom (v.fits room) (v, rest) := by
  cases hv with
  | null => exact (givenRoom_scalar _ rfl).symm
  | bool b => cases b <;> exact (givenRoom_scalar _ rfl).symm
  | int short => exact (readValue_ofInt fuel short hrest).trans (givenRoom_scalar _ rfl).symm
  | str t =>
    rw [givenRoom_scalar _ rfl]
    change readValue room (fuel + 1) (writeString false t ++ rest) = _
    rw [writeString_append, readValue, readString_written]
  | @arr items each =>
    cases items with
    | nil => exact readValue_arr_nil
    | cons w items =>
      have hw := each w List.mem_cons_self
      obtain ⟨c, t, hcons, -, hclose⟩ := writeAt_eq_cons indent (depth + 1) hw
      simp only [writeAt_arr, List.append_assoc, List.length_append, List.length_cons,
        List.cons_append, List.nil_append] at hfuel ⊢
      refine readValue_arr ?_ ?_ fun inside => ih.items (depth + 1) depth each (by omega)
      · rw [skipSpace_lineBreak, skipSpace_written indent (depth + 1) hw]
      · rw [hcons]
        simpa using hclose
  | @obj fields once each =>
    cases fields with
    | nil => exact readValue_obj_nil
    | cons field fields =>
      obtain ⟨key, w⟩ := field
      simp only [writeAt_obj, List.append_assoc, List.length_append, List.length_cons,
        List.cons_append, List.nil_append] at hfuel ⊢
      refine readValue_obj ?_ ?_ (fun inside => ih.fields (depth + 1) depth each (by omega))
        (ofEntries_of_nodup once)
      · rw [skipSpace_lineBreak, skipSpace_written_string]
      · rw [writeString_append]
        simp

theorem readsBack (indent : Option Nat) (fuel : Nat) : ReadsBack indent fuel := by
  induction fuel with
  | zero =>
    -- no text is shorter than nothing
    exact ⟨fun _ _ _ _ _ _ h => absurd h (Nat.not_lt_zero _),
      fun _ _ _ _ _ _ _ h => absurd h (Nat.not_lt_zero _),
      fun _ _ _ _ _ _ _ _ h => absurd h (Nat.not_lt_zero _)⟩
  | succ fuel ih =>
    exact ⟨fun _ => readsBack_value ih, fun _ _ => readsBack_items ih, fun _ _ => readsBack_fields ih⟩

/-- What was written with any indent is read back where there is room for it, and nowhere else. -/
theorem readWithin_write {v : Json} (indent room : Option Nat) (hv : IsExact v) :
    readWithin room (write (.indented indent) v) = givenRoom (v.fits room) v := by
  have hstart : skipSpace (write (.indented indent) v) = write (.indented indent) v := by
    have hwritten := skipSpace_written indent 0 hv []
    rwa [List.append_nil] at hwritten
  have hvalue : readValue room ((write (.indented indent) v).length + 1)
      (write (.indented indent) v ++ []) = givenRoom (v.fits room) (v, []) :=
    (readsBack indent _).value 0 hv nofun (Nat.lt_succ_self _)
  rw [List.append_nil] at hvalue
  rw [readWithin, hstart]
  exact givenRoom_bind_ok hvalue rfl

end ReadsBack

theorem Codec.write?_of_exact {codec : Codec} {v : Json} (hv : IsExact v)
    (hfits : v.fits codec.levels = true) :
    codec.write? v = some (write (.indented codec.indent) v) := by
  have hread : codec.read (write (.indented codec.indent) v) = .ok v :=
    (readWithin_write codec.indent codec.levels hv).trans (if_pos hfits)
  exact Codec.write?_of_read hread

theorem Codec.read_of_write? {printer : Codec} (codec : Codec) {v : Json} {t : Text}
    (hv : IsExact v) (h : printer.write? v = some t) :
    codec.read t = givenRoom (v.fits codec.levels) v := by
  unfold Codec.write? at h
  split at h
  · obtain rfl := Option.some.inj h
    exact readWithin_write printer.indent codec.levels hv
  · cases h

end LineAssist.Json
