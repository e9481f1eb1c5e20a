import LineAssist.Proofs.Computation
import LineAssist.Yaml.TokenStream
import Mathlib.Data.List.TakeWhile

/-!
# Faults in the tokens of a document

A text that is not cut into tokens is malformed, with two exceptions, which both are numbers: an
escape beyond the last code point, and the version of a directive with too many digits. A reader
only goes on in its text, so what it has met stands in that text.
-/

namespace LineAssist.Yaml

/-! ## Positions -/

namespace Cursor

@[simp] theorem rest_next (c : Cursor) : c.next.rest = c.rest.tail := by
  unfold next
  split <;> simp [*]

@[simp] theorem rest_skip (n : Nat) (c : Cursor) : (c.skip n).rest = c.rest.drop n := by
  induction n generalizing c with
  | zero => rfl
  | succ n ih => rw [skip, ih, rest_next, List.drop_tail]

theorem next_suffix (c : Cursor) : c.next.rest <:+ c.rest := by
  rw [rest_next]
  exact List.tail_suffix c.rest

theorem skip_suffix (n : Nat) (c : Cursor) : (c.skip n).rest <:+ c.rest := by
  rw [rest_skip]
  exact List.drop_suffix n c.rest

theorem skipWhile_suffix (p : Char → Bool) (c : Cursor) : (c.skipWhile p).rest <:+ c.rest :=
  skip_suffix _ c

theorem span_suffix {p : Char → Bool} {c after : Cursor} {t : Text} (h : c.span p = (t, after)) :
    after.rest <:+ c.rest := by
  cases h
  exact c.skipWhile_suffix p

theorem skipComment_suffix (c : Cursor) : c.skipComment.rest <:+ c.rest := by
  unfold skipComment
  split
  · exact skipWhile_suffix _ c
  · exact List.suffix_rfl

theorem lineBreak?_suffix {c after : Cursor} {b : Char} (h : c.lineBreak? = some (b, after)) :
    after.rest <:+ c.rest := by
  unfold lineBreak? at h
  split at h
  · cases h
    exact skip_suffix 2 c
  · split at h
    · cases h
      exact next_suffix c
    · split at h
      · cases h
        exact next_suffix c
      · cases h
  · cases h

theorem skipBreak_suffix (c : Cursor) : c.skipBreak.rest <:+ c.rest := by
  unfold skipBreak
  split
  · next h => exact lineBreak?_suffix h
  · exact List.suffix_rfl

end Cursor

/-! ## Faults of a text -/

/-- The number that hexadecimal digits give. -/
def hexNumber (digits : Text) : Nat :=
  (digits.filterMap Text.hexValue?).foldl (fun n v => n * 16 + v) 0

/-- The fault of a number beyond those of all characters. -/
def beyondFault (n : Nat) : Error :=
  if n < 0x80000000 then .impossible else .outOfRange

/-- What keeps a text from being cut into tokens although it is not malformed. -/
inductive Unscannable (t : Text) : Error → Prop where
  /-- An escape whose number is that of no character. -/
  | escape {letter : Char} {digits : Text} (held : '\\' :: letter :: digits <:+: t)
      (width : escapeWidth? letter = some digits.length) (beyond : 0x110000 ≤ hexNumber digits) :
      Unscannable t (beyondFault (hexNumber digits))
  /-- A number of a version that has more digits than an integer may have. -/
  | version {digits : Text} (held : digits <:+: t) (all : ∀ d ∈ digits, d.isDigit)
      (long : Number.digitLimit < digits.length) : Unscannable t .impossible

/-- A fault that a reader of a text may report. -/
def Faulty (t : Text) (e : Error) : Prop :=
  e = .malformed ∨ Unscannable t e

theorem Unscannable.mono {t u : Text} {e : Error} (hu : u <:+ t) (h : Unscannable u e) :
    Unscannable t e := by
  cases h with
  | escape held width beyond => exact .escape (held.trans hu.isInfix) width beyond
  | version held all long => exact .version (held.trans hu.isInfix) all long

theorem Faulty.mono {t u : Text} {e : Error} (hu : u <:+ t) (h : Faulty u e) : Faulty t e :=
  h.imp_right (Unscannable.mono hu)

/-- A reader of a text reports a fault of that text, or leaves a part of it at its end. -/
def Scans {α : Type} (rest : α → Text) (t : Text) (x : Except Error α) : Prop :=
  Yields (Faulty t) (fun a => rest a <:+ t) x

section Scans

variable {α β : Type} {rest : α → Text} {rest' : β → Text} {t u : Text}

theorem scans_ok {a : α} (h : rest a <:+ t) : Scans rest t (.ok a) :=
  h

theorem scans_malformed : Scans rest t (.error .malformed) :=
  .inl rfl

theorem Scans.mono {x : Except Error α} (hu : u <:+ t) (h : Scans rest u x) : Scans rest t x :=
  Yields.imp h (fun _ => Faulty.mono hu) fun _ ha => ha.trans hu

theorem Scans.of_eq {x : Except Error α} (h : Scans rest u x) (hu : u = t) : Scans rest t x :=
  hu ▸ h

theorem Scans.bind {x : Except Error α} {f : α → Except Error β} (hx : Scans rest t x)
    (hf : ∀ a, Scans rest' (rest a) (f a)) : Scans rest' t (x >>= f) :=
  Yields.bind hx fun a ha => (hf a).mono ha

theorem scans_guard {b : Bool} {a : α} (h : rest a <:+ t) :
    Scans rest t (if b then .error .malformed else .ok a) := by
  cases b
  · exact scans_ok h
  · exact scans_malformed

theorem scans_ite {p : Prop} [Decidable p] {x y : Except Error α} (hx : Scans rest t x)
    (hy : Scans rest t y) : Scans rest t (if p then x else y) := by
  split
  · exact hx
  · exact hy

/-- What is left behind a part that has been read. -/
def restOf (r : α × Cursor) : Text :=
  r.2.rest

theorem scans_part {a : α} {c : Cursor} (h : c.rest <:+ t) : Scans restOf t (.ok (a, c)) :=
  h

end Scans

/-! ## Anchors, tags and directives -/

theorem scans_readName (c : Cursor) : Scans restOf c.rest (readName c) := by
  unfold readName
  split
  next name after h =>
    exact scans_guard ((Cursor.span_suffix h).trans c.next_suffix)

theorem scans_readUri (c : Cursor) : Scans restOf c.rest (readUri c) := by
  unfold readUri
  split
  next raw after h =>
    split
    · exact scans_guard (Cursor.span_suffix h)
    · exact scans_malformed

theorem scans_readHandle (c : Cursor) : Scans restOf c.rest (readHandle c) := by
  unfold readHandle
  split
  · exact scans_malformed
  · split
    · exact scans_part c.next_suffix
    · split
      next word after h =>
        have hafter := (Cursor.span_suffix h).trans c.next_suffix
        split
        · exact scans_part (after.next_suffix.trans hafter)
        · exact scans_malformed

theorem scans_readTag (c : Cursor) : Scans restOf c.rest (readTag c) := by
  unfold readTag
  extract_lets last
  have hlast : ∀ r, Scans restOf (restOf r) (last r) := by
    intro r
    change Scans restOf (restOf r) (if endsWord r.2.head? then .ok r else .error .malformed)
    split
    · exact scans_ok List.suffix_rfl
    · exact scans_malformed
  split
  · refine ((scans_readUri _).mono (c.skip_suffix 2)).bind fun (suffix, after) => ?_
    simp only
    split
    · exact (scans_part after.next_suffix).bind hlast
    · exact scans_malformed.bind hlast
  · split
    · exact (scans_part c.next_suffix).bind hlast
    · simp only
      split
      · refine (scans_readHandle c).bind fun (handle, after) => ?_
        refine (scans_readUri after).bind fun (suffix, behind) => ?_
        exact (scans_part List.suffix_rfl).bind hlast
      · refine ((scans_readUri c.next).mono c.next_suffix).bind fun (suffix, after) => ?_
        exact (scans_part List.suffix_rfl).bind hlast

theorem scans_readIgnoredLine (c : Cursor) : Scans Cursor.rest c.rest (readIgnoredLine c) := by
  have hafter : c.skipSpaces.skipComment.rest <:+ c.rest :=
    (Cursor.skipComment_suffix _).trans (c.skipWhile_suffix _)
  unfold readIgnoredLine
  simp only
  split
  · exact scans_ok ((Cursor.skipBreak_suffix _).trans hafter)
  · exact scans_malformed

/-- Digits at a position are read as a number, unless there are none or too many. -/
theorem scans_versionNumber {c after : Cursor} {digits : Text}
    (h : c.span Char.isDigit = (digits, after)) :
    Scans (fun _ => after.rest) c.rest (versionNumber digits) := by
  unfold versionNumber
  split
  · exact scans_malformed
  · split
    · next long =>
      cases h
      exact .inr (.version (List.takeWhile_prefix _).isInfix (fun _ => List.mem_takeWhile_imp) long)
    · exact scans_ok (Cursor.span_suffix h)

theorem scans_readVersion (c : Cursor) : Scans restOf c.rest (readVersion c) := by
  unfold readVersion
  split
  next digits after h =>
    refine ((scans_versionNumber h).mono (c.skipWhile_suffix _)).bind fun major => ?_
    split
    · exact scans_malformed
    · split
      next minor last h' =>
        refine ((scans_versionNumber h').mono after.next_suffix).bind fun _ => ?_
        split
        · exact scans_part List.suffix_rfl
        · exact scans_malformed

theorem scans_readTagDirective (c : Cursor) : Scans restOf c.rest (readTagDirective c) := by
  unfold readTagDirective
  refine ((scans_readHandle _).mono (c.skipWhile_suffix _)).bind fun (handle, after) => ?_
  simp only
  split
  · exact scans_malformed
  · refine ((scans_readUri _).mono (after.skipWhile_suffix _)).bind fun (start, last) => ?_
    simp only
    split
    · exact scans_part List.suffix_rfl
    · exact scans_malformed

theorem scans_readDirective (c : Cursor) : Scans restOf c.rest (readDirective c) := by
  unfold readDirective
  extract_lets last
  have hlast : ∀ r, Scans restOf (restOf r) (last r) := fun (directive, after) =>
    (scans_readIgnoredLine after).bind fun _ => scans_part List.suffix_rfl
  split
  next name after h =>
    refine Scans.mono ((Cursor.span_suffix h).trans c.next_suffix) ?_
    split
    · exact scans_malformed
    · split
      · exact (scans_readVersion after).bind hlast
      · split
        · exact (scans_readTagDirective after).bind hlast
        · exact (scans_part (after.skipWhile_suffix _)).bind hlast

/-! ## Block scalars -/

theorem scans_increment? (digit : Option Char) (t : Text) :
    Scans (fun _ => t) t (increment? digit) := by
  unfold increment?
  split
  · split
    · exact scans_ite scans_malformed (scans_ok List.suffix_rfl)
    · exact scans_ok List.suffix_rfl
  · exact scans_ok List.suffix_rfl

theorem scans_readBlockHeader (c : Cursor) : Scans restOf c.rest (readBlockHeader c) := by
  unfold readBlockHeader
  extract_lets last
  have hlast : ∀ r, Scans restOf r.2.2.rest (last r) := by
    rintro ⟨chomping, increment, after⟩
    simp only [last]
    split
    · exact scans_part List.suffix_rfl
    · exact scans_malformed
  split
  · refine ((scans_increment? _ _).mono c.next_suffix).bind fun increment => ?_
    split
    · exact Scans.mono c.next.next_suffix (hlast (_, _, _))
    · exact hlast (_, _, _)
  · refine (scans_increment? _ _).bind fun increment => ?_
    split
    · split
      · exact Scans.mono (c.next.next_suffix.trans c.next_suffix) (hlast (_, _, _))
      · exact Scans.mono c.next_suffix (hlast (_, _, _))
    · exact hlast (_, _, _)

/-- The line breaks in front of a block scalar are read in the text. -/
theorem blockIndentation_suffix (fuel widest : Nat) (c : Cursor) :
    (blockIndentation fuel widest c).2.2.rest <:+ c.rest := by
  induction fuel generalizing widest c with
  | zero => exact List.suffix_rfl
  | succ fuel ih =>
    unfold blockIndentation
    split
    · exact (ih _ _).trans c.next_suffix
    · split
      · next h => exact (ih _ _).trans (Cursor.lineBreak?_suffix h)
      · exact List.suffix_rfl

theorem skipIndent_suffix (indent fuel : Nat) (c : Cursor) :
    (skipIndent indent fuel c).rest <:+ c.rest := by
  induction fuel generalizing c with
  | zero => exact List.suffix_rfl
  | succ fuel ih =>
    unfold skipIndent
    split
    · exact (ih _).trans c.next_suffix
    · exact List.suffix_rfl

theorem blockBreaks_suffix (indent fuel : Nat) (c : Cursor) :
    (blockBreaks indent fuel c).2.rest <:+ c.rest := by
  induction fuel generalizing c with
  | zero => exact List.suffix_rfl
  | succ fuel ih =>
    have hindent := skipIndent_suffix indent indent c
    unfold blockBreaks
    simp only
    split
    · next h => exact (ih _).trans ((Cursor.lineBreak?_suffix h).trans hindent)
    · exact hindent

theorem blockLines_suffix (folded : Bool) (indent fuel : Nat) (text breaks : Text)
    (last : Option Char) (c : Cursor) :
    (blockLines folded indent fuel text breaks last c).2.2.2.rest <:+ c.rest := by
  induction fuel generalizing text breaks last c with
  | zero => exact List.suffix_rfl
  | succ fuel ih =>
    unfold blockLines
    split
    · -- the line break of the line, if it has one, and the breaks behind it
      have hbehind (start : Cursor)
          (h : start.rest <:+ (c.skipWhile fun ch => !isBreak ch).rest) :
          (blockBreaks indent start.rest.length start).2.rest <:+ c.rest :=
        (blockBreaks_suffix _ _ _).trans (h.trans (c.skipWhile_suffix _))
      simp only
      split
      · next h =>
        have hstart := Cursor.lineBreak?_suffix h
        split
        · exact (ih _ _ _ _).trans (hbehind _ hstart)
        · exact hbehind _ hstart
      · split
        · exact (ih _ _ _ _).trans (hbehind _ List.suffix_rfl)
        · exact hbehind _ List.suffix_rfl
    · exact List.suffix_rfl

theorem scans_readBlockScalar (folded : Bool) (outer : Int) (c : Cursor) :
    Scans restOf c.rest (readBlockScalar folded outer c) := by
  unfold readBlockScalar
  refine ((scans_readBlockHeader _).mono c.next_suffix).bind fun ((chomping, increment), after) => ?_
  refine (scans_readIgnoredLine after).bind fun start => ?_
  cases increment with
  | none =>
    have hfirst := blockIndentation_suffix (start.rest.length + 1) 0 start
    simp only
    exact scans_part ((blockLines_suffix _ _ _ _ _ _ _).trans hfirst)
  | some n =>
    have hfirst := blockBreaks_suffix ((max 1 (outer + 1)).toNat + n - 1) (start.rest.length + 1) start
    simp only
    exact scans_part ((blockLines_suffix _ _ _ _ _ _ _).trans hfirst)

/-! ## Quoted and plain scalars -/

theorem scans_quotedBreaks (fuel : Nat) (c : Cursor) :
    Scans restOf c.rest (quotedBreaks fuel c) := by
  induction fuel generalizing c with
  | zero => exact scans_part List.suffix_rfl
  | succ fuel ih =>
    have hblank := c.skipWhile_suffix fun ch => ch == ' ' || ch == '\t'
    unfold quotedBreaks
    split
    · exact scans_malformed
    · simp only
      split
      · next h =>
        refine ((ih _).mono ((Cursor.lineBreak?_suffix h).trans hblank)).bind fun (breaks, last) => ?_
        exact scans_part List.suffix_rfl
      · exact scans_part hblank

theorem scans_quotedSpaces (c : Cursor) : Scans restOf c.rest (quotedSpaces c) := by
  unfold quotedSpaces
  split
  next spaces after hspaces =>
    refine Scans.mono (Cursor.span_suffix hspaces) ?_
    split
    · exact scans_malformed
    · split
      · next h =>
        refine ((scans_quotedBreaks _ _).mono (Cursor.lineBreak?_suffix h)).bind
          fun (breaks, last) => ?_
        exact scans_part List.suffix_rfl
      · exact scans_part List.suffix_rfl

/-- An escape has the digits that its letter asks for, and gives their number. -/
theorem escapeCode?_cases {c : Cursor} {code : Except Error (Nat × Cursor)}
    (h : escapeCode? c = some code) :
    code = .error .malformed ∨ ∃ letter digits,
      escapeWidth? letter = some digits.length ∧ letter :: digits <+: c.rest ∧
        code = .ok (hexNumber digits, c.skip (digits.length + 1)) := by
  obtain ⟨width, hwidth, rfl⟩ := Option.map_eq_some_iff.mp h
  obtain ⟨letter, hletter, hwidth⟩ := Option.bind_eq_some_iff.mp hwidth
  obtain ⟨more, hrest⟩ := List.head?_eq_some_iff.mp hletter
  rw [hrest, List.tail_cons]
  by_cases hshort : ((more.take width).filterMap Text.hexValue?).length < width
  · exact .inl (if_pos hshort)
  · have hlength : (more.take width).length = width := by
      refine Nat.le_antisymm (List.length_take_le _ _) ((Nat.le_of_not_lt hshort).trans ?_)
      exact List.length_filterMap_le _ _
    refine .inr ⟨letter, more.take width, hlength.symm ▸ hwidth, ?_, ?_⟩
    · exact (List.prefix_cons_inj letter).mpr (List.take_prefix _ _)
    · rw [hlength]
      exact if_neg hshort

theorem lowHalf?_suffix {c last : Cursor} {n : Nat} (h : lowHalf? c = some (n, last)) :
    last.rest <:+ c.rest := by
  unfold lowHalf? at h
  split at h
  · split at h
    · next m after hcode =>
      split at h
      · cases h
        obtain hcode | ⟨letter, digits, -, -, hcode⟩ := escapeCode?_cases hcode
        · cases hcode
        · cases hcode
          exact (Cursor.skip_suffix _ _).trans c.next_suffix
      · cases h
    · cases h
  · cases h

/-- A number gives a character unless it is beyond all of them. -/
theorem yields_escapedChar (n : Nat) (after : Cursor) :
    Yields (fun e => 0x110000 ≤ n ∧ e = beyondFault n)
      (fun r => restOf r <:+ after.rest) (escapedChar n after) := by
  unfold escapedChar
  split
  · split
    · next m last h =>
      split
      · exact lowHalf?_suffix h
      · exact List.suffix_rfl
    · exact List.suffix_rfl
  · split
    · exact List.suffix_rfl
    · next hbeyond => exact ⟨Nat.le_of_not_lt hbeyond, rfl⟩

/-- What an escape stands for, behind its backslash. -/
theorem scans_quotedEscape (c : Cursor) : Scans restOf ('\\' :: c.rest) (quotedEscape c) := by
  have hbackslash : c.rest <:+ '\\' :: c.rest := List.suffix_cons _ _
  unfold quotedEscape
  split
  · exact scans_part (c.next_suffix.trans hbackslash)
  · next code hcode =>
    obtain rfl | ⟨letter, digits, hwidth, hheld, rfl⟩ := escapeCode?_cases hcode
    · exact scans_malformed
    · have hchar : Scans restOf ('\\' :: c.rest)
          (escapedChar (hexNumber digits) (c.skip (digits.length + 1))) := by
        refine (yields_escapedChar _ _).imp ?_ ?_
        · rintro e ⟨hbeyond, rfl⟩
          have hheld := ((List.prefix_cons_inj '\\').mpr hheld).isInfix
          exact .inr (.escape hheld hwidth hbeyond)
        · exact fun r hr => hr.trans ((c.skip_suffix _).trans hbackslash)
      exact hchar.bind fun (ch, last) => scans_part List.suffix_rfl
  · refine Scans.mono hbackslash ?_
    split
    · next h => exact (scans_quotedBreaks _ _).mono (Cursor.lineBreak?_suffix h)
    · exact scans_malformed

theorem scans_quotedText (double : Bool) (fuel : Nat) (c : Cursor) :
    Scans restOf c.rest (quotedText double fuel c) := by
  induction fuel generalizing c with
  | zero => exact scans_malformed
  | succ fuel ih =>
    -- a part of the text, and what follows it
    have hmore (part : Text) (after : Cursor) : Scans restOf after.rest
        ((quotedText double fuel after).bind fun read => .ok (part ++ read.1, read.2)) :=
      (ih after).bind fun _ => scans_part List.suffix_rfl
    unfold quotedText
    split
    · exact scans_malformed
    · next ch more hrest =>
      split
      · exact (scans_quotedSpaces c).bind fun (spaces, after) => hmore spaces after
      · split
        · next hescape =>
          have hch : c.rest = '\\' :: c.next.rest := by
            rw [Cursor.rest_next, hrest]
            simp_all
          rw [hch]
          exact (scans_quotedEscape c.next).bind fun (part, after) => hmore part after
        · split
          · exact Scans.mono (c.skip_suffix 2) (hmore ['\''] _)
          · by_cases hquote : ch == if double then '"' else '\''
            · rw [if_pos hquote]
              exact scans_part c.next_suffix
            · rw [if_neg hquote]
              exact Scans.mono c.next_suffix (hmore [ch] c.next)

theorem scans_readQuoted (double : Bool) (c : Cursor) :
    Scans restOf c.rest (readQuoted double c) :=
  (scans_quotedText double _ c.next).mono c.next_suffix

theorem plainBreaks_suffix (fuel : Nat) (c : Cursor) : (plainBreaks fuel c).2.rest <:+ c.rest := by
  induction fuel generalizing c with
  | zero => exact List.suffix_rfl
  | succ fuel ih =>
    unfold plainBreaks
    split
    · exact (ih _).trans c.next_suffix
    · split
      · next h =>
        have hafter := Cursor.lineBreak?_suffix h
        split
        · exact hafter
        · exact (ih _).trans hafter
      · exact List.suffix_rfl

theorem plainSpaces_suffix (c : Cursor) : (plainSpaces c).2.2.rest <:+ c.rest := by
  have hspaces := c.skipWhile_suffix (· == ' ')
  unfold plainSpaces
  simp only
  split
  · next next h =>
    have hnext := (Cursor.lineBreak?_suffix h).trans hspaces
    have hbreaks := (plainBreaks_suffix next.rest.length next).trans hnext
    split
    · exact hnext
    · split
      · next hlast =>
        rw [hlast] at hbreaks
        exact hbreaks
      · next hlast =>
        rw [hlast] at hbreaks
        exact hbreaks
  · exact hspaces

theorem readPlain_suffix (flow : Bool) (outer : Int) (c : Cursor) :
    (readPlain flow outer c).2.2.rest <:+ c.rest := by
  have htext (indent : Int) (fuel : Nat) (text spaces : Text) (allow : Bool) (c : Cursor) :
      (plainText flow indent fuel text spaces allow c).2.2.rest <:+ c.rest := by
    induction fuel generalizing text spaces allow c with
    | zero => exact List.suffix_rfl
    | succ fuel ih =>
      have hrun := (plainSpaces_suffix (c.skip (plainRun flow c.rest).length)).trans (c.skip_suffix _)
      unfold plainText
      split
      · exact List.suffix_rfl
      · simp only
        split
        · exact List.suffix_rfl
        · split
          · exact hrun
          · exact (ih _ _ _ _).trans hrun
  exact htext _ _ _ _ _ c

end LineAssist.Yaml
