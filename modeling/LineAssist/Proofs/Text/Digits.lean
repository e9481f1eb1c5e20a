import LineAssist.Text.Digit
import Mathlib.Data.List.TakeDrop
import Mathlib.Data.List.TakeWhile
import Mathlib.Data.Nat.Digits.Defs

/-!
# Digits of numbers

The digits of a natural number are read back as the number, unless a digit stands behind them. There
are no more of them than the number needs, so only zero starts with the digit zero. An octet has two
hexadecimal digits.
-/

namespace LineAssist.Text

variable {t rest : Text} {n : Nat}

theorem digit_lt {c : Char} (h : isDigit c = true) : c.toNat - 48 < 10 := by
  simp only [isDigit, Char.isDigit, Bool.and_eq_true, decide_eq_true_eq] at h
  have hle : c.toNat ≤ 57 := h.2
  omega

theorem digitsFrom_lt (t : Text) (n : Nat) (h : ∀ c ∈ t, isDigit c = true) :
    t.foldl (fun n c => n * 10 + (c.toNat - 48)) n < (n + 1) * Nat.pow 10 t.length := by
  induction t generalizing n with
  | nil => simp
  | cons c t ih =>
    have hc := digit_lt (h c List.mem_cons_self)
    have ht := ih (n * 10 + (c.toNat - 48)) fun d hd => h d (List.mem_cons_of_mem c hd)
    calc (c :: t).foldl (fun n c => n * 10 + (c.toNat - 48)) n
        < (n * 10 + (c.toNat - 48) + 1) * Nat.pow 10 t.length := ht
      _ ≤ ((n + 1) * 10) * Nat.pow 10 t.length := Nat.mul_le_mul_right _ (by omega)
      _ = (n + 1) * Nat.pow 10 (c :: t).length := by
        rw [Nat.mul_assoc, Nat.mul_comm 10]
        rfl

theorem digitsValue_lt (h : ∀ c ∈ t, isDigit c = true) :
    digitsValue t < Nat.pow 10 t.length := by
  have hlt := digitsFrom_lt t 0 h
  rwa [Nat.zero_add, Nat.one_mul] at hlt

theorem isDigit_of_mem_spanDigits {c : Char} (h : c ∈ (spanDigits t).1) : isDigit c = true := by
  rw [spanDigits, List.span_eq_takeWhile_dropWhile] at h
  exact List.mem_takeWhile_imp h

theorem spanDigits_append (ht : ∀ d ∈ t, isDigit d = true)
    (hrest : ∀ c ∈ rest.head?, isDigit c = false) : spanDigits (t ++ rest) = (t, rest) := by
  rw [spanDigits, List.span_eq_takeWhile_dropWhile, List.takeWhile_append_of_pos ht,
    List.dropWhile_append_of_pos ht]
  cases rest with
  | nil => rw [List.takeWhile_nil, List.dropWhile_nil, List.append_nil]
  | cons c rest =>
    have hc : ¬isDigit c = true := Bool.eq_false_iff.mp (hrest c rfl)
    rw [List.takeWhile_cons_of_neg hc, List.dropWhile_cons_of_neg hc, List.append_nil]

theorem isDigit_of_mem_ofNat {c : Char} (h : c ∈ ofNat n) : isDigit c = true :=
  Nat.isDigit_of_mem_toDigits (by decide) (by decide) h

theorem ofNat_ne_nil (n : Nat) : ofNat n ≠ [] :=
  Nat.toDigits_ne_nil

theorem digitsValue_ofNat (n : Nat) : digitsValue (ofNat n) = n := by
  have hvalue : digitsValue (ofNat n) = Nat.ofDigitChars 10 (Nat.toDigits 10 n) 0 := by
    rw [Nat.ofDigitChars_eq_foldl]
    simp only [Nat.mul_comm 10]
    rfl
  rw [hvalue, Nat.ofDigitChars_ten_toDigits]

theorem length_ofNat_le {width : Nat} (hwidth : 0 < width) (h : n < 10 ^ width) :
    (ofNat n).length ≤ width :=
  Nat.toDigits_length 10 n width hwidth h

/-- A zero in front would be a digit too many. -/
theorem head?_ofNat_ne_zero (h : 0 < n) : (ofNat n).head? ≠ some '0' := by
  intro hzero
  obtain ⟨more, hmore⟩ := List.head?_eq_some_iff.mp hzero
  have hdigits : ∀ c ∈ more, isDigit c = true := fun c hc =>
    isDigit_of_mem_ofNat (hmore ▸ List.mem_cons_of_mem '0' hc)
  have hvalue : digitsValue more = n := by
    rw [← digitsValue_ofNat n, hmore]
    rfl
  have hlt : n < 10 ^ more.length := hvalue ▸ digitsValue_lt hdigits
  have hpos : 0 < more.length := by
    by_contra hempty
    rw [Nat.eq_zero_of_not_pos hempty] at hlt
    omega
  have hlength := length_ofNat_le hpos hlt
  rw [hmore, List.length_cons] at hlength
  omega

theorem hex_octet (h : n < 256) :
    (hex 2 n).map Char.toUpper =
      [(n / 16).digitChar.toUpper, (n % 16).digitChar.toUpper] := by
  by_cases hsmall : n < 16
  · rw [hex, Nat.toDigits_of_lt_base hsmall, Nat.div_eq_of_lt hsmall, Nat.mod_eq_of_lt hsmall]
    rfl
  · rw [hex, Nat.toDigits_of_base_le (by omega) (by omega), Nat.toDigits_of_lt_base (by omega)]
    rfl

theorem hexValue?_digitChar : ∀ k : Fin 16, hexValue? (k.val.digitChar.toUpper) = some k.val := by
  decide

end LineAssist.Text
