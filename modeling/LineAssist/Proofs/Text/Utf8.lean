import LineAssist.Text.Utf8
import Mathlib.Tactic.SplitIfs

/-!
# Texts are read back from their octets

The first octet of a character tells how many are owed and bounds the next one, which the octets of
a character keep to since it is no surrogate and its octets are no more than it needs. So the reader
never has to put a replacement for what a text was written as.
-/

namespace LineAssist.Text

variable {n k : Nat}

theorem toNat_octet (h : n < 256) : (UInt8.ofNat n).toNat = n := by
  rw [UInt8.toNat_ofNat', Nat.mod_eq_of_lt h]

/-- A further octet that keeps to the bounds adds its six bits. -/
theorem utf8Next_tail {p : Utf8Partial} (hlow : p.low ≤ 0x80 + k) (hhigh : 0x80 + k ≤ p.high) :
    utf8Next p (0x80 + k) =
      if p.owed ≤ 1 then .char (Char.ofNat (p.bits * 64 + k))
      else .more ⟨p.bits * 64 + k, p.owed - 1, 0x80, 0xBF⟩ := by
  rw [utf8Next, if_pos (by simp [hlow, hhigh]), Nat.add_sub_cancel_left]

/-! ## First octets -/

theorem utf8First_one (h : n ≤ 0x7F) : utf8First n = .char (Char.ofNat n) :=
  if_pos h

theorem utf8First_two (hmin : 0x7F < n) (hmax : n ≤ 0x7FF) :
    utf8First (0xC0 + n / 64) = .more ⟨n / 64, 1, 0x80, 0xBF⟩ := by
  have hrange : 0xC2 ≤ 0xC0 + n / 64 ∧ 0xC0 + n / 64 ≤ 0xDF := by omega
  rw [utf8First, if_neg (by omega), if_pos (by simpa using hrange), Nat.add_sub_cancel_left]

/-- Among the characters of three octets, those below the least and the surrogates are kept out by
the second octet. -/
theorem utf8First_three (hmin : 0x7FF < n) (hmax : n ≤ 0xFFFF) (hscalar : n < 0xD800 ∨ 0xDFFF < n) :
    ∃ low high, utf8First (0xE0 + n / 4096) = .more ⟨n / 4096, 2, low, high⟩ ∧
      low ≤ 0x80 + n / 64 % 64 ∧ 0x80 + n / 64 % 64 ≤ high := by
  have hmore : ¬(0xE0 + n / 4096 ≤ 0x7F) := by omega
  have htwo : ¬(0xC2 ≤ 0xE0 + n / 4096 && 0xE0 + n / 4096 ≤ 0xDF) = true := by
    simp only [Bool.and_eq_true, decide_eq_true_eq]
    omega
  rw [utf8First, if_neg hmore, if_neg htwo]
  by_cases hleast : n / 4096 = 0
  · rw [hleast]
    exact ⟨0xA0, 0xBF, rfl, by omega, by omega⟩
  · by_cases hsurrogates : n / 4096 = 13
    · rw [hsurrogates]
      exact ⟨0x80, 0x9F, rfl, by omega, by omega⟩
    · refine ⟨0x80, 0xBF, ?_, by omega, by omega⟩
      rw [if_neg (by simpa using hleast), if_neg (by simp only [beq_iff_eq]; omega),
        if_pos (by simp only [Bool.and_eq_true, decide_eq_true_eq]; omega), Nat.add_sub_cancel_left]

/-- Among the characters of four octets, those below the least and beyond the last are kept out by
the second octet. -/
theorem utf8First_four (hmin : 0xFFFF < n) (hmax : n ≤ 0x10FFFF) :
    ∃ low high, utf8First (0xF0 + n / 262144) = .more ⟨n / 262144, 3, low, high⟩ ∧
      low ≤ 0x80 + n / 4096 % 64 ∧ 0x80 + n / 4096 % 64 ≤ high := by
  have hcases : n / 262144 = 0 ∨ (1 ≤ n / 262144 ∧ n / 262144 ≤ 3) ∨ n / 262144 = 4 := by omega
  rcases hcases with hleast | hmiddle | hlast
  · rw [hleast]
    exact ⟨0x90, 0xBF, rfl, by omega, by omega⟩
  · refine ⟨0x80, 0xBF, ?_, by omega, by omega⟩
    obtain hone | htwo | hthree : n / 262144 = 1 ∨ n / 262144 = 2 ∨ n / 262144 = 3 := by omega
    · rw [hone]
      rfl
    · rw [htwo]
      rfl
    · rw [hthree]
      rfl
  · rw [hlast]
    exact ⟨0x80, 0x8F, rfl, by omega, by omega⟩

/-! ## Reading -/

theorem decodeUtf8LossyFrom_char {c : Char} (hn : n < 256) (h : utf8First n = .char c)
    (rest : List UInt8) :
    decodeUtf8LossyFrom none (UInt8.ofNat n :: rest) = c :: decodeUtf8LossyFrom none rest := by
  rw [decodeUtf8LossyFrom, toNat_octet hn, h]

theorem decodeUtf8LossyFrom_more {p : Utf8Partial} (hn : n < 256) (h : utf8First n = .more p)
    (rest : List UInt8) :
    decodeUtf8LossyFrom none (UInt8.ofNat n :: rest) = decodeUtf8LossyFrom (some p) rest := by
  rw [decodeUtf8LossyFrom, toNat_octet hn, h]

theorem decodeUtf8LossyFrom_tail {bits owed low high : Nat} (hk : k < 64) (hlow : low ≤ 0x80 + k)
    (hhigh : 0x80 + k ≤ high) (rest : List UInt8) :
    decodeUtf8LossyFrom (some ⟨bits, owed + 2, low, high⟩) (UInt8.ofNat (0x80 + k) :: rest) =
      decodeUtf8LossyFrom (some ⟨bits * 64 + k, owed + 1, 0x80, 0xBF⟩) rest := by
  rw [decodeUtf8LossyFrom, toNat_octet (by omega), utf8Next_tail hlow hhigh, if_neg (by simp)]
  rfl

theorem decodeUtf8LossyFrom_last {bits low high : Nat} (hk : k < 64) (hlow : low ≤ 0x80 + k)
    (hhigh : 0x80 + k ≤ high) (rest : List UInt8) :
    decodeUtf8LossyFrom (some ⟨bits, 1, low, high⟩) (UInt8.ofNat (0x80 + k) :: rest) =
      Char.ofNat (bits * 64 + k) :: decodeUtf8LossyFrom none rest := by
  rw [decodeUtf8LossyFrom, toNat_octet (by omega), utf8Next_tail hlow hhigh, if_pos (Nat.le_refl 1)]

theorem decodeUtf8LossyFrom_utf8Octets (c : Char) (rest : List UInt8) :
    decodeUtf8LossyFrom none (utf8Octets c ++ rest) = c :: decodeUtf8LossyFrom none rest := by
  have hscalar : c.toNat < 0xD800 ∨ 0xDFFF < c.toNat ∧ c.toNat < 0x110000 := c.valid
  rw [utf8Octets]
  dsimp only
  split_ifs with hone htwo hthree
  · rw [List.singleton_append, decodeUtf8LossyFrom_char (by omega) (utf8First_one hone),
      Char.ofNat_toNat]
  · change decodeUtf8LossyFrom none (UInt8.ofNat (0xC0 + c.toNat / 64) ::
      UInt8.ofNat (0x80 + c.toNat / 1 % 64) :: rest) = _
    have hbits : c.toNat / 64 * 64 + c.toNat / 1 % 64 = c.toNat := by omega
    rw [decodeUtf8LossyFrom_more (by omega) (utf8First_two (by omega) htwo),
      decodeUtf8LossyFrom_last (by omega) (by omega) (by omega), hbits, Char.ofNat_toNat]
  · change decodeUtf8LossyFrom none (UInt8.ofNat (0xE0 + c.toNat / 4096) ::
      UInt8.ofNat (0x80 + c.toNat / 64 % 64) :: UInt8.ofNat (0x80 + c.toNat / 1 % 64) :: rest) = _
    obtain ⟨low, high, hfirst, hlow, hhigh⟩ :=
      utf8First_three (by omega) hthree (hscalar.imp_right And.left)
    have hbits : (c.toNat / 4096 * 64 + c.toNat / 64 % 64) * 64 + c.toNat / 1 % 64 = c.toNat := by
      omega
    rw [decodeUtf8LossyFrom_more (by omega) hfirst,
      decodeUtf8LossyFrom_tail (by omega) hlow hhigh,
      decodeUtf8LossyFrom_last (by omega) (by omega) (by omega), hbits, Char.ofNat_toNat]
  · change decodeUtf8LossyFrom none (UInt8.ofNat (0xF0 + c.toNat / 262144) ::
      UInt8.ofNat (0x80 + c.toNat / 4096 % 64) :: UInt8.ofNat (0x80 + c.toNat / 64 % 64) ::
        UInt8.ofNat (0x80 + c.toNat / 1 % 64) :: rest) = _
    obtain ⟨low, high, hfirst, hlow, hhigh⟩ := utf8First_four (n := c.toNat) (by omega) (by omega)
    have hbits : ((c.toNat / 262144 * 64 + c.toNat / 4096 % 64) * 64 + c.toNat / 64 % 64) * 64 +
        c.toNat / 1 % 64 = c.toNat := by omega
    rw [decodeUtf8LossyFrom_more (by omega) hfirst,
      decodeUtf8LossyFrom_tail (by omega) hlow hhigh,
      decodeUtf8LossyFrom_tail (by omega) (by omega) (by omega),
      decodeUtf8LossyFrom_last (by omega) (by omega) (by omega), hbits, Char.ofNat_toNat]

theorem decodeUtf8Lossy_encodeUtf8 (t : Text) : decodeUtf8Lossy (encodeUtf8 t) = t := by
  induction t with
  | nil => rfl
  | cons c t ih =>
    rw [decodeUtf8Lossy, encodeUtf8, List.flatMap_cons, decodeUtf8LossyFrom_utf8Octets]
    exact congrArg (c :: ·) ih

end LineAssist.Text
