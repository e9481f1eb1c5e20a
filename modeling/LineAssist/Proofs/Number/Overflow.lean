import LineAssist.Number.Binary64
import Mathlib.Data.Nat.Log

/-!
# Integers beyond the finite numbers

An integer is rounded to a mantissa of 53 bits. The greatest mantissa is odd, so the tie above the
greatest finite number goes up: the integers without a finite number start half a step above it.
-/

namespace LineAssist.Binary64

/-- Half a step above the greatest finite number: `2 ^ 1024 - 2 ^ 970`. -/
def leastInfinite : Nat :=
  (Nat.pow 2 54 - 1) * Nat.pow 2 970

theorem leastInfinite_pos : 0 < leastInfinite := by
  unfold leastInfinite
  generalize 970 = k
  exact Nat.mul_pos (by decide) (Nat.two_pow_pos k)

/-- A quotient below `k + 1` is rounded up to it from half a step on, a tie included if `k` is
odd. -/
theorem roundQuotient_eq_succ_iff {num den k : Nat} (hodd : k % 2 = 1) (hlt : num < (k + 1) * den) :
    roundQuotient num den = k + 1 ↔ (2 * k + 1) * den ≤ 2 * num := by
  have hpos : 0 < den := Nat.pos_of_mul_pos_left (Nat.zero_lt_of_lt hlt)
  have hsplit : den * (num / den) + num % den = num := Nat.div_add_mod num den
  have hrest : num % den < den := Nat.mod_lt num hpos
  have hle : num / den ≤ k := Nat.lt_succ_iff.mp (Nat.div_lt_of_lt_mul (by rwa [Nat.mul_comm]))
  unfold roundQuotient
  dsimp only
  rcases Nat.lt_or_eq_of_le hle with hbelow | heq
  · have hnext : den * (num / den + 1) ≤ den * k := Nat.mul_le_mul_left den hbelow
    have hnot : ¬(2 * k + 1) * den ≤ 2 * num := by
      rw [Nat.mul_add, Nat.mul_one] at hnext
      rw [Nat.add_mul, Nat.one_mul, Nat.mul_assoc, Nat.mul_comm k den]
      omega
    refine iff_of_false ?_ hnot
    split
    · omega
    · split
      · omega
      · split <;> omega
  · rw [heq] at hsplit
    have hhalf : (2 * k + 1) * den ≤ 2 * num ↔ den ≤ 2 * (num % den) := by
      rw [Nat.add_mul, Nat.one_mul, Nat.mul_assoc, Nat.mul_comm k den]
      omega
    rw [hhalf, heq]
    split
    · omega
    · split
      · omega
      · split <;> omega

theorem binaryExponent_nat {n : Nat} (hn : n ≠ 0) : binaryExponent n 1 = n.log2 := by
  have hlog : Nat.log2 1 = 0 := by decide
  simp [binaryExponent, hlog, Nat.log2_self_le hn]

/-- An integer is rounded to an infinity if its exponent is too large, or becomes so by a carry. -/
theorem ofRatio_nat {n : Nat} (hn : n ≠ 0) (negative : Bool) :
    (∃ s, ofRatio negative n 1 = .infinity s) ↔ 1023 < n.log2 ∨
      n.log2 = 1023 ∧ roundQuotient n (Nat.pow 2 (n.log2 - 52)) = Nat.pow 2 53 := by
  have hexponent : max ((n.log2 : Int) - 52) (-1074) = n.log2 - 52 := by omega
  rw [ofRatio, if_neg hn]
  dsimp only
  rw [binaryExponent_nat hn, hexponent]
  generalize hmantissa : (if (0 : Int) ≤ n.log2 - 52 then
    roundQuotient n (1 * Nat.pow 2 ((n.log2 : Int) - 52).toNat) else
    roundQuotient (n * Nat.pow 2 (-((n.log2 : Int) - 52)).toNat) 1) = m
  have hlast (hlog : n.log2 = 1023) : roundQuotient n (Nat.pow 2 (n.log2 - 52)) = m := by
    have hpositive : (0 : Int) ≤ n.log2 - 52 := by omega
    have hshift : ((n.log2 : Int) - 52).toNat = n.log2 - 52 := by omega
    rwa [if_pos hpositive, Nat.one_mul, hshift] at hmantissa
  by_cases hcarry : m = Nat.pow 2 53
  · rw [if_pos hcarry]
    dsimp only
    split
    case isTrue hlarge =>
      refine iff_of_true ⟨_, rfl⟩ ?_
      rcases Nat.lt_or_eq_of_le (show 1023 ≤ n.log2 by omega) with hlog | hlog
      · exact .inl hlog
      · exact .inr ⟨hlog.symm, (hlast hlog.symm).trans hcarry⟩
    case isFalse hsmall => exact iff_of_false nofun (by omega)
  · rw [if_neg hcarry]
    dsimp only
    split
    case isTrue hlarge => exact iff_of_true ⟨_, rfl⟩ (.inl (by omega))
    case isFalse hsmall =>
      refine iff_of_false nofun ?_
      rintro (hlog | ⟨hlog, hm⟩)
      · omega
      · exact hcarry ((hlast hlog).symm.trans hm)

theorem ofRatio_infinite_iff {n : Nat} (hn : n ≠ 0) (negative : Bool) :
    (∃ s, ofRatio negative n 1 = .infinity s) ↔ leastInfinite ≤ n := by
  refine (ofRatio_nat hn negative).trans ?_
  unfold leastInfinite
  -- no power is computed
  generalize hk : 970 = k
  have hlow : Nat.pow 2 n.log2 ≤ n := Nat.log2_self_le hn
  have hhigh : n < Nat.pow 2 (n.log2 + 1) := Nat.lt_log2_self
  have hmono {a b : Nat} (h : a ≤ b) : Nat.pow 2 a ≤ Nat.pow 2 b :=
    Nat.pow_le_pow_right (by decide) h
  have hsplit (a b c : Nat) (h : a + b = c) : Nat.pow 2 c = Nat.pow 2 a * Nat.pow 2 b := by
    rw [← h]
    exact Nat.pow_add 2 a b
  -- all is measured in half steps below the first power of two without a finite number
  have hpos : 0 < Nat.pow 2 k := Nat.two_pow_pos k
  have hbelow := hsplit 53 k (k + 53) (by omega)
  have habove := hsplit 54 k (k + 53 + 1) (by omega)
  have hstep := hsplit 1 k
  generalize Nat.pow 2 k = half at hstep hbelow habove hpos ⊢
  have h1 : Nat.pow 2 1 = 2 := rfl
  have h53 : Nat.pow 2 53 = 9007199254740991 + 1 := rfl
  have h54 : Nat.pow 2 54 = 18014398509481984 := rfl
  rw [h53] at hbelow
  rw [h54] at habove
  rw [h53, h54]
  rcases Nat.lt_trichotomy n.log2 (k + 53) with hlog | hlog | hlog
  · have hbound := (hhigh.trans_le (hmono hlog)).trans_eq hbelow
    exact iff_of_false (by omega) (by omega)
  · rw [hlog, habove] at hhigh
    rw [hstep _ (by omega), h1, roundQuotient_eq_succ_iff (by decide) (by omega)]
    omega
  · have hbound := habove.symm.trans_le ((hmono hlog).trans hlow)
    exact iff_of_true (by omega) (by omega)

/-- The integers that are rounded to an infinity. -/
theorem ofInt_infinite_iff {i : Int} :
    (∃ negative, ofInt i = .infinity negative) ↔ leastInfinite ≤ i.natAbs := by
  by_cases hi : i.natAbs = 0
  · rw [ofInt, ofRatio, if_pos hi, hi]
    exact iff_of_false nofun (Nat.not_le_of_lt leastInfinite_pos)
  · exact ofRatio_infinite_iff hi _

end LineAssist.Binary64
