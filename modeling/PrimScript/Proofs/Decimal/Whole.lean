import PrimScript.Proofs.Decimal.Order
import PrimScript.Proofs.Decimal.Scientific
import PrimScript.Value.Basic

/-! The floating point numbers that are equal to integers.  A natural number of at most 53 bits fills up the
mantissa with zeros, and so keeps its place among the others; the sign of an integer is put before its size.
So integers of 32 bits compare as their floats do. -/

namespace PrimScript

namespace Decimal

open Float.Model Float.Model.UnpackedFloat Expansion

section Natural

variable {c d : ℕ}

theorem canonical_shifted {k : ℕ} (hk : k ≤ 52) (hlong : 2 ^ 52 ≤ d * 2 ^ k) (hshort : d * 2 ^ k < 2 ^ 53) :
    Canonical (d * 2 ^ k) (-k) :=
  ⟨hshort, by omega, by omega, .inl hlong⟩

def wholePlace (d : ℕ) : ℤ := (ofFloat d.toUInt64.toFloat).place?.getD 0

theorem wholePlace_zero : wholePlace 0 = 0 := by decide +kernel

theorem place?_signed (negative : Bool) (hd : 0 < d) (hd' : d < 2 ^ 53) :
    ∃ k : ℕ, Canonical (d * 2 ^ k) (-k) ∧ 2 ^ 52 ≤ d * 2 ^ k ∧ wholePlace d = weight (d * 2 ^ k) (-k) ∧
      (ofFloat (if negative then -d.toUInt64.toFloat else d.toUInt64.toFloat)).place? =
        some (withSign negative (wholePlace d)) := by
  obtain ⟨k, h, hk, hlong, hshort, heq⟩ := toFloat_eq_pack hd hd'
  have hpositive : ofFloat d.toUInt64.toFloat = .finite false (d * 2 ^ k) (-k) := by
    rw [heq, ofFloat_pack .positive hlong hshort (by omega) (by omega)]
    rfl
  have hnegative : ofFloat (-d.toUInt64.toFloat) = .finite true (d * 2 ^ k) (-k) := by
    rw [heq, neg_pack .positive hlong hshort (by omega) (by omega),
      ofFloat_pack (-.positive) hlong hshort (by omega) (by omega)]
    rfl
  have hplace : wholePlace d = weight (d * 2 ^ k) (-k) := by
    rw [wholePlace, hpositive]
    rfl
  refine ⟨k, canonical_shifted hk hlong hshort, hlong, hplace, ?_⟩
  cases negative with
  | true => rw [if_pos rfl, hnegative, hplace, place?]
  | false => rw [if_neg Bool.false_ne_true, hpositive, hplace, place?]

theorem wholePlace_pos (hd : 0 < d) (hd' : d < 2 ^ 53) : 0 < wholePlace d := by
  obtain ⟨k, hcanonical, -, hplace, -⟩ := place?_signed false hd hd'
  rw [hplace, hcanonical.weight_pos_iff]
  positivity

theorem wholePlace_lt (h : c < d) (hd : d < 2 ^ 53) : wholePlace c < wholePlace d := by
  rcases Nat.eq_zero_or_pos c with rfl | hc
  · rw [wholePlace_zero]
    exact wholePlace_pos h hd
  obtain ⟨j, hcanonical, hlong, hplace, -⟩ := place?_signed false hc (h.trans hd)
  obtain ⟨k, hcanonical', -, hplace', -⟩ := place?_signed false (hc.trans h) hd
  rw [hplace, hplace', hcanonical.weight_lt_weight_iff hcanonical']
  -- the lesser number is filled up with at least as many zeros
  have hkj : k ≤ j := by
    by_contra hlt
    have hpow : 2 ^ (j + 1) ≤ 2 ^ k := Nat.pow_le_pow_right Nat.two_pos (by omega)
    have hmul : c * 2 ^ (j + 1) ≤ d * 2 ^ k := Nat.mul_le_mul h.le hpow
    have := hcanonical'.short
    rw [Nat.pow_succ, ← Nat.mul_assoc] at hmul
    omega
  rcases Nat.lt_or_eq_of_le hkj with hlt | rfl
  · exact .inl (by omega)
  · exact .inr ⟨rfl, Nat.mul_lt_mul_of_pos_right h (by positivity)⟩

end Natural

def signedPlace (z : ℤ) : ℤ := withSign (z < 0) (wholePlace z.natAbs)

theorem signedPlace_lt {y z : ℤ} (h : y < z) (hy : y.natAbs < 2 ^ 53) (hz : z.natAbs < 2 ^ 53) :
    signedPlace y < signedPlace z := by
  have hnonneg {d : ℕ} (hd : d < 2 ^ 53) : 0 ≤ wholePlace d := by
    rcases Nat.eq_zero_or_pos d with rfl | hpos
    · rw [wholePlace_zero]
    · exact (wholePlace_pos hpos hd).le
  unfold signedPlace withSign
  by_cases hz0 : z < 0
  · have hlt := wholePlace_lt (show z.natAbs < y.natAbs by omega) hy
    simp only [h.trans hz0, hz0, decide_true, if_true]
    omega
  · by_cases hy0 : y < 0
    · have hpos := wholePlace_pos (show 0 < y.natAbs by omega) hy
      have := hnonneg hz
      simp only [hy0, hz0, decide_true, decide_false, if_true, Bool.false_eq_true, if_false]
      omega
    · have hlt := wholePlace_lt (show y.natAbs < z.natAbs by omega) hz
      simpa only [hy0, hz0, decide_false, Bool.false_eq_true, if_false] using hlt

end Decimal

namespace Value

open Decimal Expansion

theorem natAbs_toInt_lt (n : Int32) : n.toInt.natAbs < 2 ^ 53 := by
  have := n.le_toInt
  have := n.toInt_lt
  omega

theorem place?_floatOf (n : Int32) : (ofFloat (floatOf n)).place? = some (signedPlace n.toInt) := by
  have hneg : n < 0 ↔ n.toInt < 0 := Int32.lt_iff_toInt_lt
  unfold floatOf signedPlace
  rcases Nat.eq_zero_or_pos n.toInt.natAbs with h | h
  · have hnot : ¬ n.toInt < 0 := by omega
    simp only [hneg, h, hnot, if_false, decide_false, wholePlace_zero]
    decide +kernel
  · obtain ⟨k, -, -, -, hplace⟩ := place?_signed (n.toInt < 0) h (natAbs_toInt_lt n)
    simpa only [hneg, decide_eq_true_eq] using hplace

theorem floatOf_lt_floatOf_iff (a b : Int32) : floatOf a < floatOf b ↔ a < b := by
  have hplaces {a b : Int32} (h : a.toInt < b.toInt) : signedPlace a.toInt < signedPlace b.toInt :=
    signedPlace_lt h (natAbs_toInt_lt a) (natAbs_toInt_lt b)
  simp only [lt_iff_place?, place?_floatOf, Option.mem_def, Option.some.injEq, exists_eq_left',
    Int32.lt_iff_toInt_lt]
  refine ⟨fun h => ?_, hplaces⟩
  rcases lt_trichotomy a.toInt b.toInt with hlt | heq | hgt
  · exact hlt
  · rw [heq] at h
    exact absurd h (lt_irrefl _)
  · exact absurd h (hplaces hgt).asymm

end Value

end PrimScript
