import Mathlib.Algebra.Order.Field.Power
import Mathlib.Data.Rat.Cast.Order
import Mathlib.Tactic.FieldSimp
import Mathlib.Tactic.Linarith
import Mathlib.Tactic.Positivity
import Mathlib.Tactic.Ring
import PrimScript.Decimal.Expansion

/-! Rounding to the nearest integer, and what becomes of a number that is rounded to a multiple of a
decimal place and from there to a multiple of a power of two. -/

namespace PrimScript.Decimal

/-- `n` is nearest to `v`; it is even if another one is as near. -/
structure Nearest (v : ℚ) (n : ℕ) : Prop where
  low : (n : ℚ) ≤ v + 1 / 2
  high : v ≤ n + 1 / 2
  even : (n : ℚ) = v + 1 / 2 ∨ v = n + 1 / 2 → n % 2 = 0

namespace Nearest

variable {v w : ℚ} {m n : ℕ}

theorem of_lt (hl : (n : ℚ) < v + 1 / 2) (hh : v < n + 1 / 2) : Nearest v n :=
  ⟨hl.le, hh.le, fun h => (h.elim hl.ne hh.ne).elim⟩

theorem natCast (n : ℕ) : Nearest n n := .of_lt (by linarith) (by linarith)

theorem mono (h : Nearest v m) (h' : Nearest w n) (hvw : v ≤ w) : m ≤ n := by
  by_contra hlt
  have hcast : (n : ℚ) + 1 ≤ m := by exact_mod_cast Nat.lt_of_not_le hlt
  have hl := h.low
  have hh := h'.high
  -- nothing is left between them but a half, and it is as near to both
  have hm : (m : ℚ) = v + 1 / 2 := by linarith
  have hn : w = n + 1 / 2 := by linarith
  have hsucc : m = n + 1 := by
    have : (m : ℚ) = n + 1 := by linarith
    exact_mod_cast this
  have hme := h.even (.inl hm)
  have hne := h'.even (.inr hn)
  omega

theorem unique (h : Nearest v m) (h' : Nearest v n) : m = n :=
  Nat.le_antisymm (h.mono h' le_rfl) (h'.mono h le_rfl)

end Nearest

def residue (num den : ℕ) : ℚ := (num % den : ℕ) / den

section Residue

variable (num : ℕ) {den : ℕ}

theorem div_eq_add_residue (hd : 0 < den) :
    (num : ℚ) / den = (num / den : ℕ) + residue num den := by
  have hpos : (0 : ℚ) < den := by exact_mod_cast hd
  have h : (num : ℚ) = den * (num / den : ℕ) + (num % den : ℕ) := by
    exact_mod_cast (Nat.div_add_mod num den).symm
  rw [residue, h]
  field_simp

theorem residue_nonneg : 0 ≤ residue num den := by
  unfold residue
  positivity

theorem residue_eq_zero_iff (hd : 0 < den) : residue num den = 0 ↔ num % den = 0 := by
  have hne : (den : ℚ) ≠ 0 := by exact_mod_cast hd.ne'
  simp [residue, div_eq_zero_iff, hne]

theorem residue_lt_one (hd : 0 < den) : residue num den < 1 := by
  have hpos : (0 : ℚ) < den := by exact_mod_cast hd
  rw [residue, div_lt_one hpos]
  exact_mod_cast Nat.mod_lt num hd

theorem residue_lt_half_iff (hd : 0 < den) : residue num den < 1 / 2 ↔ 2 * (num % den) < den := by
  have hpos : (0 : ℚ) < den := by exact_mod_cast hd
  rw [residue, div_lt_div_iff₀ hpos two_pos, one_mul, mul_comm]
  exact_mod_cast Iff.rfl

theorem half_lt_residue_iff (hd : 0 < den) : 1 / 2 < residue num den ↔ den < 2 * (num % den) := by
  have hpos : (0 : ℚ) < den := by exact_mod_cast hd
  rw [residue, div_lt_div_iff₀ two_pos hpos, one_mul, mul_comm]
  exact_mod_cast Iff.rfl

end Residue

theorem nearest_roundDiv (num : ℕ) {den : ℕ} (hd : 0 < den) :
    Nearest ((num : ℚ) / den) (roundDiv num den) := by
  have hnonneg := @residue_nonneg num den
  have hone := residue_lt_one num hd
  rw [div_eq_add_residue num hd]
  unfold roundDiv
  dsimp only
  split
  · next h =>
    have hhalf := (residue_lt_half_iff num hd).2 h
    exact .of_lt (by linarith) (by linarith)
  · split
    · next h =>
      have hhalf := (half_lt_residue_iff num hd).2 h
      exact .of_lt (by push_cast; linarith) (by push_cast; linarith)
    · next hl hg =>
      have hlow := not_lt.1 (mt (residue_lt_half_iff num hd).1 hl)
      have hhigh := not_lt.1 (mt (half_lt_residue_iff num hd).1 hg)
      rcases Nat.mod_two_eq_zero_or_one (num / den) with hp | hp
      · rw [hp, Nat.add_zero]
        exact ⟨by linarith, by linarith, fun _ => hp⟩
      · rw [hp]
        exact ⟨by push_cast; linarith, by push_cast; linarith, fun _ => by omega⟩

theorem nearest_roundScaled (m : ℕ) (q : ℤ) (s : ℕ) :
    Nearest (m * 2 ^ q * s) (roundScaled m q s) := by
  cases q with
  | ofNat e =>
    have h := Nearest.natCast (m * Nat.pow 2 e * s)
    simpa [roundScaled] using h
  | negSucc e =>
    have hpos : 0 < Nat.pow 2 (e + 1) := Nat.pow_pos (by decide)
    have h := nearest_roundDiv (m * s) hpos
    have hv : (m : ℚ) * 2 ^ Int.negSucc e * s = ((m * s : ℕ) : ℚ) / (Nat.pow 2 (e + 1) : ℕ) := by
      rw [zpow_negSucc]
      push_cast [Nat.pow_eq]
      ring
    rw [hv]
    exact h

section Reread

variable {m r d s : ℕ} {q e : ℤ}

theorem Nearest.of_scaled {n : ℕ} {t w : ℚ} (hw : 1 < w) (hlow : n * w ≤ t * w + 1 / 2)
    (hhigh : t * w ≤ n * w + 1 / 2) : Nearest t n := by
  have hclose : |n - t| * w ≤ 1 / 2 := by
    rw [← abs_of_pos (one_pos.trans hw), ← abs_mul, abs_le]
    constructor <;> linarith
  have hlt : |n - t| < 1 / 2 := by nlinarith [abs_nonneg (n - t)]
  rw [abs_lt] at hlt
  exact .of_lt (by linarith) (by linarith)

theorem exponent_le (hs : 0 < s) (hcoarse : 1 < (s : ℚ) * 2 ^ e) (hm : m < 2 ^ 53)
    (hd : (d : ℚ) ≤ m * 2 ^ q * s + 1 / 2) (hl : (2 : ℚ) ^ (e + 52) ≤ d / s) : e ≤ q := by
  have hspos : (0 : ℚ) < s := by exact_mod_cast hs
  by_contra hlt
  have hm' : (m : ℚ) ≤ 2 ^ 53 - 1 := by
    have : (m : ℚ) + 1 ≤ 2 ^ 53 := by exact_mod_cast hm
    linarith
  have hq : (2 : ℚ) ^ q ≤ 2 ^ e / 2 := by
    rw [div_eq_mul_inv, ← zpow_sub_one₀ (two_ne_zero : (2 : ℚ) ≠ 0)]
    exact zpow_le_zpow_right₀ one_le_two (by omega)
  have hbelow : (m : ℚ) * 2 ^ q * s ≤ (2 ^ 53 - 1) * (2 ^ e / 2) * s := by gcongr
  have habove : (2 : ℚ) ^ e * 2 ^ 52 * s ≤ d := by
    rw [le_div_iff₀ hspos, zpow_add₀ two_ne_zero] at hl
    exact_mod_cast hl
  linarith

/-- A number `m · 2 ^ q` with a mantissa of 53 bits is rounded to a multiple of `1 / s`, which has a
53-bit mantissa `r` and the exponent `e`.  Either the binary places are finer than those of `s`, and
the multiple is not lost; or they are coarser, and the number itself is found again. -/
theorem nearest_reread (hs : 0 < s) (hne : (s : ℚ) * 2 ^ e ≠ 1) (hm : m < 2 ^ 53)
    (hd : Nearest (m * 2 ^ q * s) d) (hl : (2 : ℚ) ^ (e + 52) ≤ d / s)
    (hr : Nearest (d / s / 2 ^ e) r) :
    (s : ℚ) * 2 ^ e < 1 ∧ Nearest (r * 2 ^ e * s) d ∨ (r : ℚ) * 2 ^ e = m * 2 ^ q := by
  have hspos : (0 : ℚ) < s := by exact_mod_cast hs
  have hu : (0 : ℚ) < 2 ^ e := by positivity
  have hdl := hd.low
  have hdh := hd.high
  have hdt : (d : ℚ) = d / s / 2 ^ e * (s * 2 ^ e) := by field_simp
  rcases lt_or_gt_of_ne hne with hfine | hcoarse
  · left
    have hlow := mul_le_mul_of_nonneg_right hr.low (mul_pos hspos hu).le
    have hhigh := mul_le_mul_of_nonneg_right hr.high (mul_pos hspos hu).le
    exact ⟨hfine, .of_lt (by linarith) (by linarith)⟩
  · right
    obtain ⟨k, rfl⟩ := Int.le.dest (exponent_le hs hcoarse hm hdl hl)
    have hk : (m : ℚ) * 2 ^ (e + k) = (m * 2 ^ k : ℕ) * 2 ^ e := by
      rw [zpow_add₀ two_ne_zero]
      push_cast
      rw [zpow_natCast]
      ring
    rw [hk] at hdl hdh ⊢
    have hnear : Nearest (d / s / 2 ^ e) (m * 2 ^ k) :=
      .of_scaled hcoarse (by linarith) (by linarith)
    rw [hr.unique hnear]

end Reread

end PrimScript.Decimal
