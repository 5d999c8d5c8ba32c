import Mathlib
import PrimScript.Proofs.Decimal.Nearest
import PrimScript.Proofs.Decimal.Order

/-! Division of floating point numbers rounds to the nearest one.  A mantissa that is cut off keeps
what is needed for that in two bits, and cutting off more keeps it so. -/

namespace PrimScript.Decimal

open Float.Model Float.Model.UnpackedFloat

/-- The mantissa is `v` rounded down, and the bits tell how `v` lies to the half above it. -/
def Represents (em : ExtendedMantissa) (v : ℚ) : Prop :=
  match em.roundBit, em.stickyBit with
  | false, false => v = em.mantissa
  | false, true => em.mantissa < v ∧ v < em.mantissa + 1 / 2
  | true, false => v = em.mantissa + 1 / 2
  | true, true => em.mantissa + 1 / 2 < v ∧ v < em.mantissa + 1

namespace Represents

variable {em : ExtendedMantissa} {v : ℚ}

theorem bounds (h : Represents em v) : (em.mantissa : ℚ) ≤ v ∧ v < em.mantissa + 1 := by
  obtain ⟨m, round, sticky⟩ := em
  cases round <;> cases sticky <;> simp only [Represents] at h <;> constructor <;> linarith

theorem nearest (h : Represents em v) : Nearest v em.roundedMantissa := by
  obtain ⟨m, round, sticky⟩ := em
  cases round <;> cases sticky <;>
    simp only [Represents, ExtendedMantissa.roundedMantissa, ExtendedMantissa.accuracy,
      Accuracy.roundToNearestEven] at h ⊢
  · rw [h]
    exact .natCast m
  · exact .of_lt (by linarith) (by linarith)
  · rcases Nat.mod_two_eq_zero_or_one m with hp | hp
    · rw [hp]
      exact ⟨by push_cast; linarith, by push_cast; linarith, fun _ => hp⟩
    · rw [hp]
      exact ⟨by push_cast; linarith, by push_cast; linarith, fun _ => by omega⟩
  · exact .of_lt (by push_cast; linarith) (by push_cast; linarith)

theorem shiftRightOne (h : Represents em v) : Represents em.shiftRightOne (v / 2) := by
  obtain ⟨m, round, sticky⟩ := em
  have hm : (m : ℚ) = 2 * (m / 2 : ℕ) + (m % 2 : ℕ) := by exact_mod_cast (Nat.div_add_mod m 2).symm
  rcases Nat.mod_two_eq_zero_or_one m with hp | hp
  · have hbit : (m % 2 != 0) = false := by simp [hp]
    rw [hp, Nat.cast_zero] at hm
    cases round <;> cases sticky <;>
      simp only [Represents, ExtendedMantissa.shiftRightOne, hbit, Bool.or_false,
        Bool.or_true] at h ⊢
    · linarith
    · constructor <;> linarith
    · constructor <;> linarith
    · constructor <;> linarith
  · have hbit : (m % 2 != 0) = true := by simp [hp]
    rw [hp, Nat.cast_one] at hm
    cases round <;> cases sticky <;>
      simp only [Represents, ExtendedMantissa.shiftRightOne, hbit, Bool.or_false,
        Bool.or_true] at h ⊢
    · linarith
    · constructor <;> linarith
    · constructor <;> linarith
    · constructor <;> linarith

theorem shiftRight (h : Represents em v) (k : ℕ) : Represents (em >>> k) (v / 2 ^ k) := by
  change Represents (k.repeat ExtendedMantissa.shiftRightOne em) _
  induction k with
  | zero => simpa [Nat.repeat] using h
  | succ k ih =>
    rw [Nat.repeat, pow_succ, ← div_div]
    exact ih.shiftRightOne

theorem div (a : ℕ) {b : ℕ} (hb : 0 < b) :
    Represents (.ofMantissaAndAccuracy (a / b) (accuracyOfFraction (a % b) b)) ((a : ℚ) / b) := by
  have hone := residue_lt_one a hb
  rw [div_eq_add_residue a hb]
  unfold accuracyOfFraction
  split
  · next hz =>
    have hzero := (residue_eq_zero_iff a hb).2 hz
    simp [Represents, ExtendedMantissa.ofMantissaAndAccuracy, hzero]
  · next hz =>
    have hpos : 0 < residue a b :=
      lt_of_le_of_ne (residue_nonneg a) (Ne.symm (mt (residue_eq_zero_iff a hb).1 hz))
    have hlow := residue_lt_half_iff a hb
    have hhigh := half_lt_residue_iff a hb
    rcases Nat.lt_trichotomy (2 * (a % b)) b with h | h | h
    · rw [Nat.compare_eq_lt.2 h]
      simp only [Represents, ExtendedMantissa.ofMantissaAndAccuracy]
      exact ⟨by linarith, by linarith [hlow.2 h]⟩
    · rw [Nat.compare_eq_eq.2 h]
      simp only [Represents, ExtendedMantissa.ofMantissaAndAccuracy]
      have hle := not_lt.1 (mt hlow.1 h.not_lt)
      have hge := not_lt.1 (mt hhigh.1 h.not_gt)
      linarith
    · rw [Nat.compare_eq_gt.2 h]
      simp only [Represents, ExtendedMantissa.ofMantissaAndAccuracy]
      exact ⟨by linarith [hhigh.2 h], by linarith⟩

end Represents

section Round

variable {m : ℕ} {e : ℤ} {v : ℚ}

/-- A mantissa of 53 bits and its exponent, got from `v` by rounding to the nearest mantissa. -/
structure Rounded (v : ℚ) (m : ℕ) (e : ℤ) : Prop where
  full : 2 ^ 52 ≤ m
  short : m < 2 ^ 53
  least : -1074 ≤ e
  nearest : ∃ (r : ℕ) (k : ℤ), (2 : ℚ) ^ (k + 52) ≤ v ∧ Nearest (v / 2 ^ k) r ∧
    (m : ℚ) * 2 ^ e = r * 2 ^ k ∧ e ≤ k + 1

theorem le_log2_of_full (hm : 2 ^ 52 ≤ m) : 52 ≤ m.log2 := (Nat.le_log2 (by omega)).2 hm

theorem shiftToTargetExponent_eq (hm : 2 ^ 52 ≤ m) (he : -1074 ≤ e) (acc : Accuracy) :
    shiftToTargetExponent .binary64 m e acc =
      (ExtendedMantissa.ofMantissaAndAccuracy m acc >>> (m.log2 - 52), e + (m.log2 - 52 : ℕ)) := by
  have hlog := le_log2_of_full hm
  have htarget : Format.binary64.targetExponent (totalExponent m e) = e + (m.log2 - 52 : ℕ) := by
    have hbits : Format.binary64.mantissaBits = 53 := rfl
    have hmin : Format.binary64.minExponent = -1074 := rfl
    rw [Format.targetExponent, totalExponent, hbits, hmin]
    omega
  have hshift : (e + (m.log2 - 52 : ℕ) - e).toNat = m.log2 - 52 := by omega
  simp only [shiftToTargetExponent, shiftToExponent, htarget, hshift]

theorem mantissa_ofMantissaAndAccuracy (m : ℕ) (acc : Accuracy) :
    (ExtendedMantissa.ofMantissaAndAccuracy m acc).mantissa = m := by
  cases acc with
  | exact => rfl
  | inexact o => cases o <;> rfl

theorem shiftToTargetExponent_rounded (hm : 2 ^ 52 ≤ m) (hm' : m ≤ 2 ^ 53) (he : -1074 ≤ e) :
    ∃ (m' : ℕ) (e' : ℤ), 2 ^ 52 ≤ m' ∧ m' < 2 ^ 53 ∧ (m' : ℚ) * 2 ^ e' = m * 2 ^ e ∧
      (e ≤ e' ∧ e' ≤ e + 1) ∧
      (shiftToTargetExponent .binary64 m e .exact).1.mantissa = m' ∧
      (shiftToTargetExponent .binary64 m e .exact).2 = e' := by
  rw [shiftToTargetExponent_eq hm he]
  rcases Nat.lt_or_eq_of_le hm' with hlt | rfl
  · have hlog : m.log2 = 52 := (Nat.log2_eq_iff (by omega)).2 ⟨hm, hlt⟩
    rw [hlog]
    exact ⟨m, e, hm, hlt, rfl, by omega, rfl, by simp⟩
  · rw [Nat.log2_two_pow]
    refine ⟨2 ^ 52, e + 1, Nat.le_refl _, by decide, ?_, by omega, rfl, rfl⟩
    rw [zpow_add_one₀ two_ne_zero]
    push_cast
    ring

theorem Represents.cut_bounds {acc : Accuracy} (hm : 2 ^ 52 ≤ m)
    (hv : Represents (.ofMantissaAndAccuracy m acc) v) :
    ((2 ^ 52 : ℕ) : ℚ) ≤ v / 2 ^ (m.log2 - 52) ∧ v / 2 ^ (m.log2 - 52) ≤ ((2 ^ 53 : ℕ) : ℚ) := by
  obtain ⟨k, hk⟩ := Nat.le.dest (le_log2_of_full hm)
  obtain ⟨hlow, hhigh⟩ := hv.bounds
  rw [mantissa_ofMantissaAndAccuracy] at hlow hhigh
  rw [show m.log2 - 52 = k by omega]
  constructor
  · have hself : 2 ^ 52 * 2 ^ k ≤ m := by
      rw [← pow_add, hk]
      exact Nat.log2_self_le (by omega)
    have hcast : ((2 ^ 52 : ℕ) : ℚ) * 2 ^ k ≤ m := by exact_mod_cast hself
    rw [le_div_iff₀ (by positivity)]
    exact hcast.trans hlow
  · have hself : m + 1 ≤ 2 ^ 53 * 2 ^ k := by
      rw [← pow_add, show 53 + k = m.log2 + 1 by omega]
      exact Nat.lt_log2_self
    have hcast : (m : ℚ) + 1 ≤ ((2 ^ 53 : ℕ) : ℚ) * 2 ^ k := by exact_mod_cast hself
    rw [div_le_iff₀ (by positivity)]
    exact hhigh.le.trans hcast

theorem rounded_roundWithAccuracy (s : Sign) {acc : Accuracy} (hm : 2 ^ 52 ≤ m) (he : -1074 ≤ e)
    (hv : Represents (.ofMantissaAndAccuracy m acc) (v / 2 ^ e)) :
    ∃ m' e' h, roundWithAccuracy .binary64 s m e acc = .finite s m' e' h ∧ Rounded v m' e' := by
  obtain ⟨hge, hle⟩ := hv.cut_bounds hm
  have hr := (hv.shiftRight (m.log2 - 52)).nearest
  have hrge := (Nearest.natCast (2 ^ 52)).mono hr hge
  have hrle := hr.mono (.natCast (2 ^ 53)) hle
  have hleast : -1074 ≤ e + (m.log2 - 52 : ℕ) := by omega
  obtain ⟨m', e', hfull, hshort, hval, hnext, hm', he'⟩ :=
    shiftToTargetExponent_rounded hrge hrle hleast
  have hpos : 0 < m' := by omega
  have hshift : v / 2 ^ e / 2 ^ (m.log2 - 52) = v / 2 ^ (e + (m.log2 - 52 : ℕ)) := by
    rw [zpow_add₀ two_ne_zero, zpow_natCast, div_div]
  rw [hshift] at hge hr
  refine ⟨m', e', hpos, ?_, hfull, hshort, by omega, _, _, ?_, hr, hval, hnext.2⟩
  · simp only [roundWithAccuracy, shiftToTargetExponent_eq hm he, hm', he']
    rw [dif_neg hpos.ne']
  · rw [le_div_iff₀ (by positivity)] at hge
    rw [zpow_add₀ two_ne_zero, mul_comm]
    exact_mod_cast hge

theorem roundWithAccuracy_exact (s : Sign) (hm : 2 ^ 52 ≤ m) (hm' : m < 2 ^ 53) (he : -1074 ≤ e)
    (h : 0 < m) : roundWithAccuracy .binary64 s m e .exact = .finite s m e h := by
  have hlog : m.log2 = 52 := (Nat.log2_eq_iff (by omega)).2 ⟨hm, hm'⟩
  have hround : (ExtendedMantissa.ofMantissaAndAccuracy m .exact >>> 0).roundedMantissa = m := rfl
  simp only [roundWithAccuracy, shiftToTargetExponent_eq hm he, hlog, Nat.sub_self, hround,
    Nat.cast_zero, Int.add_zero]
  exact dif_neg h.ne'

end Round

section Div

variable {m m₁ m₂ : ℕ} {e e₁ e₂ : ℤ}

theorem totalExponent_bounds (hm : 0 < m) (e : ℤ) :
    (2 : ℚ) ^ (totalExponent m e - 1) ≤ m * 2 ^ e ∧ (m : ℚ) * 2 ^ e < 2 ^ totalExponent m e := by
  have hlow : ((2 ^ m.log2 : ℕ) : ℚ) ≤ m := by exact_mod_cast Nat.log2_self_le hm.ne'
  have hhigh : (m : ℚ) < (2 ^ (m.log2 + 1) : ℕ) := by exact_mod_cast Nat.lt_log2_self
  have hpos : (0 : ℚ) < 2 ^ e := by positivity
  constructor
  · rw [totalExponent, show (m.log2 : ℤ) + 1 + e - 1 = m.log2 + e by ring,
      zpow_add₀ two_ne_zero, zpow_natCast]
    exact mul_le_mul_of_nonneg_right (by exact_mod_cast hlow) hpos.le
  · rw [totalExponent, zpow_add₀ two_ne_zero]
    exact mul_lt_mul_of_pos_right (by exact_mod_cast hhigh) hpos

theorem quotient_bounds (h₁ : 0 < m₁) (h₂ : 0 < m₂) (e₁ e₂ : ℤ) :
    (2 : ℚ) ^ (totalExponent m₁ e₁ - totalExponent m₂ e₂ - 1) ≤ m₁ * 2 ^ e₁ / (m₂ * 2 ^ e₂) ∧
      (m₁ : ℚ) * 2 ^ e₁ / (m₂ * 2 ^ e₂) < 2 ^ (totalExponent m₁ e₁ - totalExponent m₂ e₂ + 1) := by
  obtain ⟨hlow₁, hhigh₁⟩ := totalExponent_bounds h₁ e₁
  obtain ⟨hlow₂, hhigh₂⟩ := totalExponent_bounds h₂ e₂
  generalize totalExponent m₁ e₁ = t₁ at hlow₁ hhigh₁
  generalize totalExponent m₂ e₂ = t₂ at hlow₂ hhigh₂
  have hm₂ : (0 : ℚ) < m₂ := by exact_mod_cast h₂
  have hden : (0 : ℚ) < m₂ * 2 ^ e₂ := by positivity
  constructor
  · rw [le_div_iff₀ hden]
    calc (2 : ℚ) ^ (t₁ - t₂ - 1) * (m₂ * 2 ^ e₂) ≤ 2 ^ (t₁ - t₂ - 1) * 2 ^ t₂ := by gcongr
      _ = 2 ^ (t₁ - 1) := by rw [← zpow_add₀ two_ne_zero]; congr 1; ring
      _ ≤ m₁ * 2 ^ e₁ := hlow₁
  · rw [div_lt_iff₀ hden]
    calc (m₁ : ℚ) * 2 ^ e₁ < 2 ^ t₁ := hhigh₁
      _ = 2 ^ (t₁ - t₂ + 1) * 2 ^ (t₂ - 1) := by rw [← zpow_add₀ two_ne_zero]; congr 1; ring
      _ ≤ 2 ^ (t₁ - t₂ + 1) * (m₂ * 2 ^ e₂) := by gcongr

theorem rounded_div (s₁ s₂ : Sign) (h₁ : 0 < m₁) (h₂ : 0 < m₂) (he : -1074 ≤ e₁ - e₂)
    (hv : (2 : ℚ) ^ (-1020 : ℤ) ≤ m₁ * 2 ^ e₁ / (m₂ * 2 ^ e₂)) :
    ∃ m e h, UnpackedFloat.div .binary64 (.finite s₁ m₁ e₁ h₁) (.finite s₂ m₂ e₂ h₂) =
        .finite (s₁ / s₂) m e h ∧ Rounded (m₁ * 2 ^ e₁ / (m₂ * 2 ^ e₂)) m e := by
  obtain ⟨hlower, hupper⟩ := quotient_bounds h₁ h₂ e₁ e₂
  obtain ⟨t₁, ht₁⟩ : ∃ t, totalExponent m₁ e₁ = t := ⟨_, rfl⟩
  obtain ⟨t₂, ht₂⟩ : ∃ t, totalExponent m₂ e₂ = t := ⟨_, rfl⟩
  rw [ht₁, ht₂] at hlower hupper
  have ht : -1020 < t₁ - t₂ + 1 := (zpow_lt_zpow_iff_right₀ one_lt_two).1 (hv.trans_lt hupper)
  generalize hvdef : (m₁ : ℚ) * 2 ^ e₁ / (m₂ * 2 ^ e₂) = v at hlower
  -- the exponent that the quotient is taken at, and the places that the dividend is moved for it
  obtain ⟨t, hmin⟩ : ∃ t, min (e₁ - e₂) (Format.binary64.targetExponent (t₁ - t₂)) = t := ⟨_, rfl⟩
  have hbounds : -1074 ≤ t ∧ t ≤ e₁ - e₂ ∧ t + 53 ≤ t₁ - t₂ := by
    have hbits : Format.binary64.mantissaBits = 53 := rfl
    have hleast : Format.binary64.minExponent = -1074 := rfl
    rw [Format.targetExponent, hbits, hleast] at hmin
    omega
  obtain ⟨hleast, hte, htt⟩ := hbounds
  obtain ⟨k, hk⟩ := Int.le.dest hte
  have hshift : (e₁ - e₂ - t).toNat = k := by omega
  have hvalue : v / 2 ^ t = ((m₁ * 2 ^ k : ℕ) : ℚ) / m₂ := by
    rw [← hvdef, show e₁ = e₂ + t + k by omega, zpow_add₀ two_ne_zero, zpow_add₀ two_ne_zero]
    push_cast
    rw [zpow_natCast]
    field_simp
  have hlong : 2 ^ 52 ≤ m₁ * 2 ^ k / m₂ := by
    have hq : (2 : ℚ) ^ 52 ≤ ((m₁ * 2 ^ k : ℕ) : ℚ) / m₂ := by
      rw [← hvalue, le_div_iff₀ (by positivity)]
      calc (2 : ℚ) ^ 52 * 2 ^ t = 2 ^ (52 + t) := by
            rw [zpow_add₀ two_ne_zero]
            rfl
        _ ≤ 2 ^ (t₁ - t₂ - 1) := zpow_le_zpow_right₀ one_le_two (by omega)
        _ ≤ v := hlower
    have hm₂ : (0 : ℚ) < m₂ := by exact_mod_cast h₂
    rw [Nat.le_div_iff_mul_le h₂]
    rw [le_div_iff₀ hm₂] at hq
    exact_mod_cast hq
  have hrep := hvalue ▸ Represents.div (m₁ * 2 ^ k) h₂
  obtain ⟨m', e', hpos, heq, hrounded⟩ := rounded_roundWithAccuracy (s₁ / s₂) hlong hleast hrep
  refine ⟨m', e', hpos, ?_, hrounded⟩
  simp only [UnpackedFloat.div, divCore, ht₁, ht₂, hmin, hshift, Nat.shiftLeft_eq]
  exact heq

end Div

theorem unpack_pack (s : Sign) {m : ℕ} {e : ℤ} (hm : 2 ^ 52 ≤ m) (hm' : m < 2 ^ 53)
    (he : -1074 ≤ e) (he' : e ≤ 971) (h : 0 < m) :
    UnpackedFloat.unpack .binary64 (UnpackedFloat.pack .binary64 (.finite s m e h)) =
      .finite s m e h := by
  have hlog : m.log2 = 52 := (Nat.log2_eq_iff (by omega)).2 ⟨hm, hm'⟩
  obtain ⟨k, rfl⟩ := Int.le.dest he
  have hbiased : ((-1074 + k : ℤ) + Format.binary64.exponentBias +
      Format.binary64.mantissaBitsWithoutImplicit).toNat = k + 1 := by
    change ((-1074 + k : ℤ) + 1023 + 52).toNat = k + 1
    omega
  have hsmall : ¬ 2 ^ Format.binary64.exponentBits ≤ k + 1 + 1 := by
    change ¬ 2 ^ 11 ≤ k + 1 + 1
    omega
  have hpack : UnpackedFloat.pack .binary64 (.finite s m (-1074 + k) h) =
      packComponents .binary64 s (BitVec.ofNat 11 (k + 1)) (BitVec.ofNat 52 m) := by
    simp only [UnpackedFloat.pack, hbiased, if_neg hsmall, hlog]
    rfl
  have hexp : (BitVec.ofNat 11 (k + 1)).toNat = k + 1 := by
    rw [BitVec.toNat_ofNat, Nat.mod_eq_of_lt (by omega)]
  have hne {b : BitVec 11} (hb : k + 1 ≠ b.toNat) : BitVec.ofNat 11 (k + 1) ≠ b :=
    fun heq => hb (by rw [← heq, hexp])
  have hall : BitVec.ofNat 11 (k + 1) ≠ -1#11 := by
    refine hne ?_
    change k + 1 ≠ 2047
    omega
  have hno : BitVec.ofNat 11 (k + 1) ≠ 0#11 := hne (Nat.succ_ne_zero k)
  have hmant : (1#1 ++ BitVec.ofNat 52 m).toNat = m := by
    rw [Expansion.toNat_one_append, BitVec.toNat_ofNat, show Nat.pow 2 52 = 2 ^ 52 from rfl]
    omega
  rw [hpack]
  simp only [UnpackedFloat.unpack, unpackExponent_packComponents, unpackMantissa_packComponents,
    unpackSign_packComponents, if_neg hall, if_neg hno, Sign.ofBitVec_toBitVec]
  congr 1
  rw [hexp]
  change ((k + 1 : ℕ) : ℤ) - (1023 + 52) = _
  omega

end PrimScript.Decimal
