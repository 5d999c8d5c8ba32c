import PrimScript.Proofs.Decimal.Rounding

/-! Floating point numbers from decimal ones: a number with a few decimal places is rounded to the
nearest floating point number, on the way of exact powers of ten and on that of long division. -/

namespace PrimScript.Decimal

open Float.Model Float.Model.UnpackedFloat

theorem ofFloat_pack (s : Sign) {m : ℕ} {e : ℤ} (hm : 2 ^ 52 ≤ m) (hm' : m < 2 ^ 53)
    (he : -1074 ≤ e) (he' : e ≤ 971) (h : 0 < m) :
    Expansion.ofFloat (.ofModel (.pack (.finite s m e h))) =
      .finite (Expansion.isMinus s) m e := by
  have hbits : Expansion.ofUnpacked (UnpackedFloat.unpack .binary64
      (UnpackedFloat.pack .binary64 (.finite s m e h))) =
        Expansion.ofFloat (.ofModel (.pack (.finite s m e h))) := Expansion.ofUnpacked_unpack _
  rw [← hbits, unpack_pack s hm hm' he he' h, Expansion.ofUnpacked_finite]

theorem neg_pack (s : Sign) {m : ℕ} {e : ℤ} (hm : 2 ^ 52 ≤ m) (hm' : m < 2 ^ 53)
    (he : -1074 ≤ e) (he' : e ≤ 971) (h : 0 < m) :
    -Float.ofModel (.pack (.finite s m e h)) = .ofModel (.pack (.finite (-s) m e h)) := by
  have hneg : -Float.ofModel (.pack (.finite s m e h)) =
      .ofModel (.pack (UnpackedFloat.unpack .binary64
        (UnpackedFloat.pack .binary64 (.finite s m e h))).neg) := rfl
  rw [hneg, unpack_pack s hm hm' he he' h]
  rfl

theorem ofNat_eq {d : ℕ} (hd : 0 < d) (hd' : d < 2 ^ 53) :
    ∃ (k : ℕ) (h : 0 < d * 2 ^ k), 2 ^ 52 ≤ d * 2 ^ k ∧ d * 2 ^ k < 2 ^ 53 ∧ k ≤ 52 ∧
      UnpackedFloat.ofNat .binary64 d = .finite .positive (d * 2 ^ k) (-k) h := by
  have hlog : d.log2 < 53 := (Nat.log2_lt hd.ne').2 hd'
  obtain ⟨k, hk⟩ := Nat.le.dest (show d.log2 ≤ 52 by omega)
  have hlow : 2 ^ 52 ≤ d * 2 ^ k := by
    rw [← hk, pow_add]
    exact Nat.mul_le_mul_right _ (Nat.log2_self_le hd.ne')
  have hhigh : d * 2 ^ k < 2 ^ 53 := by
    rw [show 53 = d.log2 + 1 + k by omega, pow_add]
    exact Nat.mul_lt_mul_of_pos_right Nat.lt_log2_self (by positivity)
  have hpos : 0 < d * 2 ^ k := by positivity
  refine ⟨k, hpos, hlow, hhigh, by omega, ?_⟩
  have htarget : Format.binary64.targetExponent (totalExponent d 0) = -k := by
    have hbits : Format.binary64.mantissaBits = 53 := rfl
    have hmin : Format.binary64.minExponent = -1074 := rfl
    rw [Format.targetExponent, totalExponent, hbits, hmin]
    omega
  have hshift : (0 - -(k : ℤ)).toNat = k := by omega
  have hround : UnpackedFloat.round .binary64 .positive d 0 =
      .finite .positive (d * 2 ^ k) (-k) hpos := by
    rw [UnpackedFloat.round, htarget, decreaseExponent, hshift, Nat.shiftLeft_eq, Int.zero_sub]
    exact roundWithAccuracy_exact _ hlow hhigh (by omega) hpos
  have hcompare : compare (d : ℤ) 0 = .gt := compare_gt_iff_gt.2 (by omega)
  simp only [UnpackedFloat.ofNat, UnpackedFloat.ofInt, UnpackedFloat.normalize, hcompare, Int.toNat_natCast,
    hround]

theorem unpack_of_ofFloat {x : Float} {m : ℕ} {e : ℤ}
    (h : Expansion.ofFloat x = .finite false m e) (hm : 0 < m) :
    x.toModel.unpack = .finite .positive m e hm := by
  have hx : Expansion.ofUnpacked x.toModel.unpack = Expansion.ofFloat x :=
    Expansion.ofUnpacked_unpack x.toBits
  rw [h] at hx
  cases hu : x.toModel.unpack with
  | finite s m' e' hm' =>
    rw [hu, Expansion.ofUnpacked_finite, Expansion.finite.injEq] at hx
    obtain ⟨hs, rfl, rfl⟩ := hx
    cases s with
    | negative => cases hs
    | positive => rfl
  | zero s =>
    rw [hu] at hx
    have hz : Expansion.finite (Expansion.isMinus s) 0 (-1074) = .finite false m e := hx
    rw [Expansion.finite.injEq] at hz
    exact absurd hm (hz.2.1 ▸ Nat.lt_irrefl 0)
  | infinity s =>
    rw [hu] at hx
    exact Expansion.noConfusion hx
  | notANumber =>
    rw [hu] at hx
    exact Expansion.noConfusion hx

theorem ofFloat_powers : ∀ n < 16,
    Float.exactlyRepresentablePowersOfTen[n]?.map Expansion.ofFloat =
      some (.finite false (10 ^ n * 2 ^ (52 - (10 ^ n).log2)) (-(52 - (10 ^ n).log2 : ℕ))) := by
  decide +kernel

section Scientific

variable {d n : ℕ}

theorem le_div_pow (hd : 0 < d) (hn : n < 16) : (2 : ℚ) ^ (-1020 : ℤ) ≤ (d : ℚ) / (10 ^ n : ℕ) := by
  have hd' : (1 : ℚ) ≤ d := by exact_mod_cast hd
  have hn' : ((10 ^ n : ℕ) : ℚ) ≤ 2 ^ 52 := by
    have : 10 ^ n ≤ 10 ^ 15 := Nat.pow_le_pow_right (by decide) (by omega)
    have : 10 ^ n ≤ 2 ^ 52 := this.trans (by decide)
    exact_mod_cast this
  have hpos : (0 : ℚ) < (10 ^ n : ℕ) := by positivity
  rw [le_div_iff₀ hpos]
  calc (2 : ℚ) ^ (-1020 : ℤ) * (10 ^ n : ℕ) ≤ 2 ^ (-52 : ℤ) * 2 ^ 52 := by
        gcongr
        · exact one_le_two
        · decide
    _ = 1 := by norm_num
    _ ≤ d := hd'

theorem toFloat_eq_pack (hd : 0 < d) (hd' : d < 2 ^ 53) :
    ∃ (k : ℕ) (h : 0 < d * 2 ^ k), k ≤ 52 ∧ 2 ^ 52 ≤ d * 2 ^ k ∧ d * 2 ^ k < 2 ^ 53 ∧
      d.toUInt64.toFloat = .ofModel (.pack (.finite .positive (d * 2 ^ k) (-k) h)) := by
  obtain ⟨k, h, hlong, hshort, hk, hof⟩ := ofNat_eq hd hd'
  have hnat : d.toUInt64.toNat = d := by
    rw [Nat.toUInt64_eq, UInt64.toNat_ofNat']
    omega
  have hmodel : d.toUInt64.toFloat =
      .ofModel (.pack (UnpackedFloat.ofNat .binary64 d.toUInt64.toNat)) := rfl
  exact ⟨k, h, hk, hlong, hshort, by rw [hmodel, hnat, hof]⟩

theorem unpack_toFloat (hd : 0 < d) (hd' : d < 2 ^ 53) :
    ∃ (k : ℕ) (h : 0 < d * 2 ^ k), k ≤ 52 ∧
      d.toUInt64.toFloat.toModel.unpack = .finite .positive (d * 2 ^ k) (-k) h := by
  obtain ⟨k, h, hk, hlong, hshort, heq⟩ := toFloat_eq_pack hd hd'
  refine ⟨k, h, hk, ?_⟩
  rw [heq]
  exact unpack_pack _ hlong hshort (by omega) (by omega) h

theorem unpack_power (hn : n < 16) (hi : n < Float.exactlyRepresentablePowersOfTen.size) :
    ∃ (k : ℕ) (h : 0 < 10 ^ n * 2 ^ k), k ≤ 52 ∧
      (Float.exactlyRepresentablePowersOfTen[n]).toModel.unpack =
        .finite .positive (10 ^ n * 2 ^ k) (-k) h := by
  have hpower := ofFloat_powers n hn
  rw [Array.getElem?_eq_getElem hi, Option.map_some, Option.some.injEq] at hpower
  exact ⟨_, by positivity, Nat.sub_le 52 _, unpack_of_ofFloat hpower _⟩

theorem ofScientific_eq_div (hd : 0 < d) (hn : 0 < n) (hn' : n < 16) :
    UnpackedFloat.ofScientific .binary64 d (.negOfNat n) =
      UnpackedFloat.div .binary64 (.finite .positive d 0 hd)
        (.finite .positive (10 ^ n) 0 (Nat.pow_pos (Nat.succ_pos 9))) := by
  have hlarge : ¬ -(n : ℤ) > 2 ^ Format.binary64.exponentBits := by
    change ¬ -(n : ℤ) > 2 ^ 11
    omega
  have hsmall : ¬ -(n : ℤ) < -((2 ^ Format.binary64.exponentBits : ℤ) + d.log2) := by
    change ¬ -(n : ℤ) < -(2 ^ 11 + (d.log2 : ℤ))
    omega
  have hneg : Int.negOfNat n = -(n : ℤ) := Int.negOfNat_eq
  rw [hneg, UnpackedFloat.ofScientific, dif_neg hd.ne', if_neg hlarge, if_neg hsmall,
    if_neg (by omega)]
  simp only [Int.neg_neg, Int.toNat_natCast]

theorem rounded_ofScientific (hd : 0 < d) (hn : 0 < n) (hn' : n < 16) :
    ∃ m e h, Float.ofScientific d true n = .ofModel (.pack (.finite .positive m e h)) ∧
      Rounded ((d : ℚ) / (10 ^ n : ℕ)) m e := by
  have hlow := le_div_pow hd hn'
  unfold Float.ofScientific
  split
  · next hsmall =>
    have hi : n < Float.exactlyRepresentablePowersOfTen.size := by
      rw [show Float.exactlyRepresentablePowersOfTen.size = 23 from rfl]
      omega
    obtain ⟨k, hk, hk52, hx⟩ := unpack_toFloat hd hsmall.1
    obtain ⟨j, hj, hj52, hy⟩ := unpack_power hn' hi
    have hvalue : ((d * 2 ^ k : ℕ) : ℚ) * 2 ^ (-k : ℤ) / ((10 ^ n * 2 ^ j : ℕ) * 2 ^ (-j : ℤ)) =
        (d : ℚ) / (10 ^ n : ℕ) := by
      push_cast
      rw [zpow_neg, zpow_neg, zpow_natCast, zpow_natCast]
      field_simp
    obtain ⟨m, e, h, heq, hrounded⟩ := rounded_div .positive .positive hk hj (by omega)
      (hvalue ▸ hlow)
    rw [hvalue] at hrounded
    refine ⟨m, e, h, ?_, hrounded⟩
    change Float.ofModel (.pack (UnpackedFloat.div .binary64 _ _)) = _
    rw [hx, hy, heq]
    rfl
  · next hlarge =>
    have hvalue : (d : ℚ) * 2 ^ (0 : ℤ) / ((10 ^ n : ℕ) * 2 ^ (0 : ℤ)) =
        (d : ℚ) / (10 ^ n : ℕ) := by simp
    obtain ⟨m, e, h, heq, hrounded⟩ := rounded_div .positive .positive hd
      (Nat.pow_pos (by decide) : 0 < 10 ^ n) (by decide) (hvalue ▸ hlow)
    rw [hvalue] at hrounded
    refine ⟨m, e, h, ?_, hrounded⟩
    change Float.ofModel (.pack (UnpackedFloat.ofScientific .binary64 d (.negOfNat n))) = _
    rw [ofScientific_eq_div hd hn hn', heq]
    rfl

end Scientific

end PrimScript.Decimal
