import Mathlib.Tactic.Ring
import PrimScript.Decimal.Expansion

/-! Comparisons of floating point numbers, by their expansions.  Of two positive ones the exponents decide,
and the mantissas if those are the same, since a mantissa is as long as its exponent allows. -/

namespace PrimScript.Decimal

open Float.Model

namespace Expansion

def isMinus : UnpackedFloat.Sign → Bool
  | .negative => true
  | .positive => false

/-- The expansion of an unpacked number; a zero has the least exponent. -/
def ofUnpacked : UnpackedFloat → Expansion
  | .notANumber => .nan
  | .infinity s => .infinite (isMinus s)
  | .zero s => .finite (isMinus s) 0 (-1074)
  | .finite s m q _ => .finite (isMinus s) m q

theorem ofUnpacked_finite (s : UnpackedFloat.Sign) (m : Nat) (q : Int) (hm : 0 < m) :
    ofUnpacked (.finite s m q hm) = .finite (isMinus s) m q := rfl

section Fields

variable (b : UInt64)

theorem toNat_fraction : (b &&& 0xFFFFFFFFFFFFF).toNat = b.toNat % 2 ^ 52 := by
  have h := Nat.and_two_pow_sub_one_eq_mod b.toNat 52
  simpa [UInt64.toNat_and] using h

theorem toNat_exponent : ((b >>> 52) &&& 0x7FF).toNat = b.toNat / 2 ^ 52 % 2 ^ 11 := by
  have h := Nat.and_two_pow_sub_one_eq_mod (b.toNat / 2 ^ 52) 11
  simpa [UInt64.toNat_and, Nat.shiftRight_eq_div_pow] using h

theorem toNat_unpackMantissa :
    (@UnpackedFloat.unpackMantissa .binary64 b.toBitVec).toNat =
      (b &&& 0xFFFFFFFFFFFFF).toNat := by
  rw [toNat_fraction]
  simp [UnpackedFloat.unpackMantissa]

theorem toNat_unpackExponent :
    (@UnpackedFloat.unpackExponent .binary64 b.toBitVec).toNat =
      ((b >>> 52) &&& 0x7FF).toNat := by
  rw [toNat_exponent]
  simp [UnpackedFloat.unpackExponent, Nat.shiftRight_eq_div_pow]

theorem toNat_one_append {n : Nat} (v : BitVec n) : (1#1 ++ v).toNat = v.toNat + Nat.pow 2 n := by
  rw [BitVec.toNat_append, ← Nat.shiftLeft_add_eq_or_of_lt v.isLt, Nat.shiftLeft_eq, Nat.add_comm]
  simp

theorem isMinus_unpackSign :
    isMinus (.ofBitVec (@UnpackedFloat.unpackSign .binary64 b.toBitVec)) =
      (b >>> 63 == 1) := by
  have hv : (@UnpackedFloat.unpackSign .binary64 b.toBitVec).toNat =
      b.toNat / 2 ^ 63 % 2 := by
    change (BitVec.extractLsb' 63 1 b.toBitVec).toNat = _
    simp [Nat.shiftRight_eq_div_pow]
  have hb : (b >>> 63).toNat = b.toNat / 2 ^ 63 := by simp [Nat.shiftRight_eq_div_pow]
  have hlt := b.toNat_lt
  rw [UnpackedFloat.Sign.ofBitVec, Bool.eq_iff_iff, beq_iff_eq, ← UInt64.toNat_inj, hb]
  split
  · next h =>
    rw [h] at hv
    have hz : b.toNat / 2 ^ 63 % 2 = 0 := hv.symm
    simp only [isMinus, Bool.false_eq_true, UInt64.toNat_one, false_iff]
    omega
  · next h =>
    have hz : b.toNat / 2 ^ 63 % 2 ≠ 0 := by
      rw [← hv]
      exact fun h0 => h (BitVec.toNat_inj.1 h0)
    simp only [isMinus, UInt64.toNat_one, true_iff]
    omega

theorem ofUnpacked_unpack :
    ofUnpacked (UnpackedFloat.unpack Format.binary64 b.toBitVec) = ofBits b := by
  have hall : @UnpackedFloat.unpackExponent .binary64 b.toBitVec = -1#11 ↔
      ((b >>> 52) &&& 0x7FF).toNat = 0x7FF := by rw [← toNat_unpackExponent, ← BitVec.toNat_inj]; rfl
  have hno : @UnpackedFloat.unpackExponent .binary64 b.toBitVec = 0#11 ↔
      ((b >>> 52) &&& 0x7FF).toNat = 0 := by rw [← toNat_unpackExponent, ← BitVec.toNat_inj]; rfl
  have hm : @UnpackedFloat.unpackMantissa .binary64 b.toBitVec = 0#52 ↔
      (b &&& 0xFFFFFFFFFFFFF).toNat = 0 := by rw [← toNat_unpackMantissa, ← BitVec.toNat_inj]; rfl
  unfold UnpackedFloat.unpack ofBits
  dsimp only
  rw [← isMinus_unpackSign]
  -- both sides ask for the exponent first, and then for the mantissa
  by_cases he : ((b >>> 52) &&& 0x7FF).toNat = 0x7FF
  · rw [if_pos (hall.2 he), if_pos he]
    by_cases hz : (b &&& 0xFFFFFFFFFFFFF).toNat = 0
    · rw [if_pos (hm.2 hz), if_pos hz]
      rfl
    · rw [if_neg (mt hm.1 hz), if_neg hz]
      rfl
  · rw [if_neg (mt hall.1 he), if_neg he]
    by_cases hs : ((b >>> 52) &&& 0x7FF).toNat = 0
    · rw [if_pos (hno.2 hs), if_pos hs]
      by_cases hz : (b &&& 0xFFFFFFFFFFFFF).toNat = 0
      · rw [dif_pos (hm.2 hz), hz]
        rfl
      · rw [dif_neg (mt hm.1 hz), ofUnpacked_finite, toNat_unpackMantissa, toNat_unpackExponent, hs]
        rfl
    · rw [if_neg (mt hno.1 hs), if_neg hs, ofUnpacked_finite, toNat_one_append,
        toNat_unpackMantissa, toNat_unpackExponent]
      rfl

end Fields

/-- A mantissa as long as its exponent allows, and an exponent in its bounds. -/
structure Canonical (m : Nat) (q : Int) : Prop where
  short : m < 2 ^ 53
  least : -1074 ≤ q
  greatest : q ≤ 971
  full : 2 ^ 52 ≤ m ∨ q = -1074

/-- The place of `m · 2 ^ q` among the numbers that are not negative. -/
def weight (m : Nat) (q : Int) : Int := (q + 1074) * 2 ^ 52 + m

def bound : Int := 2047 * 2 ^ 52

section Weight

variable {m n : Nat} {q r : Int}

theorem Canonical.weight_nonneg (h : Canonical m q) : 0 ≤ weight m q := by
  have := h.least
  unfold weight
  omega

theorem Canonical.weight_pos_iff (h : Canonical m q) : 0 < weight m q ↔ 0 < m := by
  have := h.least
  have := h.full
  unfold weight
  omega

theorem Canonical.weight_lt (h : Canonical m q) : weight m q < bound := by
  have := h.greatest
  have := h.short
  unfold weight bound
  omega

theorem Canonical.weight_lt_weight_iff (h : Canonical m q) (h' : Canonical n r) :
    weight m q < weight n r ↔ q < r ∨ q = r ∧ m < n := by
  obtain ⟨hm, hq, -, hf⟩ := h
  obtain ⟨hn, hr, -, hf'⟩ := h'
  unfold weight
  omega

theorem compare_weight (h : Canonical m q) (h' : Canonical n r) :
    compare (weight m q) (weight n r) = (compare q r).then (compare m n) := by
  rcases lt_trichotomy q r with hlt | rfl | hgt
  · rw [compare_lt_iff_lt.2 hlt]
    exact compare_lt_iff_lt.2 ((h.weight_lt_weight_iff h').2 (.inl hlt))
  · have he : compare q q = .eq := Int.compare_eq_eq.2 rfl
    rw [he, Ordering.then]
    rcases lt_trichotomy m n with hlt | rfl | hgt
    · rw [compare_lt_iff_lt.2 hlt]
      exact compare_lt_iff_lt.2 ((h.weight_lt_weight_iff h').2 (.inr ⟨rfl, hlt⟩))
    · rw [Nat.compare_eq_eq.2 rfl]
      exact compare_eq_iff_eq.2 rfl
    · rw [compare_gt_iff_gt.2 hgt]
      exact compare_gt_iff_gt.2 ((h'.weight_lt_weight_iff h).2 (.inr ⟨rfl, hgt⟩))
  · rw [compare_gt_iff_gt.2 hgt]
    exact compare_gt_iff_gt.2 ((h'.weight_lt_weight_iff h).2 (.inl hgt))

end Weight

def withSign (negative : Bool) (size : Int) : Int := if negative then -size else size

section WithSign

variable {size larger : Int} (negative negative' : Bool)

theorem compare_larger (h : 0 ≤ size) (hl : size < larger) :
    compare (withSign negative larger) (withSign negative' size) = if negative then .lt else .gt := by
  cases negative with
  | true => exact compare_lt_iff_lt.2 (by cases negative' <;> simp [withSign] <;> omega)
  | false => exact compare_gt_iff_gt.2 (by cases negative' <;> simp [withSign] <;> omega)

theorem compare_smaller (h : 0 ≤ size) (hl : size < larger) :
    compare (withSign negative' size) (withSign negative larger) = if negative then .gt else .lt := by
  cases negative with
  | true => exact compare_gt_iff_gt.2 (by cases negative' <;> simp [withSign] <;> omega)
  | false => exact compare_lt_iff_lt.2 (by cases negative' <;> simp [withSign] <;> omega)

theorem compare_neg (i j : Int) : compare (-i) (-j) = (compare i j).swap := by
  rcases lt_trichotomy i j with hlt | rfl | hgt
  · rw [compare_lt_iff_lt.2 hlt]
    exact compare_gt_iff_gt.2 (by omega)
  · rw [Int.compare_eq_eq.2 rfl, Int.compare_eq_eq.2 rfl]
    rfl
  · rw [compare_gt_iff_gt.2 hgt]
    exact compare_lt_iff_lt.2 (by omega)

end WithSign

def place? : Expansion → Option Int
  | .nan => none
  | .infinite negative => some (withSign negative bound)
  | .finite negative m q => some (withSign negative (weight m q))

section Finite

variable {b : UInt64} {negative : Bool} {m : Nat} {q : Int}

theorem finite_of_ofBits (h : ofBits b = .finite negative m q) :
    Canonical m q ∧ negative = (b >>> 63 == 1) ∧ weight m q = (b.toNat % 2 ^ 63 : Nat) := by
  have hp : Nat.pow 2 52 = 2 ^ 52 := rfl
  unfold ofBits at h
  dsimp only at h
  rw [toNat_exponent, toNat_fraction, hp] at h
  split at h
  · split at h <;> cases h
  · split at h
    · cases h
      exact ⟨⟨by omega, by omega, by omega, .inr rfl⟩, rfl, by unfold weight; omega⟩
    · cases h
      exact ⟨⟨by omega, by omega, by omega, .inl (by omega)⟩, rfl, by unfold weight; omega⟩

theorem infinite_of_ofBits (h : ofBits b = .infinite negative) :
    negative = (b >>> 63 == 1) ∧ bound = (b.toNat % 2 ^ 63 : Nat) := by
  unfold ofBits at h
  dsimp only at h
  rw [toNat_exponent, toNat_fraction] at h
  split at h
  · split at h
    · cases h
      exact ⟨rfl, by unfold bound; omega⟩
    · cases h
  · split at h <;> cases h

theorem eq_withSign_of_place? {i : Int} (h : (ofBits b).place? = some i) :
    i = withSign (b >>> 63 == 1) (b.toNat % 2 ^ 63 : Nat) := by
  cases hb : ofBits b with
  | nan =>
    rw [hb] at h
    cases h
  | infinite negative =>
    obtain ⟨rfl, hw⟩ := infinite_of_ofBits hb
    rw [hb] at h
    cases h
    rw [hw]
  | finite negative m q =>
    obtain ⟨-, rfl, hw⟩ := finite_of_ofBits hb
    rw [hb] at h
    cases h
    rw [hw]

end Finite

def Fits : UnpackedFloat → Prop
  | .finite _ m q _ => Canonical m q
  | _ => True

theorem fits_unpack (x : Float) : Fits x.toModel.unpack := by
  have h : ofUnpacked x.toModel.unpack = ofBits x.toBits := ofUnpacked_unpack x.toBits
  generalize x.toModel.unpack = u at h
  cases u with
  | finite s m q hm => exact (finite_of_ofBits h.symm).1
  | _ => trivial

theorem compare_eq {u v : UnpackedFloat} (hu : Fits u) (hv : Fits v) :
    u.compare v = (place? (ofUnpacked u)).bind fun i =>
      (place? (ofUnpacked v)).map fun j => compare i j := by
  cases u with
  | notANumber => rfl
  | infinity s =>
    cases v with
    | finite t n r hn =>
      have h := compare_larger (isMinus s) (isMinus t) hv.weight_nonneg hv.weight_lt
      cases s <;> cases t <;> exact congrArg some h.symm
    | notANumber => cases s <;> rfl
    | _ t => cases s <;> cases t <;> rfl
  | zero s =>
    cases v with
    | finite t n r hn =>
      have h := compare_smaller (isMinus t) (isMinus s) (Int.le_refl 0) (hv.weight_pos_iff.2 hn)
      cases s <;> cases t <;> exact congrArg some h.symm
    | notANumber => cases s <;> rfl
    | _ t => cases s <;> cases t <;> rfl
  | finite s m q hm =>
    have hpos := hu.weight_pos_iff.2 hm
    cases v with
    | notANumber => cases s <;> rfl
    | infinity t =>
      have h := compare_smaller (isMinus t) (isMinus s) hu.weight_nonneg hu.weight_lt
      cases s <;> cases t <;> exact congrArg some h.symm
    | zero t =>
      have h := compare_larger (isMinus s) (isMinus t) (Int.le_refl 0) hpos
      cases s <;> cases t <;> exact congrArg some h.symm
    | finite t n r hn =>
      have hpos' := hv.weight_pos_iff.2 hn
      -- of two negative numbers the greater one has the lesser weight
      have hw := compare_weight hu hv
      have hs : compare (-weight m q) (-weight n r) = ((compare q r).then (compare m n)).swap := by
        rw [compare_neg, hw]
      have hl : compare (-weight m q) (weight n r) = .lt := compare_lt_iff_lt.2 (by omega)
      have hg : compare (weight m q) (-weight n r) = .gt := compare_gt_iff_gt.2 (by omega)
      cases s <;> cases t
      · exact congrArg some hs.symm
      · exact congrArg some hl.symm
      · exact congrArg some hg.symm
      · exact congrArg some hw.symm

theorem lt_iff_place? (x y : Float) :
    x < y ↔ ∃ i ∈ (ofFloat x).place?, ∃ j ∈ (ofFloat y).place?, i < j := by
  have hx : ofUnpacked x.toModel.unpack = ofFloat x := ofUnpacked_unpack x.toBits
  have hy : ofUnpacked y.toModel.unpack = ofFloat y := ofUnpacked_unpack y.toBits
  have hlt : x < y ↔ x.toModel.unpack.compare y.toModel.unpack == some .lt := by
    change decide (x.toModel < y.toModel) = true ↔ _
    rw [decide_eq_true_iff]
    rfl
  rw [hlt, compare_eq (fits_unpack x) (fits_unpack y), hx, hy]
  cases (ofFloat x).place? with
  | none => simp
  | some i =>
    cases (ofFloat y).place? with
    | none => simp
    | some j => simp [compare_lt_iff_lt]

theorem isNaN_iff (x : Float) : x.isNaN = true ↔ (ofFloat x).place? = none := by
  have hx : ofUnpacked x.toModel.unpack = ofFloat x := ofUnpacked_unpack x.toBits
  have hn : x.isNaN = x.toModel.unpack.isNaN := rfl
  rw [hn, ← hx]
  cases x.toModel.unpack with
  | notANumber => exact ⟨fun _ => rfl, fun _ => rfl⟩
  | _ => exact ⟨fun h => (nomatch h), fun h => nomatch h⟩

section Trans

variable {x y z : Float}

protected theorem lt_trans (h : x < y) (h' : y < z) : x < z := by
  obtain ⟨i, hi, j, hj, hij⟩ := (lt_iff_place? x y).1 h
  obtain ⟨j', hj', k, hk, hjk⟩ := (lt_iff_place? y z).1 h'
  obtain rfl := Option.mem_unique hj hj'
  exact (lt_iff_place? x z).2 ⟨i, hi, k, hk, Int.lt_trans hij hjk⟩

protected theorem lt_of_not_lt_of_lt (hx : x.isNaN = false) (h : ¬ y < x) (h' : y < z) : x < z := by
  obtain ⟨j, hj, k, hk, hjk⟩ := (lt_iff_place? y z).1 h'
  obtain ⟨i, hi⟩ : ∃ i, (ofFloat x).place? = some i := by
    rw [← Option.ne_none_iff_exists', ne_eq, ← isNaN_iff, hx]
    exact Bool.false_ne_true
  have hij : i ≤ j := Int.not_lt.1 fun hji => h ((lt_iff_place? y x).2 ⟨j, hj, i, hi, hji⟩)
  exact (lt_iff_place? x z).2 ⟨i, hi, k, hk, Int.lt_of_le_of_lt hij hjk⟩

end Trans

end Expansion

end PrimScript.Decimal
