import PrimScript.Clock.Span
import PrimScript.Proofs.Decimal.Order

/-! Which numbers of seconds have a span.  A number asks for one when it is positive and finite; it gets one
when it is less than `2 ^ 64` as well. -/

namespace PrimScript.Span

open Decimal Decimal.Expansion

def tooLong : Float := 18446744073709551616

theorem ofFloat_zero : ofFloat 0 = .finite false 0 (-1074) := by decide

theorem ofFloat_tooLong : ofFloat tooLong = .finite false (2 ^ 52) 12 := by decide +kernel

variable {x : Float} {m : Nat} {q : Int}

theorem isFinite_iff : x.isFinite = true ↔ ∃ negative m q, ofFloat x = .finite negative m q := by
  have hx : ofUnpacked x.toModel.unpack = ofFloat x := ofUnpacked_unpack x.toBits
  have hf : x.isFinite = x.toModel.unpack.isFinite := rfl
  rw [hf, ← hx]
  cases x.toModel.unpack with
  | zero _ => exact ⟨fun _ => ⟨_, _, _, rfl⟩, fun _ => rfl⟩
  | finite _ _ _ _ => exact ⟨fun _ => ⟨_, _, _, rfl⟩, fun _ => rfl⟩
  | _ => exact ⟨fun h => (nomatch h), fun ⟨_, _, _, h⟩ => nomatch h⟩

theorem isAsked_iff : isAsked x = true ↔ ∃ m q, ofFloat x = .finite false m q ∧ 0 < m := by
  rw [isAsked, Bool.and_eq_true, decide_eq_true_iff, isFinite_iff, lt_iff_place?, ofFloat_zero]
  constructor
  · rintro ⟨⟨i, hi, j, hj, hlt⟩, negative, m, q, hx⟩
    obtain ⟨hc, -, -⟩ := finite_of_ofBits hx
    rw [hx] at hj
    cases hi
    cases hj
    have hpos : 0 < withSign negative (weight m q) := hlt
    have hw := hc.weight_nonneg
    cases negative with
    | true =>
      have hn : withSign true (weight m q) = -weight m q := rfl
      omega
    | false => exact ⟨m, q, hx, hc.weight_pos_iff.1 hpos⟩
  · rintro ⟨m, q, hx, hm⟩
    obtain ⟨hc, -, -⟩ := finite_of_ofBits hx
    refine ⟨⟨0, rfl, weight m q, ?_, hc.weight_pos_iff.2 hm⟩, false, m, q, hx⟩
    rw [hx]
    rfl

theorem lt_tooLong_iff (hx : ofFloat x = .finite false m q) : x < tooLong ↔ q < 12 := by
  obtain ⟨hc, -, -⟩ := finite_of_ofBits hx
  have ht : Canonical (2 ^ 52) 12 := ⟨by decide, by decide, by decide, .inl (Nat.le_refl _)⟩
  have hp : x < tooLong ↔ weight m q < weight (2 ^ 52) 12 := by
    rw [lt_iff_place?, hx, ofFloat_tooLong]
    simp [place?, withSign]
  have hf := hc.full
  rw [hp, hc.weight_lt_weight_iff ht]
  omega

theorem roundDiv_le (n den : Nat) : roundDiv n den ≤ n + 1 := by
  have := Nat.div_le_self n den
  unfold roundDiv
  dsimp only
  split
  · omega
  · split <;> omega

theorem limit_le_roundScaled_iff (hc : Canonical m q) :
    limit ≤ roundScaled m q second ↔ 12 ≤ q := by
  obtain ⟨hs, -, -, hf⟩ := hc
  have hsecond : 0 < second := by decide
  cases q with
  | negSucc e =>
    -- the number is less than the mantissa, which is far below the limit
    have hr := roundDiv_le (m * second) (Nat.pow 2 (e + 1))
    have hn : roundScaled m (.negSucc e) second < limit := by
      unfold roundScaled limit
      unfold second at hr ⊢
      simp only [Nat.pow_eq] at hr ⊢
      omega
    omega
  | ofNat e =>
    have hr : roundScaled m (.ofNat e) second = m * 2 ^ e * second := rfl
    have hl : limit = 2 ^ 64 * second := rfl
    -- the number is whole, so nothing is rounded
    rw [hr, hl, Nat.mul_le_mul_right_iff hsecond]
    rw [Int.ofNat_eq_natCast] at hf ⊢
    constructor
    · intro h
      by_contra he
      have he' : e ≤ 11 := by omega
      have : m * 2 ^ e < 2 ^ 53 * 2 ^ 11 :=
        Nat.mul_lt_mul_of_lt_of_le hs (Nat.pow_le_pow_right (by decide) he') (by decide)
      omega
    · intro h
      have he : 12 ≤ e := by omega
      have hm : 2 ^ 52 ≤ m := by omega
      calc 2 ^ 64 = 2 ^ 52 * 2 ^ 12 := by decide
        _ ≤ m * 2 ^ e := Nat.mul_le_mul hm (Nat.pow_le_pow_right (by decide) he)

theorem isSome_ofSeconds?_iff (h : isAsked x = true) : (ofSeconds? x).isSome ↔ x < tooLong := by
  obtain ⟨m, q, hx, hm⟩ := isAsked_iff.1 h
  obtain ⟨hc, -, -⟩ := finite_of_ofBits hx
  rw [lt_tooLong_iff hx, ofSeconds?, hx]
  have hl := limit_le_roundScaled_iff hc
  simp [hl]

theorem lt_limit_of_ofSeconds? {span : Nat} (h : ofSeconds? x = some span) : span < limit := by
  unfold ofSeconds? at h
  split at h
  · dsimp only at h
    split at h
    · cases h
    · next hn =>
      cases h
      omega
  · cases h

end PrimScript.Span
