import Mathlib.Data.Nat.Prime.Basic
import PrimScript.Decimal.Expansion
import PrimScript.Proofs.Decimal.Numeral
import PrimScript.Proofs.Decimal.Scientific
import PrimScript.Proofs.Json.Number

/-! Texts with a fixed number of places, read and written again.  The number that such a text is
read as need not be the one it was written for, but it has the same text. -/

namespace PrimScript.Decimal

variable {d n : ℕ}

theorem isDigit_of_mem_digitsPadded {width : ℕ} {c : Char} (h : c ∈ digitsPadded width d) :
    isDigit c := by
  rcases List.mem_append.1 h with h | h
  · rw [List.eq_of_mem_replicate h]
    rfl
  · exact isDigit_of_mem_toDigits h

theorem le_length_digitsPadded (width d : ℕ) : width ≤ (digitsPadded width d).length := by
  simp only [digitsPadded, List.length_append, List.length_replicate]
  omega

theorem ofDigits_zeros (k : ℕ) (ds : List Char) :
    ofDigits 10 (List.replicate k '0' ++ ds) = ofDigits 10 ds := by
  induction k with
  | zero => rfl
  | succ k ih =>
    rw [List.replicate_succ, List.cons_append, ← ih]
    rfl

theorem ofDigits_digitsPadded (width d : ℕ) : ofDigits 10 (digitsPadded width d) = d := by
  rw [digitsPadded, ofDigits_zeros, ofDigits_toDigits]

theorem numeralText_placed (hn : 0 < n) (d : ℕ) :
    ∃ whole fraction, NumeralText (placed n d) ⟨whole, fraction, true, none⟩ ∧
      ofDigits 10 (whole ++ fraction) = d ∧ fraction.length = n := by
  have hlen := le_length_digitsPadded (n + 1) d
  have hdigits (c : Char) (h : c ∈ digitsPadded (n + 1) d) := isDigit_of_mem_digitsPadded h
  have hvalue := ofDigits_digitsPadded (n + 1) d
  rw [placed, if_neg hn.ne']
  generalize digitsPadded (n + 1) d = ds at hlen hdigits hvalue
  obtain ⟨whole, fraction, rfl, hf⟩ :
      ∃ whole fraction, ds = whole ++ fraction ∧ fraction.length = n :=
    ⟨ds.take (ds.length - n), ds.drop (ds.length - n), by simp, by simp; omega⟩
  have hw : (whole ++ fraction).length - n = whole.length := by
    rw [List.length_append]
    omega
  have hne : ¬ (whole = [] ∧ fraction = []) := by
    rintro ⟨rfl, rfl⟩
    simp at hlen
  have htext := NumeralText.pointed (fun c h => hdigits c (List.mem_append_left _ h))
    (fun c h => hdigits c (List.mem_append_right _ h)) hne .none
  rw [List.append_nil] at htext
  refine ⟨whole, fraction, ?_, hvalue, hf⟩
  rwa [hw, List.take_left, List.drop_left]

def ofUnits (n d : ℕ) : Float := if d = 0 then 0 else Float.ofScientific d true n

theorem toFloat_eq_ofUnits (hn : 0 < n) {whole fraction : List Char}
    (hd : ofDigits 10 (whole ++ fraction) = d) (hf : fraction.length = n) :
    Numeral.toFloat ⟨whole, fraction, true, none⟩ = ofUnits n d := by
  have hcount : ¬ (0 : ℤ) - n + (whole ++ fraction).length < -330 := by
    rw [List.length_append]
    omega
  have hscale : ¬ (310 : ℤ) < 0 - n := by omega
  have hnegative : (0 : ℤ) - n < 0 := by omega
  have habs : ((0 : ℤ) - n).natAbs = n := by omega
  rw [Numeral.toFloat, hd, Option.getD_none, hf, nearest, ofUnits]
  by_cases hz : d = 0
  · rw [if_pos (.inl hz), if_pos hz]
  · rw [if_neg (not_or.2 ⟨hz, hcount⟩), if_neg hscale, if_neg hz, habs, decide_eq_true hnegative]

/-- A text is read as `x`, all of it; and where a text begins with it and goes on with no more of a
number, that is the number it begins with. -/
structure ReadAs (cs : List Char) (x : Float) : Prop where
  whole : float? cs = some x
  before : ∀ rest, Stops continues rest → floatPrefix? (cs ++ rest) = some x

def signedFloat (negative : Bool) (x : Float) : Float := if negative then -x else x

theorem exists_signText (negative : Bool) :
    ∃ v, SignText v negative ∧ ∀ cs, signed negative cs = v ++ cs := by
  cases negative with
  | false => exact ⟨[], .none, fun _ => rfl⟩
  | true => exact ⟨['-'], .minus, fun _ => rfl⟩

theorem readAs_placed (hn : 0 < n) (negative : Bool) (d : ℕ) :
    ReadAs (signed negative (placed n d)) (signedFloat negative (ofUnits n d)) := by
  obtain ⟨v, hs, hv⟩ := exists_signText negative
  obtain ⟨whole, fraction, htext, hd, hf⟩ := numeralText_placed hn d
  rw [hv, ← toFloat_eq_ofUnits hn hd hf]
  constructor
  · have h := scanNumeral_append htext (stops_nil _)
    rw [List.append_nil] at h
    exact float?_append hs h
  · intro rest hrest
    rw [List.append_assoc]
    exact floatPrefix?_append hs htext hrest

theorem readAs_nan : ReadAs ['N', 'a', 'N'] notANumber := ⟨rfl, fun rest _ => floatPrefix?_nan rest⟩

theorem readAs_infinite (negative : Bool) :
    ReadAs (signed negative ['i', 'n', 'f']) (signedFloat negative infinity) := by
  cases negative with
  | false => exact ⟨rfl, fun rest _ => floatPrefix?_inf .none rest⟩
  | true => exact ⟨rfl, fun rest _ => floatPrefix?_inf .minus rest⟩

theorem mem_fixed {c : Char} (hn : 0 < n) {e : Expansion} (h : c ∈ e.fixed n) :
    isNumeralChar c ∨ c ∈ ['N', 'a', 'i', 'n', 'f'] := by
  have hsigned (negative : Bool) (cs : List Char) (h : c ∈ signed negative cs) :
      isNumeralChar c ∨ c ∈ cs := by
    cases negative with
    | false => exact .inr h
    | true =>
      rcases List.mem_cons.1 h with rfl | h
      · exact .inl rfl
      · exact .inr h
  cases e with
  | nan =>
    simp only [Expansion.fixed, List.mem_cons, List.not_mem_nil, or_false] at h
    rcases h with rfl | rfl | rfl <;> simp
  | infinite negative =>
    refine (hsigned negative _ h).imp_right fun h => ?_
    simp only [List.mem_cons, List.not_mem_nil, or_false] at h
    rcases h with rfl | rfl | rfl <;> simp
  | finite negative m q =>
    rcases hsigned negative _ h with h | h
    · exact .inl h
    · obtain ⟨whole, fraction, htext, -⟩ := numeralText_placed hn (roundScaled m q (Nat.pow 10 n))
      exact .inl (htext.isNumeralChar c h)

theorem ofFloat_zero (negative : Bool) :
    Expansion.ofFloat (signedFloat negative 0) = .finite negative 0 (-1074) := by
  cases negative <;> decide +kernel

theorem ofFloat_infinity (negative : Bool) :
    Expansion.ofFloat (signedFloat negative infinity) = .infinite negative := by
  cases negative <;> decide +kernel

theorem ofFloat_notANumber : Expansion.ofFloat notANumber = .nan := by decide +kernel

theorem pow_mul_zpow_ne_one (hn : 0 < n) (k : ℤ) : ((10 ^ n : ℕ) : ℚ) * 2 ^ k ≠ 1 := by
  intro h
  rcases Int.eq_nat_or_neg k with ⟨j, rfl | rfl⟩
  · have hnat : 10 ^ n * 2 ^ j = 1 := by exact_mod_cast h
    have hten : 10 ^ n = 1 := Nat.eq_one_of_mul_eq_one_right hnat
    exact absurd hten (Nat.one_lt_pow hn.ne' (by decide)).ne'
  · rw [zpow_neg, zpow_natCast, ← div_eq_mul_inv, div_eq_one_iff_eq (by positivity)] at h
    have hnat : 10 ^ n = 2 ^ j := by exact_mod_cast h
    have hten : 5 ∣ 10 ^ n := Dvd.dvd.trans (by decide) (dvd_pow_self 10 hn.ne')
    exact absurd (Nat.prime_five.dvd_of_dvd_pow (hnat ▸ hten)) (by decide)

theorem neg_of_mul_zpow_lt_one {k : ℤ} (h : ((10 ^ n : ℕ) : ℚ) * 2 ^ k < 1) : k < 0 := by
  by_contra hk
  have hpow : (1 : ℚ) ≤ (10 ^ n : ℕ) := by exact_mod_cast Nat.one_le_pow n 10 (by decide)
  have hone : (1 : ℚ) ≤ 2 ^ k := one_le_zpow₀ one_le_two (by omega)
  exact absurd h (not_lt.2 (one_le_mul_of_one_le_of_one_le hpow hone))

section Units

variable {m : ℕ} {q : ℤ}

theorem le_of_value_eq {m' : ℕ} {q' : ℤ} (hm : 2 ^ 52 ≤ m') (h : Expansion.Canonical m q)
    (hv : (m' : ℚ) * 2 ^ q' = m * 2 ^ q) : q' ≤ 971 := by
  have hfull : (2 : ℚ) ^ (52 : ℤ) ≤ m' := by exact_mod_cast hm
  have hshort : (m : ℚ) < 2 ^ (53 : ℤ) := by exact_mod_cast h.short
  have hlt : (2 : ℚ) ^ (52 + q') < 2 ^ (53 + q) := by
    rw [zpow_add₀ two_ne_zero, zpow_add₀ two_ne_zero]
    calc (2 : ℚ) ^ (52 : ℤ) * 2 ^ q' ≤ m' * 2 ^ q' := by gcongr
      _ = m * 2 ^ q := hv
      _ < 2 ^ (53 : ℤ) * 2 ^ q := by gcongr
  have hexp := (zpow_lt_zpow_iff_right₀ one_lt_two).1 hlt
  have := h.greatest
  omega

/-- The floating point number nearest to a number in units is rounded to as many units again. -/
theorem ofFloat_ofUnits (h : Expansion.Canonical m q) (hn : 0 < n) (hn' : n < 16)
    (negative : Bool) (hd : 0 < roundScaled m q (10 ^ n)) :
    ∃ m' q', Expansion.ofFloat (signedFloat negative (ofUnits n (roundScaled m q (10 ^ n)))) =
        .finite negative m' q' ∧ roundScaled m' q' (10 ^ n) = roundScaled m q (10 ^ n) := by
  have hnear := nearest_roundScaled m q (10 ^ n)
  generalize roundScaled m q (10 ^ n) = d at hd hnear
  obtain ⟨m', q', hpos, heq, hr⟩ := rounded_ofScientific hd hn hn'
  obtain ⟨r, k, hlow, hrnear, hvalue, hnext⟩ := hr.nearest
  have hagain := nearest_roundScaled m' q' (10 ^ n)
  have hsame : q' ≤ 971 ∧ roundScaled m' q' (10 ^ n) = d := by
    rw [hvalue] at hagain
    rcases nearest_reread (by positivity) (pow_mul_zpow_ne_one hn k) h.short hnear hlow hrnear with
      ⟨hfine, hd'⟩ | hback
    · have hk := neg_of_mul_zpow_lt_one hfine
      exact ⟨by omega, hagain.unique hd'⟩
    · rw [hback] at hvalue hagain
      exact ⟨le_of_value_eq hr.full h hvalue, hagain.unique hnear⟩
  obtain ⟨hq, hround⟩ := hsame
  refine ⟨m', q', ?_, hround⟩
  rw [ofUnits, if_neg hd.ne', heq]
  cases negative with
  | false => exact ofFloat_pack .positive hr.full hr.short hr.least hq hpos
  | true =>
    rw [signedFloat, if_pos rfl, neg_pack _ hr.full hr.short hr.least hq hpos]
    exact ofFloat_pack .negative hr.full hr.short hr.least hq hpos

end Units

theorem exists_readAs_fixed (hn : 0 < n) (hn' : n < 16) (x : Float) :
    ∃ y, ReadAs (Expansion.fixed n (.ofFloat x)) y ∧
      Expansion.fixed n (.ofFloat y) = Expansion.fixed n (.ofFloat x) := by
  cases hx : Expansion.ofFloat x with
  | nan => exact ⟨notANumber, readAs_nan, by rw [ofFloat_notANumber]⟩
  | infinite negative =>
    exact ⟨_, readAs_infinite negative, by rw [ofFloat_infinity]⟩
  | finite negative m q =>
    have hc := (Expansion.finite_of_ofBits hx).1
    have hagain : ∃ m' q', Expansion.ofFloat
        (signedFloat negative (ofUnits n (roundScaled m q (10 ^ n)))) = .finite negative m' q' ∧
          roundScaled m' q' (10 ^ n) = roundScaled m q (10 ^ n) := by
      rcases Nat.eq_zero_or_pos (roundScaled m q (10 ^ n)) with hz | hd
      · refine ⟨0, -1074, by rw [hz, ofUnits, if_pos rfl, ofFloat_zero], ?_⟩
        rw [hz]
        exact (nearest_roundScaled 0 (-1074) (10 ^ n)).unique (by simpa using Nearest.natCast 0)
      · exact ofFloat_ofUnits hc hn hn' negative hd
    obtain ⟨m', q', hy, hround⟩ := hagain
    refine ⟨_, readAs_placed hn negative (roundScaled m q (10 ^ n)), ?_⟩
    rw [hy]
    exact congrArg (fun d => signed negative (placed n d)) hround

end PrimScript.Decimal
