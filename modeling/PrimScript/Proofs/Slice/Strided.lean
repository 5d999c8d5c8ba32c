import Mathlib.Logic.Basic
import Mathlib.Tactic.ByContra
import PrimScript.Proofs.Slice.Ranges

/-! Every so many items of a range.  The items at the multiples of a step, counted from the beginning of a
stretch, are found by walking along it.  The stretch is that of the range as long as the range begins before
the end of the list and ends no earlier than at its beginning; a range that lies beyond the list is taken for
the whole list, and one that lies before it for the first item. -/

namespace PrimScript.Slice

variable {α : Type}

section Multiples

variable {step : Nat}

theorem succ_mod (hstep : 0 < step) (i : Nat) :
    (i + 1) % step = if i % step + 1 = step then 0 else i % step + 1 := by
  rw [← Nat.mod_add_mod]
  split
  · next h => rw [h, Nat.mod_self]
  · exact Nat.mod_eq_of_lt (by have := Nat.mod_lt i hstep; omega)

theorem getElem?_filterPlaces_mod {c : Nat} (hc : c < step) (xs : List α) (j : Nat) :
    (filterPlaces (fun i => decide (i % step = c)) xs)[j]? = xs[c + step * j]? := by
  have hstep : 0 < step := Nat.zero_lt_of_lt hc
  induction xs generalizing c j with
  | nil => rfl
  | cons x xs ih =>
    rw [filterPlaces_cons, Nat.zero_mod]
    cases c with
    | zero =>
      have hnext : filterPlaces (fun i => decide ((i + 1) % step = 0)) xs =
          filterPlaces (fun i => decide (i % step = step - 1)) xs := by
        refine filterPlaces_congr fun i _ => decide_eq_decide.2 ?_
        rw [succ_mod hstep]
        split <;> omega
      rw [if_pos (decide_eq_true rfl), hnext]
      cases j with
      | zero => rfl
      | succ j =>
        rw [List.getElem?_cons_succ, ih (by omega),
          show 0 + step * (j + 1) = step - 1 + step * j + 1 by rw [Nat.mul_succ]; omega,
          List.getElem?_cons_succ]
    | succ c =>
      have hnext : filterPlaces (fun i => decide ((i + 1) % step = c + 1)) xs =
          filterPlaces (fun i => decide (i % step = c)) xs := by
        refine filterPlaces_congr fun i _ => decide_eq_decide.2 ?_
        rw [succ_mod hstep]
        split <;> omega
      rw [if_neg (by simp), hnext, ih (by omega), Nat.add_right_comm, List.getElem?_cons_succ]

end Multiples

section Stretch

variable {xs : List α} {first last stride : Int32}

def start (xs : List α) (first : Int32) : Nat := (index? xs.length first).getD 0

def stop (xs : List α) (last : Int32) : Nat :=
  if last < 0 then (index? xs.length last).getD 0 else min last.toInt.toNat (xs.length - 1)

theorem start_eq (xs : List α) (first : Int32) :
    start xs first =
      if place xs.length first < xs.length then (place xs.length first).toNat else 0 := by
  unfold start index?
  dsimp only
  split
  · next h => rw [if_pos h.2, Option.getD_some]
  · next h =>
    rw [Option.getD_none]
    split <;> omega

theorem stop_eq (xs : List α) (last : Int32) :
    stop xs last = min (place xs.length last).toNat (xs.length - 1) := by
  unfold stop index?
  dsimp only
  split
  · next h =>
    have hplace : place xs.length last < xs.length := by
      have h0 : (0 : Int32).toInt = 0 := rfl
      rw [Int32.lt_iff_toInt_lt, h0] at h
      rw [place, if_pos (Int32.lt_iff_toInt_lt.2 h)]
      omega
    split
    · rw [Option.getD_some]
      omega
    · rw [Option.getD_none]
      omega
  · next h => rw [place, if_neg h]

theorem stop_lt (h : xs ≠ []) (last : Int32) : stop xs last < xs.length := by
  have hpos := List.length_pos_iff.2 h
  rw [stop_eq]
  omega

theorem step_pos (hstride : 1 ≤ stride) : 0 < stride.toInt.toNat := by
  have h1 : (1 : Int32).toInt = 1 := rfl
  rw [Int32.le_iff_toInt_le, h1] at hstride
  omega

theorem getElem?_keepEvery (h : xs ≠ []) (hstride : 1 ≤ stride) (hle : start xs first ≤ stop xs last + 1)
    (j : Nat) :
    (keepEvery xs first last stride)[j]? =
      (stretch xs (start xs first) (stop xs last + 1))[stride.toInt.toNat * j]? := by
  have heq : keepEvery xs first last stride = filterPlaces (fun i => decide (start xs first ≤ i) &&
      decide (i ≤ stop xs last) && decide ((i - start xs first) % stride.toInt.toNat = 0)) xs := by
    unfold keepEvery
    dsimp only
    rw [if_neg (Int32.not_lt.2 hstride)]
    rfl
  rw [heq, filterPlaces_within hle (stop_lt h last) fun i _ hi => ?_,
    filterPlaces_congr (q := fun i => decide (i % stride.toInt.toNat = 0)) fun i hi => ?_,
    getElem?_filterPlaces_mod (step_pos hstride), Nat.zero_add]
  · rw [length_stretch xs (stop_lt h last)] at hi
    rw [Nat.add_sub_cancel]
    simp only [Nat.le_add_left, decide_true, Bool.true_and, show i + start xs first ≤ stop xs last by omega]
  · simp only [Bool.and_eq_true, decide_eq_true_iff] at hi
    omega

theorem getElem?_keepEvery_within (h : xs ≠ []) (hstride : 1 ≤ stride)
    (hle : place xs.length first ≤ place xs.length last) (hfirst : place xs.length first < xs.length)
    (hlast : 0 ≤ place xs.length last) (j : Nat) :
    (keepEvery xs first last stride)[j]? = (keep xs first last)[stride.toInt.toNat * j]? := by
  have hstart : start xs first = low xs first := by
    rw [start_eq, if_pos hfirst]
    unfold low clamp
    omega
  have hstop : stop xs last + 1 = high xs last := by
    have hpos := List.length_pos_iff.2 h
    rw [stop_eq]
    unfold high clamp
    omega
  rw [keep_inside hle, getElem?_keepEvery h hstride (hstart ▸ hstop ▸ low_le_high hle), hstart, hstop]

theorem getElem?_keepEvery_beyond (hstride : 1 ≤ stride) (hfirst : xs.length ≤ place xs.length first)
    (hle : place xs.length first ≤ place xs.length last) (j : Nat) :
    (keepEvery xs first last stride)[j]? = xs[stride.toInt.toNat * j]? := by
  rcases eq_or_ne xs [] with rfl | h
  · rfl
  have hpos := List.length_pos_iff.2 h
  have hstart : start xs first = 0 := by rw [start_eq, if_neg (Int.not_lt.2 hfirst)]
  have hstop : stop xs last + 1 = xs.length := by
    rw [stop_eq]
    omega
  rw [getElem?_keepEvery h hstride (hstart ▸ Nat.zero_le _), hstart, hstop, stretch, List.take_length,
    List.drop_zero]

theorem keepEvery_before (hstride : 1 ≤ stride) (hlast : place xs.length last < 0)
    (hle : place xs.length first ≤ place xs.length last) :
    keepEvery xs first last stride = xs.take 1 := by
  rcases eq_or_ne xs [] with rfl | h
  · rfl
  have hstart : start xs first = 0 := by
    rw [start_eq, if_pos (by omega)]
    omega
  have hstop : stop xs last = 0 := by
    rw [stop_eq]
    omega
  refine List.ext_getElem? fun j => ?_
  rw [getElem?_keepEvery h hstride (hstart ▸ Nat.zero_le _), hstart, hstop, stretch, List.drop_zero]
  cases j with
  | zero => rfl
  | succ j =>
    have hstep : 1 ≤ stride.toInt.toNat * (j + 1) := Nat.mul_pos (step_pos hstride) (Nat.succ_pos j)
    rw [List.getElem?_take_eq_none hstep, List.getElem?_take_eq_none (Nat.succ_pos j)]

theorem keep_eq_nil (hle : place xs.length first ≤ place xs.length last)
    (h : xs.length ≤ place xs.length first ∨ place xs.length last < 0) : keep xs first last = [] := by
  have hempty : high xs last ≤ low xs first := by
    unfold low high clamp
    omega
  rw [keep_inside hle, stretch, List.drop_eq_nil_iff, List.length_take]
  exact Nat.le_trans (Nat.min_le_left _ _) hempty

/-- Every so many items of a range are kept exactly when the range meets the list. -/
theorem getElem?_keepEvery_iff (hstride : 1 ≤ stride)
    (hle : place xs.length first ≤ place xs.length last) :
    (∀ j, (keepEvery xs first last stride)[j]? = (keep xs first last)[stride.toInt.toNat * j]?) ↔
      xs = [] ∨ (place xs.length first < xs.length ∧ 0 ≤ place xs.length last) := by
  constructor
  · intro hall
    by_contra hnot
    rw [not_or, not_and_or, Int.not_lt, Int.not_le] at hnot
    obtain ⟨h, hout⟩ := hnot
    -- the first item is kept, and there is none in the range
    have hfirst : (keepEvery xs first last stride)[0]? = xs[0]? := by
      rcases hout with hout | hout
      · exact getElem?_keepEvery_beyond hstride hout hle 0
      · rw [keepEvery_before hstride hout hle, List.getElem?_take_of_lt Nat.one_pos]
    rw [hall 0, keep_eq_nil hle hout, List.getElem?_nil, eq_comm, List.getElem?_eq_none_iff] at hfirst
    exact h (List.length_eq_zero_iff.1 (Nat.le_zero.1 hfirst))
  · rintro (rfl | ⟨hfirst, hlast⟩) j
    · rfl
    · rcases eq_or_ne xs [] with rfl | h
      · rfl
      · exact getElem?_keepEvery_within h hstride hle hfirst hlast j

end Stretch

end PrimScript.Slice
