import Mathlib.Algebra.Group.Int.Defs
import Mathlib.Algebra.Group.Nat.Defs
import PrimScript.Slice

/-! Ranges of a list: what is in them, what is left without them, and what takes their place.  Keeping and
dropping choose places one by one, so that the items chosen and the others are the list interleaved; replacing
and inserting cut the list at places moved to its ends.  Both see the same stretch of the list, whichever way
the ends of the range lie.  As many items as there are in another list, from a place on, are the other list when it
stands there, and in no other case, unless the range wraps around the end of the list. -/

namespace PrimScript

variable {α : Type}

inductive Interleave : List α → List α → List α → Prop
  | nil : Interleave [] [] []
  | left {a : α} {xs ys zs : List α} : Interleave xs ys zs → Interleave (a :: xs) ys (a :: zs)
  | right {a : α} {xs ys zs : List α} : Interleave xs ys zs → Interleave xs (a :: ys) (a :: zs)

namespace Slice

section Places

variable {p q : Nat → Bool} {xs ys : List α} {a b : Nat}

theorem filterPlaces_cons (p : Nat → Bool) (x : α) (xs : List α) :
    filterPlaces p (x :: xs) =
      if p 0 then x :: filterPlaces (fun i => p (i + 1)) xs else filterPlaces (fun i => p (i + 1)) xs := by
  have hshift : ((xs.zipIdx 1).filter fun y => p y.2).map (·.1) = filterPlaces (fun i => p (i + 1)) xs := by
    rw [List.zipIdx_succ, List.filter_map, List.map_map]
    rfl
  rw [filterPlaces, List.zipIdx_cons, List.filter_cons]
  split
  · rw [List.map_cons, hshift]
  · exact hshift

theorem filterPlaces_congr (h : ∀ i < xs.length, p i = q i) : filterPlaces p xs = filterPlaces q xs := by
  induction xs generalizing p q with
  | nil => rfl
  | cons x xs ih =>
    rw [filterPlaces_cons, filterPlaces_cons, h 0 (Nat.succ_pos _),
      ih fun i hi => h (i + 1) (Nat.succ_lt_succ hi)]

theorem filterPlaces_all (xs : List α) (h : ∀ i < xs.length, p i = true) : filterPlaces p xs = xs := by
  induction xs generalizing p with
  | nil => rfl
  | cons x xs ih =>
    rw [filterPlaces_cons, if_pos (h 0 (Nat.succ_pos _)), ih fun i hi => h (i + 1) (Nat.succ_lt_succ hi)]

theorem filterPlaces_none (xs : List α) (h : ∀ i < xs.length, p i = false) : filterPlaces p xs = [] := by
  induction xs generalizing p with
  | nil => rfl
  | cons x xs ih =>
    rw [filterPlaces_cons, h 0 (Nat.succ_pos _), if_neg Bool.false_ne_true,
      ih fun i hi => h (i + 1) (Nat.succ_lt_succ hi)]

theorem filterPlaces_append (p : Nat → Bool) (xs ys : List α) :
    filterPlaces p (xs ++ ys) = filterPlaces p xs ++ filterPlaces (fun i => p (i + xs.length)) ys := by
  induction xs generalizing p with
  | nil => rfl
  | cons x xs ih =>
    rw [List.cons_append, filterPlaces_cons, filterPlaces_cons, ih]
    simp only [Nat.add_assoc, List.length_cons]
    split <;> rfl

theorem interleave_filterPlaces (p : Nat → Bool) (xs : List α) :
    Interleave (filterPlaces p xs) (filterPlaces (fun i => !p i) xs) xs := by
  induction xs generalizing p with
  | nil => exact .nil
  | cons x xs ih =>
    rw [filterPlaces_cons, filterPlaces_cons]
    cases p 0 with
    | true => exact .left (ih fun i => p (i + 1))
    | false => exact .right (ih fun i => p (i + 1))

def stretch (xs : List α) (a b : Nat) : List α := (xs.take b).drop a

theorem take_append_stretch_append_drop (xs : List α) (h : a ≤ b) :
    xs.take a ++ (stretch xs a b ++ xs.drop b) = xs := by
  rw [stretch, ← List.append_assoc]
  conv => rhs; rw [← List.take_append_drop b xs, ← List.take_append_drop a (xs.take b), List.take_take,
    Nat.min_eq_left h]

theorem take_append_stretch (xs : List α) (h : a ≤ b) : xs.take a ++ stretch xs a b = xs.take b := by
  refine (List.append_left_inj (xs.drop b)).1 ?_
  rw [List.append_assoc, take_append_stretch_append_drop xs h, List.take_append_drop]

theorem stretch_append_drop (xs : List α) (h : a ≤ b) : stretch xs a b ++ xs.drop b = xs.drop a := by
  refine (List.append_right_inj (xs.take a)).1 ?_
  rw [take_append_stretch_append_drop xs h, List.take_append_drop]

theorem length_stretch (xs : List α) (h : b ≤ xs.length) : (stretch xs a b).length = b - a := by
  rw [stretch, List.length_drop, List.length_take, Nat.min_eq_left h]

theorem filterPlaces_split (p : Nat → Bool) (h : a ≤ b) (hb : b ≤ xs.length) :
    filterPlaces p xs = filterPlaces p (xs.take a) ++
      (filterPlaces (fun i => p (i + a)) (stretch xs a b) ++
        filterPlaces (fun i => p (i + b)) (xs.drop b)) := by
  have ha : (xs.take a).length = a := List.length_take_of_le (Nat.le_trans h hb)
  have hmid : b - a + a = b := Nat.sub_add_cancel h
  conv => lhs; rw [← take_append_stretch_append_drop xs h]
  rw [filterPlaces_append, filterPlaces_append, ha, length_stretch xs hb]
  simp only [Nat.add_assoc, hmid]

theorem filterPlaces_within (h : a ≤ b) (hb : b ≤ xs.length)
    (hp : ∀ i < xs.length, p i → a ≤ i ∧ i < b) :
    filterPlaces p xs = filterPlaces (fun i => p (i + a)) (stretch xs a b) := by
  have hout (i : Nat) (hi : i < xs.length) (hn : ¬ (a ≤ i ∧ i < b)) : p i = false :=
    Bool.eq_false_iff.2 fun hpi => hn (hp i hi hpi)
  rw [filterPlaces_split p h hb, filterPlaces_none (xs.take a), filterPlaces_none (xs.drop b),
    List.nil_append, List.append_nil]
  · intro i hi
    rw [List.length_drop] at hi
    exact hout _ (by omega) (by omega)
  · intro i hi
    rw [List.length_take] at hi
    exact hout i (by omega) (by omega)

theorem filterPlaces_stretch (h : a ≤ b) (hb : b ≤ xs.length)
    (hp : ∀ i < xs.length, p i = true ↔ a ≤ i ∧ i < b) : filterPlaces p xs = stretch xs a b := by
  rw [filterPlaces_within h hb fun i hi => (hp i hi).1]
  refine filterPlaces_all _ fun i hi => ?_
  rw [length_stretch xs hb] at hi
  exact (hp _ (by omega)).2 (by omega)

theorem filterPlaces_outside (h : a ≤ b) (hb : b ≤ xs.length)
    (hp : ∀ i < xs.length, p i = true ↔ ¬ (a ≤ i ∧ i < b)) :
    filterPlaces p xs = xs.take a ++ xs.drop b := by
  rw [filterPlaces_split p h hb, filterPlaces_all (xs.take a), filterPlaces_all (xs.drop b),
    filterPlaces_none (stretch xs a b), List.nil_append]
  · intro i hi
    rw [length_stretch xs hb] at hi
    exact Bool.eq_false_iff.2 fun hpi => (hp _ (by omega)).1 hpi (by omega)
  · intro i hi
    rw [List.length_drop] at hi
    exact (hp _ (by omega)).2 (by omega)
  · intro i hi
    rw [List.length_take] at hi
    exact (hp i (by omega)).2 (by omega)

end Places

section Clamp

variable {n i : Nat} {p q : Int}

theorem clamp_le (n : Nat) (p : Int) : clamp n p ≤ n := by
  unfold clamp
  omega

theorem clamp_le_clamp (n : Nat) (h : p ≤ q) : clamp n p ≤ clamp n q := by
  unfold clamp
  omega

theorem clamp_le_iff (h : i < n) : clamp n p ≤ i ↔ p ≤ i := by
  unfold clamp
  omega

theorem lt_clamp_iff (h : i < n) : i < clamp n p ↔ i < p := by
  unfold clamp
  omega

end Clamp

section Holds

variable {s : Slice} {xs : List α} {i : Nat}

theorem contains_inside (h : s.first ≤ s.last) (hi : i < xs.length) :
    s.contains i = true ↔ clamp xs.length s.first ≤ i ∧ i < clamp xs.length (s.last + 1) := by
  rw [clamp_le_iff hi, lt_clamp_iff hi, Int.lt_add_one_iff, contains, if_pos h, Bool.and_eq_true,
    decide_eq_true_iff, decide_eq_true_iff]

theorem contains_outside (h : ¬ s.first ≤ s.last) (hi : i < xs.length) :
    s.contains i = true ↔ ¬ (clamp xs.length (s.last + 1) ≤ i ∧ i < clamp xs.length s.first) := by
  rw [clamp_le_iff hi, lt_clamp_iff hi, contains, if_neg h, Bool.or_eq_true, decide_eq_true_iff,
    decide_eq_true_iff]
  omega

end Holds

section

variable (xs ys : List α) (first last : Int32)

abbrev low : Nat := clamp xs.length (place xs.length first)

abbrev high : Nat := clamp xs.length (place xs.length last + 1)

variable {xs first last}

theorem low_le_high (h : place xs.length first ≤ place xs.length last) : low xs first ≤ high xs last :=
  clamp_le_clamp _ (by omega)

theorem high_le_low (h : ¬ place xs.length first ≤ place xs.length last) : high xs last ≤ low xs first :=
  clamp_le_clamp _ (by omega)

theorem keep_inside (h : place xs.length first ≤ place xs.length last) :
    keep xs first last = stretch xs (low xs first) (high xs last) :=
  filterPlaces_stretch (low_le_high h) (clamp_le _ _) fun _ hi => contains_inside h hi

theorem drop_eq (xs : List α) (first last : Int32) :
    drop xs first last = filterPlaces (fun i => !(of xs.length first last).contains i) xs := rfl

theorem drop_inside (h : place xs.length first ≤ place xs.length last) :
    drop xs first last = xs.take (low xs first) ++ xs.drop (high xs last) := by
  rw [drop_eq]
  refine filterPlaces_outside (low_le_high h) (clamp_le _ _) fun i hi => ?_
  rw [Bool.not_eq_true', ← Bool.not_eq_true]
  exact not_congr (contains_inside h hi)

theorem keep_outside (h : ¬ place xs.length first ≤ place xs.length last) :
    keep xs first last = xs.take (high xs last) ++ xs.drop (low xs first) :=
  filterPlaces_outside (high_le_low h) (clamp_le _ _) fun _ hi => contains_outside h hi

theorem drop_outside (h : ¬ place xs.length first ≤ place xs.length last) :
    drop xs first last = stretch xs (high xs last) (low xs first) := by
  rw [drop_eq]
  refine filterPlaces_stretch (high_le_low h) (clamp_le _ _) fun i hi => ?_
  rw [Bool.not_eq_true', ← Bool.not_eq_true]
  exact (not_congr (contains_outside h hi)).trans Decidable.not_not

theorem replace_inside (h : place xs.length first ≤ place xs.length last) :
    replace xs ys first last = xs.take (low xs first) ++ ys ++ xs.drop (high xs last) :=
  if_pos h

theorem replace_outside (h : ¬ place xs.length first ≤ place xs.length last) :
    replace xs ys first last = stretch xs (high xs last) (low xs first) ++ ys :=
  if_neg h

/-- The items from one place up to another one, when these are places of the list in that order. -/
def stretch? (xs : List α) (a b : Nat) : Option (List α) :=
  if a ≤ b ∧ b ≤ xs.length then some (stretch xs a b) else none

theorem stretch?_eq_some {a b : Nat} (h : a ≤ b) (hb : b ≤ xs.length) :
    stretch? xs a b = some (stretch xs a b) := if_pos ⟨h, hb⟩

variable (xs first last)

def replace? : Option (List α) :=
  if place xs.length first ≤ place xs.length last then do
    let before ← stretch? xs 0 (low xs first)
    let behind ← stretch? xs (high xs last) xs.length
    return before ++ ys ++ behind
  else do
    let between ← stretch? xs (high xs last) (max (low xs first) (high xs last))
    return between ++ ys

theorem replace?_eq_some : replace? xs ys first last = some (replace xs ys first last) := by
  unfold replace?
  split
  · next h =>
    rw [stretch?_eq_some (Nat.zero_le _) (clamp_le _ _), stretch?_eq_some (clamp_le _ _) (Nat.le_refl _),
      replace_inside ys h, stretch, stretch, List.take_length]
    rfl
  · next h =>
    rw [Nat.max_eq_left (high_le_low h), stretch?_eq_some (high_le_low h) (clamp_le _ _),
      replace_outside ys h]
    rfl

/-- Where in what is left without a range its replacement goes: at the beginning of the range, or behind all of
it when the ends of the range are reversed. -/
def gap : Nat :=
  if place xs.length first ≤ place xs.length last then low xs first else (drop xs first last).length

theorem replace_eq : replace xs ys first last =
    (drop xs first last).take (gap xs first last) ++ ys ++ (drop xs first last).drop (gap xs first last) := by
  unfold gap
  split
  · next h =>
    have hlow : (xs.take (low xs first)).length = low xs first := List.length_take_of_le (clamp_le _ _)
    rw [replace_inside ys h, drop_inside h, List.take_left' hlow, List.drop_left' hlow]
  · next h =>
    rw [replace_outside ys h, drop_outside h, List.take_length, List.drop_length, List.append_nil]

variable {first last}

theorem replace_keep (h : place xs.length first ≤ place xs.length last) :
    replace xs (keep xs first last) first last = xs := by
  rw [replace_inside _ h, keep_inside h, List.append_assoc, take_append_stretch_append_drop xs (low_le_high h)]

theorem place_of_nonneg (n : Nat) {i : Int32} (h : 0 ≤ i) : place n i = i.toInt :=
  if_neg (Int32.not_lt.2 h)

theorem insert_drop_keep (h : 0 ≤ first) (hle : first ≤ last) :
    insert (drop xs first last) (keep xs first last) first = xs := by
  have hplaces : place xs.length first ≤ place xs.length last := by
    rw [place_of_nonneg _ h, place_of_nonneg _ (Int32.le_trans h hle)]
    exact Int32.le_iff_toInt_le.1 hle
  have hlow : (xs.take (low xs first)).length = low xs first := List.length_take_of_le (clamp_le _ _)
  -- the range does not begin behind what is left: it is dropped only from there on
  have hclamp : clamp (drop xs first last).length (place (drop xs first last).length first) =
      low xs first := by
    have hlength : (drop xs first last).length = low xs first + (xs.length - high xs last) := by
      rw [drop_inside hplaces, List.length_append, hlow, List.length_drop]
    have hhigh := low_le_high hplaces
    rw [hlength, place_of_nonneg _ h]
    unfold low high clamp at *
    rw [place_of_nonneg _ h] at *
    omega
  rw [insert, hclamp, drop_inside hplaces, List.take_left' hlow, List.drop_left' hlow, keep_inside hplaces,
    List.append_assoc, take_append_stretch_append_drop xs (low_le_high hplaces)]

/-- The ways to take a range out of a list agree, whatever its ends are.  What is kept and what is dropped are
the list interleaved, the one being the stretch of the range, or all outside of that between its ends when
these are reversed; a replacement never looks beyond the list, and stands at the beginning of the range in
what is left without it, or behind all of that when the ends are reversed; and what is taken out can be put
back, in the place of the range, or into what is left. -/
theorem ranges_agree (xs ys : List α) (first last : Int32) :
    Interleave (keep xs first last) (drop xs first last) xs ∧
      (place xs.length first ≤ place xs.length last →
        keep xs first last = stretch xs (low xs first) (high xs last)) ∧
      (place xs.length last < place xs.length first →
        keep xs first last = xs.take (high xs last) ++ xs.drop (low xs first)) ∧
      replace? xs ys first last = some (replace xs ys first last) ∧
      replace xs ys first last = (drop xs first last).take (gap xs first last) ++ ys ++
        (drop xs first last).drop (gap xs first last) ∧
      (place xs.length first ≤ place xs.length last →
        replace xs (keep xs first last) first last = xs) ∧
      (0 ≤ first → first ≤ last → insert (drop xs first last) (keep xs first last) first = xs) :=
  ⟨interleave_filterPlaces _ xs, keep_inside, fun h => keep_outside (Int.not_le.2 h),
    replace?_eq_some xs ys first last, replace_eq xs ys first last, replace_keep xs,
    insert_drop_keep xs⟩

end

section Window

variable {xs p : List α} {m n : Nat} {j : Int32}

abbrev lastOf (j : Int32) (m : Nat) : Int32 := j + Int32.ofNat m - 1

theorem toInt_lastOf (hpos : 0 < m) (hm : m < 2 ^ 31) (j : Int32) :
    (lastOf j m).toInt =
      if j.toInt + m - 1 < 2 ^ 31 then j.toInt + m - 1 else j.toInt + m - 1 - 2 ^ 32 := by
  have hlow := j.le_toInt
  have hhigh := j.toInt_lt
  have hone : (1 : Int32).toInt = 1 := rfl
  rw [lastOf, Int32.toInt_sub, Int32.toInt_add, hone, Int32.toInt_ofNat_of_lt hm, Int.bmod_sub_bmod]
  simp only [Int.bmod]
  omega

theorem place_eq (n : Nat) (j : Int32) : place n j = if j.toInt < 0 then j.toInt + n else j.toInt := by
  simp only [place, Int32.lt_iff_toInt_lt, Int32.toInt_zero]

theorem cast_low (xs : List α) (j : Int32) :
    (low xs j : Int) = min (max (place xs.length j) 0) xs.length := by
  unfold low clamp
  omega

theorem cast_high (xs : List α) (j : Int32) :
    (high xs j : Int) = min (max (place xs.length j + 1) 0) xs.length := by
  unfold high clamp
  omega

theorem high_le (xs : List α) (j : Int32) : high xs j ≤ xs.length := clamp_le _ _

theorem stretch_eq_iff {a b : Nat} (hlength : a + p.length = b) :
    stretch xs a b = p ↔ p.IsPrefix (xs.drop a) := by
  rw [stretch, List.drop_take, List.prefix_iff_eq_take, eq_comm, ← hlength, Nat.add_sub_cancel_left]

theorem keep_lastOf (hp : p ≠ []) (hn : xs.length < 2 ^ 31) (h : p.IsPrefix (xs.drop n)) :
    keep xs (Int32.ofNat n) (lastOf (Int32.ofNat n) p.length) = p := by
  have hpos := List.length_pos_iff.2 hp
  have hlength := h.length_le
  rw [List.length_drop] at hlength
  have hlast := toInt_lastOf hpos (by omega) (Int32.ofNat n)
  have hfirst : (Int32.ofNat n).toInt = n := Int32.toInt_ofNat_of_lt (by omega)
  have hplace := place_eq xs.length (Int32.ofNat n)
  have hplace' := place_eq xs.length (lastOf (Int32.ofNat n) p.length)
  have hlow : low xs (Int32.ofNat n) = n := by
    have := cast_low xs (Int32.ofNat n)
    omega
  have hhigh : high xs (lastOf (Int32.ofNat n) p.length) = n + p.length := by
    have := cast_high xs (lastOf (Int32.ofNat n) p.length)
    omega
  rw [keep_inside (by omega), hlow, hhigh, stretch_eq_iff rfl]
  exact h

theorem prefix_of_keep_lastOf (hp : p ≠ []) (hm : p.length < 2 ^ 31) (hn : xs.length < 2 ^ 31)
    (hj : 0 ≤ j ∨ place xs.length j ≤ place xs.length (lastOf j p.length))
    (h : keep xs j (lastOf j p.length) = p) :
    0 ≤ place xs.length j ∧ p.IsPrefix (xs.drop (place xs.length j).toNat) := by
  have hpos := List.length_pos_iff.2 hp
  have hlast := toInt_lastOf hpos hm j
  have hfirst := place_eq xs.length j
  have hplace := place_eq xs.length (lastOf j p.length)
  have hlow := cast_low xs j
  have hhigh := cast_high xs (lastOf j p.length)
  have hlength := congrArg List.length h
  have hlt := j.toInt_lt
  by_cases hle : place xs.length j ≤ place xs.length (lastOf j p.length)
  · rw [keep_inside hle, length_stretch xs (high_le xs _)] at hlength
    rw [keep_inside hle] at h
    have hplaces : place xs.length (lastOf j p.length) = place xs.length j + p.length - 1 := by
      omega
    refine ⟨by omega, ?_⟩
    rw [stretch_eq_iff (by omega)] at h
    rwa [show (place xs.length j).toNat = low xs j by omega]
  · rw [keep_outside hle, List.length_append, List.length_take_of_le (high_le xs _), List.length_drop] at hlength
    rw [Int32.le_iff_toInt_le, Int32.toInt_zero] at hj
    omega

end Window

end Slice

end PrimScript
