import Mathlib.Data.List.Sort
import PrimScript.Proofs.Decimal.Whole
import PrimScript.Proofs.Value.Order

/-! Sorted lists.  Blocks are put in one by one, among those sorted before, which stand in reverse: that is the
insertion sort of the blocks from the last one on, where a block stops before the first one that it does not
go before.  So the blocks of a list are those of the sorted list, in another order.  Where a key of the blocks
decides how they compare, they come out in the order of their keys, in the one direction or the other, and
those with the same key stay as they stood. -/

namespace PrimScript

section

variable {α κ : Type}

theorem filter_insertionSort (r : α → α → Prop) [DecidableRel r] (p : α → Bool) (xs : List α)
    (h : ∀ a ∈ xs, ∀ b ∈ xs, p a → p b → r a b) : (xs.insertionSort r).filter p = xs.filter p := by
  have hpairwise : (xs.filter p).Pairwise r := by
    refine List.pairwise_of_forall_mem_list fun a ha b hb => ?_
    rw [List.mem_filter] at ha hb
    exact h a ha.1 b hb.1 ha.2 hb.2
  have hsub : (xs.filter p).Sublist ((xs.insertionSort r).filter p) := by
    have := (List.sublist_insertionSort hpairwise List.filter_sublist).filter p
    simpa only [List.filter_filter, Bool.and_self] using this
  have hperm := (List.perm_insertionSort r xs).filter p
  exact (hsub.eq_of_length hperm.length_eq.symm).symm

/-- The items stand in the order of their keys, and those with one key as they stood before. -/
structure StablySorted [LE κ] [DecidableEq κ] (key : α → κ) (ascending : Bool)
    (before after : List α) : Prop where
  ordered : after.Pairwise fun a b => if ascending then key a ≤ key b else key b ≤ key a
  stable : ∀ k, after.filter (key · = k) = before.filter (key · = k)

end

instance lawfulOrderOrd_string : Std.LawfulOrderOrd String where
  isLE_compare _ _ := isLE_compareOfLessAndEq String.le_antisymm String.not_le String.le_total
  isGE_compare _ _ := isGE_compareOfLessAndEq String.le_antisymm String.not_le String.le_total

namespace Value

def blockSize (stride : Int32) : Nat := if stride < 1 then 1 else stride.toInt.toNat

theorem blockSize_pos (stride : Int32) : 0 < blockSize stride := by
  unfold blockSize
  split
  · exact Nat.one_pos
  · next h =>
    have h1 : (1 : Int32).toInt = 1 := rfl
    rw [Int32.not_lt, Int32.le_iff_toInt_le, h1] at h
    omega

section Blocks

variable {size : Nat}

theorem flatten_blocks (hsize : 0 < size) (count : Nat) (vs : List Value) (h : vs.length ≤ count) :
    (blocks size count vs).flatten = vs := by
  induction count generalizing vs with
  | zero =>
    rw [List.length_eq_zero_iff.1 (Nat.le_zero.1 h)]
    rfl
  | succ count ih =>
    cases vs with
    | nil => rfl
    | cons v vs =>
      have hdrop : ((v :: vs).drop size).length ≤ count := by
        simp only [List.length_cons, List.length_drop] at h ⊢
        omega
      rw [blocks, List.flatten_cons, ih _ hdrop, List.take_append_drop]

theorem length_of_mem_blocks (count : Nat) (vs : List Value) (h : size ∣ vs.length) :
    ∀ block ∈ blocks size count vs, block.length = size := by
  induction count generalizing vs with
  | zero => exact List.forall_mem_nil _
  | succ count ih =>
    cases vs with
    | nil => exact List.forall_mem_nil _
    | cons v vs =>
      have hle : size ≤ (v :: vs).length := Nat.le_of_dvd (Nat.succ_pos _) h
      have hdrop : size ∣ ((v :: vs).drop size).length := by
        rw [List.length_drop]
        exact Nat.dvd_sub h (Nat.dvd_refl size)
      rw [blocks, List.forall_mem_cons]
      exact ⟨by rw [List.length_take, Nat.min_eq_left hle], ih _ hdrop⟩

end Blocks

section Sorted

variable (ascending : Bool) (bs : List (List Value))

/-- A block is put in no later than before one that it does not go before. -/
abbrev Behind (a b : List Value) : Prop := compareBlocks ascending a b ≠ .lt

def sorted : List (List Value) :=
  (bs.foldl (fun sorted block => insertBlock ascending block sorted) []).reverse

theorem insertBlock_eq (block : List Value) :
    insertBlock ascending block bs = bs.orderedInsert (Behind ascending) block := by
  induction bs with
  | nil => rfl
  | cons last bs ih => rw [insertBlock, List.orderedInsert_cons, ih, ite_not]

theorem sorted_eq : sorted ascending bs = (bs.reverse.insertionSort (Behind ascending)).reverse := by
  have hinsert : (fun sorted block => insertBlock ascending block sorted) =
      fun sorted block => List.orderedInsert (Behind ascending) block sorted :=
    funext₂ fun sorted block => insertBlock_eq ascending sorted block
  rw [sorted, hinsert, List.insertionSort, List.foldr_reverse]

theorem sorted_perm : (sorted ascending bs).Perm bs := by
  rw [sorted_eq]
  exact (List.reverse_perm _).trans ((List.perm_insertionSort _ _).trans (List.reverse_perm _))

theorem sortBlocks_of_dvd {vs : List Value} {stride : Int32} (h : blockSize stride ∣ vs.length) :
    sortBlocks vs stride ascending =
      (sorted ascending (blocks (blockSize stride) vs.length vs)).flatten :=
  if_neg (not_not.2 (Nat.mod_eq_zero_of_dvd h))

theorem sortBlocks_of_not_dvd {vs : List Value} {stride : Int32} (h : ¬ blockSize stride ∣ vs.length) :
    sortBlocks vs stride ascending = vs :=
  if_pos (mt Nat.dvd_of_mod_eq_zero h)

end Sorted

section Keys

variable {κ : Type} [LE κ] {key : List Value → κ} {bs : List (List Value)}

def KeyBehind (ascending : Bool) (k l : κ) : Prop := if ascending then l ≤ k else k ≤ l

theorem behind_iff [Ord κ] [Std.LawfulOrderOrd κ] (ascending : Bool) {a b : List Value}
    (h : compareBlocks true a b = compare (key a) (key b)) :
    Behind ascending a b ↔ KeyBehind ascending (key a) (key b) := by
  cases ascending with
  | true =>
    change compareBlocks true a b ≠ .lt ↔ key b ≤ key a
    rw [h, ← Std.isGE_compare, Ordering.isGE_iff_ne_lt]
  | false =>
    change (compareBlocks true a b).swap ≠ .lt ↔ key a ≤ key b
    rw [h, ← Std.isLE_compare, Ordering.isLE_iff_ne_gt, ne_eq, Ordering.swap_eq_lt]

instance [DecidableLE κ] (ascending : Bool) :
    DecidableRel (KeyBehind ascending : κ → κ → Prop) := fun k l =>
  inferInstanceAs (Decidable (if ascending then l ≤ k else k ≤ l))

variable [Std.IsLinearOrder κ]

instance (ascending : Bool) : Std.Total (KeyBehind ascending : κ → κ → Prop) := ⟨fun k l => by
  cases ascending with
  | true => exact Std.IsLinearPreorder.le_total l k
  | false => exact Std.IsLinearPreorder.le_total k l⟩

instance (ascending : Bool) : IsTrans κ (KeyBehind ascending) := ⟨fun k l m => by
  cases ascending with
  | true => exact fun hkl hlm => Std.IsPreorder.le_trans m l k hlm hkl
  | false => exact Std.IsPreorder.le_trans k l m⟩

theorem keyBehind_self (ascending : Bool) (k : κ) : KeyBehind ascending k k :=
  (Std.Total.total k k).elim id id

theorem stablySorted_sorted [Ord κ] [Std.LawfulOrderOrd κ] [DecidableEq κ] [DecidableLE κ]
    (ascending : Bool) (h : ∀ a ∈ bs, ∀ b ∈ bs, compareBlocks true a b = compare (key a) (key b)) :
    StablySorted key ascending bs (sorted ascending bs) := by
  have hbehind : ∀ a ∈ bs.reverse, ∀ b ∈ bs.reverse,
      Behind ascending a b ↔ KeyBehind ascending (key a) (key b) := fun a ha b hb =>
    behind_iff ascending (h a (List.mem_reverse.1 ha) b (List.mem_reverse.1 hb))
  rw [sorted_eq]
  refine ⟨?_, fun k => ?_⟩
  · have hmap := List.map_insertionSort (Behind ascending) (KeyBehind ascending) key bs.reverse hbehind
    have hpairwise := List.pairwise_insertionSort (KeyBehind ascending) (bs.reverse.map key)
    rw [← hmap, List.pairwise_map] at hpairwise
    exact List.pairwise_reverse.2 hpairwise
  · rw [List.filter_reverse, filter_insertionSort, ← List.filter_reverse, List.reverse_reverse]
    intro a ha b hb hka hkb
    rw [hbehind a ha b hb, of_decide_eq_true hka, of_decide_eq_true hkb]
    exact keyBehind_self ascending k

end Keys

def headInteger : List Value → Int32
  | .integer n :: _ => n
  | _ => 0

def headText : List Value → String
  | .string s :: _ => s
  | .key s :: _ => s
  | _ => ""

def BeginsWithInteger (block : List Value) : Prop := ∃ n, block.head? = some (.integer n)

def BeginsWithText (block : List Value) : Prop :=
  ∃ s, block.head? = some (.string s) ∨ block.head? = some (.key s)

theorem compareFloats_floatOf (m n : Int32) : compareFloats (floatOf m) (floatOf n) = compare m n := by
  simp only [compareFloats, floatOf_lt_floatOf_iff]
  split
  · next h => exact (Std.compare_eq_lt.2 h).symm
  · next h =>
    split
    · next h' => exact (Std.compare_eq_gt.2 h').symm
    · next h' =>
      have heq : m = n := Int32.le_antisymm (Int32.not_lt.1 h') (Int32.not_lt.1 h)
      exact (Std.compare_eq_iff_eq.2 heq).symm

theorem compareBlocks_integers {a b : List Value} (ha : BeginsWithInteger a) (hb : BeginsWithInteger b) :
    compareBlocks true a b = compare (headInteger a) (headInteger b) := by
  obtain ⟨m, hm⟩ := ha
  obtain ⟨n, hn⟩ := hb
  obtain ⟨as, rfl⟩ := List.head?_eq_some_iff.1 hm
  obtain ⟨bs, rfl⟩ := List.head?_eq_some_iff.1 hn
  exact compareFloats_floatOf m n

theorem compareBlocks_texts {a b : List Value} (ha : BeginsWithText a) (hb : BeginsWithText b) :
    compareBlocks true a b = compare (headText a) (headText b) := by
  obtain ⟨s, hs⟩ := ha
  obtain ⟨t, ht⟩ := hb
  rcases hs with hs | hs <;> rcases ht with ht | ht <;>
  · obtain ⟨as, rfl⟩ := List.head?_eq_some_iff.1 hs
    obtain ⟨bs, rfl⟩ := List.head?_eq_some_iff.1 ht
    rfl

end Value

end PrimScript
