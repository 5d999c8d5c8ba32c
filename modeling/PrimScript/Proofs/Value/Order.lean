import PrimScript.Proofs.Decimal.Order
import PrimScript.Value.Sort

/-! The order that lists are sorted by.  Numbers compare as numbers, texts as texts and vectors by
their lengths; values of different kinds count as equal, and what is not a number counts as equal
to everything.  So any two values compare the same from both sides, but what goes before a third by
way of a second need not go before it, unless the three are of one kind. -/

namespace PrimScript

section

variable {α κ : Type} {order : α → α → Ordering} {kind? : α → Option κ}

/-- What a sort asks of the comparison of its items: it says the same from both sides, and what does
not go behind a second one, which does not go behind a third, does not go behind the third. -/
structure TotalPreorderOn (order : α → α → Ordering) (xs : List α) : Prop where
  swap : ∀ a ∈ xs, ∀ b ∈ xs, order b a = (order a b).swap
  trans : ∀ a ∈ xs, ∀ b ∈ xs, ∀ c ∈ xs, order a b ≠ .gt → order b c ≠ .gt → order a c ≠ .gt

/-- When only items of one kind differ, and those of one kind are ordered, then an item of another
kind spoils the order of two that differ. -/
theorem totalPreorderOn_iff_of_kinds (swap : ∀ a b, order b a = (order a b).swap)
    (alike : ∀ a b, order a b ≠ .eq → ∃ k, kind? a = some k ∧ kind? b = some k)
    (trans : ∀ k a b c, kind? a = some k → kind? b = some k → kind? c = some k →
      order a b ≠ .gt → order b c ≠ .gt → order a c ≠ .gt) (xs : List α) :
    TotalPreorderOn order xs ↔
      (∀ a ∈ xs, ∀ b ∈ xs, order a b = .eq) ∨ ∃ k, ∀ a ∈ xs, kind? a = some k := by
  constructor
  · intro h
    by_contra hnot
    rw [not_or] at hnot
    obtain ⟨hdiffer, hkinds⟩ := hnot
    push Not at hdiffer hkinds
    obtain ⟨a, ha, b, hb, hab⟩ := hdiffer
    -- one of the two goes behind the other
    obtain ⟨a, ha, b, hb, hgt⟩ : ∃ a ∈ xs, ∃ b ∈ xs, order a b = .gt := by
      cases ho : order a b with
      | lt => exact ⟨b, hb, a, ha, by rw [swap a b, ho]; rfl⟩
      | eq => exact absurd ho hab
      | gt => exact ⟨a, ha, b, hb, ho⟩
    obtain ⟨k, hka, hkb⟩ := alike a b (by simp [hgt])
    obtain ⟨c, hc, hkc⟩ := hkinds k
    have hac : order a c = .eq := by
      by_contra hne
      obtain ⟨l, hl, hlc⟩ := alike a c hne
      exact hkc (by rw [hlc, ← hl, hka])
    have hcb : order c b = .eq := by
      by_contra hne
      obtain ⟨l, hlc, hl⟩ := alike c b hne
      exact hkc (by rw [hlc, ← hl, hkb])
    exact h.trans a ha c hc b hb (by simp [hac]) (by simp [hcb]) hgt
  · rintro (heq | ⟨k, hk⟩)
    · exact ⟨fun a _ b _ => swap a b, fun a ha _ _ c hc _ _ => by simp [heq a ha c hc]⟩
    · exact ⟨fun a _ b _ => swap a b,
        fun a ha b hb c hc => trans k a b c (hk a ha) (hk b hb) (hk c hc)⟩

end

namespace Value

section

open Decimal.Expansion (place? isNaN_iff lt_iff_place?)

variable {x y z : Float}

def compareFloats (x y : Float) : Ordering := if x < y then .lt else if y < x then .gt else .eq

theorem compareFloats_eq {i j : Int} (hx : (Decimal.Expansion.ofFloat x).place? = some i)
    (hy : (Decimal.Expansion.ofFloat y).place? = some j) : compareFloats x y = compare i j := by
  simp only [compareFloats, lt_iff_place?, hx, hy, Option.mem_def, Option.some.injEq,
    exists_eq_left']
  rcases lt_trichotomy i j with h | rfl | h
  · rw [if_pos h, compare_lt_iff_lt.2 h]
  · simp
  · rw [if_neg h.asymm, if_pos h, compare_gt_iff_gt.2 h]

theorem compareFloats_swap (x y : Float) : compareFloats y x = (compareFloats x y).swap := by
  cases hx : (Decimal.Expansion.ofFloat x).place? with
  | none => simp [compareFloats, lt_iff_place?, hx]
  | some i =>
    cases hy : (Decimal.Expansion.ofFloat y).place? with
    | none => simp [compareFloats, lt_iff_place?, hx, hy]
    | some j =>
      rw [compareFloats_eq hx hy, compareFloats_eq hy hx]
      exact Std.OrientedOrd.eq_swap

theorem isNaN_eq_false_of_compareFloats (h : compareFloats x y ≠ .eq) :
    x.isNaN = false ∧ y.isNaN = false := by
  simp only [← Bool.not_eq_true, isNaN_iff]
  refine ⟨fun hx => h ?_, fun hy => h ?_⟩
  · simp [compareFloats, lt_iff_place?, hx]
  · simp [compareFloats, lt_iff_place?, hy]

theorem exists_place (h : x.isNaN = false) : ∃ i, (Decimal.Expansion.ofFloat x).place? = some i := by
  rw [← Option.ne_none_iff_exists', ne_eq, ← isNaN_iff, h]
  exact Bool.false_ne_true

theorem compareFloats_trans (hx : x.isNaN = false) (hy : y.isNaN = false) (hz : z.isNaN = false)
    (h : (compareFloats x y).isLE) (h' : (compareFloats y z).isLE) : (compareFloats x z).isLE := by
  obtain ⟨i, hi⟩ := exists_place hx
  obtain ⟨j, hj⟩ := exists_place hy
  obtain ⟨k, hk⟩ := exists_place hz
  rw [compareFloats_eq hi hj] at h
  rw [compareFloats_eq hj hk] at h'
  rw [compareFloats_eq hi hk]
  exact Std.TransOrd.isLE_trans h h'

end

inductive Kind
  | number : Kind
  | text : Kind
  | length : Kind
  deriving DecidableEq, Repr

inductive Rank
  | number (x : Float) : Rank
  | text (s : String) : Rank
  | length (x : Float) : Rank
  | other : Rank

def rank : Value → Rank
  | .integer n => .number (integer n).asFloat
  | .float x => .number x
  | .string s => .text s
  | .key k => .text k
  | .vector v => .length v.magnitude
  | .rotation _ => .other
  | .list _ => .other

namespace Rank

def kind? : Rank → Option Kind
  | .number x => if x.isNaN then none else some .number
  | .text _ => some .text
  | .length x => if x.isNaN then none else some .length
  | .other => none

def order : Rank → Rank → Ordering
  | .number x, .number y => compareFloats x y
  | .text s, .text t => compare s t
  | .length x, .length y => compareFloats x y
  | _, _ => .eq

variable {r s t : Rank} {k : Kind}

theorem order_swap (r s : Rank) : s.order r = (r.order s).swap := by
  cases r with
  | number x =>
    cases s with
    | number y => exact compareFloats_swap x y
    | _ => rfl
  | text s' =>
    cases s with
    | text t' => exact Std.OrientedOrd.eq_swap
    | _ => rfl
  | length x =>
    cases s with
    | length y => exact compareFloats_swap x y
    | _ => rfl
  | other => cases s <;> rfl

theorem kind?_of_order (h : r.order s ≠ .eq) : ∃ k, r.kind? = some k ∧ s.kind? = some k := by
  cases r with
  | number x =>
    cases s with
    | number y =>
      obtain ⟨hx, hy⟩ := isNaN_eq_false_of_compareFloats h
      exact ⟨.number, by rw [kind?, hx]; rfl, by rw [kind?, hy]; rfl⟩
    | _ => exact absurd rfl h
  | text s' =>
    cases s with
    | text t' => exact ⟨.text, rfl, rfl⟩
    | _ => exact absurd rfl h
  | length x =>
    cases s with
    | length y =>
      obtain ⟨hx, hy⟩ := isNaN_eq_false_of_compareFloats h
      exact ⟨.length, by rw [kind?, hx]; rfl, by rw [kind?, hy]; rfl⟩
    | _ => exact absurd rfl h
  | other => cases s <;> exact absurd rfl h

theorem of_kind?_number (h : r.kind? = some .number) : ∃ x, r = .number x ∧ x.isNaN = false := by
  cases r <;> simp_all [kind?]

theorem of_kind?_text (h : r.kind? = some .text) : ∃ s, r = .text s := by
  cases r <;> simp_all [kind?]

theorem of_kind?_length (h : r.kind? = some .length) : ∃ x, r = .length x ∧ x.isNaN = false := by
  cases r <;> simp_all [kind?]

theorem order_trans (hr : r.kind? = some k) (hs : s.kind? = some k) (ht : t.kind? = some k)
    (h : (r.order s).isLE) (h' : (s.order t).isLE) : (r.order t).isLE := by
  cases k with
  | number =>
    obtain ⟨x, rfl, hx⟩ := of_kind?_number hr
    obtain ⟨y, rfl, hy⟩ := of_kind?_number hs
    obtain ⟨z, rfl, hz⟩ := of_kind?_number ht
    exact compareFloats_trans hx hy hz h h'
  | text =>
    obtain ⟨x, rfl⟩ := of_kind?_text hr
    obtain ⟨y, rfl⟩ := of_kind?_text hs
    obtain ⟨z, rfl⟩ := of_kind?_text ht
    exact Std.TransOrd.isLE_trans h h'
  | length =>
    obtain ⟨x, rfl, hx⟩ := of_kind?_length hr
    obtain ⟨y, rfl, hy⟩ := of_kind?_length hs
    obtain ⟨z, rfl, hz⟩ := of_kind?_length ht
    exact compareFloats_trans hx hy hz h h'

end Rank

theorem compareHeads_eq (a b : Value) : compareHeads a b = a.rank.order b.rank := by
  cases a <;> cases b <;> rfl

def blockRank (block : List Value) : Rank := (block.headD (.integer 0)).rank

theorem compareBlocks_eq (ascending : Bool) (a b : List Value) :
    compareBlocks ascending a b =
      if ascending then (blockRank a).order (blockRank b) else (blockRank b).order (blockRank a) := by
  unfold compareBlocks
  dsimp only
  rw [compareHeads_eq]
  split
  · rfl
  · exact (Rank.order_swap _ _).symm

theorem compareBlocks_swap (ascending : Bool) (a b : List Value) :
    compareBlocks ascending b a = (compareBlocks ascending a b).swap := by
  rw [compareBlocks_eq, compareBlocks_eq]
  split
  · exact Rank.order_swap _ _
  · exact Rank.order_swap _ _

/-- Blocks compare the same from both sides, and a sort can rely on their comparison just when all
of them count as equal, or all begin with values of one kind: with numbers, with texts, or with
vectors. -/
theorem compareBlocks_totalPreorder_iff (ascending : Bool) (blocks : List (List Value)) :
    (∀ a b, compareBlocks ascending b a = (compareBlocks ascending a b).swap) ∧
      (TotalPreorderOn (compareBlocks ascending) blocks ↔
        (∀ a ∈ blocks, ∀ b ∈ blocks, compareBlocks ascending a b = .eq) ∨
          ∃ k, ∀ a ∈ blocks, (blockRank a).kind? = some k) := by
  refine ⟨compareBlocks_swap ascending, totalPreorderOn_iff_of_kinds (compareBlocks_swap ascending)
    (fun a b h => ?_) (fun k a b c ha hb hc h h' => ?_) blocks⟩
  · rw [compareBlocks_eq] at h
    split at h
    · exact Rank.kind?_of_order h
    · obtain ⟨k, hb, ha⟩ := Rank.kind?_of_order h
      exact ⟨k, ha, hb⟩
  · rw [compareBlocks_eq, ne_eq, ← Ordering.isLE_iff_ne_gt] at h h' ⊢
    cases ascending with
    | true => exact Rank.order_trans ha hb hc h h'
    | false => exact Rank.order_trans hc hb ha h' h

def mixed : List Value := [.float 2, .string "x", .float 1]

/-- The text counts as equal to both numbers, so that the greater one does not go behind the text,
nor the text behind the lesser one. -/
theorem not_totalPreorderOn_mixed :
    ¬ ∀ ascending blocks, TotalPreorderOn (compareBlocks ascending) blocks := fun h =>
  (h true (mixed.map fun v => [v])).trans [.float 2] (by simp [mixed])
    [.string "x"] (by simp [mixed]) [.float 1] (by simp [mixed]) (by decide) (by decide) rfl

/-- Sorting leaves the greater number before the lesser one. -/
example : sortBlocks mixed 1 true = mixed := rfl

end Value

end PrimScript
