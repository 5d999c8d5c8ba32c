import PrimScript.Constant
import PrimScript.Eval.Expr

/-! Sets of values that evaluation does not lead out of. -/

namespace PrimScript.Value

structure Closed (V : Value → Prop) : Prop where
  integer : ∀ n, V (.integer n)
  float : ∀ x, V (.float x)
  string : ∀ s, V (.string s)
  null : V (.key Key.null)
  vector : ∀ v, V (.vector v)
  rotation : ∀ r, V (.rotation r)
  items : ∀ {v x}, V v → x ∈ v.asList → V x
  /-- Lists are made of the items of other values. -/
  list : ∀ {items}, (∀ x ∈ items, ∃ v, V v ∧ x ∈ v.asList) → V (.list items)
  coerce : ∀ t {v}, V v → V (v.coerce t)

namespace Closed

theorem all : Closed fun _ => True := by constructor <;> intros <;> trivial

variable {V : Value → Prop} (h : Closed V)
include h

theorem nil : V (.list []) := h.list (by simp)

theorem zero (t : ValueType) : V (Value.zero t) := by
  cases t with
  | integer => exact h.integer 0
  | float => exact h.float 0
  | string => exact h.string ""
  | key => exact h.null
  | vector => exact h.vector _
  | rotation => exact h.rotation _
  | list => exact h.nil

theorem fallback (hint : Option ValueType) : V (Eval.fallback hint) := by
  cases hint with
  | none => exact h.integer 0
  | some t => exact h.zero t

theorem ofBool (b : Bool) : V (Value.ofBool b) := h.integer _

theorem literal (l : Literal) : V l.value := by
  cases l with
  | integer n => exact h.integer n
  | float x => exact h.float x
  | string s => exact h.string s

theorem constant {name : String} {v : Value} (hv : Constant.find? name = some v) : V v := by
  obtain ⟨⟨n, w⟩, hw, rfl⟩ := Option.map_eq_some_iff.1 hv
  have hm := List.mem_of_find?_eq_some hw
  rw [Constant.all, List.mem_append] at hm
  cases hm with
  | inl hm =>
    obtain ⟨p, -, hp⟩ := List.mem_map.1 hm
    cases hp
    exact h.integer _
  | inr hm =>
    simp only [Constant.others, List.mem_cons, Prod.mk.injEq, List.not_mem_nil, or_false] at hm
    rcases hm with ⟨-, rfl⟩ | ⟨-, rfl⟩ | ⟨-, rfl⟩ | ⟨-, rfl⟩ | ⟨-, rfl⟩ | ⟨-, rfl⟩ | ⟨-, rfl⟩ | ⟨-, rfl⟩ |
      ⟨-, rfl⟩ | ⟨-, rfl⟩
    all_goals first | exact h.float _ | exact h.string _ | exact h.null | exact h.vector _ | exact h.rotation _

theorem splice {vs : List Value} (hvs : ∀ v ∈ vs, V v) : V (Value.splice vs) := by
  apply h.list
  intro x hx
  obtain ⟨v, hv, hx⟩ := List.mem_flatMap.1 hx
  exact ⟨v, hvs v hv, hx⟩

theorem sublist {v : Value} {items : List Value} (hv : V v) (hi : items ⊆ v.asList) :
    V (.list items) :=
  h.list fun _ hx => ⟨v, hv, hi hx⟩

theorem add {a b v : Value} (ha : V a) (hb : V b) (hv : Value.add a b = some v) : V v := by
  have hl {xs : List Value} (hx : ∀ x ∈ xs, x ∈ a.asList ∨ x ∈ b.asList) : V (.list xs) :=
    h.list fun x hm => (hx x hm).elim (⟨a, ha, ·⟩) (⟨b, hb, ·⟩)
  unfold Value.add at hv
  split at hv
  · cases hv
    exact hl fun x hx => List.mem_append.1 hx
  · next as _ hne =>
    cases hv
    refine hl fun x hx => ?_
    have hb' : b.asList = [b] := by cases b <;> simp_all [asList]
    rw [hb']
    exact List.mem_append.1 hx
  · next bs hne =>
    cases hv
    refine hl fun x hx => ?_
    have ha' : a.asList = [a] := by cases a <;> simp_all [asList]
    rw [ha']
    exact (List.mem_cons.1 hx).imp List.mem_singleton.2 id
  · cases hv
    exact h.integer _
  · cases hv
    exact h.vector _
  · cases hv
    exact h.rotation _
  · split at hv
    · cases hv
      exact h.string _
    · obtain ⟨p, -, rfl⟩ := Option.map_eq_some_iff.1 hv
      exact h.float _

theorem subtract {a b v : Value} (hv : Value.subtract a b = some v) : V v := by
  unfold Value.subtract at hv
  split at hv
  · cases hv
    exact h.integer _
  · cases hv
    exact h.vector _
  · cases hv
    exact h.rotation _
  · obtain ⟨p, -, rfl⟩ := Option.map_eq_some_iff.1 hv
    exact h.float _

theorem multiply {a b v : Value} (hv : Value.multiply a b = some v) : V v := by
  unfold Value.multiply at hv
  split at hv
  · cases hv
    exact h.integer _
  · cases hv
    exact h.float _
  · cases hv
    exact h.vector _
  · obtain ⟨p, -, rfl⟩ := Option.map_eq_some_iff.1 hv
    exact h.vector _
  · obtain ⟨p, -, rfl⟩ := Option.map_eq_some_iff.1 hv
    exact h.vector _
  · cases hv
    exact h.rotation _
  · obtain ⟨p, -, rfl⟩ := Option.map_eq_some_iff.1 hv
    exact h.float _

theorem divide {a b v : Value} (hv : Value.divide a b = some v) : V v := by
  unfold Value.divide at hv
  split at hv
  · cases hv
    exact h.integer _
  · cases hv
    exact h.vector _
  · obtain ⟨p, -, rfl⟩ := Option.map_eq_some_iff.1 hv
    exact h.vector _
  · cases hv
    exact h.rotation _
  · obtain ⟨p, -, rfl⟩ := Option.map_eq_some_iff.1 hv
    exact h.float _

theorem modulo {a b v : Value} (hv : Value.modulo a b = some v) : V v := by
  unfold Value.modulo at hv
  split at hv
  · cases hv
    exact h.integer _
  · cases hv
    exact h.vector _
  · cases hv

theorem notEqual (a b : Value) : V (Value.notEqual a b) := by
  unfold Value.notEqual
  split
  · exact h.integer _
  · exact h.ofBool _

theorem compareBy {f : Int32 → Int32 → Bool} {g : Float → Float → Bool} {a b v : Value}
    (hv : Value.compareBy f g a b = some v) : V v := by
  unfold Value.compareBy at hv
  split at hv
  · cases hv
    exact h.ofBool _
  · obtain ⟨p, -, rfl⟩ := Option.map_eq_some_iff.1 hv
    exact h.ofBool _

theorem bitwise {f : Int32 → Int32 → Int32} {a b v : Value}
    (hv : Value.bitwise f a b = some v) : V v := by
  unfold Value.bitwise at hv
  split at hv
  · cases hv
    exact h.integer _
  · cases hv

theorem applyBinary {op : BinaryOp} {a b v : Value} (ha : V a) (hb : V b)
    (hv : Value.applyBinary op a b = some v) : V v := by
  cases op with
  | add => exact h.add ha hb hv
  | subtract => exact h.subtract hv
  | multiply => exact h.multiply hv
  | divide => exact h.divide hv
  | modulo => exact h.modulo hv
  | equal => cases hv; exact h.ofBool _
  | notEqual => cases hv; exact h.notEqual a b
  | lessThan =>
    rw [Value.applyBinary] at hv
    exact h.compareBy hv
  | greaterThan =>
    rw [Value.applyBinary] at hv
    exact h.compareBy hv
  | lessThanEqual =>
    rw [Value.applyBinary] at hv
    exact h.compareBy hv
  | greaterThanEqual =>
    rw [Value.applyBinary] at hv
    exact h.compareBy hv
  | and => cases hv; exact h.ofBool _
  | or => cases hv; exact h.ofBool _
  | bitAnd => exact h.bitwise hv
  | bitOr => exact h.bitwise hv
  | bitXor => exact h.bitwise hv
  | shiftLeft => exact h.bitwise hv
  | shiftRight => exact h.bitwise hv

theorem applyUnary {op : UnaryOp} {a v : Value} (ha : V a) (hv : Value.applyUnary op a = some v) :
    V v := by
  unfold Value.applyUnary at hv
  split at hv
  · cases hv
    exact h.ofBool _
  · cases hv
  · cases hv
    exact ha
  · cases hv
    exact h.integer _
  · cases hv
    exact h.float _
  · cases hv
    exact h.vector _
  · cases hv
    exact h.rotation _
  · cases hv
    exact h.integer _
  · cases hv

theorem decided {op : BinaryOp} {a v : Value} (hv : op.decided? a = some v) : V v := by
  unfold BinaryOp.decided? at hv
  split at hv
  · split at hv
    · cases hv
    · cases hv
      exact h.integer 0
  · split at hv
    · cases hv
      exact h.integer 1
    · cases hv
  · cases hv

theorem stepped {op : StepOp} {a v : Value} (hv : op.apply? a = some v) : V v := by
  unfold StepOp.apply? at hv
  split at hv
  · cases hv
    exact h.integer _
  · cases hv
    exact h.integer _
  · cases hv
    exact h.float _
  · cases hv
    exact h.float _
  · cases hv

theorem withComponent {a v : Value} {axis : Axis} {x : Float}
    (hv : a.withComponent? axis x = some v) : V v := by
  unfold Value.withComponent? at hv
  split at hv
  · cases hv; exact h.vector _
  · cases hv; exact h.vector _
  · cases hv; exact h.vector _
  · cases hv; exact h.rotation _
  · cases hv; exact h.rotation _
  · cases hv; exact h.rotation _
  · cases hv; exact h.rotation _
  · cases hv

theorem replaced {a b : Value} (ha : V a) (hb : V b) (i : Nat) :
    V (.list (a.asList.take i ++ b.asList ++ a.asList.drop (i + 1))) := by
  apply h.list
  intro x hx
  simp only [List.mem_append] at hx
  obtain (hx | hx) | hx := hx
  · exact ⟨a, ha, List.mem_of_mem_take hx⟩
  · exact ⟨b, hb, hx⟩
  · exact ⟨a, ha, List.mem_of_mem_drop hx⟩

end Closed

end PrimScript.Value
