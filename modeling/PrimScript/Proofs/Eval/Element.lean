import PrimScript.Proofs.Eval.Once
import PrimScript.Proofs.Event.Catalog

/-! Elements of lists that are assigned to.  The list is taken up before the index is evaluated and put back
with the new element after that.  So nothing is lost as long as the index leaves the variable alone, and what
it stores in the variable is lost otherwise. -/

namespace PrimScript

namespace Slice

variable {length : Nat} {i : Int32}

theorem index?_eq_some {k : Nat} (h : index? length i = some k) : place length i = k ∧ k < length := by
  rw [index?] at h
  split at h
  · next hp =>
    cases h
    omega
  · cases h

theorem index?_eq_none (h : index? length i = none) : ¬(0 ≤ place length i ∧ place length i < length) := by
  rw [index?] at h
  split at h
  · cases h
  · assumption

end Slice

/-- Items stand in the second list in place of an element of the first one; where that has no element with
the index, the lists are the same. -/
inductive Value.Replaced (i : Int32) (items : List Value) : List Value → List Value → Prop
  | element {before after : List Value} {x : Value} :
    Slice.place (before ++ x :: after).length i = before.length →
    Replaced i items (before ++ x :: after) (before ++ items ++ after)
  | outside {list : List Value} : ¬(0 ≤ Slice.place list.length i ∧ Slice.place list.length i < list.length) →
    Replaced i items list list

open Value

theorem Value.replaced_of_index? {list items : List Value} {i : Int32} {k : Nat}
    (h : Slice.index? list.length i = some k) :
    Replaced i items list (list.take k ++ items ++ list.drop (k + 1)) := by
  obtain ⟨hp, hk⟩ := Slice.index?_eq_some h
  have hlist : list.take k ++ list[k] :: list.drop (k + 1) = list := by
    rw [← List.drop_eq_getElem_cons hk, List.take_append_drop]
  have hr : Replaced i items (list.take k ++ list[k] :: list.drop (k + 1))
      (list.take k ++ items ++ list.drop (k + 1)) :=
    .element (by rw [hlist, hp, List.length_take_of_le (Nat.le_of_lt hk)])
  rwa [hlist] at hr

namespace CallStack

variable {s : CallStack} {name : String} {slot : Slot} (v : Value)

theorem assignGlobal_of_find? (h : s.globals.slots.find? name = some slot) :
    s.assignGlobal name v =
      .ok (v.coerce slot.type,
        { s with globals.slots := s.globals.slots.insert name (.of slot.type v) }) := by
  simp [assignGlobal, Frame.assign?, h, Slot.of]

theorem assign_of_slot? (h : s.slot? name = some slot) :
    ∃ s', s.assign name v = .ok (v.coerce slot.type, s') ∧ s'.slot? name = some (.of slot.type v) ∧
      ∀ other, other ≠ name → s'.slot? other = s.slot? other := by
  obtain ⟨globals, frames⟩ := s
  rw [slot?, Option.or_eq_some_iff] at h
  cases frames with
  | nil =>
    have hg := h.resolve_left nofun
    refine ⟨_, assignGlobal_of_find? v hg.2, ?_, fun other ho => ?_⟩
    · simp [slot?, top?]
    · simp [slot?, top?, NameMap.find?_insert_of_ne ho]
  | cons f rest =>
    rcases h with hf | ⟨hf, hg⟩
    · have hf' : f.slots.find? name = some slot := hf
      refine ⟨⟨globals, { f with slots := f.slots.insert name (.of slot.type v) } :: rest⟩, ?_, ?_,
        fun other ho => ?_⟩
      · simp [assign, Frame.assign?, hf', Slot.of]
      · simp [slot?, top?]
      · simp [slot?, top?, NameMap.find?_insert_of_ne ho]
    · have hf' : f.slots.find? name = none := hf
      have ha := assignGlobal_of_find? (s := ⟨globals, f :: rest⟩) v hg
      refine ⟨_, by simpa [assign, Frame.assign?, hf'] using ha, ?_, fun other ho => ?_⟩
      · simp [slot?, top?, hf']
      · simp [slot?, top?, NameMap.find?_insert_of_ne ho]

end CallStack

open Eval Machine

theorem Eval.on_setElement {name : String} {held : Value} {m : Machine}
    (h : m.stack.slot? name = some ⟨.list, held⟩) (taken : List Value) (i : Int32) (v : Value) :
    ∃ m', (setElement name taken i v).on m = (.ok .unit, m') ∧
      (∀ k, Slice.index? taken.length i = some k →
        m'.stack.slot? name = some ⟨.list, .list (taken.take k ++ v.asList ++ taken.drop (k + 1))⟩) ∧
      (Slice.index? taken.length i = none → m'.stack = m.stack) ∧
      ∀ other, other ≠ name → m'.stack.slot? other = m.stack.slot? other := by
  unfold setElement
  cases Slice.index? taken.length i with
  | none => exact ⟨_, rfl, nofun, fun _ => rfl, fun _ _ => rfl⟩
  | some k =>
    obtain ⟨stack, ha, hself, hother⟩ :=
      CallStack.assign_of_slot? (.list (taken.take k ++ v.asList ++ taken.drop (k + 1))) h
    refine ⟨m.setStack stack, ?_, ?_, nofun, hother⟩
    · dsimp only
      rw [on_discard, on_bind, assign, on_bind, on_get]
      dsimp only
      rw [ha]
      rfl
    · rintro _ ⟨⟩
      exact hself

/-- When the evaluation of the index leaves the variable as it is, the assignment replaces one element of the
list and nothing else. -/
theorem Expr.on_assign_element {s : Scope} {name : String} {value index : Expr} {v i : Value}
    {m n n' : Machine} {held : List Value} (hv : (value.eval s none).on m = (.ok v, n))
    (hi : (index.eval s none).on n = (.ok i, n'))
    (hn' : n'.stack.slot? name = some ⟨.list, .list held⟩)
    (hkept : n.stack.resolve name = n'.stack.resolve name) (hint : Option ValueType) :
    ∃ stored m', ((assign (.element name index) .assign value).eval s hint).on m = (.ok v, m') ∧
      Replaced i.asInteger v.asList held stored ∧
      m'.stack.slot? name = some ⟨.list, .list stored⟩ ∧
      ∀ other, other ≠ name → m'.stack.slot? other = n'.stack.slot? other := by
  have hr : (resolve name none).on n = (.ok (.list held), n) := by
    have hs : n.stack.resolve name = .ok (.list held) := by rw [hkept, CallStack.resolve, hn']
    rw [resolve, on_bind, on_get]
    dsimp only
    rw [hs, on_pure]
  obtain ⟨m', hset, hin, hout, hother⟩ := on_setElement hn' held i.asInteger v
  have hrun : ((assign (.element name index) .assign value).eval s hint).on m = (.ok v, m') := by
    rw [eval, Target.hint?, pure_bind, on_bind_ok hv]
    change ((Target.element name index).write s v).on n = _
    rw [Target.write, on_bind_ok hr]
    dsimp only
    rw [on_bind_ok hi]
    exact on_bind_ok hset
  cases hk : Slice.index? held.length i.asInteger with
  | none => exact ⟨held, m', hrun, .outside (Slice.index?_eq_none hk), by rw [hout hk, hn'], hother⟩
  | some k => exact ⟨_, m', hrun, replaced_of_index? hk, hin k hk, hother⟩

def Expr.putFive (index : Expr) : Expr := .assign (.element "l" index) .assign (.literal (.integer 5))

/-- The index is the place in the list that is next, which goes on by one. -/
theorem Expr.on_assign_element_next :
    let s : Scope := .ofScript .empty .default [] 0
    let index := step .increment false (.variable "i")
    let n' := ((index.eval s none).on counting).2
    let held := [.integer 1, .integer 2, .integer 3]
    ((literal (.integer 5)).eval s none).on counting = (.ok (.integer 5), counting) ∧
    (index.eval s none).on counting = (.ok (.integer 0), n') ∧
    n'.stack.slot? "l" = some ⟨.list, .list held⟩ ∧
    counting.stack.resolve "l" = n'.stack.resolve "l" ∧
    ∃ stored m', ((putFive index).eval s none).on counting = (.ok (.integer 5), m') ∧
      Replaced 0 [.integer 5] held stored ∧
      m'.stack.slot? "l" = some ⟨.list, .list stored⟩ ∧
      ∀ other, other ≠ "l" → m'.stack.slot? other = n'.stack.slot? other := by
  intro s index n' held
  have hi : (index.eval s none).on counting = (.ok (.integer 0), n') := rfl
  have hn' : n'.stack.slot? "l" = some ⟨.list, .list held⟩ := rfl
  exact ⟨rfl, hi, hn', rfl, on_assign_element rfl hi hn' rfl none⟩

/-- The index stores another list in the variable and comes to zero.  That list is lost. -/
theorem Expr.on_assign_element_stale :
    let s : Scope := .ofScript .empty .default [] 0
    let other := Expr.list ([7, 8, 9].map fun i => .literal (.integer i))
    let index := binary .equal (assign (.variable "l") .assign other) (.list [])
    let n' := (index.eval s none).on counting
    let m' := ((putFive index).eval s none).on counting
    (n'.1 = .ok (.integer 0) ∧
      n'.2.stack.resolve "l" = .ok (.list [.integer 7, .integer 8, .integer 9])) ∧
    (m'.1 = .ok (.integer 5) ∧
      m'.2.stack.resolve "l" = .ok (.list [.integer 5, .integer 2, .integer 3])) ∧
    ¬Replaced 0 [.integer 5] [.integer 7, .integer 8, .integer 9]
      [.integer 5, .integer 2, .integer 3] := by
  refine ⟨⟨rfl, rfl⟩, ⟨rfl, rfl⟩, fun h => ?_⟩
  generalize hl : [integer 7, integer 8, integer 9] = l at h
  generalize hl' : [integer 5, integer 2, integer 3] = l' at h
  cases h with
  | outside => simp [← hl] at hl'
  | @element before after x hp =>
    rw [← hl] at hp
    cases before with
    | nil =>
      cases hl
      simp at hl'
    | cons => exact absurd hp (by simp [Slice.place]; omega)

end PrimScript
