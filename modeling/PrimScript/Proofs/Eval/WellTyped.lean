import PrimScript.Library.Catalog
import PrimScript.Proofs.Eval.Stable
import PrimScript.Proofs.Value.Items
import PrimScript.Proofs.Value.WellFormed

/-! Well-typed call stacks: every variable holds a well-formed value of the type it was declared with.
Evaluation keeps all stacks well-typed and comes to well-formed values; so does the library, whose lists are made of
the items of the arguments, or of texts. -/

namespace PrimScript

section

theorem Value.wellFormed_list {items : List Value}
    (h : ∀ x ∈ items, ∃ v : Value, v.WellFormed ∧ x ∈ v.asList) : (Value.list items).WellFormed :=
  Value.closed_wellFormed.list h

theorem Call.wellFormed_arg {c : Call} (h : ∀ v ∈ c.args, v.WellFormed) (i : Nat) :
    (c.arg i).WellFormed := by
  unfold Call.arg
  cases hi : c.args[i]? with
  | none => trivial
  | some v => exact h v (List.mem_of_getElem? hi)

namespace Library

open LibraryFunction

def Gives (f : LibraryFunction) : Prop :=
  f.returns = some .list → ∀ c w, (∀ v ∈ c.args, v.WellFormed) →
    ∀ u, (f.run c w).1 = .value u → u.WellFormed

theorem gives_of_ne {f : LibraryFunction} (h : f.returns ≠ some .list) : Gives f :=
  fun hr => absurd hr h

theorem gives_ofPure {name : String} {params : List ValueType} {returns : ValueType}
    {f : Call → Reply}
    (h : ∀ c, (∀ v ∈ c.args, v.WellFormed) → ∀ u, f c = .value u → u.WellFormed) :
    Gives (ofPure name params returns f) := fun _ c _ hc => h c hc

theorem gives_subset {name : String} {params : List ValueType} {returns : ValueType}
    {f : Call → List Value} (h : ∀ c, f c ⊆ c.list 0) :
    Gives (ofPure name params returns fun c => .list (f c)) := by
  apply gives_ofPure
  rintro c hc _ ⟨⟩
  exact Value.closed_wellFormed.sublist (Call.wellFormed_arg hc 0) (h c)

theorem gives_subset_append {name : String} {params : List ValueType} {returns : ValueType}
    {f : Call → List Value} (h : ∀ c, f c ⊆ c.list 0 ++ c.list 1) :
    Gives (ofPure name params returns fun c => .list (f c)) := by
  apply gives_ofPure
  rintro c hc _ ⟨⟩
  apply Value.wellFormed_list
  intro x hx
  rcases List.mem_append.1 (h c hx) with hx | hx
  · exact ⟨_, Call.wellFormed_arg hc 0, hx⟩
  · exact ⟨_, Call.wellFormed_arg hc 1, hx⟩

theorem gives_stringsOf {name : String} {params : List ValueType} {returns : ValueType}
    (f : Call → List (List Char)) :
    Gives (ofPure name params returns fun c => stringsOf (f c)) := by
  apply gives_ofPure
  rintro c - _ ⟨⟩
  intro x hx
  obtain ⟨cs, -, rfl⟩ := List.mem_map.1 hx
  trivial

theorem gives_lists : ∀ f ∈ lists, Gives f := by
  simp only [lists, List.forall_mem_cons]
  have element (name : String) {t : ValueType} (ht : t ≠ .list) : Gives (elementAs name t) :=
    gives_of_ne (by simpa [elementAs, ofPure] using ht)
  refine ⟨gives_of_ne (by decide), element _ (by decide), element _ (by decide), element _ (by decide),
    element _ (by decide), element _ (by decide), element _ (by decide), gives_of_ne (by decide),
    ?_, ?_, ?_, ?_, ?_, gives_of_ne (by decide), ?_, by simp⟩
  · exact gives_subset fun c => Slice.keep_subset _ _ _
  · exact gives_subset fun c => Slice.keepEvery_subset _ _ _ _
  · exact gives_subset fun c => Slice.drop_subset _ _ _
  · exact gives_subset_append fun c => Slice.insert_subset _ _ _
  · exact gives_subset_append fun c => Slice.replace_subset _ _ _ _
  · exact gives_subset fun c => Value.sortBlocks_subset _ _ _

theorem gives_texts : ∀ f ∈ texts, Gives f := by
  simp only [texts, List.forall_mem_cons]
  refine ⟨gives_of_ne (by decide), gives_of_ne (by decide), gives_of_ne (by decide), gives_of_ne (by decide),
    gives_of_ne (by decide), gives_of_ne (by decide), gives_of_ne (by decide), gives_of_ne (by decide),
    gives_of_ne (by decide), gives_of_ne (by decide), ?_, ?_, gives_of_ne (by decide), ?_,
    gives_of_ne (by decide), gives_of_ne (by decide), by simp⟩
  · exact gives_stringsOf _
  · exact gives_stringsOf _
  · exact gives_stringsOf _

theorem gives_all : ∀ f ∈ all, Gives f := by
  simp only [all, List.forall_mem_append]
  have other {fs : List LibraryFunction} (h : ∀ f ∈ fs, f.returns ≠ some .list) :
      ∀ f ∈ fs, Gives f := fun f hf => gives_of_ne (h f hf)
  refine ⟨⟨⟨⟨⟨⟨⟨⟨other ?_, other ?_⟩, other ?_⟩, other ?_⟩, other ?_⟩, gives_texts⟩, gives_lists⟩,
    other ?_⟩, other ?_⟩
  · decide
  · decide
  · decide
  · decide
  · decide
  · decide
  · decide

end Library

end

structure Slot.WellTyped (s : Slot) : Prop where
  value : s.value.WellFormed
  type : s.value.type = s.type

theorem Slot.wellTyped_of (t : ValueType) {v : Value} (h : v.WellFormed) :
    (Slot.of t v).WellTyped := ⟨h.coerce t, Value.type_coerce t v⟩

def Frame.WellTyped (f : Frame) : Prop := ∀ entry ∈ f.slots, entry.2.WellTyped

namespace Frame.WellTyped

theorem empty (owner : String) (returns : Option ValueType) :
    (Frame.empty owner returns).WellTyped := by simp [Frame.WellTyped, Frame.empty]

variable {f : Frame} (h : f.WellTyped)
include h

theorem declare (name : String) (type : ValueType) {v : Value} (hv : v.WellFormed) :
    (f.declare name type v).WellTyped := NameMap.forall_insert (Slot.wellTyped_of type hv) h

theorem find? {name : String} {slot : Slot} (hs : f.slots.find? name = some slot) :
    slot.WellTyped := h _ (NameMap.mem_of_find? hs)

theorem assign? {f' : Frame} {name : String} {v stored : Value} (hv : v.WellFormed)
    (ha : f.assign? name v = some (stored, f')) : stored.WellFormed ∧ f'.WellTyped := by
  obtain ⟨old, -, hold⟩ := Option.map_eq_some_iff.1 ha
  cases hold
  have hs := Slot.wellTyped_of old.type hv
  exact ⟨hs.value, NameMap.forall_insert hs h⟩

theorem bind (params : List Param) {args : List Value} (ha : ∀ v ∈ args, v.WellFormed) :
    (f.bind params args).WellTyped := by
  induction params generalizing f args with
  | nil => exact h
  | cons p ps ih =>
    cases args with
    | nil => exact ih (h.declare p.name p.type (Value.closed_wellFormed.zero p.type)) (by simp)
    | cons v vs =>
      rw [List.forall_mem_cons] at ha
      exact ih (h.declare p.name p.type ha.1) ha.2

end Frame.WellTyped

structure CallStack.WellTyped (s : CallStack) : Prop where
  globals : s.globals.WellTyped
  frames : ∀ f ∈ s.frames, f.WellTyped

namespace CallStack.WellTyped

variable {s : CallStack} (h : s.WellTyped)
include h

theorem slot? {name : String} {slot : Slot} (hs : s.slot? name = some slot) : slot.WellTyped := by
  rw [CallStack.slot?, Option.or_eq_some_iff] at hs
  rcases hs with hs | ⟨-, hs⟩
  · obtain ⟨f, hf, hs⟩ := Option.bind_eq_some_iff.1 hs
    exact (h.frames f (List.mem_of_mem_head? hf)).find? hs
  · exact h.globals.find? hs

theorem declare (name : String) (type : ValueType) {v : Value} (hv : v.WellFormed) :
    (s.declare name type v).WellTyped := by
  unfold CallStack.declare
  split
  · next f rest hs =>
    have hf := h.frames
    rw [hs, List.forall_mem_cons] at hf
    exact ⟨h.globals, List.forall_mem_cons.2 ⟨hf.1.declare name type hv, hf.2⟩⟩
  · exact ⟨h.globals.declare name type hv, h.frames⟩

theorem assignGlobal {name : String} {v stored : Value} {s' : CallStack} (hv : v.WellFormed)
    (ha : s.assignGlobal name v = .ok (stored, s')) : stored.WellFormed ∧ s'.WellTyped := by
  unfold CallStack.assignGlobal at ha
  split at ha
  · next hg =>
    cases ha
    obtain ⟨hs, hg⟩ := h.globals.assign? hv hg
    exact ⟨hs, hg, h.frames⟩
  · split at ha <;> cases ha

theorem assign {name : String} {v stored : Value} {s' : CallStack} (hv : v.WellFormed)
    (ha : s.assign name v = .ok (stored, s')) : stored.WellFormed ∧ s'.WellTyped := by
  unfold CallStack.assign at ha
  split at ha
  · next f rest hs =>
    have hf := h.frames
    rw [hs, List.forall_mem_cons] at hf
    split at ha
    · next hg =>
      cases ha
      obtain ⟨hstored, hf'⟩ := hf.1.assign? hv hg
      exact ⟨hstored, h.globals, List.forall_mem_cons.2 ⟨hf', hf.2⟩⟩
    · exact h.assignGlobal hv ha
  · exact h.assignGlobal hv ha

theorem push {f : Frame} (hf : f.WellTyped) : (s.push f).WellTyped :=
  ⟨h.globals, List.forall_mem_cons.2 ⟨hf, h.frames⟩⟩

theorem pop : s.pop.WellTyped := ⟨h.globals, fun f hf => h.frames f (List.mem_of_mem_tail hf)⟩

end CallStack.WellTyped

structure Machine.WellTyped (m : Machine) : Prop where
  stack : m.stack.WellTyped
  past : ∀ s, .stack s ∈ m.past.toList → s.WellTyped

namespace Machine.WellTyped

theorem ofWorld (w : World) : (Machine.ofWorld w).WellTyped where
  stack := ⟨.empty "" none, by simp [Machine.ofWorld, CallStack.empty]⟩
  past := by simp [Machine.ofWorld]

variable {m : Machine} (h : m.WellTyped)
include h

theorem of_push {m' : Machine} {x : Moment} (hp : m'.past = m.past.push x)
    (hs : m'.stack.WellTyped) (hx : ∀ s, x = .stack s → s.WellTyped) : m'.WellTyped where
  stack := hs
  past s hm := by
    rw [hp, History.toList_push, List.mem_append, List.mem_singleton] at hm
    exact hm.elim (h.past s) fun hm => hx s hm.symm

theorem setStack {s : CallStack} (hs : s.WellTyped) : (m.setStack s).WellTyped :=
  h.of_push rfl hs fun _ he => Moment.stack.inj he ▸ hs

end Machine.WellTyped

open Eval

theorem Eval.wellFormed_of_on_callLibrary {f : LibraryFunction} (hf : f ∈ Library.all)
    {args : List Value} (ha : ∀ v ∈ args, v.WellFormed) {detected : List Entity} {m : Machine}
    {v : Value} (h : ((callLibrary f args detected).on m).1 = .ok v) : v.WellFormed := by
  obtain rfl | ⟨u, hu, rfl⟩ := of_on_callLibrary h
  · exact Value.closed_wellFormed.fallback f.returns
  · cases hr : f.returns with
    | none => trivial
    | some t =>
      by_cases ht : t = .list
      · subst ht
        exact (Library.gives_all f hf hr _ _ ha u hu).coerce .list
      · exact Value.wellFormed_coerce_of_ne ht u

theorem Eval.framed_wellTyped : Framed Machine.WellTyped Value.WellFormed where
  closed := Value.closed_wellFormed
  warn _ _ hm := ⟨hm.stack, hm.past⟩
  stated _ hm := hm.of_push rfl hm.stack (by simp)
  capped hm := hm.of_push rfl hm.stack (by simp)
  taken hm := ⟨hm.stack, hm.past⟩
  slot hm hs := (hm.stack.slot? hs).value
  declare name type _ hm hv := hm.setStack (hm.stack.declare name type hv)
  assign hm hv hs := by
    obtain ⟨hstored, hstack⟩ := hm.stack.assign hv hs
    exact ⟨hstored, hm.setStack hstack⟩
  library hf ha _ := fun m hm => by
    rw [on_callLibrary_snd]
    exact ⟨⟨hm.stack, hm.past⟩, fun v hv => wellFormed_of_on_callLibrary hf ha hv⟩
  request target hm := hm.of_push rfl hm.stack (by simp)
  enter owner returns params _ hm ha :=
    hm.setStack (hm.stack.push (Frame.WellTyped.bind (.empty owner returns) params ha))
  leave hm := hm.setStack hm.stack.pop

end PrimScript
