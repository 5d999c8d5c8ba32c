import PrimScript.Eval.Stmt
import PrimScript.Proofs.Eval.Ensures
import PrimScript.Proofs.World.Alike
import PrimScript.Proofs.Value.Closed

/-! Contracts of evaluation.  A contract says what is kept of the machine, what holds of the values that
are met, and of the ways in which statements and whole runs end.  When the basic actions keep to it, so
does every expression, statement and body.  The functions of the script are left to the scope, as
evaluation leaves them. -/

namespace PrimScript

namespace Eval

structure Contract where
  machine : Machine → Prop
  value : Value → Prop
  /-- How evaluation is halted. -/
  halt : Halt → Machine → Prop
  /-- How statements end. -/
  flow : Flow → Machine → Prop
  /-- The states that statements go over to. -/
  target : String → Prop
  /-- May statements be entered along paths that lead nowhere? -/
  lost : Prop

namespace Contract

variable (K : Contract)

/-- The action keeps to the contract, and what it comes to satisfies `W`. -/
def Yields {α : Type} (W : α → Prop) (act : Eval α) : Prop :=
  Meets K.machine (fun a m => K.machine m ∧ W a) K.halt act

def Ends (act : Eval Flow) : Prop := Meets K.machine K.flow K.halt act

def Calls (s : Scope) : Prop :=
  ∀ ⦃name f args⦄, s.functions.find? name = some f → (∀ v ∈ args, K.value v) →
    K.Yields K.value (s.invoke name f args)

structure ForExprs : Prop where
  closed : Value.Closed K.value
  warn : ∀ {m kind} message, kind.isFault → K.machine m →
    K.machine { m with world := m.world.report kind message }
  slot : ∀ {m name slot}, K.machine m → m.stack.slot? name = some slot → K.value slot.value
  declare : ∀ {m} name type {v}, K.machine m → K.value v →
    K.machine (m.setStack (m.stack.declare name type v))
  assign : ∀ {m name v stored stack}, K.machine m → K.value v →
    m.stack.assign name v = .ok (stored, stack) → K.value stored ∧ K.machine (m.setStack stack)
  library : ∀ {f args}, f ∈ Library.all → (∀ v ∈ args, K.value v) → ∀ detected,
    K.Yields K.value (callLibrary f args detected)

variable {K} {α β : Type} {W W' : α → Prop} {U : β → Prop}

theorem machine_of_and {p : Prop} (m : Machine) (h : K.machine m ∧ p) : K.machine m := h.1

namespace Yields

theorem pure {a : α} (h : W a) : K.Yields W (pure a) := Meets.pure fun _ hm => ⟨hm, h⟩

theorem modify {f : Machine → Machine} (h : ∀ m, K.machine m → K.machine (f m)) :
    K.Yields (fun _ => True) (modify f : Eval PUnit) := Meets.modify fun m hm => ⟨h m hm, trivial⟩

theorem bind {act : Eval α} {next : α → Eval β} (h : K.Yields W act)
    (hn : ∀ a, W a → K.Yields U (next a)) : K.Yields U (act >>= next) :=
  Meets.bind h fun a m hm => hn a hm.2 m hm.1

theorem bind_ends {act : Eval α} {next : α → Eval Flow} (h : K.Yields W act)
    (hn : ∀ a, W a → K.Ends (next a)) : K.Ends (act >>= next) :=
  Meets.bind h fun a m hm => hn a hm.2 m hm.1

theorem mono {act : Eval α} (h : K.Yields W act) (hw : ∀ a, W a → W' a) : K.Yields W' act :=
  Meets.mono h (fun _ => id) fun a _ => And.imp_right (hw a)

theorem discard {act : Eval α} (h : K.Yields W act) : K.Yields (fun _ => True) (discard act) :=
  (Meets.discard h fun _ m hm => machine_of_and m hm).mono (fun _ => id) fun _ _ hm => ⟨hm, trivial⟩

theorem get_bind {next : Machine → Eval α} (h : ∀ m, K.machine m → K.Yields W (next m)) :
    K.Yields W (get >>= next) := Meets.get_bind h

theorem typeOf (name : String) : K.Yields (fun _ => True) (typeOf? name) :=
  get_bind fun _ _ => pure trivial

theorem returnType : K.Yields (fun _ => True) returnType? := get_bind fun _ _ => pure trivial

end Yields

namespace ForExprs

variable (h : K.ForExprs)
include h

theorem warned (kind : DiagnosticKind) (message : String) (hk : kind.isFault) :
    K.Yields (fun _ => True) (Eval.warn kind message) :=
  .modify fun _ => h.warn message hk

theorem warned_then {act : Eval α} (kind : DiagnosticKind) (message : String)
    (ha : K.Yields W act) (hk : kind.isFault) :
    K.Yields W (Eval.warn kind message >>= fun _ => act) :=
  (h.warned kind message hk).bind fun _ _ => ha

theorem resolve (name : String) (hint : Option ValueType) :
    K.Yields K.value (Eval.resolve name hint) := by
  unfold Eval.resolve
  apply Yields.get_bind
  intro m hm
  split
  · next v hv =>
    apply Yields.pure
    unfold CallStack.resolve at hv
    split at hv
    · next slot hslot =>
      cases hv
      exact h.slot hm hslot
    · split at hv
      · next w hw =>
        cases hv
        exact h.closed.constant hw
      · cases hv
  · exact h.warned_then _ _ (.pure (h.closed.fallback hint)) rfl

theorem declared (name : String) (type : ValueType) {v : Value} (hv : K.value v) :
    K.Yields (fun _ => True) (Eval.declare name type v) :=
  .modify fun _ hm => h.declare name type hm hv

theorem assigned (name : String) {v : Value} (hv : K.value v) :
    K.Yields K.value (Eval.assign name v) := by
  intro m hm
  rw [Eval.assign, on_bind]
  rcases hs : m.stack.assign name v with (name | name) | ⟨stored, stack⟩
  · have hd := (h.declared name v.type hv).bind fun _ _ => Yields.pure hv
    simpa [hs] using h.warned_then .unknownIdentifier _ hd rfl m hm
  · simpa [hs] using h.warned_then .typeMismatch _ (.pure hv) rfl m hm
  · obtain ⟨hstored, hstack⟩ := h.assign hm hv hs
    simp only [on_get, hs, on_bind, on_modify, on_pure]
    exact ⟨hstack, hstored⟩

theorem binary (op : BinaryOp) {a b : Value} (ha : K.value a) (hb : K.value b) :
    K.Yields K.value (Eval.binary op a b) := by
  unfold Eval.binary
  split
  · next v hv => exact .pure (h.closed.applyBinary ha hb hv)
  · exact h.warned_then _ _ (.pure (h.closed.zero _)) rfl

theorem unary (op : UnaryOp) {a : Value} (ha : K.value a) :
    K.Yields K.value (Eval.unary op a) := by
  unfold Eval.unary
  split
  · next v hv => exact .pure (h.closed.applyUnary ha hv)
  · exact h.warned_then _ _ (.pure (h.closed.zero _)) rfl

theorem component (of : String) (v : Value) (axis : Axis) :
    K.Yields K.value (Eval.component of v axis) := by
  unfold Eval.component
  split
  · exact .pure (h.closed.float _)
  · exact h.warned_then _ _ (.pure (h.closed.float 0)) rfl

theorem element (of : String) {v : Value} (hv : K.value v) (index : Int32)
    (hint : Option ValueType) : K.Yields K.value (Eval.element of v.asList index hint) := by
  unfold Eval.element
  split
  · next x hx =>
    obtain ⟨i, -, hi⟩ := Option.bind_eq_some_iff.1 hx
    exact .pure (h.closed.items hv (List.mem_of_getElem? hi))
  · exact h.warned_then _ _ (.pure (h.closed.fallback hint)) rfl

theorem setComponent (name : String) (axis : Axis) (x : Float) :
    K.Yields (fun _ => True) (Eval.setComponent name axis x) := by
  unfold Eval.setComponent
  apply (h.resolve name none).bind
  intro old _
  split
  · next v hv => exact (h.assigned name (h.closed.withComponent hv)).discard
  · exact h.warned _ _ rfl

theorem setElement (name : String) {old v : Value} (hold : K.value old) (hv : K.value v)
    (index : Int32) : K.Yields (fun _ => True) (Eval.setElement name old.asList index v) := by
  unfold Eval.setElement
  split
  · next i _ => exact (h.assigned name (h.closed.replaced hold hv i)).discard
  · exact h.warned _ _ rfl

theorem argument (callee : String) (number : Nat) (t : ValueType) {v : Value} (hv : K.value v) :
    K.Yields K.value (Eval.argument callee number t v) := by
  have hp : K.Yields K.value (Pure.pure (v.coerce t)) := .pure (h.closed.coerce t hv)
  unfold Eval.argument
  split
  · exact hp
  · exact h.warned_then _ _ hp rfl

theorem complete (callee : String) (params : List ValueType) (given : Nat) {args : List Value}
    (ha : ∀ v ∈ args, K.value v) :
    K.Yields (fun vs => ∀ v ∈ vs, K.value v) (Eval.complete callee params given args) := by
  have hp : K.Yields (fun vs => ∀ v ∈ vs, K.value v)
      (Pure.pure (args ++ (params.drop args.length).map Value.zero)) := by
    apply Yields.pure
    intro v hv
    rcases List.mem_append.1 hv with hv | hv
    · exact ha v hv
    · obtain ⟨t, -, rfl⟩ := List.mem_map.1 hv
      exact h.closed.zero t
  unfold Eval.complete
  split
  · exact hp
  · exact h.warned_then _ _ hp rfl

end ForExprs

end Contract

end Eval

end PrimScript
