import PrimScript.Proofs.Eval.Deeds

/-! Elements of lists that are updated.  The index is evaluated when the element is read and again when it is
written.  That comes to the same as evaluating it once, but for what is reported, when nothing is called or
stored in it. -/

namespace PrimScript

namespace Machine

def told (m : Machine) (ds : Array Diagnostic) : Machine :=
  { m with world := { m.world with diagnostics := m.world.diagnostics ++ ds } }

def silent (m : Machine) : Machine := { m with world := { m.world with diagnostics := #[] } }

variable (m : Machine) (ds ds' : Array Diagnostic)

@[simp] theorem told_empty : m.told #[] = m := by simp [told]

@[simp] theorem told_told : (m.told ds).told ds' = m.told (ds ++ ds') := by simp [told]

@[simp] theorem stack_told : (m.told ds).stack = m.stack := rfl

end Machine

namespace Eval

variable {α β : Type}

theorem on_bind_ok {act : Eval α} {next : α → Eval β} {m n : Machine} {a : α}
    (h : act.on m = (.ok a, n)) : (act >>= next).on m = (next a).on n := by rw [on_bind, h]

/-- What the action comes to is read off the stack, and all it does is report. -/
def Observes (act : Eval α) : Prop :=
  ∀ stack, ∃ a ds, ∀ m : Machine, m.stack = stack → act.on m = (.ok a, m.told ds)

namespace Observes

variable {act : Eval α}

theorem pure (a : α) : Observes (pure a) := fun _ => ⟨a, #[], fun m _ => by simp⟩

theorem bind {next : α → Eval β} (h : Observes act) (hn : ∀ a, Observes (next a)) :
    Observes (act >>= next) := by
  intro stack
  obtain ⟨a, ds, ha⟩ := h stack
  obtain ⟨b, ds', hb⟩ := hn a stack
  refine ⟨b, ds ++ ds', fun m hm => ?_⟩
  rw [on_bind_ok (ha m hm), hb (m.told ds) hm, Machine.told_told]

theorem warn (kind : DiagnosticKind) (message : String) : Observes (warn kind message) :=
  fun _ => ⟨.unit, #[⟨kind, message⟩], fun _ _ => rfl⟩

theorem warn_then (kind : DiagnosticKind) (message : String) (h : Observes act) :
    Observes (Eval.warn kind message >>= fun _ => act) := (warn kind message).bind fun _ => h

theorem resolve (name : String) (hint : Option ValueType) : Observes (resolve name hint) := by
  intro stack
  cases hr : stack.resolve name with
  | ok v => exact ⟨v, #[], fun m hm => by simp [Eval.resolve, on_bind, hm, hr]⟩
  | error e =>
    obtain ⟨v, ds, hv⟩ := warn_then .unknownIdentifier e.message (pure (fallback hint)) stack
    exact ⟨v, ds, fun m hm => by rw [← hv m hm]; simp [Eval.resolve, on_bind, hm, hr]⟩

theorem binary (op : BinaryOp) (a b : Value) : Observes (binary op a b) := by
  unfold Eval.binary
  split
  · exact pure _
  · exact warn_then _ _ (pure _)

theorem unary (op : UnaryOp) (a : Value) : Observes (unary op a) := by
  unfold Eval.unary
  split
  · exact pure _
  · exact warn_then _ _ (pure _)

theorem component (of : String) (v : Value) (axis : Axis) : Observes (component of v axis) := by
  unfold Eval.component
  split
  · exact pure _
  · exact warn_then _ _ (pure _)

theorem element (of : String) (items : List Value) (index : Int32) (hint : Option ValueType) :
    Observes (element of items index hint) := by
  unfold Eval.element
  split
  · exact pure _
  · exact warn_then _ _ (pure _)

end Observes

end Eval

open Eval Machine

variable {s : Scope}

mutual

theorem Expr.observes_eval (hint : Option ValueType) : (e : Expr) → e.deeds = [] → Observes (e.eval s hint)
  | .literal l, _ => by
    rw [Expr.eval]
    exact .pure _
  | .ident name, _ => by
    rw [Expr.eval]
    exact .resolve name hint
  | .binary op left right, h => by
    obtain ⟨hl, hr⟩ := List.append_eq_nil_iff.1 h
    rw [Expr.eval]
    apply (left.observes_eval none hl).bind
    intro a
    split
    · exact .pure _
    · exact (right.observes_eval none hr).bind fun b => .binary op a b
  | .unary op operand, h => by
    rw [Expr.eval]
    exact (operand.observes_eval none h).bind fun a => .unary op a
  | .vector x y z, h => by
    obtain ⟨hxy, hz⟩ := List.append_eq_nil_iff.1 h
    obtain ⟨hx, hy⟩ := List.append_eq_nil_iff.1 hxy
    rw [Expr.eval]
    apply (x.observes_eval _ hx).bind
    intro a
    apply (y.observes_eval _ hy).bind
    intro b
    exact (z.observes_eval _ hz).bind fun c => .pure _
  | .rotation x y z w, h => by
    obtain ⟨hxyz, hw⟩ := List.append_eq_nil_iff.1 h
    obtain ⟨hxy, hz⟩ := List.append_eq_nil_iff.1 hxyz
    obtain ⟨hx, hy⟩ := List.append_eq_nil_iff.1 hxy
    rw [Expr.eval]
    apply (x.observes_eval _ hx).bind
    intro a
    apply (y.observes_eval _ hy).bind
    intro b
    apply (z.observes_eval _ hz).bind
    intro c
    exact (w.observes_eval _ hw).bind fun d => .pure _
  | .list items, h => by
    rw [Expr.eval]
    exact (Expr.observes_evalAll items h).bind fun vs => .pure _
  | .component of axis, h => by
    rw [Expr.eval]
    exact (of.observes_eval none h).bind fun v => .component _ v axis
  | .subscript of index, h => by
    obtain ⟨hl, hi⟩ := List.append_eq_nil_iff.1 h
    rw [Expr.eval]
    apply (of.observes_eval none hl).bind
    intro v
    exact (index.observes_eval none hi).bind fun i => .element _ _ _ hint
  | .slice of start stop, h => by
    obtain ⟨hls, hstop⟩ := List.append_eq_nil_iff.1 h
    obtain ⟨hl, hstart⟩ := List.append_eq_nil_iff.1 hls
    rw [Expr.eval]
    apply (of.observes_eval none hl).bind
    intro v
    apply (start.observes_eval none hstart).bind
    intro i
    exact (stop.observes_eval none hstop).bind fun j => .pure _
  | .cast type operand, h => by
    rw [Expr.eval]
    exact (operand.observes_eval (some type) h).bind fun v => .pure _

theorem Expr.observes_evalAll : (es : List Expr) → deedsOf es = [] → Observes (Expr.evalAll s es)
  | [], _ => by
    rw [Expr.evalAll]
    exact .pure _
  | e :: es, h => by
    obtain ⟨he, hes⟩ := List.append_eq_nil_iff.1 h
    rw [Expr.evalAll]
    apply (e.observes_eval none he).bind
    intro v
    exact (Expr.observes_evalAll es hes).bind fun vs => .pure _

end

namespace Eval

def readAt (s : Scope) (name : String) (index : Expr) : Eval (Value × Int32) := do
  let items := (← resolve name none).asList
  let i ← index.eval s none
  let v ← element s!"`{name}`" items i.asInteger none
  pure (v, i.asInteger)

def writeAt (name : String) (i : Int32) (v : Value) : Eval Value := do
  let items := (← resolve name none).asList
  setElement name items i v
  pure v

end Eval

def Expr.target? : Expr → Option Target
  | .assign target _ _ => some target
  | .step _ _ target => some target
  | _ => none

/-- The value of an expression as `Expr.eval` gives it, except that when an element is updated the index is
evaluated once. -/
def Expr.evalOnce (s : Scope) (hint : Option ValueType) : Expr → Eval Value
  | .assign (.element name index) op value => do
    let v ← value.eval s none
    match op.binary? with
    | none => (Target.element name index).write s v
    | some op => do
      let (old, i) ← readAt s name index
      writeAt name i (← Eval.binary op old v)
  | .step op before (.element name index) => do
    let (old, i) ← readAt s name index
    match op.apply? old with
    | some new => do
      let stored ← writeAt name i new
      pure (if before then stored else old)
    | none =>
      Eval.warn .typeMismatch s!"{op.symbol} cannot be applied to {old.type.name}"
      pure old
  | e => e.eval s hint

def Eval.Alike {α : Type} (r r' : Except Halt α × Machine) : Prop :=
  r.1 = r'.1 ∧ r.2.silent = r'.2.silent

namespace Eval.Alike

variable {α β : Type}

theorem refl (r : Except Halt α × Machine) : Alike r r := ⟨rfl, rfl⟩

theorem bind {act act' : Eval α} {next : α → Eval β} {m m' : Machine}
    (h : Alike (act.on m) (act'.on m'))
    (hn : ∀ a n n', n.silent = n'.silent → Alike ((next a).on n) ((next a).on n')) :
    Alike ((act >>= next).on m) ((act' >>= next).on m') := by
  rw [on_bind, on_bind]
  generalize act.on m = r at h ⊢
  generalize act'.on m' = r' at h ⊢
  obtain ⟨x | a, n⟩ := r <;> obtain ⟨x' | a', n'⟩ := r' <;> obtain ⟨hr, hm⟩ := h <;> cases hr
  · exact ⟨rfl, hm⟩
  · exact hn a n n' hm

theorem bind_pure {act act' : Eval α} {f : α → β} {m m' : Machine}
    (h : Alike (act.on m) (act'.on m')) :
    Alike ((act >>= fun a => pure (f a)).on m) ((act' >>= fun a => pure (f a)).on m') :=
  h.bind fun _ _ _ hn => ⟨rfl, hn⟩

end Eval.Alike

theorem Eval.alike_assign (name : String) (v : Value) (m : Machine) (ds : Array Diagnostic) :
    Alike ((assign name v).on (m.told ds)) ((assign name v).on m) := by
  rw [assign, on_bind_ok (on_get _), on_bind_ok (on_get _), stack_told]
  rcases m.stack.assign name v with (name | name) | ⟨stored, stack⟩ <;> exact ⟨rfl, rfl⟩

theorem Eval.alike_setElement (name : String) (items : List Value) (i : Int32) (v : Value) (m : Machine)
    (ds : Array Diagnostic) :
    Alike ((setElement name items i v).on (m.told ds)) ((setElement name items i v).on m) := by
  unfold setElement
  cases Slice.index? items.length i with
  | none => exact ⟨rfl, rfl⟩
  | some k =>
    dsimp only
    rw [discard_eq_bind]
    exact (alike_assign name _ m ds).bind_pure

theorem Target.read_write_element {index : Expr} (hi : index.deeds = []) (name : String) (m : Machine) :
    ∃ old i ds, ((element name index).read s).on m = (.ok old, m.told ds) ∧
      (readAt s name index).on m = (.ok (old, i), m.told ds) ∧
      ∀ ds' v, Alike (((element name index).write s v).on (m.told ds'))
        ((writeAt name i v).on (m.told ds')) := by
  -- Only reports come in between, so the list and the index are read off one stack, whenever that is.
  obtain ⟨list, ds₁, hlist⟩ := Observes.resolve name none m.stack
  obtain ⟨i, ds₂, hindex⟩ := index.observes_eval (s := s) none hi m.stack
  obtain ⟨old, ds₃, hold⟩ := Observes.element s!"`{name}`" list.asList i.asInteger none m.stack
  refine ⟨old, i.asInteger, ds₁ ++ (ds₂ ++ ds₃), ?_, ?_, fun ds' v => ?_⟩
  · rw [read, on_bind_ok (hlist m rfl)]
    dsimp only
    rw [on_bind_ok (hindex (m.told _) rfl), hold ((m.told _).told _) rfl, told_told, told_told]
  · rw [readAt, on_bind_ok (hlist m rfl)]
    dsimp only
    rw [on_bind_ok (hindex (m.told _) rfl), on_bind_ok (hold ((m.told _).told _) rfl), told_told,
      told_told, on_pure]
  · rw [write, writeAt, on_bind_ok (hlist (m.told _) rfl), on_bind_ok (hlist (m.told _) rfl)]
    dsimp only
    rw [on_bind_ok (hindex ((m.told _).told _) rfl)]
    exact (alike_setElement name _ _ v _ ds₂).bind_pure

theorem Expr.alike_evalOnce (s : Scope) (hint : Option ValueType) (e : Expr)
    (h : ∀ name index, e.target? = some (.element name index) → index.deeds = []) (m : Machine) :
    Alike ((e.eval s hint).on m) ((e.evalOnce s hint).on m) := by
  unfold Expr.evalOnce
  split
  · next name index op value =>
    have hi := h name index rfl
    rw [Expr.eval, Target.hint?, pure_bind, on_bind, on_bind]
    rcases (value.eval s none).on m with ⟨x | v, n⟩
    · exact .refl _
    · cases op.binary? with
      | none => exact .refl _
      | some op =>
        obtain ⟨old, i, ds, hread, hreadAt, hwrite⟩ := Target.read_write_element (s := s) hi name n
        obtain ⟨new, ds', hnew⟩ := Observes.binary op old v n.stack
        dsimp only
        rw [on_bind_ok hread, on_bind_ok hreadAt, on_bind_ok (hnew (n.told ds) rfl), told_told]
        dsimp only
        rw [on_bind_ok (hnew (n.told ds) rfl), told_told]
        exact hwrite _ new
  · next op before name index =>
    have hi := h name index rfl
    obtain ⟨old, i, ds, hread, hreadAt, hwrite⟩ := Target.read_write_element (s := s) hi name m
    rw [Expr.eval, on_bind_ok hread, on_bind_ok hreadAt]
    dsimp only
    cases op.apply? old with
    | none => exact .refl _
    | some new => exact (hwrite ds new).bind_pure
  · exact .refl _

def Expr.raise (index : Expr) : Expr := .assign (.element "l" index) .add (.literal (.integer 10))

def Machine.counting : Machine :=
  { ofWorld (.ofSettings .default (.plain [])) with
    stack := (CallStack.empty.declare "l" .list (.list [.integer 1, .integer 2, .integer 3])).declare
      "i" .integer (.integer 0) }

theorem Expr.alike_evalOnce_raise :
    (∀ name index, (raise (.ident "i")).target? = some (.element name index) → index.deeds = []) ∧
    Alike (((raise (.ident "i")).eval (.ofScript .empty .default [] 0) none).on counting)
      (((raise (.ident "i")).evalOnce (.ofScript .empty .default [] 0) none).on counting) := by
  have h : ∀ name index, (raise (.ident "i")).target? = some (.element name index) →
      index.deeds = [] := by
    rintro _ _ ⟨⟩
    rfl
  exact ⟨h, alike_evalOnce _ none _ h _⟩

/-- The index that goes on to the next place does so twice: the element that was read is the one before the one
that is written. -/
theorem Expr.eval_raise_next :
    let e := raise (.step .increment false (.variable "i"))
    let stack := ((e.eval (.ofScript .empty .default [] 0) none).on counting).2.stack
    let stack' := ((e.evalOnce (.ofScript .empty .default [] 0) none).on counting).2.stack
    (stack.resolve "l" = .ok (.list [.integer 1, .integer 11, .integer 3]) ∧
      stack.resolve "i" = .ok (.integer 2)) ∧
    stack'.resolve "l" = .ok (.list [.integer 11, .integer 2, .integer 3]) ∧
      stack'.resolve "i" = .ok (.integer 1) :=
  ⟨⟨rfl, rfl⟩, rfl, rfl⟩

end PrimScript
