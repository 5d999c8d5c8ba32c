import PrimScript.Proofs.Eval.Run

/-! What evaluation keeps however it ends.  `I` is about the machine and `V` about the values that are
met: when the basic actions keep them, so does every expression, statement and body.  This is the
contract that asks nothing else of the ends of statements and halts. -/

namespace PrimScript

namespace Eval

structure Stable (I : Machine → Prop) (V : Value → Prop) : Prop where
  closed : Value.Closed V
  warn : ∀ {m kind} message, kind.isFault → I m → I { m with world := m.world.report kind message }
  stated : ∀ {m} target, I m → I (m.note (.stated target))
  capped : ∀ {m}, I m → I (m.note .capped)
  taken : ∀ {m}, I m → I { m with requested := none }
  slot : ∀ {m name slot}, I m → m.stack.slot? name = some slot → V slot.value
  declare : ∀ {m} name type {v}, I m → V v → I (m.setStack (m.stack.declare name type v))
  assign : ∀ {m name v stored stack}, I m → V v → m.stack.assign name v = .ok (stored, stack) →
    V stored ∧ I (m.setStack stack)
  library : ∀ {f args}, f ∈ Library.all → (∀ v ∈ args, V v) → ∀ detected,
    Ensures I V (callLibrary f args detected)

/-- What functions have to keep besides what evaluation does: the frames they run in come and go,
and they ask for states. -/
structure Framed (I : Machine → Prop) (V : Value → Prop) : Prop extends Stable I V where
  request : ∀ {m} target, I m → I (m.request target)
  enter : ∀ {m} owner returns params {args : List Value}, I m → (∀ v ∈ args, V v) →
    I (m.setStack (m.stack.push ((Frame.empty owner returns).bind params args)))
  leave : ∀ {m}, I m → I (m.setStack m.stack.pop)

def Contract.keeping (I : Machine → Prop) (V : Value → Prop) : Contract where
  machine := I
  value := V
  halt _ := I
  flow f m := I m ∧ f.Returns V
  target _ := True
  lost := True

variable {I : Machine → Prop} {V : Value → Prop}

theorem Contract.of_taken {P : Machine → Prop} (hp : ∀ m, P m → I m) {r : Option String}
    {m : Machine} (h : (Contract.keeping I V).Taken P r m) : I m := by
  cases r with
  | none => exact hp m h
  | some target => exact h.1

theorem Stable.bodies (h : Stable I V) : (Contract.keeping I V).ForBodies where
  closed := h.closed
  warn := h.warn
  slot := h.slot
  declare := h.declare
  assign := h.assign
  library hf hargs detected := ensures_iff_meets.1 (h.library hf hargs detected)
  capped := h.capped
  plain {_ f} hf hm := ⟨hm, by cases f <;> simp_all [Flow.Plain, Flow.Returns]⟩
  result {_ v} hv hm := ⟨hm, by cases v <;> simp_all [Flow.Returns, Contract.keeping]⟩
  stated _ hm := ⟨h.stated _ hm, trivial⟩
  within _ hm := hm.1
  returned {_ v} hm := by
    have hv := hm.2
    cases v <;> simp_all [Flow.Returns, Contract.keeping]
  taken hm _ := ⟨h.taken hm.1, trivial⟩
  undefined _ hm := hm
  lost _ _ _ hm := hm

theorem Stable.takeRequest (h : Stable I V) : Ensures I (fun _ => True) Eval.takeRequest :=
  ensures_iff_meets.2 <| (h.bodies.takeRequest .normal).mono (fun _ hm => ⟨hm, trivial⟩)
    fun _ _ hm => ⟨Contract.of_taken (fun _ => And.left) hm, trivial⟩

theorem Framed.calls (h : Framed I V) : (Contract.keeping I V).ForCalls where
  toForBodies := h.toStable.bodies
  request hm := h.request _ hm.1
  enter := h.enter
  leave hm := ⟨h.leave hm.1, hm.2⟩
  halted hm := h.leave hm
  tooDeep _ hm := hm

end Eval

open Eval

variable {I : Machine → Prop} {V : Value → Prop}

def Scope.Keeps (s : Scope) (I : Machine → Prop) (V : Value → Prop) : Prop :=
  ∀ ⦃name f args⦄, s.functions.find? name = some f → (∀ v ∈ args, V v) →
    Ensures I V (s.invoke name f args)

variable {s : Scope}

theorem Scope.keeps_iff_calls : s.Keeps I V ↔ (Contract.keeping I V).Calls s :=
  forall₅_congr fun _ _ _ _ _ => ensures_iff_meets

section

variable (h : Stable I V) (hs : s.Keeps I V)
include h hs

theorem Expr.ensures_eval (hint : Option ValueType) (e : Expr) : Ensures I V (e.eval s hint) :=
  ensures_iff_meets.2 (e.yields_eval h.bodies.toForExprs (Scope.keeps_iff_calls.1 hs) hint)

theorem Scope.ensures_effects (es : List Expr) : Ensures I (fun _ => True) (s.effects es) :=
  ensures_iff_meets.2 (s.yields_effects h.bodies (Scope.keeps_iff_calls.1 hs) es)

theorem Scope.ensures_test (condition : Expr) : Ensures I (fun _ => True) (s.test condition) :=
  ensures_iff_meets.2 (s.yields_test h.bodies (Scope.keeps_iff_calls.1 hs) condition)

theorem Stmt.ensures_run (t : Stmt) (entry : Entry) :
    Ensures I (Flow.Returns V) (t.run s entry) :=
  ensures_iff_meets.2 <|
    t.ends_run h.bodies (Scope.keeps_iff_calls.1 hs) (fun _ _ => trivial) entry (.inr trivial)

theorem Scope.ensures_runBody (body : List Stmt) :
    Ensures I (Flow.Returns V) (s.runBody body) :=
  ensures_iff_meets.2 <|
    s.ends_runBody h.bodies (Scope.keeps_iff_calls.1 hs) fun _ _ => trivial

theorem Scope.ensures_bindGlobals (globals : List Global) :
    Ensures I (fun _ => True) (s.bindGlobals globals) :=
  ensures_iff_meets.2 (s.yields_bindGlobals h.bodies (Scope.keeps_iff_calls.1 hs) globals)

theorem Function.ensures_act (f : Function) (hr : ∀ {m} target, I m → I (m.request target)) :
    Ensures I (fun v => V v ∧ v.type = resultType f.returns) (f.act s) :=
  ensures_iff_meets.2 <|
    h.bodies.yields_act (Scope.keeps_iff_calls.1 hs) (fun hm => hr _ hm.1) f fun _ _ => trivial

theorem Handler.ensures_act (f : Handler) : Ensures I (fun _ => True) (f.act s) := by
  have ha := h.bodies.taken_act (Scope.keeps_iff_calls.1 hs) f fun _ _ => trivial
  exact ensures_iff_meets.2 (ha.mono (fun _ => id) fun _ _ hm => ⟨Contract.of_taken (fun _ => id) hm,
    trivial⟩)

end

namespace Eval.Framed

variable (h : Framed I V)
include h

theorem run {f : Function} (hs : s.Keeps I V) (name : String) {args : List Value}
    (hargs : ∀ v ∈ args, V v) :
    Ensures I (fun v => V v ∧ v.type = resultType f.returns) (f.run s name args) :=
  ensures_iff_meets.2 <|
    h.calls.yields_run (Scope.keeps_iff_calls.1 hs) (fun _ _ => trivial) name hargs

theorem keeps (script : Script) (settings : Settings) (detected : List Entity) (n : Nat) :
    (Scope.ofScript script settings detected n).Keeps I V :=
  Scope.keeps_iff_calls.2 <|
    h.calls.calls (fun _ _ _ _ _ => trivial) settings detected n

theorem handle (script : Script) (f : Handler) {e : Event} (hargs : ∀ v ∈ e.args, V v) :
    Ensures I (fun _ => True) (f.run script e) := by
  have ht : ∀ name g, script.functions.find? name = some g →
      ∀ x ∈ targetsOfBody g.body, (Contract.keeping I V).target x := fun _ _ _ _ _ => trivial
  have hr := h.calls.handle ht f (fun _ _ => trivial) hargs
  exact ensures_iff_meets.2 (hr.mono (fun _ => id) fun _ _ hm => ⟨Contract.of_taken (fun _ => id) hm,
    trivial⟩)

theorem bindGlobals (script : Script) (globals : List Global) :
    Ensures I (fun _ => True) (script.inScope [] (·.bindGlobals globals)) :=
  ensures_iff_meets.2 (h.calls.bindGlobals (fun _ _ _ _ _ => trivial) globals)

end Eval.Framed

end PrimScript
