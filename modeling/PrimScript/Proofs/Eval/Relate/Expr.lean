import PrimScript.Proofs.Eval.Stable

/-! Two ways to run the functions of a script.  A relation between actions that holds of the basic ones and
goes with their order holds of all that is evaluated, as soon as it holds of the calls. -/

namespace PrimScript

namespace Eval

/-- A relation between actions that evaluation respects.  It holds of what keeps `I`, as the basic actions do,
and that one thing is done after another does not break it. -/
structure Congruence (R : (α : Type) → Eval α → Eval α → Prop) (I : Machine → Machine → Prop) : Prop where
  stable : ∀ m₀, Stable (I m₀) fun _ => True
  basic : ∀ {α : Type} {act : Eval α}, (∀ m₀, Ensures (I m₀) (fun _ => True) act) → R α act act
  bind : ∀ {α β : Type} {act act' : Eval α} {next next' : α → Eval β}, R α act act' →
    (∀ a, R β (next a) (next' a)) → R β (act >>= next) (act' >>= next')

namespace Congruence

variable {R : (α : Type) → Eval α → Eval α → Prop} {I : Machine → Machine → Prop} (h : Congruence R I)
  {α β : Type}
include h

theorem bodies (m₀ : Machine) : (Contract.keeping (I m₀) fun _ => True).ForBodies := (h.stable m₀).bodies

theorem yields {W : Machine → α → Prop} {act : Eval α}
    (ha : ∀ m₀, (Contract.keeping (I m₀) fun _ => True).Yields (W m₀) act) : R α act act :=
  h.basic fun m₀ => ensures_iff_meets.2 ((ha m₀).mono fun _ _ => trivial)

theorem pure (a : α) : R α (Pure.pure a) (Pure.pure a) := h.basic fun _ _ hm => ⟨hm, fun _ _ => trivial⟩

theorem fail (e : EvalError) : R α (Eval.fail e) (Eval.fail e) := h.basic fun _ => .fail e

theorem warn_then (kind : DiagnosticKind) (message : String) (hk : kind.isFault) (a : α) :
    R α (Eval.warn kind message >>= fun _ => Pure.pure a) (Eval.warn kind message >>= fun _ => Pure.pure a) :=
  h.bind (h.yields fun m₀ => (h.bodies m₀).warned kind message hk) fun _ => h.pure a

theorem discard {act act' : Eval α} (ha : R α act act') :
    R Unit (Functor.discard act) (Functor.discard act') := by
  rw [discard_eq_bind, discard_eq_bind]
  exact h.bind ha fun _ => h.pure ()

theorem discard_then {act act' : Eval α} {next next' : Eval β} (ha : R α act act') (hn : R β next next') :
    R β (Functor.discard act >>= fun _ => next) (Functor.discard act' >>= fun _ => next') :=
  h.bind (h.discard ha) fun _ => hn

theorem capped (what : String) (cap : Nat) : R Flow (Flow.capped what cap) (Flow.capped what cap) :=
  h.basic fun m₀ m hm =>
    ⟨(ensures_iff_meets.2 ((h.bodies m₀).cappedFlow what cap) m hm).1, fun _ _ => trivial⟩

theorem takeRequest : R (Option String) Eval.takeRequest Eval.takeRequest :=
  h.basic fun m₀ => (h.stable m₀).takeRequest

end Congruence

end Eval

/-- The scope in which functions of the script are run in another way. -/
def Scope.calling (s : Scope) (g : String → Function → List Value → Eval Value) : Scope :=
  { s with invoke := g }

open Eval

/-- The functions of the script come, run by the scope and by `g`, to related ends. -/
def Scope.Relates (R : (α : Type) → Eval α → Eval α → Prop) (s : Scope)
    (g : String → Function → List Value → Eval Value) : Prop :=
  ∀ name f args, s.functions.find? name = some f → R Value (s.invoke name f args) (g name f args)

variable {R : (α : Type) → Eval α → Eval α → Prop} {I : Machine → Machine → Prop} {s : Scope}
  {g : String → Function → List Value → Eval Value}

mutual

theorem Expr.related_eval (h : Congruence R I) (hg : s.Relates R g) (hint : Option ValueType) :
    (e : Expr) → R Value (e.eval s hint) (e.eval (s.calling g) hint)
  | .literal l => by
    rw [Expr.eval, Expr.eval]
    exact h.pure _
  | .ident name => by
    rw [Expr.eval, Expr.eval]
    exact h.yields fun m₀ => (h.bodies m₀).resolve name hint
  | .binary op left right => by
    rw [Expr.eval, Expr.eval]
    apply h.bind (left.related_eval h hg none)
    intro a
    cases op.decided? a with
    | some v => exact h.pure v
    | none =>
      apply h.bind (right.related_eval h hg none)
      exact fun b => h.yields fun m₀ => (h.bodies m₀).binary op trivial trivial
  | .unary op operand => by
    rw [Expr.eval, Expr.eval]
    apply h.bind (operand.related_eval h hg none)
    exact fun a => h.yields fun m₀ => (h.bodies m₀).unary op trivial
  | .step op before target => by
    rw [Expr.eval, Expr.eval]
    apply h.bind (target.related_read h hg)
    intro old
    cases op.apply? old with
    | some new => exact h.bind (target.related_write h hg new) fun stored => h.pure _
    | none => exact h.warn_then _ _ rfl old
  | .call name args => by
    rw [Expr.eval, Expr.eval]
    change R Value _ (match s.functions.find? name with
      | some f => _
      | none => _)
    cases hf : s.functions.find? name with
    | some f =>
      apply h.bind (Expr.related_evalArgs h hg name 1 _ args)
      intro values
      apply h.bind (h.yields fun m₀ => (h.bodies m₀).complete name _ _ fun _ _ => trivial)
      exact fun values => hg name f values hf
    | none =>
      cases hl : Library.find? name with
      | some f =>
        apply h.bind (Expr.related_evalArgs h hg name 1 _ args)
        intro values
        apply h.bind (h.yields fun m₀ => (h.bodies m₀).complete name _ _ fun _ _ => trivial)
        exact fun values => h.basic fun m₀ =>
          (h.stable m₀).library (List.mem_of_find?_eq_some hl) (fun _ _ => trivial) _
      | none => exact h.discard_then (Expr.related_evalAll h hg args) (h.warn_then _ _ rfl _)
  | .vector x y z => by
    rw [Expr.eval, Expr.eval]
    apply h.bind (x.related_eval h hg _)
    intro a
    apply h.bind (y.related_eval h hg _)
    intro b
    exact h.bind (z.related_eval h hg _) fun c => h.pure _
  | .rotation x y z w => by
    rw [Expr.eval, Expr.eval]
    apply h.bind (x.related_eval h hg _)
    intro a
    apply h.bind (y.related_eval h hg _)
    intro b
    apply h.bind (z.related_eval h hg _)
    intro c
    exact h.bind (w.related_eval h hg _) fun d => h.pure _
  | .list items => by
    rw [Expr.eval, Expr.eval]
    exact h.bind (Expr.related_evalAll h hg items) fun vs => h.pure _
  | .component of axis => by
    rw [Expr.eval, Expr.eval]
    apply h.bind (of.related_eval h hg none)
    exact fun v => h.yields fun m₀ => (h.bodies m₀).component _ v axis
  | .subscript list index => by
    rw [Expr.eval, Expr.eval]
    apply h.bind (list.related_eval h hg none)
    intro v
    apply h.bind (index.related_eval h hg none)
    exact fun i => h.yields fun m₀ => (h.bodies m₀).element _ trivial _ hint
  | .slice list start stop => by
    rw [Expr.eval, Expr.eval]
    apply h.bind (list.related_eval h hg none)
    intro v
    apply h.bind (start.related_eval h hg none)
    intro i
    exact h.bind (stop.related_eval h hg none) fun j => h.pure _
  | .cast type operand => by
    rw [Expr.eval, Expr.eval]
    exact h.bind (operand.related_eval h hg _) fun v => h.pure _
  | .assign target op value => by
    rw [Expr.eval, Expr.eval]
    apply h.bind (h.yields fun m₀ => target.yields_hint)
    intro hint
    apply h.bind (value.related_eval h hg hint)
    intro v
    cases op.binary? with
    | none => exact target.related_write h hg v
    | some op =>
      apply h.bind (target.related_read h hg)
      intro old
      apply h.bind (h.yields fun m₀ => (h.bodies m₀).binary op trivial trivial)
      exact (target.related_write h hg)

theorem Target.related_read (h : Congruence R I) (hg : s.Relates R g) :
    (t : Target) → R Value (t.read s) (t.read (s.calling g))
  | .variable name => by
    rw [Target.read, Target.read]
    exact h.yields fun m₀ => (h.bodies m₀).resolve name none
  | .component name axis => by
    rw [Target.read, Target.read]
    apply h.bind (h.yields fun m₀ => (h.bodies m₀).resolve name none)
    exact fun v => h.yields fun m₀ => (h.bodies m₀).component _ v axis
  | .element name index => by
    rw [Target.read, Target.read]
    apply h.bind (h.yields fun m₀ => (h.bodies m₀).resolve name none)
    intro v
    apply h.bind (index.related_eval h hg none)
    exact fun i => h.yields fun m₀ => (h.bodies m₀).element _ trivial _ none

theorem Target.related_write (h : Congruence R I) (hg : s.Relates R g) :
    (t : Target) → (v : Value) → R Value (t.write s v) (t.write (s.calling g) v)
  | .variable name, v => by
    rw [Target.write, Target.write]
    exact h.yields fun m₀ => (h.bodies m₀).assigned name trivial
  | .component name axis, v => by
    rw [Target.write, Target.write]
    apply h.bind (h.yields fun m₀ => (h.bodies m₀).setComponent name axis _)
    exact fun _ => h.pure _
  | .element name index, v => by
    rw [Target.write, Target.write]
    apply h.bind (h.yields fun m₀ => (h.bodies m₀).resolve name none)
    intro old
    apply h.bind (index.related_eval h hg none)
    intro i
    apply h.bind (h.yields fun m₀ => (h.bodies m₀).setElement name trivial trivial _)
    exact fun _ => h.pure v

theorem Expr.related_evalAll (h : Congruence R I) (hg : s.Relates R g) : (es : List Expr) →
    R (List Value) (Expr.evalAll s es) (Expr.evalAll (s.calling g) es)
  | [] => by
    rw [Expr.evalAll, Expr.evalAll]
    exact h.pure []
  | e :: es => by
    rw [Expr.evalAll, Expr.evalAll]
    apply h.bind (e.related_eval h hg none)
    intro v
    exact h.bind (Expr.related_evalAll h hg es) fun vs => h.pure _

theorem Expr.related_evalArgs (h : Congruence R I) (hg : s.Relates R g) (callee : String) (number : Nat)
    (ts : List ValueType) : (es : List Expr) →
    R (List Value) (Expr.evalArgs s callee number ts es) (Expr.evalArgs (s.calling g) callee number ts es)
  | [] => by
    rw [Expr.evalArgs, Expr.evalArgs]
    exact h.pure []
  | e :: es => by
    cases ts with
    | nil =>
      rw [Expr.evalArgs, Expr.evalArgs]
      exact h.discard_then (e.related_eval h hg none) (Expr.related_evalArgs h hg callee (number + 1) [] es)
    | cons t ts =>
      rw [Expr.evalArgs, Expr.evalArgs]
      apply h.bind (e.related_eval h hg _)
      intro v
      apply h.bind (h.yields fun m₀ => (h.bodies m₀).argument callee number t trivial)
      intro v
      exact h.bind (Expr.related_evalArgs h hg callee (number + 1) ts es) fun vs => h.pure _

end

end PrimScript
