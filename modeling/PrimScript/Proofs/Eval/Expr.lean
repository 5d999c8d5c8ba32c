import PrimScript.Proofs.Eval.Contract
import PrimScript.Proofs.Value.Items

/-! Expressions keep to the contracts that their basic actions keep to: by induction over expressions and
targets. -/

namespace PrimScript

open Eval Contract

variable {K : Contract}

theorem Target.yields_hint : (t : Target) → K.Yields (fun _ => True) t.hint?
  | .variable name => Yields.typeOf name
  | .component _ _ => .pure trivial
  | .element _ _ => .pure trivial

variable {s : Scope}

mutual

theorem Expr.yields_eval (h : K.ForExprs) (hs : K.Calls s) (hint : Option ValueType) :
    (e : Expr) → K.Yields K.value (e.eval s hint)
  | .literal l => by
    rw [Expr.eval]
    exact .pure (h.closed.literal l)
  | .ident name => by
    rw [Expr.eval]
    exact h.resolve name hint
  | .binary op left right => by
    rw [Expr.eval]
    apply (left.yields_eval h hs none).bind
    intro a ha
    split
    · next v hv => exact .pure (h.closed.decided hv)
    · exact (right.yields_eval h hs none).bind fun b hb => h.binary op ha hb
  | .unary op operand => by
    rw [Expr.eval]
    exact (operand.yields_eval h hs none).bind fun a ha => h.unary op ha
  | .step op before target => by
    rw [Expr.eval]
    apply (target.yields_read h hs).bind
    intro old hold
    split
    · next new hnew =>
      apply (target.yields_write h hs (h.closed.stepped hnew)).bind
      intro stored hstored
      apply Yields.pure
      cases before with
      | true => exact hstored
      | false => exact hold
    · exact h.warned_then _ _ (.pure hold) rfl
  | .call name args => by
    rw [Expr.eval]
    split
    · next f hf =>
      apply (Expr.yields_evalArgs h hs name 1 _ args).bind
      intro values hvalues
      apply (h.complete name _ _ hvalues).bind
      intro values hvalues
      exact hs hf hvalues
    · split
      · next f hf =>
        apply (Expr.yields_evalArgs h hs name 1 _ args).bind
        intro values hvalues
        apply (h.complete name _ _ hvalues).bind
        intro values hvalues
        exact h.library (List.mem_of_find?_eq_some hf) hvalues _
      · apply (Expr.yields_evalAll h hs args).discard.bind
        intro _ _
        exact h.warned_then _ _ (.pure (h.closed.fallback hint)) rfl
  | .vector x y z => by
    rw [Expr.eval]
    apply (x.yields_eval h hs _).bind
    intro a _
    apply (y.yields_eval h hs _).bind
    intro b _
    apply (z.yields_eval h hs _).bind
    intro c _
    exact .pure (h.closed.vector _)
  | .rotation x y z w => by
    rw [Expr.eval]
    apply (x.yields_eval h hs _).bind
    intro a _
    apply (y.yields_eval h hs _).bind
    intro b _
    apply (z.yields_eval h hs _).bind
    intro c _
    apply (w.yields_eval h hs _).bind
    intro d _
    exact .pure (h.closed.rotation _)
  | .list items => by
    rw [Expr.eval]
    exact (Expr.yields_evalAll h hs items).bind fun vs hvs => .pure (h.closed.splice hvs)
  | .component of axis => by
    rw [Expr.eval]
    exact (of.yields_eval h hs none).bind fun v _ => h.component _ v axis
  | .subscript list index => by
    rw [Expr.eval]
    apply (list.yields_eval h hs none).bind
    intro v hv
    exact (index.yields_eval h hs none).bind fun i _ => h.element _ hv _ hint
  | .slice list start stop => by
    rw [Expr.eval]
    apply (list.yields_eval h hs none).bind
    intro v hv
    apply (start.yields_eval h hs none).bind
    intro i _
    apply (stop.yields_eval h hs none).bind
    intro j _
    exact .pure (h.closed.sublist hv (Slice.keep_subset _ _ _))
  | .cast type operand => by
    rw [Expr.eval]
    exact (operand.yields_eval h hs (some type)).bind fun v hv => .pure (h.closed.coerce type hv)
  | .assign target op value => by
    rw [Expr.eval]
    apply target.yields_hint.bind
    intro hint _
    apply (value.yields_eval h hs hint).bind
    intro v hv
    split
    · exact target.yields_write h hs hv
    · next op _ =>
      apply (target.yields_read h hs).bind
      intro old hold
      apply (h.binary op hold hv).bind
      intro new hnew
      exact target.yields_write h hs hnew

theorem Target.yields_read (h : K.ForExprs) (hs : K.Calls s) : (t : Target) → K.Yields K.value (t.read s)
  | .variable name => by
    rw [Target.read]
    exact h.resolve name none
  | .component name axis => by
    rw [Target.read]
    exact (h.resolve name none).bind fun v _ => h.component _ v axis
  | .element name index => by
    rw [Target.read]
    apply (h.resolve name none).bind
    intro v hv
    exact (index.yields_eval h hs none).bind fun i _ => h.element _ hv _ none

theorem Target.yields_write (h : K.ForExprs) (hs : K.Calls s) {v : Value} (hv : K.value v) :
    (t : Target) → K.Yields K.value (t.write s v)
  | .variable name => by
    rw [Target.write]
    exact h.assigned name hv
  | .component name axis => by
    rw [Target.write]
    exact (h.setComponent name axis _).bind fun _ _ => .pure (h.closed.float _)
  | .element name index => by
    rw [Target.write]
    apply (h.resolve name none).bind
    intro old hold
    apply (index.yields_eval h hs none).bind
    intro i _
    exact (h.setElement name hold hv _).bind fun _ _ => .pure hv

theorem Expr.yields_evalAll (h : K.ForExprs) (hs : K.Calls s) :
    (es : List Expr) → K.Yields (fun vs => ∀ v ∈ vs, K.value v) (Expr.evalAll s es)
  | [] => by
    rw [Expr.evalAll]
    exact .pure (by simp)
  | e :: es => by
    rw [Expr.evalAll]
    apply (e.yields_eval h hs none).bind
    intro v hv
    apply (Expr.yields_evalAll h hs es).bind
    intro vs hvs
    exact .pure (List.forall_mem_cons.2 ⟨hv, hvs⟩)

theorem Expr.yields_evalArgs (h : K.ForExprs) (hs : K.Calls s) (callee : String) (number : Nat)
    (ts : List ValueType) :
    (es : List Expr) →
      K.Yields (fun vs => ∀ v ∈ vs, K.value v) (Expr.evalArgs s callee number ts es)
  | [] => by
    rw [Expr.evalArgs]
    exact .pure (by simp)
  | e :: es => by
    cases ts with
    | nil =>
      rw [Expr.evalArgs]
      apply (e.yields_eval h hs none).discard.bind
      intro _ _
      exact Expr.yields_evalArgs h hs callee (number + 1) [] es
    | cons t ts =>
      rw [Expr.evalArgs]
      apply (e.yields_eval h hs _).bind
      intro v hv
      apply (h.argument callee number t hv).bind
      intro v hv
      apply (Expr.yields_evalArgs h hs callee (number + 1) ts es).bind
      intro vs hvs
      exact .pure (List.forall_mem_cons.2 ⟨hv, hvs⟩)

end

variable (h : K.ForExprs) (hs : K.Calls s)
include h hs

theorem Expr.yields_call {W : Value → Prop} {name : String} {f : Function}
    (hf : s.functions.find? name = some f)
    (hi : ∀ args, (∀ v ∈ args, K.value v) → K.Yields W (s.invoke name f args)) (args : List Expr)
    (hint : Option ValueType) : K.Yields W ((Expr.call name args).eval s hint) := by
  rw [Expr.eval, hf]
  apply (Expr.yields_evalArgs h hs name 1 _ args).bind
  intro values hvalues
  exact (h.complete name _ _ hvalues).bind hi

theorem Expr.yields_callLibrary {W : Value → Prop} {name : String} {f : LibraryFunction}
    (hn : s.functions.find? name = none) (hf : Library.find? name = some f)
    (hl : ∀ args, (∀ v ∈ args, K.value v) → K.Yields W (Eval.callLibrary f args s.detected))
    (args : List Expr) (hint : Option ValueType) :
    K.Yields W ((Expr.call name args).eval s hint) := by
  rw [Expr.eval, hn]
  simp only [hf]
  apply (Expr.yields_evalArgs h hs name 1 _ args).bind
  intro values hvalues
  exact (h.complete name _ _ hvalues).bind hl

theorem Expr.yields_evalAs (type : ValueType) (e : Expr) : K.Yields K.value (e.evalAs s type) :=
  (e.yields_eval h hs (some type)).bind fun _ hv => .pure (h.closed.coerce type hv)

end PrimScript
